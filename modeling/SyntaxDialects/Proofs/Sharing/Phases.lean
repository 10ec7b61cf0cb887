import Mathlib.Data.List.Induction
import SyntaxDialects.Proofs.Sharing.Crowd
import SyntaxDialects.Sharing.Once

/-!
The phases of a cell. A cell is vacant, or one caller is running an initializer for it, or it is
set; what callers do to it, each in its moves, takes it from phase to phase. From these rules alone
follows what a history of the cell can look like.
-/
namespace SyntaxDialects.Sharing

variable {α : Type}

inductive Deed (α : Type) where
  | reads (found : Option α)
  | starts (initializer : Initializer α)
  | publishes (value : α)
  | fails (message : String)
  | reuses (value : α)

def Deed.reply? : Deed α → Option (Reply α)
  | reads found => some (.found found)
  | starts _ => none
  | publishes value => some (.value value true)
  | fails message => some (.panicked message)
  | reuses value => some (.value value false)

def Deed.OfUnset : Deed α → Prop
  | reads found => found = none
  | starts _ | fails _ => True
  | publishes _ | reuses _ => False

def Deed.OfSet (value : α) : Deed α → Prop
  | reads found => found = some value
  | reuses given => given = value
  | starts _ | publishes _ | fails _ => False

inductive Phase (α : Type) where
  | vacant
  | running (number : Nat) (initializer : Initializer α)
  | set (value : α)

namespace Phase

def cell : Phase α → Once α
  | vacant => .vacant
  | running _ _ => .claimed
  | set value => .published value

def task? (phase : Phase α) (number : Nat) : Option (Initializer α) :=
  match phase with
  | running runner initializer => if number = runner then some initializer else none
  | _ => none

theorem task?_eq_some {phase : Phase α} {number : Nat} {initializer : Initializer α} :
    phase.task? number = some initializer ↔ phase = running number initializer := by
  cases phase with
  | running runner current =>
    simp only [task?]
    split
    · rename_i same
      simp [same]
    · rename_i other
      simp [Ne.symm other]
  | vacant | set _ => simp [task?]

theorem task?_running_self (number : Nat) (initializer : Initializer α) :
    (running number initializer).task? number = some initializer :=
  if_pos rfl

theorem task?_running_other {number other : Nat} (initializer : Initializer α)
    (ne : other ≠ number) : (running number initializer).task? other = none :=
  if_neg ne

end Phase

/-- What a caller can do in each phase, and the phase that follows. -/
inductive Passes : Phase α → Nat × Deed α → Phase α → Prop where
  | read (phase : Phase α) (number : Nat) : Passes phase (number, .reads phase.cell.get?) phase
  | start (number : Nat) (initializer : Initializer α) :
    Passes .vacant (number, .starts initializer) (.running number initializer)
  | publish (number : Nat) (value : α) :
    Passes (.running number (.returns value)) (number, .publishes value) (.set value)
  | fail (number : Nat) (message : String) :
    Passes (.running number (.panics message)) (number, .fails message) .vacant
  | reuse (number : Nat) (value : α) :
    Passes (.set value) (number, .reuses value) (.set value)

inductive Tells : Phase α → List (Nat × Deed α) → Phase α → Prop where
  | nil (phase : Phase α) : Tells phase [] phase
  | cons {first middle last : Phase α} {entry : Nat × Deed α} {rest : List (Nat × Deed α)}
    (passes : Passes first entry middle) (tells : Tells middle rest last) :
    Tells first (entry :: rest) last

namespace Tells

variable {first middle last : Phase α} {before after history : List (Nat × Deed α)}
  {number : Nat} {value : α}

theorem append_iff : Tells first (before ++ after) last ↔
    ∃ middle, Tells first before middle ∧ Tells middle after last := by
  induction before generalizing first with
  | nil =>
    constructor
    · exact fun tells => ⟨first, .nil first, tells⟩
    · rintro ⟨middle, nothing, tells⟩
      cases nothing
      exact tells
  | cons entry before ih =>
    constructor
    · intro tells
      cases tells with
      | cons passes tells =>
        obtain ⟨middle, left, right⟩ := ih.mp tells
        exact ⟨middle, .cons passes left, right⟩
    · rintro ⟨middle, left, right⟩
      cases left with
      | cons passes left => exact .cons passes (ih.mpr ⟨middle, left, right⟩)

theorem split {entry : Nat × Deed α} (tells : Tells first (before ++ entry :: after) last) :
    ∃ left right, Tells first before left ∧ Passes left entry right ∧ Tells right after last := by
  obtain ⟨left, told, rest⟩ := append_iff.mp tells
  cases rest with
  | cons passes later => exact ⟨left, _, told, passes, later⟩

/-- A cell that is set stays set, and callers only find its value. -/
theorem of_set (tells : Tells (.set value) history last) :
    last = .set value ∧ ∀ entry ∈ history, entry.2.OfSet value := by
  induction history with
  | nil =>
    cases tells
    exact ⟨rfl, fun _ member => nomatch member⟩
  | cons entry history ih =>
    cases tells with
    | cons passes later =>
      cases passes with
      | read | reuse =>
        obtain ⟨stays, found⟩ := ih later
        exact ⟨stays, List.forall_mem_cons.mpr ⟨rfl, found⟩⟩

/-- A history that ends before the cell is set finds nothing in it. -/
theorem of_unset (tells : Tells first history last) (unset : ∀ value, last ≠ .set value) :
    ∀ entry ∈ history, entry.2.OfUnset := by
  induction tells with
  | nil => exact fun _ member => nomatch member
  | @cons first _ _ _ _ passes later ih =>
    refine List.forall_mem_cons.mpr ⟨?_, ih unset⟩
    cases passes with
    | read =>
      cases first with
      | vacant | running _ _ => rfl
      | set value => exact absurd later.of_set.1 (unset value)
    | start | fail => trivial
    | publish _ value | reuse _ value => exact absurd later.of_set.1 (unset value)

/-- Someone sets a cell that comes to be set. -/
theorem exists_publishes (tells : Tells first history (.set value))
    (unset : ∀ value, first ≠ .set value) :
    ∃ before number after, history = before ++ (number, .publishes value) :: after := by
  induction history generalizing first with
  | nil =>
    cases tells
    exact absurd rfl (unset value)
  | cons entry history ih =>
    cases tells with
    | cons passes later =>
      cases passes with
      | publish number given =>
        cases later.of_set.1
        exact ⟨[], number, history, rfl⟩
      | read | start | fail =>
        obtain ⟨before, number, after, rfl⟩ := ih later (by simp_all)
        exact ⟨_ :: before, number, after, rfl⟩
      | reuse _ given => exact absurd rfl (unset given)

/-- The value that a call of the history gave is the value of the cell ever after. -/
theorem of_reply {entry : Nat × Deed α} {ran : Bool} (tells : Tells first history last)
    (member : entry ∈ history) (reply : entry.2.reply? = some (.value value ran)) :
    last = .set value := by
  induction tells with
  | nil => cases member
  | cons passes later ih =>
    rcases List.mem_cons.mp member with rfl | below
    · cases passes with
      | publish | reuse =>
        cases reply
        exact later.of_set.1
      | read | start | fail => cases reply
    · exact ih below

/-- While an initializer runs, the cell is only read; and it started in a deed of its caller. -/
theorem of_running {initializer : Initializer α} (tells : Tells first history last)
    (runs : last = .running number initializer)
    (idle : ∀ number initializer, first ≠ .running number initializer) :
    ∃ before middle, history = before ++ (number, .starts initializer) :: middle ∧
      ∀ entry ∈ middle, entry.2 = .reads none := by
  -- From the end: the last deed is the start, or a read while the initializer runs already.
  induction history using List.reverseRecOn generalizing last with
  | nil =>
    cases tells
    exact absurd runs (idle _ _)
  | append_singleton history entry ih =>
    subst runs
    obtain ⟨left, right, told, passes, rest⟩ := split tells
    cases rest
    cases passes with
    | read _ reader =>
      obtain ⟨before, middle, rfl, reads⟩ := ih told rfl
      refine ⟨before, middle ++ [(reader, .reads none)], List.append_assoc .., ?_⟩
      intro entry member
      rcases List.mem_append.mp member with earlier | last
      · exact reads entry earlier
      · rw [List.mem_singleton.mp last]
    | start => exact ⟨history, [], rfl, fun _ member => nomatch member⟩

end Tells

namespace Caller

def deed? (cell : Once α) (caller : Caller α) : Option (Deed α) :=
  match caller.running, caller.calls with
  | some (.returns value), _ => some (.publishes value)
  | some (.panics message), _ => some (.fails message)
  | none, [] => none
  | none, .get :: _ => some (.reads cell.get?)
  | none, .ensure initializer :: _ =>
    match cell with
    | .published value => some (.reuses value)
    | .claimed => none
    | .vacant => some (.starts initializer)

inductive Moves (cell : Once α) (caller : Caller α) : Deed α → Once α → Caller α → Prop where
  | publish {value : α} (running : caller.running = some (.returns value)) :
    Moves cell caller (.publishes value) (.published value) (caller.replied (.value value true))
  | fail {message : String} (running : caller.running = some (.panics message)) :
    Moves cell caller (.fails message) .vacant (caller.replied (.panicked message))
  | read {calls : List (Call α)} (idle : caller.running = none) (next : caller.calls = .get :: calls) :
    Moves cell caller (.reads cell.get?) cell
      ({ caller with calls := calls }.replied (.found cell.get?))
  | reuse {initializer : Initializer α} {calls : List (Call α)} {value : α}
    (idle : caller.running = none) (next : caller.calls = .ensure initializer :: calls)
    (set : cell = .published value) :
    Moves cell caller (.reuses value) cell
      ({ caller with calls := calls }.replied (.value value false))
  | start {initializer : Initializer α} {calls : List (Call α)} (idle : caller.running = none)
    (next : caller.calls = .ensure initializer :: calls) (vacant : cell = .vacant) :
    Moves cell caller (.starts initializer) .claimed
      { caller with running := some initializer, calls := calls }

/-- A caller that cannot move has made its calls or waits for an initializer to end. -/
theorem move_cases (cell : Once α) (caller : Caller α) :
    (caller.move cell = none ∧ caller.deed? cell = none ∧ caller.running = none ∧
      (caller.calls = [] ∨ cell = .claimed)) ∨
    ∃ deed after moved, caller.move cell = some (after, moved) ∧ caller.deed? cell = some deed ∧
      Moves cell caller deed after moved := by
  cases running : caller.running with
  | some initializer =>
    right
    cases initializer with
    | returns value =>
      exact ⟨_, _, _, by simp only [move, running], by simp only [deed?, running], .publish running⟩
    | panics message =>
      exact ⟨_, _, _, by simp only [move, running], by simp only [deed?, running], .fail running⟩
  | none =>
    cases next : caller.calls with
    | nil =>
      exact .inl ⟨by simp only [move, running, next], by simp only [deed?, running, next], rfl,
        .inl rfl⟩
    | cons call calls =>
      cases call with
      | get =>
        exact .inr ⟨_, _, _, by simp only [move, running, next],
          by simp only [deed?, running, next], .read running next⟩
      | ensure initializer =>
        cases cell with
        | vacant =>
          exact .inr ⟨_, _, _, by simp only [move, running, next],
            by simp only [deed?, running, next], .start running next rfl⟩
        | claimed =>
          exact .inl ⟨by simp only [move, running, next], by simp only [deed?, running, next], rfl,
            .inr rfl⟩
        | published value =>
          exact .inr ⟨_, _, _, by simp only [move, running, next],
            by simp only [deed?, running, next], .reuse running next rfl⟩

theorem moves_of_move {cell after : Once α} {caller moved : Caller α}
    (result : caller.move cell = some (after, moved)) :
    ∃ deed, Moves cell caller deed after moved := by
  rcases move_cases cell caller with ⟨stuck, -⟩ | ⟨deed, _, _, same, -, moves⟩
  · rw [stuck] at result
    cases result
  · cases same.symm.trans result
    exact ⟨deed, moves⟩

theorem turn_cases (crowd : Crowd (Once α) (Caller α)) (number : Nat) :
    (crowd.deed deed? number = none ∧ crowd.turn move number = crowd) ∨
      ∃ caller deed after moved, crowd.threads[number]? = some caller ∧
        crowd.deed deed? number = some deed ∧ caller.Moves crowd.shared deed after moved ∧
        crowd.turn move number = ⟨after, crowd.threads.set number moved⟩ := by
  cases here : crowd.threads[number]? with
  | none => exact .inl ⟨by simp [Crowd.deed, here], by simp [Crowd.turn, here]⟩
  | some caller =>
    rcases move_cases crowd.shared caller with
      ⟨stuck, silent, -⟩ | ⟨deed, after, moved, result, told, moves⟩
    · exact .inl ⟨by simp [Crowd.deed, here, silent], by simp [Crowd.turn, here, stuck]⟩
    · exact .inr ⟨caller, deed, after, moved, rfl, by simp [Crowd.deed, here, told], moves,
        Crowd.turn_of_move here result⟩

end Caller

structure Phase.Of (phase : Phase α) (crowd : Crowd (Once α) (Caller α)) : Prop where
  cell : crowd.shared = phase.cell
  task : ∀ {number caller}, crowd.threads[number]? = some caller →
    caller.running = phase.task? number
  runner : ∀ {number initializer}, phase = .running number initializer →
    ∃ caller, crowd.threads[number]? = some caller

namespace Phase.Of

variable {phase next : Phase α} {crowd : Crowd (Once α) (Caller α)} {number : Nat}
  {caller moved : Caller α}

theorem set (of : phase.Of crowd) (here : crowd.threads[number]? = some caller)
    (own : moved.running = next.task? number)
    (others : ∀ other, other ≠ number → next.task? other = phase.task? other) :
    next.Of ⟨next.cell, crowd.threads.set number moved⟩ := by
  obtain ⟨inside, -⟩ := List.getElem?_eq_some_iff.mp here
  refine ⟨rfl, ?_, ?_⟩
  · intro other thread found
    by_cases same : other = number
    · subst same
      rw [List.getElem?_set_self inside] at found
      cases found
      exact own
    · rw [List.getElem?_set_ne (Ne.symm same)] at found
      rw [others other same]
      exact of.task found
  · intro other initializer runs
    by_cases same : other = number
    · subst same
      exact ⟨moved, List.getElem?_set_self inside⟩
    · rw [List.getElem?_set_ne (Ne.symm same)]
      have still := others other same
      rw [task?_eq_some.mpr runs] at still
      exact of.runner (task?_eq_some.mp still.symm)

/-- A move is a deed that the phase allows, and leads to the phase that follows. -/
theorem moves (of : phase.Of crowd) (here : crowd.threads[number]? = some caller)
    {deed : Deed α} {after : Once α} (moves : caller.Moves crowd.shared deed after moved) :
    ∃ next, Passes phase (number, deed) next ∧
      next.Of ⟨after, crowd.threads.set number moved⟩ := by
  have task := of.task here
  cases moves with
  | publish running =>
    rw [running] at task
    obtain rfl := task?_eq_some.mp task.symm
    exact ⟨.set _, .publish _ _,
      of.set here rfl fun other ne => (task?_running_other _ ne).symm⟩
  | fail running =>
    rw [running] at task
    obtain rfl := task?_eq_some.mp task.symm
    exact ⟨.vacant, .fail _ _,
      of.set here rfl fun other ne => (task?_running_other _ ne).symm⟩
  | read idle =>
    rw [idle] at task
    rw [of.cell]
    exact ⟨phase, .read _ _, of.set here task fun _ _ => rfl⟩
  | reuse idle _ set =>
    rw [idle] at task
    rw [of.cell] at set
    cases phase with
    | set value =>
      cases set
      rw [of.cell]
      exact ⟨.set _, .reuse _ _, of.set here rfl fun _ _ => rfl⟩
    | vacant | running _ _ => cases set
  | start _ _ vacant =>
    rw [of.cell] at vacant
    cases phase with
    | vacant =>
      exact ⟨.running number _, .start _ _,
        of.set here (task?_running_self _ _).symm fun other ne => task?_running_other _ ne⟩
    | running _ _ | set _ => cases vacant

theorem turn (of : phase.Of crowd) (number : Nat) :
    (crowd.deed Caller.deed? number = none ∧ crowd.turn Caller.move number = crowd) ∨
      ∃ deed next, crowd.deed Caller.deed? number = some deed ∧ Passes phase (number, deed) next ∧
        next.Of (crowd.turn Caller.move number) := by
  rcases Caller.turn_cases crowd number with
    silent | ⟨caller, deed, after, moved, here, told, moves, turns⟩
  · exact .inl silent
  · obtain ⟨next, passes, follows⟩ := of.moves here moves
    exact .inr ⟨deed, next, told, passes, turns ▸ follows⟩

/-- Whatever the schedule, the history of the cell goes from phase to phase. -/
theorem run (of : phase.Of crowd) (schedule : List Nat) :
    ∃ last, Tells phase (crowd.history Caller.move Caller.deed? schedule) last ∧
      last.Of (crowd.run Caller.move schedule) := by
  induction schedule generalizing phase crowd with
  | nil => exact ⟨phase, .nil phase, of⟩
  | cons number rest ih =>
    rcases of.turn number with ⟨silent, same⟩ | ⟨deed, next, told, passes, follows⟩
    · obtain ⟨last, tells, ends⟩ := ih of
      refine ⟨last, ?_, ?_⟩
      · simpa [Crowd.history, silent, same] using tells
      · simpa [Crowd.run, same] using ends
    · obtain ⟨last, tells, ends⟩ := ih follows
      refine ⟨last, ?_, ends⟩
      simpa [Crowd.history, told] using Tells.cons passes tells

end Phase.Of

end SyntaxDialects.Sharing
