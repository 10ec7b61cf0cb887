import SyntaxDialects.Proofs.Sharing.Phases

/-!
Cells are set once. Whatever callers ask of a cell and in whatever order they take turns, what they
are told is told by the history of the cell, the cell keeps the value of the one initializer that
completes, and no caller waits for ever.
-/
namespace SyntaxDialects.Sharing

variable {α : Type}

def Crowd.ofCalls (calls : List (List (Call α))) : Crowd (Once α) (Caller α) :=
  ⟨.vacant, calls.map Caller.ofCalls⟩

theorem Phase.of_ofCalls (calls : List (List (Call α))) :
    Phase.vacant.Of (Crowd.ofCalls calls) where
  cell := rfl
  task := by
    intro number caller here
    obtain ⟨own, -, rfl⟩ := List.mem_map.mp (List.mem_of_getElem? here)
    rfl
  runner := fun impossible => nomatch impossible

section Replies

def repliesTo (number : Nat) (history : List (Nat × Deed α)) : List (Reply α) :=
  history.filterMap fun entry => if entry.1 = number then entry.2.reply? else none

theorem Caller.Moves.replies {cell after : Once α} {caller moved : Caller α} {deed : Deed α}
    (moves : caller.Moves cell deed after moved) :
    moved.replies = caller.replies ++ deed.reply?.toList := by
  cases moves with
  | publish | fail | read | reuse => rfl
  | start => exact (List.append_nil _).symm

theorem Crowd.replies_run {crowd : Crowd (Once α) (Caller α)} {number : Nat} {caller : Caller α}
    (here : crowd.threads[number]? = some caller) (schedule : List Nat) :
    ∃ later, (crowd.run Caller.move schedule).threads[number]? = some later ∧
      later.replies =
        caller.replies ++ repliesTo number (crowd.history Caller.move Caller.deed? schedule) := by
  induction schedule generalizing crowd caller with
  | nil => exact ⟨caller, here, (List.append_nil _).symm⟩
  | cons mover rest ih =>
    rcases Caller.turn_cases crowd mover with
      ⟨silent, same⟩ | ⟨thread, deed, after, moved, found, told, moves, turns⟩
    · obtain ⟨later, there, replies⟩ := ih here
      refine ⟨later, ?_, ?_⟩
      · simpa [Crowd.run, same] using there
      · simpa [Crowd.history, silent, same] using replies
    · obtain ⟨inside, -⟩ := List.getElem?_eq_some_iff.mp found
      have history : crowd.history Caller.move Caller.deed? (mover :: rest) = (mover, deed) ::
          (crowd.turn Caller.move mover).history Caller.move Caller.deed? rest := by
        simp [Crowd.history, told]
      rw [history]
      by_cases own : mover = number
      · subst own
        cases here.symm.trans found
        have moving : (crowd.turn Caller.move mover).threads[mover]? = some moved := by
          rw [turns, List.getElem?_set_self inside]
        obtain ⟨later, there, replies⟩ := ih moving
        refine ⟨later, there, ?_⟩
        rw [replies, moves.replies]
        cases reply : deed.reply? <;> simp [repliesTo, reply]
      · have staying : (crowd.turn Caller.move mover).threads[number]? = some caller := by
          rw [turns, List.getElem?_set_ne own, here]
        obtain ⟨later, there, replies⟩ := ih staying
        refine ⟨later, there, ?_⟩
        rw [replies]
        simp [repliesTo, own]

theorem Crowd.replies_ofCalls {calls : List (List (Call α))} {schedule : List Nat} {number : Nat}
    {caller : Caller α}
    (here : ((ofCalls calls).run Caller.move schedule).threads[number]? = some caller) :
    caller.replies = repliesTo number ((ofCalls calls).history Caller.move Caller.deed? schedule) := by
  obtain ⟨inside, -⟩ := List.getElem?_eq_some_iff.mp here
  rw [length_run] at inside
  have first : (ofCalls calls).threads[number]? = some (ofCalls calls).threads[number] :=
    List.getElem?_eq_getElem inside
  obtain ⟨later, there, replies⟩ := replies_run first schedule
  cases here.symm.trans there
  rw [replies]
  simp [ofCalls, Caller.ofCalls]

theorem exists_of_mem_repliesTo {number : Nat} {history : List (Nat × Deed α)} {reply : Reply α}
    (member : reply ∈ repliesTo number history) :
    ∃ entry ∈ history, entry.2.reply? = some reply := by
  obtain ⟨entry, inside, given⟩ := List.mem_filterMap.mp member
  split at given
  · exact ⟨entry, inside, given⟩
  · cases given

end Replies

/-- The call that a caller makes while nobody else moves is the call of a cell by itself. -/
theorem Crowd.ensure_alone {crowd : Crowd (Once α) (Caller α)} {number : Nat} {caller : Caller α}
    {initializer : Initializer α} {calls : List (Call α)}
    (here : crowd.threads[number]? = some caller) (idle : caller.running = none)
    (next : caller.calls = .ensure initializer :: calls) (free : crowd.shared ≠ .claimed) :
    let ended := Cell.ensure ⟨crowd.shared.get?⟩ initializer
    let turns := if crowd.shared.get?.isSome then 1 else 2
    crowd.run Caller.move (List.replicate turns number) = ⟨ended.2.shared,
      crowd.threads.set number ({ caller with calls := calls }.replied ended.1)⟩ := by
  obtain ⟨inside, -⟩ := List.getElem?_eq_some_iff.mp here
  cases cell : crowd.shared with
  | claimed => exact absurd cell free
  | published value =>
    have reuses : caller.move crowd.shared =
        some (.published value, { caller with calls := calls }.replied (.value value false)) := by
      simp only [Caller.move, idle, next, cell]
    exact Crowd.turn_of_move here reuses
  | vacant =>
    let started : Caller α := { caller with running := some initializer, calls := calls }
    have starts : caller.move crowd.shared = some (.claimed, started) := by
      simp only [Caller.move, idle, next, cell, started]
    let claimed : Crowd (Once α) (Caller α) := ⟨.claimed, crowd.threads.set number started⟩
    have there : claimed.threads[number]? = some started := List.getElem?_set_self inside
    have first : crowd.turn Caller.move number = claimed := Crowd.turn_of_move here starts
    change (crowd.turn Caller.move number).turn Caller.move number = _
    rw [first]
    cases initializer with
    | returns value =>
      have publishes : started.move claimed.shared =
          some (.published value, started.replied (.value value true)) := rfl
      rw [Crowd.turn_of_move there publishes, List.set_set]
      rfl
    | panics message =>
      have fails : started.move claimed.shared =
          some (.vacant, started.replied (.panicked message)) := rfl
      rw [Crowd.turn_of_move there fails, List.set_set]
      rfl

section Progress

inductive Call.Gives : Call α → Reply α → Prop where
  | get (found : Option α) : Gives .get (.found found)
  | ran (value : α) : Gives (.ensure (.returns value)) (.value value true)
  | panicked (message : String) : Gives (.ensure (.panics message)) (.panicked message)
  | reused (initializer : Initializer α) (value : α) :
    Gives (.ensure initializer) (.value value false)

namespace Caller

variable {cell after : Once α} {caller moved : Caller α} {deed : Deed α} {calls : List (Call α)}

def Serves (calls : List (Call α)) (caller : Caller α) : Prop :=
  ∃ ended, calls = ended ++ caller.running.toList.map .ensure ++ caller.calls ∧
    List.Forall₂ Call.Gives ended caller.replies

theorem Serves.ended {ended : List (Call α)} {call : Call α} {reply : Reply α}
    (before : List.Forall₂ Call.Gives ended caller.replies) (gives : call.Gives reply) :
    ({ caller with calls := calls }.replied reply).Serves (ended ++ call :: calls) :=
  ⟨ended ++ [call], by simp [replied], List.rel_append before (.cons gives .nil)⟩

theorem Moves.serves (moves : caller.Moves cell deed after moved) (serves : caller.Serves calls) :
    moved.Serves calls := by
  obtain ⟨ended, given, before⟩ := serves
  cases moves with
  | publish running | fail running =>
    rw [running] at given
    rw [given, List.append_assoc]
    exact Serves.ended before (by constructor)
  | read idle next | reuse idle next =>
    rw [idle, next] at given
    rw [given, List.append_assoc]
    exact Serves.ended before (by constructor)
  | start idle next => exact ⟨ended, by simp [given, idle, next], before⟩

def Done (caller : Caller α) : Prop :=
  caller.running = none ∧ caller.calls = []

theorem Serves.done (serves : caller.Serves calls) (done : caller.Done) :
    List.Forall₂ Call.Gives calls caller.replies := by
  obtain ⟨ended, given, gives⟩ := serves
  rw [done.1, done.2] at given
  simp only [Option.toList_none, List.map_nil, List.append_nil] at given
  exact given ▸ gives

def weight (caller : Caller α) : Nat :=
  2 * caller.calls.length + caller.running.toList.length

theorem Moves.weight_lt (moves : caller.Moves cell deed after moved) :
    moved.weight < caller.weight := by
  cases moves with
  | publish running | fail running => simp [weight, replied, running]
  | read idle next | reuse idle next | start idle next =>
    simp only [weight, replied, idle, next, Option.toList_none, Option.toList_some, List.length_nil,
      List.length_cons]
    omega

end Caller

/-- A caller that cannot move waits for one that can. -/
theorem Phase.Of.canMove {phase : Phase α} {crowd : Crowd (Once α) (Caller α)}
    (of : phase.Of crowd) {caller : Caller α} (member : caller ∈ crowd.threads)
    (unfinished : ¬ caller.Done) :
    ∃ mover ∈ crowd.threads, ∃ after moved,
      mover.move crowd.shared = some (after, moved) := by
  rcases Caller.move_cases crowd.shared caller with
    ⟨-, -, idle, ended | claimed⟩ | ⟨deed, after, moved, result, -⟩
  · exact absurd ⟨idle, ended⟩ unfinished
  · rw [of.cell] at claimed
    cases phase with
    | vacant | set _ => cases claimed
    | running number initializer =>
      obtain ⟨runner, here⟩ := of.runner rfl
      have task := of.task here
      rw [task?_running_self] at task
      rcases Caller.move_cases crowd.shared runner with
        ⟨-, -, idle, -⟩ | ⟨deed, after, moved, result, -⟩
      · rw [idle] at task
        cases task
      · exact ⟨runner, List.mem_of_getElem? here, after, moved, result⟩
  · exact ⟨caller, member, after, moved, result⟩

def Crowd.Phased (crowd : Crowd (Once α) (Caller α)) : Prop :=
  ∃ phase : Phase α, phase.Of crowd

theorem Crowd.Phased.turn {crowd : Crowd (Once α) (Caller α)} (phased : crowd.Phased)
    (number : Nat) : (crowd.turn Caller.move number).Phased := by
  obtain ⟨phase, of⟩ := phased
  rcases of.turn number with ⟨-, same⟩ | ⟨-, next, -, -, follows⟩
  · rw [same]
    exact ⟨phase, of⟩
  · exact ⟨next, follows⟩

theorem Crowd.Phased.exists_done {crowd : Crowd (Once α) (Caller α)} (phased : crowd.Phased) :
    ∃ more, ∀ caller ∈ (Crowd.run Caller.move more crowd).threads, caller.Done := by
  refine Crowd.exists_ended Caller.weight Crowd.Phased.turn ?_ ?_ phased
  · intro cell caller after moved result
    obtain ⟨deed, moves⟩ := Caller.moves_of_move result
    exact moves.weight_lt
  · rintro crowd ⟨phase, of⟩ caller member unfinished
    exact of.canMove member unfinished

def Crowd.Answers (calls : List (List (Call α))) (crowd : Crowd (Once α) (Caller α)) : Prop :=
  List.Forall₂ Caller.Serves calls crowd.threads

theorem Crowd.answers_turn {calls : List (List (Call α))} {crowd : Crowd (Once α) (Caller α)}
    (answers : crowd.Answers calls) (number : Nat) :
    (crowd.turn Caller.move number).Answers calls :=
  Crowd.turn_keeps answers number fun here result =>
    forall₂_set answers here fun _ =>
      let ⟨_, moves⟩ := Caller.moves_of_move result
      moves.serves

theorem Crowd.answers_ofCalls (calls : List (List (Call α))) :
    (Crowd.ofCalls calls).Answers calls := by
  rw [Crowd.Answers, Crowd.ofCalls, List.forall₂_map_right_iff, List.forall₂_same]
  intro own _
  exact ⟨[], rfl, .nil⟩

theorem Crowd.every_call_can_end (calls : List (List (Call α))) (schedule : List Nat) :
    ∃ more, List.Forall₂ (fun own caller => List.Forall₂ Call.Gives own caller.replies) calls
      (Crowd.run Caller.move more
        (Crowd.run Caller.move schedule (Crowd.ofCalls calls))).threads := by
  obtain ⟨phase, -, of⟩ := (Phase.of_ofCalls calls).run schedule
  obtain ⟨more, done⟩ := Crowd.Phased.exists_done ⟨phase, of⟩
  have before := Crowd.run_invariant Crowd.answers_turn (Crowd.answers_ofCalls calls) schedule
  have answers := Crowd.run_invariant Crowd.answers_turn before more
  exact ⟨more, forall₂_imp_of_mem answers done Caller.Serves.done⟩

end Progress

/-- Callers of a cell that was never set. What a caller is told is what the history of the cell
tells it. If an initializer completes, it started in a deed of its caller, nothing but reads stood
between, no other initializer has completed before, and after it nothing starts and everybody finds
its value. An initializer that panics leaves the cell vacant. A call that nobody interferes with
does what the call of a cell by itself does, whatever came before; and no caller is ever stuck. -/
theorem cell_sets_once (calls : List (List (Call α))) (schedule : List Nat) :
    let start := Crowd.ofCalls calls
    let crowd := Crowd.run Caller.move schedule start
    let history := start.history Caller.move Caller.deed? schedule
    (∀ number caller, crowd.threads[number]? = some caller →
      caller.replies = repliesTo number history) ∧
    (∀ before number value after, history = before ++ (number, .publishes value) :: after →
      crowd.shared = .published value ∧
      (∀ entry ∈ before, entry.2.OfUnset) ∧ (∀ entry ∈ after, entry.2.OfSet value) ∧
      ∃ first middle, before = first ++ (number, .starts (.returns value)) :: middle ∧
        ∀ entry ∈ middle, entry.2 = .reads none) ∧
    (∀ value, crowd.shared = .published value →
      ∃ before number after, history = before ++ (number, .publishes value) :: after) ∧
    ((∀ value, crowd.shared ≠ .published value) → ∀ entry ∈ history, entry.2.OfUnset) ∧
    (∀ before number message after, history = before ++ (number, .fails message) :: after →
      ∃ first middle, before = first ++ (number, .starts (.panics message)) :: middle ∧
        ∀ entry ∈ middle, entry.2 = .reads none) ∧
    (∀ number message, crowd.deed Caller.deed? number = some (.fails message) →
      (crowd.turn Caller.move number).shared = .vacant) ∧
    (∀ caller ∈ crowd.threads, ∀ value ran, .value value ran ∈ caller.replies →
      crowd.shared = .published value) ∧
    (∀ number caller initializer rest, crowd.threads[number]? = some caller →
      caller.running = none → caller.calls = .ensure initializer :: rest →
      crowd.shared ≠ .claimed →
      let ended := Cell.ensure ⟨crowd.shared.get?⟩ initializer
      let turns := if crowd.shared.get?.isSome then 1 else 2
      crowd.run Caller.move (List.replicate turns number) = ⟨ended.2.shared,
        crowd.threads.set number ({ caller with calls := rest }.replied ended.1)⟩) ∧
    ∃ more, List.Forall₂ (fun own caller => List.Forall₂ Call.Gives own caller.replies) calls
      (Crowd.run Caller.move more crowd).threads := by
  intro start crowd history
  obtain ⟨last, tells, of⟩ : ∃ last, Tells .vacant history last ∧ last.Of crowd :=
    (Phase.of_ofCalls calls).run schedule
  have told : ∀ number caller, crowd.threads[number]? = some caller →
      caller.replies = repliesTo number history := by
    intro number caller here
    exact Crowd.replies_ofCalls here
  have vacant : ∀ value : α, Phase.vacant ≠ .set value := fun _ impossible => nomatch impossible
  have idle : ∀ number (initializer : Initializer α), Phase.vacant ≠ .running number initializer :=
    fun _ _ impossible => nomatch impossible
  have published : ∀ value, crowd.shared = .published value ↔ last = .set value := by
    intro value
    rw [of.cell]
    cases last <;> simp [Phase.cell]
  refine ⟨told, ?_, ?_, ?_, ?_, ?_, ?_, ?_, Crowd.every_call_can_end calls schedule⟩
  · intro before number value after split
    obtain ⟨left, right, earlier, passes, later⟩ := (split ▸ tells).split
    cases passes
    obtain ⟨stays, found⟩ := later.of_set
    exact ⟨(published value).mpr stays, earlier.of_unset (by simp), found,
      earlier.of_running rfl idle⟩
  · intro value set
    obtain rfl := (published value).mp set
    exact tells.exists_publishes vacant
  · intro unset
    exact tells.of_unset fun value same => unset value ((published value).mpr same)
  · intro before number message after split
    obtain ⟨left, right, earlier, passes, later⟩ := (split ▸ tells).split
    cases passes
    exact earlier.of_running rfl idle
  · intro number message fails
    rcases of.turn number with ⟨silent, -⟩ | ⟨deed, next, does, passes, follows⟩
    · cases silent.symm.trans fails
    · cases does.symm.trans fails
      cases passes
      exact follows.cell
  · intro caller member value ran reply
    obtain ⟨number, here⟩ := List.getElem?_of_mem member
    rw [told number caller here] at reply
    obtain ⟨entry, inside, given⟩ := exists_of_mem_repliesTo reply
    exact (published value).mpr (tells.of_reply inside given)
  · intro number caller initializer rest here idle next free
    exact Crowd.ensure_alone here idle next free

/-- One initializer panics while another caller waits, that caller's own sets the cell, and a third
that would panic is not run. -/
theorem cell_sets_once_after_a_panic :
    let calls : List (List (Call Nat)) :=
      [[.ensure (.panics "boom"), .get], [.get, .ensure (.returns 7)], [.ensure (.panics "late")]]
    let crowd := Crowd.run Caller.move [0, 1, 2, 0, 1, 2, 1, 2, 0] (Crowd.ofCalls calls)
    crowd.threads.map (·.replies) =
        [[.panicked "boom", .found (some 7)], [.found none, .value 7 true], [.value 7 false]] ∧
      crowd.shared = .published 7 := by
  dsimp only
  obtain ⟨-, -, -, -, -, -, returned, -⟩ := cell_sets_once _ _
  refine ⟨by rfl, returned ⟨none, [], [.value 7 false]⟩ ?_ 7 false ?_⟩
  · exact List.mem_of_getElem? (i := 2) (by rfl)
  · exact List.mem_singleton.mpr rfl

end SyntaxDialects.Sharing
