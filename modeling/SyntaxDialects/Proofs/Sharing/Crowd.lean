import Mathlib.Algebra.GroupWithZero.Nat
import Mathlib.Algebra.Order.BigOperators.Group.List
import Mathlib.Algebra.Order.Group.Nat
import Mathlib.Data.List.Forall2
import SyntaxDialects.Sharing.Crowd

/-!
Crowds turn by turn. A turn changes nothing, or it is one thread's move; so what every move keeps
holds after any schedule, and a number that every move conserves for the mover is conserved for the
crowd.
-/
namespace SyntaxDialects.Sharing
namespace Crowd

variable {σ τ δ : Type} {move : σ → τ → Option (σ × τ)}

def moves (move : σ → τ → Option (σ × τ)) (kind : τ → Bool) (crowd : Crowd σ τ) (number : Nat) :
    Bool :=
  match crowd.threads[number]? with
  | none => false
  | some thread => kind thread && (move crowd.shared thread).isSome

def tally (move : σ → τ → Option (σ × τ)) (kind : τ → Bool) : List Nat → Crowd σ τ → Nat
  | [], _ => 0
  | number :: rest, crowd =>
    (crowd.moves move kind number).toNat + tally move kind rest (crowd.turn move number)

theorem turn_of_move {crowd : Crowd σ τ} {number : Nat} {thread : τ}
    (here : crowd.threads[number]? = some thread) {shared : σ} {moved : τ}
    (result : move crowd.shared thread = some (shared, moved)) :
    crowd.turn move number = ⟨shared, crowd.threads.set number moved⟩ := by
  simp [turn, here, result]

theorem turn_cases (move : σ → τ → Option (σ × τ)) (crowd : Crowd σ τ) (number : Nat) :
    (crowd.turn move number = crowd ∧ ∀ kind, crowd.moves move kind number = false) ∨
      ∃ thread shared moved, crowd.threads[number]? = some thread ∧
        move crowd.shared thread = some (shared, moved) ∧
        crowd.turn move number = ⟨shared, crowd.threads.set number moved⟩ ∧
        ∀ kind, crowd.moves move kind number = kind thread := by
  cases here : crowd.threads[number]? with
  | none => exact .inl ⟨by simp [turn, here], fun kind => by simp [moves, here]⟩
  | some thread =>
    cases result : move crowd.shared thread with
    | none => exact .inl ⟨by simp [turn, here, result], fun kind => by simp [moves, here, result]⟩
    | some after =>
      obtain ⟨shared, moved⟩ := after
      exact .inr ⟨thread, shared, moved, rfl, result, turn_of_move here result,
        fun kind => by simp [moves, here, result]⟩

theorem turn_keeps {P : Crowd σ τ → Prop} {crowd : Crowd σ τ} (passes : P crowd) (number : Nat)
    (moves : ∀ {thread shared moved}, crowd.threads[number]? = some thread →
      move crowd.shared thread = some (shared, moved) →
      P ⟨shared, crowd.threads.set number moved⟩) : P (crowd.turn move number) := by
  rcases turn_cases move crowd number with
    ⟨same, -⟩ | ⟨thread, shared, moved, here, result, turns, -⟩
  · rw [same]
    exact passes
  · rw [turns]
    exact moves here result

theorem getElem?_turn_ne (move : σ → τ → Option (σ × τ)) (crowd : Crowd σ τ) {number other : Nat}
    (different : other ≠ number) :
    (crowd.turn move number).threads[other]? = crowd.threads[other]? := by
  rcases turn_cases move crowd number with ⟨same, -⟩ | ⟨thread, shared, moved, -, -, turns, -⟩
  · rw [same]
  · rw [turns, List.getElem?_set_ne (Ne.symm different)]

theorem getElem?_turn_self {crowd : Crowd σ τ} {number : Nat} {thread : τ}
    (here : crowd.threads[number]? = some thread) :
    (crowd.turn move number).threads[number]? =
      some ((move crowd.shared thread).elim thread Prod.snd) := by
  cases result : move crowd.shared thread with
  | none =>
    simp only [turn, here, result]
    rfl
  | some after =>
    rw [turn_of_move here result,
      List.getElem?_set_self (List.getElem?_eq_some_iff.mp here).1]
    rfl

theorem length_turn (move : σ → τ → Option (σ × τ)) (crowd : Crowd σ τ) (number : Nat) :
    (crowd.turn move number).threads.length = crowd.threads.length := by
  rcases turn_cases move crowd number with ⟨same, -⟩ | ⟨thread, shared, moved, -, -, turns, -⟩
  · rw [same]
  · rw [turns, List.length_set]

theorem length_run (move : σ → τ → Option (σ × τ)) (crowd : Crowd σ τ) (schedule : List Nat) :
    (run move schedule crowd).threads.length = crowd.threads.length := by
  induction schedule generalizing crowd with
  | nil => rfl
  | cons number rest ih => exact (ih (crowd.turn move number)).trans (length_turn move crowd number)

section Invariants

variable {Kept : Crowd σ τ → Prop}
  (step : ∀ {crowd}, Kept crowd → ∀ number, Kept (crowd.turn move number))
include step

theorem run_invariant {crowd : Crowd σ τ} (start : Kept crowd) (schedule : List Nat) :
    Kept (run move schedule crowd) := by
  induction schedule generalizing crowd with
  | nil => exact start
  | cons number rest ih => exact ih (step start number)

theorem run_relation {Later : σ → σ → Prop} (same : ∀ shared, Later shared shared)
    (joins : ∀ {a b c}, Later a b → Later b c → Later a c)
    (later : ∀ {crowd}, Kept crowd → ∀ number, Later crowd.shared (crowd.turn move number).shared)
    {crowd : Crowd σ τ} (start : Kept crowd) (schedule : List Nat) :
    Later crowd.shared (run move schedule crowd).shared := by
  induction schedule generalizing crowd with
  | nil => exact same _
  | cons number rest ih => exact joins (later start number) (ih (step start number))

theorem run_congr {other : σ → τ → Option (σ × τ)}
    (agree : ∀ {crowd}, Kept crowd → ∀ thread ∈ crowd.threads,
      other crowd.shared thread = move crowd.shared thread)
    {crowd : Crowd σ τ} (start : Kept crowd) (schedule : List Nat) :
    run other schedule crowd = run move schedule crowd := by
  induction schedule generalizing crowd with
  | nil => rfl
  | cons number rest ih =>
    have first : crowd.turn other number = crowd.turn move number := by
      cases here : crowd.threads[number]? with
      | none => simp only [turn, here]
      | some thread => simp only [turn, here, agree start thread (List.mem_of_getElem? here)]
    change run other rest (crowd.turn other number) = run move rest (crowd.turn move number)
    rw [first]
    exact ih (step start number)

end Invariants

section Views

variable {σ' τ' : Type} {other : σ' → τ' → Option (σ' × τ')}

def view (share : σ → σ') (own : τ → τ') (crowd : Crowd σ τ) : Crowd σ' τ' :=
  ⟨share crowd.shared, crowd.threads.map own⟩

def turnsOf (move : σ → τ → Option (σ × τ)) (kind : τ → Bool) : List Nat → Crowd σ τ → List Nat
  | [], _ => []
  | number :: rest, crowd =>
    let later := turnsOf move kind rest (crowd.turn move number)
    if crowd.moves move kind number then number :: later else later

variable {share : σ → σ'} {own : τ → τ'} {kind : τ → Bool}
  (acts : ∀ {shared thread after moved}, move shared thread = some (after, moved) →
    kind thread = true → other (share shared) (own thread) = some (share after, own moved))
  (rests : ∀ {shared thread after moved}, move shared thread = some (after, moved) →
    kind thread = false → share after = share shared ∧ own moved = own thread)
include acts rests

theorem turn_view (crowd : Crowd σ τ) (number : Nat) :
    (crowd.turn move number).view share own =
      if crowd.moves move kind number then (crowd.view share own).turn other number
      else crowd.view share own := by
  rcases turn_cases move crowd number with
    ⟨same, silent⟩ | ⟨thread, after, moved, here, result, turns, told⟩
  · rw [same, silent kind, if_neg Bool.false_ne_true]
  · have there : (crowd.view share own).threads[number]? = some (own thread) := by
      rw [view, List.getElem?_map, here, Option.map_some]
    rw [turns, told kind, view, List.map_set]
    cases sort : kind thread with
    | true =>
      rw [if_pos rfl, turn_of_move there (acts result sort)]
      rfl
    | false =>
      obtain ⟨sameShare, sameOwn⟩ := rests result sort
      obtain ⟨inside, found⟩ := List.getElem?_eq_some_iff.mp there
      rw [if_neg Bool.false_ne_true, sameShare, sameOwn, ← found]
      exact congrArg (Crowd.mk _) (List.set_getElem_self inside)

/-- If some moves are seen as moves of the other kind and the rest are not seen at all, a run is
seen as the run of those turns. -/
theorem run_view (schedule : List Nat) (crowd : Crowd σ τ) :
    (run move schedule crowd).view share own =
      run other (turnsOf move kind schedule crowd) (crowd.view share own) := by
  induction schedule generalizing crowd with
  | nil => rfl
  | cons number rest ih =>
    have first := turn_view @acts @rests crowd number
    change (run move rest (crowd.turn move number)).view share own = _
    rw [ih, first, turnsOf]
    split <;> rfl

end Views

section Rounds

def sweep (move : σ → τ → Option (σ × τ)) (shared : σ) : List τ → Crowd σ τ
  | [] => ⟨shared, []⟩
  | thread :: rest =>
    let (after, moved) := (move shared thread).getD (shared, thread)
    let later := sweep move after rest
    ⟨later.shared, moved :: later.threads⟩

private theorem run_range' (before threads : List τ) (shared : σ) :
    run move (List.range' before.length threads.length) ⟨shared, before ++ threads⟩ =
      ⟨(sweep move shared threads).shared, before ++ (sweep move shared threads).threads⟩ := by
  induction threads generalizing before shared with
  | nil => rfl
  | cons thread rest ih =>
    have here : (before ++ thread :: rest)[before.length]? = some thread := by simp
    have turns (after : σ) (moved : τ) := ih (before ++ [moved]) after
    simp only [List.length_append, List.length_singleton, List.append_assoc,
      List.singleton_append] at turns
    change run move (List.range' (before.length + 1) rest.length)
      (turn move ⟨shared, before ++ thread :: rest⟩ before.length) = _
    cases result : move shared thread with
    | none =>
      have stays : turn move ⟨shared, before ++ thread :: rest⟩ before.length =
          ⟨shared, before ++ thread :: rest⟩ := by simp only [turn, here, result]
      rw [stays, turns, sweep, result, Option.getD_none]
    | some pair =>
      obtain ⟨after, moved⟩ := pair
      rw [turn_of_move here result, List.set_append_right _ _ (Nat.le_refl _), Nat.sub_self,
        List.set_cons_zero, turns, sweep, result, Option.getD_some]

theorem sweep_replicate {shared : σ} {thread next : τ}
    (same : (move shared thread).getD (shared, thread) = (shared, next)) (count : Nat) :
    sweep move shared (List.replicate count thread) = ⟨shared, List.replicate count next⟩ := by
  induction count with
  | zero => rfl
  | succ count ih => simp only [List.replicate_succ, sweep, same, ih]

/-- A round in which one thread moves, and others that are all alike only find what it leaves. -/
theorem run_round {shared after : σ} {thread moved other next : τ}
    (result : move shared thread = some (after, moved))
    (same : (move after other).getD (after, other) = (after, next)) (others rounds : Nat) :
    run move (rotation (others + 1) (rounds + 1))
        ⟨shared, thread :: List.replicate others other⟩ =
      run move (rotation (others + 1) rounds) ⟨after, moved :: List.replicate others next⟩ := by
  have round : run move (List.range (others + 1))
      ⟨shared, thread :: List.replicate others other⟩ =
      ⟨after, moved :: List.replicate others next⟩ := by
    have turns := @run_range' _ _ move [] (thread :: List.replicate others other) shared
    rw [List.length_cons, List.length_replicate] at turns
    simp only [sweep, result, Option.getD_some, sweep_replicate same] at turns
    rw [List.range_eq_range']
    exact turns
  rw [rotation, List.replicate_succ, List.flatten_cons, run, List.foldl_append]
  exact congrArg (run move (rotation (others + 1) rounds)) round

theorem run_of_stuck {crowd : Crowd σ τ}
    (stuck : ∀ thread ∈ crowd.threads, move crowd.shared thread = none) (schedule : List Nat) :
    run move schedule crowd = crowd := by
  induction schedule with
  | nil => rfl
  | cons number rest ih =>
    have stays : crowd.turn move number = crowd := by
      cases here : crowd.threads[number]? with
      | none => simp only [turn, here]
      | some thread => simp only [turn, here, stuck thread (List.mem_of_getElem? here)]
    change run move rest (crowd.turn move number) = crowd
    rw [stays]
    exact ih

theorem run_replicate_of_stuck {shared : σ} {thread : τ} (stuck : move shared thread = none)
    (schedule : List Nat) (count : Nat) :
    run move schedule ⟨shared, List.replicate count thread⟩ =
      ⟨shared, List.replicate count thread⟩ := by
  apply run_of_stuck
  intro other member
  rw [List.eq_of_mem_replicate member]
  exact stuck

end Rounds

def total (crowd : Crowd σ τ) (amount : τ → Nat) : Nat :=
  (crowd.threads.map amount).sum

theorem amount_le_total {crowd : Crowd σ τ} (amount : τ → Nat) {thread : τ}
    (member : thread ∈ crowd.threads) : amount thread ≤ crowd.total amount :=
  List.le_sum_of_mem (List.mem_map_of_mem member)

theorem total_le_total {crowd : Crowd σ τ} {less more : τ → Nat}
    (each : ∀ thread, less thread ≤ more thread) : crowd.total less ≤ crowd.total more :=
  List.sum_le_sum fun thread _ => each thread

theorem exists_of_total_pos {crowd : Crowd σ τ} {amount : τ → Nat}
    (positive : 0 < crowd.total amount) : ∃ thread ∈ crowd.threads, 0 < amount thread := by
  by_contra nobody
  simp only [not_exists, not_and, Nat.not_lt, Nat.le_zero] at nobody
  have zero : crowd.total amount = 0 := by
    apply List.sum_eq_zero
    intro n member
    obtain ⟨thread, inside, rfl⟩ := List.mem_map.mp member
    exact nobody thread inside
  omega

/-- A move changes the total by what it changes for the mover. -/
theorem total_set {crowd : Crowd σ τ} {number : Nat} {thread : τ}
    (here : crowd.threads[number]? = some thread) (shared : σ) (moved : τ) (amount : τ → Nat) :
    (Crowd.mk shared (crowd.threads.set number moved)).total amount + amount thread =
      crowd.total amount + amount moved := by
  obtain ⟨_, threads⟩ := crowd
  simp only [total]
  induction threads generalizing number with
  | nil => cases here
  | cons first rest ih =>
    cases number with
    | zero =>
      cases here
      simp only [List.set_cons_zero, List.map_cons, List.sum_cons]
      omega
    | succ number =>
      have later := ih here
      simp only [List.set_cons_succ, List.map_cons, List.sum_cons]
      omega

theorem forall_set {crowd : Crowd σ τ} {Good Better : τ → Prop} {number : Nat} {moved : τ}
    (all : ∀ thread ∈ crowd.threads, Good thread) (others : ∀ thread, Good thread → Better thread)
    (mover : Better moved) : ∀ thread ∈ crowd.threads.set number moved, Better thread := by
  intro thread member
  rcases List.mem_or_eq_of_mem_set member with before | rfl
  · exact others thread (all thread before)
  · exact mover

theorem flatMap_set_perm {β : Type} (items : τ → List β) {threads : List τ} {number : Nat}
    {thread moved : τ} (here : threads[number]? = some thread) {more : List β}
    (adds : items moved = items thread ++ more) :
    ((threads.set number moved).flatMap items).Perm (threads.flatMap items ++ more) := by
  induction threads generalizing number with
  | nil => cases here
  | cons first rest ih =>
    cases number with
    | zero =>
      cases here
      rw [List.set_cons_zero, List.flatMap_cons, List.flatMap_cons, adds, List.append_assoc,
        List.append_assoc]
      exact List.perm_append_comm.append_left _
    | succ number =>
      rw [List.set_cons_succ, List.flatMap_cons, List.flatMap_cons, List.append_assoc]
      exact (ih here).append_left _

/-- Moves of a kind, each of which adds one to what the state and the threads have of something,
add up to what they have in the end. -/
theorem tally_add {Kept : Crowd σ τ → Prop} (kind : τ → Bool) (share : σ → Nat) (amount : τ → Nat)
    (step : ∀ {crowd}, Kept crowd → ∀ number, Kept (crowd.turn move number))
    (law : ∀ {crowd thread shared moved}, Kept crowd → thread ∈ crowd.threads →
      move crowd.shared thread = some (shared, moved) →
      (kind thread).toNat + (share crowd.shared + amount thread) = share shared + amount moved)
    {crowd : Crowd σ τ} (start : Kept crowd) (schedule : List Nat) :
    tally move kind schedule crowd + (share crowd.shared + crowd.total amount) =
      share (run move schedule crowd).shared + (run move schedule crowd).total amount := by
  induction schedule generalizing crowd with
  | nil => simp [tally, run]
  | cons number rest ih =>
    have later := ih (step start number)
    change _ = share (run move rest (crowd.turn move number)).shared +
      (run move rest (crowd.turn move number)).total amount
    rw [← later, tally]
    rcases turn_cases move crowd number with
      ⟨passes, silent⟩ | ⟨thread, shared, moved, here, result, turns, told⟩
    · rw [passes, silent kind, Bool.toNat_false]
      omega
    · have own := law start (List.mem_of_getElem? here) result
      have whole := total_set here shared moved amount
      rw [turns, told kind]
      simp only at whole ⊢
      omega

def deed (label : σ → τ → Option δ) (crowd : Crowd σ τ) (number : Nat) : Option δ :=
  crowd.threads[number]?.bind (label crowd.shared)

def history (move : σ → τ → Option (σ × τ)) (label : σ → τ → Option δ) :
    List Nat → Crowd σ τ → List (Nat × δ)
  | [], _ => []
  | number :: rest, crowd =>
    ((crowd.deed label number).map fun deed => (number, deed)).toList ++
      history move label rest (crowd.turn move number)

/-- If some thread can move as long as not all have ended, and every move takes from the mover's
weight, then more turns end all threads. -/
theorem exists_ended {Kept : Crowd σ τ → Prop} {Ended : τ → Prop} (weight : τ → Nat)
    (step : ∀ {crowd}, Kept crowd → ∀ number, Kept (crowd.turn move number))
    (lowers : ∀ {shared thread after moved}, move shared thread = some (after, moved) →
      weight moved < weight thread)
    (progress : ∀ {crowd}, Kept crowd → ∀ thread ∈ crowd.threads, ¬ Ended thread →
      ∃ mover ∈ crowd.threads, ∃ after moved, move crowd.shared mover = some (after, moved))
    {crowd : Crowd σ τ} (start : Kept crowd) :
    ∃ more, ∀ thread ∈ (run move more crowd).threads, Ended thread := by
  induction left : crowd.total weight using Nat.strong_induction_on generalizing crowd with
  | h left ih =>
    subst left
    by_cases ended : ∀ thread ∈ crowd.threads, Ended thread
    · exact ⟨[], ended⟩
    · simp only [not_forall] at ended
      obtain ⟨idler, member, unfinished⟩ := ended
      obtain ⟨mover, moves, after, moved, result⟩ := progress start idler member unfinished
      obtain ⟨number, here⟩ := List.getElem?_of_mem moves
      have whole := total_set here after moved weight
      have less := lowers result
      have turns := turn_of_move here result
      obtain ⟨more, done⟩ := ih _ (by rw [turns]; omega) (step start number) rfl
      exact ⟨number :: more, done⟩

end Crowd

theorem forall₂_set {α β : Type} {R : α → β → Prop} {as : List α} {bs : List β}
    (all : List.Forall₂ R as bs) {number : Nat} {b changed : β} (here : bs[number]? = some b)
    (keeps : ∀ a, R a b → R a changed) : List.Forall₂ R as (bs.set number changed) := by
  induction all generalizing number with
  | nil => cases here
  | cons first rest ih =>
    cases number with
    | zero =>
      cases here
      exact .cons (keeps _ first) rest
    | succ number => exact .cons first (ih here)

theorem forall₂_imp_of_mem {α β : Type} {R S : α → β → Prop} {P : β → Prop} {as : List α}
    {bs : List β} (all : List.Forall₂ R as bs) (each : ∀ b ∈ bs, P b)
    (imp : ∀ {a b}, R a b → P b → S a b) : List.Forall₂ S as bs := by
  refine List.forall₂_iff_zip.mpr ⟨all.length_eq, fun pair => ?_⟩
  exact imp (List.forall₂_zip all pair) (each _ (List.of_mem_zip pair).2)

end SyntaxDialects.Sharing
