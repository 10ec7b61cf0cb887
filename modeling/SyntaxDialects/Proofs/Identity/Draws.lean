import Mathlib.Data.List.Sort
import SyntaxDialects.Identity.Allocators
import SyntaxDialects.Proofs.Basic
import SyntaxDialects.Proofs.Parts
import SyntaxDialects.Proofs.Sharing.Crowd

/-!
Draws. Threads that draw from one allocator share out the numbers from where it stood: whoever has
the turn, each number goes to one thread, none is left out, and every thread sees its own rise.
Allocators do not touch each other, whether they are drawn from in turn or by threads at once.
-/
namespace SyntaxDialects
open Sharing

def Alloc.crowd (ids : Alloc) (quotas : List Nat) : Crowd Alloc Drawer :=
  ⟨ids, quotas.map fun quota => ⟨quota, []⟩⟩

def drawnBy (crowd : Crowd Alloc Drawer) : List Nat :=
  crowd.threads.flatMap Drawer.drawn

theorem Drawer.move_eq_some {ids after : Alloc} {drawer moved : Drawer} :
    drawer.move ids = some (after, moved) ↔ ∃ left, drawer.left = left + 1 ∧
      after = ⟨ids.next + 1⟩ ∧ moved = ⟨left, drawer.drawn ++ [ids.next]⟩ := by
  unfold move
  cases drawer.left with
  | zero => simp
  | succ left =>
    simp only [Alloc.draw, Option.some.injEq, Prod.mk.injEq, Nat.add_right_cancel_iff]
    constructor
    · rintro ⟨rfl, rfl⟩
      exact ⟨left, rfl, rfl, rfl⟩
    · rintro ⟨_, rfl, rfl, rfl⟩
      exact ⟨rfl, rfl⟩

theorem Drawer.move_eq_none {ids : Alloc} {drawer : Drawer} :
    drawer.move ids = none ↔ drawer.left = 0 := by
  unfold move
  cases drawer.left with
  | zero => simp
  | succ left => simp

/-! What is drawn is what there was to draw, whoever has the turn. -/

/-- The numbers from a start up to where the allocator stands have been drawn, each once, and each
thread has drawn its own in order. -/
structure HandedOut (start : Nat) (crowd : Crowd Alloc Drawer) : Prop where
  next : crowd.shared.next = start + (drawnBy crowd).length
  all : (drawnBy crowd).Perm (List.range' start (drawnBy crowd).length)
  rising : ∀ drawer ∈ crowd.threads, drawer.drawn.Pairwise (· < ·)

theorem drawnBy_crowd (ids : Alloc) (quotas : List Nat) : drawnBy (ids.crowd quotas) = [] := by
  simp [drawnBy, Alloc.crowd]

theorem handedOut_crowd (ids : Alloc) (quotas : List Nat) :
    HandedOut ids.next (ids.crowd quotas) := by
  have nothing := drawnBy_crowd ids quotas
  refine ⟨by rw [nothing]; rfl, by rw [nothing]; exact .nil, ?_⟩
  intro drawer member
  obtain ⟨quota, -, rfl⟩ := List.mem_map.mp member
  exact .nil

namespace HandedOut

variable {start : Nat} {crowd : Crowd Alloc Drawer}

theorem lt_next (handed : HandedOut start crowd) {drawer : Drawer}
    (member : drawer ∈ crowd.threads) {number : Nat} (drawn : number ∈ drawer.drawn) :
    number < crowd.shared.next := by
  have inAll : number ∈ drawnBy crowd := List.mem_flatMap.mpr ⟨drawer, member, drawn⟩
  rw [handed.next]
  exact (List.mem_range'_1.mp (handed.all.mem_iff.mp inAll)).2

theorem turn (handed : HandedOut start crowd) (number : Nat) :
    HandedOut start (crowd.turn Drawer.move number) := by
  refine Crowd.turn_keeps handed number ?_
  intro thread after moved here result
  obtain ⟨left, -, rfl, rfl⟩ := Drawer.move_eq_some.mp result
  have drawn := Crowd.flatMap_set_perm Drawer.drawn here
    (rfl : (Drawer.mk left (thread.drawn ++ [crowd.shared.next])).drawn = _)
  have one : (drawnBy ⟨⟨crowd.shared.next + 1⟩, crowd.threads.set number
      ⟨left, thread.drawn ++ [crowd.shared.next]⟩⟩).length = (drawnBy crowd).length + 1 :=
    drawn.length_eq.trans List.length_append
  have member := List.mem_of_getElem? here
  constructor
  · rw [one, handed.next, Nat.add_assoc]
  · rw [one, List.range'_1_concat, ← handed.next]
    exact drawn.trans (handed.all.append_right _)
  · refine Crowd.forall_set handed.rising (fun _ rising => rising) ?_
    refine List.pairwise_append.mpr ⟨handed.rising thread member, List.pairwise_singleton _ _, ?_⟩
    intro earlier before last now
    rw [List.mem_singleton.mp now]
    exact handed.lt_next member before

theorem run (handed : HandedOut start crowd) (schedule : List Nat) :
    HandedOut start (Crowd.run Drawer.move schedule crowd) :=
  Crowd.run_invariant HandedOut.turn handed schedule

theorem sorted (handed : HandedOut start crowd) :
    (drawnBy crowd).mergeSort (fun a b => a ≤ b) = List.range' start (drawnBy crowd).length := by
  have order : (List.range' start (drawnBy crowd).length).Pairwise (· ≤ ·) :=
    (List.pairwise_lt_range' 1).imp Nat.le_of_lt
  have same := (List.mergeSort_perm (drawnBy crowd) fun a b => a ≤ b).trans handed.all
  refine same.eq_of_pairwise (fun a b _ _ => Nat.le_antisymm) ?_ order
  exact List.pairwise_mergeSort' (· ≤ ·) (drawnBy crowd)

theorem text (handed : HandedOut start crowd) : crowd.shared.text =
    "IdentAlloc(" ++ toString (start + (drawnBy crowd).length) ++ ")" := by
  rw [Alloc.text, handed.next]

end HandedOut

/-! A thread draws in each of its turns until it has drawn its quota. -/

section Quotas

variable {crowd : Crowd Alloc Drawer} {i : Nat} {drawer : Drawer}

theorem drawer_turn (here : crowd.threads[i]? = some drawer) (number : Nat) :
    ∃ later, (crowd.turn Drawer.move number).threads[i]? = some later ∧
      later.left = drawer.left - [number].count i ∧
      later.left + later.drawn.length = drawer.left + drawer.drawn.length := by
  by_cases own : number = i
  · subst own
    refine ⟨_, Crowd.getElem?_turn_self here, ?_⟩
    rw [List.count_singleton_self]
    cases result : drawer.move crowd.shared with
    | none =>
      have ended := Drawer.move_eq_none.mp result
      refine ⟨?_, rfl⟩
      change drawer.left = _
      rw [ended]
    | some after =>
      obtain ⟨shared, moved⟩ := after
      obtain ⟨left, before, -, rfl⟩ := Drawer.move_eq_some.mp result
      change left = _ ∧ left + (drawer.drawn ++ [crowd.shared.next]).length = _
      rw [before, List.length_append, List.length_singleton]
      exact ⟨rfl, by omega⟩
  · refine ⟨drawer, ?_, ?_, rfl⟩
    · rw [Crowd.getElem?_turn_ne _ _ (Ne.symm own), here]
    · simp [own]

theorem drawer_run (here : crowd.threads[i]? = some drawer) (schedule : List Nat) :
    ∃ later, (Crowd.run Drawer.move schedule crowd).threads[i]? = some later ∧
      later.left = drawer.left - schedule.count i ∧
      later.left + later.drawn.length = drawer.left + drawer.drawn.length := by
  induction schedule generalizing crowd drawer with
  | nil => exact ⟨drawer, here, rfl, rfl⟩
  | cons number rest ih =>
    obtain ⟨next, there, left, whole⟩ := drawer_turn here number
    obtain ⟨later, found, leftLater, wholeLater⟩ := ih there
    refine ⟨later, found, ?_, wholeLater.trans whole⟩
    rw [leftLater, left, Nat.sub_sub, ← List.count_append, List.singleton_append]

variable {quotas schedule : List Nat}

theorem lengths_crowd (ids : Alloc) (quotas schedule : List Nat) :
    (Crowd.run Drawer.move schedule (ids.crowd quotas)).threads.map (·.drawn.length) =
      quotas.mapIdx fun i quota => min quota (schedule.count i) := by
  apply List.ext_getElem?
  intro i
  rw [List.getElem?_map, List.getElem?_mapIdx]
  cases here : quotas[i]? with
  | none =>
    have beyond := List.getElem?_eq_none_iff.mp here
    rw [Option.map_none, Option.map_eq_none_iff, List.getElem?_eq_none_iff, Crowd.length_run,
      Alloc.crowd, List.length_map]
    exact beyond
  | some quota =>
    have first : (ids.crowd quotas).threads[i]? = some ⟨quota, []⟩ := by
      rw [Alloc.crowd, List.getElem?_map, here, Option.map_some]
    obtain ⟨later, there, left, whole⟩ := drawer_run first schedule
    rw [there, Option.map_some, Option.map_some, Option.some.injEq]
    simp only [List.length_nil, Nat.add_zero] at left whole
    omega

def Suffices (schedule quotas : List Nat) : Prop :=
  ∀ i quota, quotas[i]? = some quota → quota ≤ schedule.count i

theorem Suffices.lengths (enough : Suffices schedule quotas) (ids : Alloc) :
    (Crowd.run Drawer.move schedule (ids.crowd quotas)).threads.map (·.drawn.length) = quotas := by
  rw [lengths_crowd, List.mapIdx_eq_iff]
  intro i
  cases here : quotas[i]? with
  | none => rfl
  | some quota => rw [Option.map_some, Nat.min_eq_left (enough i quota here)]

theorem Suffices.length_drawnBy (enough : Suffices schedule quotas) (ids : Alloc) :
    (drawnBy (Crowd.run Drawer.move schedule (ids.crowd quotas))).length = quotas.sum := by
  rw [drawnBy, List.length_flatMap, enough.lengths]

theorem suffices_rotation (threads each : Nat) :
    Suffices (Sharing.rotation threads each) (List.replicate threads each) := by
  intro i quota here
  obtain ⟨inside, same⟩ := List.getElem?_eq_some_iff.mp here
  rw [List.getElem_replicate] at same
  rw [List.length_replicate] at inside
  rw [Sharing.rotation, List.count_flatten, List.map_replicate, List.sum_replicate_nat,
    List.count_range, if_pos inside, Nat.mul_one, same]

theorem Alloc.race_eq (ids : Alloc) (threads each : Nat) : ids.race threads each =
    Crowd.run Drawer.move (Sharing.rotation threads each)
      (ids.crowd (List.replicate threads each)) := by
  rw [race, crowd, List.map_replicate]

theorem Allocators.use_race (ids : Alloc) (threads each : Nat) :
    Allocators.use ids (.race threads each) =
      (.numbers (List.range' ids.next (threads * each)), ⟨ids.next + threads * each⟩) := by
  have handed := (handedOut_crowd ids (List.replicate threads each)).run
    (Sharing.rotation threads each)
  have count := (suffices_rotation threads each).length_drawnBy ids
  rw [← ids.race_eq] at handed count
  rw [List.sum_replicate_nat] at count
  have sorted := handed.sorted
  have next := handed.next
  rw [count] at sorted next
  change (AllocAnswer.numbers ((drawnBy (ids.race threads each)).mergeSort fun a b => a ≤ b),
    Alloc.mk (ids.race threads each).shared.next) = _
  rw [sorted, next]

end Quotas

/-! A number that is kept in a machine word. -/

def Alloc.drawWord (ids : Alloc) : Nat × Alloc :=
  (ids.next, ⟨(ids.next + 1) % UInt64.size⟩)

def Drawer.moveWord (ids : Alloc) (drawer : Drawer) : Option (Alloc × Drawer) :=
  match drawer.left with
  | 0 => none
  | left + 1 =>
    let (number, ids) := ids.drawWord
    some (ids, ⟨left, drawer.drawn ++ [number]⟩)

def Roomy (crowd : Crowd Alloc Drawer) : Prop :=
  crowd.shared.next + crowd.total Drawer.left < UInt64.size

theorem Roomy.turn {crowd : Crowd Alloc Drawer} (roomy : Roomy crowd) (number : Nat) :
    Roomy (crowd.turn Drawer.move number) := by
  refine Crowd.turn_keeps roomy number ?_
  intro thread after moved here result
  obtain ⟨left, before, rfl, rfl⟩ := Drawer.move_eq_some.mp result
  have whole := Crowd.total_set here ⟨crowd.shared.next + 1⟩
    ⟨left, thread.drawn ++ [crowd.shared.next]⟩ Drawer.left
  simp only [Roomy, before] at roomy whole ⊢
  omega

theorem Roomy.moveWord {crowd : Crowd Alloc Drawer} (roomy : Roomy crowd) (drawer : Drawer)
    (member : drawer ∈ crowd.threads) :
    drawer.moveWord crowd.shared = drawer.move crowd.shared := by
  have share := Crowd.amount_le_total Drawer.left member
  unfold Drawer.moveWord Drawer.move
  cases left : drawer.left with
  | zero => rfl
  | succ left =>
    have small : crowd.shared.next + 1 < UInt64.size := by
      simp only [Roomy] at roomy
      omega
    simp only [Alloc.drawWord, Alloc.draw, Nat.mod_eq_of_lt small]

theorem run_moveWord {ids : Alloc} {quotas : List Nat}
    (fits : ids.next + quotas.sum ≤ 2 ^ 64 - 1) (schedule : List Nat) :
    Crowd.run Drawer.moveWord schedule (ids.crowd quotas) =
      Crowd.run Drawer.move schedule (ids.crowd quotas) := by
  refine Crowd.run_congr Roomy.turn Roomy.moveWord ?_ schedule
  have total : (ids.crowd quotas).total Drawer.left = quotas.sum := by
    simp [Crowd.total, Alloc.crowd, Function.comp_def]
  have next : (ids.crowd quotas).shared = ids := rfl
  rw [Roomy, total, next, UInt64.size]
  omega

/-! Several allocators. -/

structure Rover where
  plan : List String
  drawn : List (String × Nat)

namespace Rover

def move (ids : String → Alloc) (rover : Rover) : Option ((String → Alloc) × Rover) :=
  match rover.plan with
  | [] => none
  | name :: plan =>
    let (number, left) := (ids name).draw
    some (fun other => if other = name then left else ids other,
      ⟨plan, rover.drawn ++ [(name, number)]⟩)

def drawer (name : String) (rover : Rover) : Drawer where
  left := rover.plan.count name
  drawn := (rover.drawn.filter fun entry => entry.1 == name).map Prod.snd

def draws (name : String) (rover : Rover) : Bool :=
  rover.plan.head? == some name

variable {ids after : String → Alloc} {rover moved : Rover}

theorem move_eq_some : rover.move ids = some (after, moved) ↔ ∃ name plan,
    rover.plan = name :: plan ∧
      after = (fun other => if other = name then ⟨(ids name).next + 1⟩ else ids other) ∧
      moved = ⟨plan, rover.drawn ++ [(name, (ids name).next)]⟩ := by
  unfold move
  cases rover.plan with
  | nil => simp
  | cons name plan =>
    simp only [Alloc.draw, Option.some.injEq, Prod.mk.injEq]
    constructor
    · rintro ⟨rfl, rfl⟩
      exact ⟨name, plan, rfl, rfl, rfl⟩
    · rintro ⟨_, _, ⟨⟩, rfl, rfl⟩
      exact ⟨rfl, rfl⟩

theorem move_own {name : String} (result : rover.move ids = some (after, moved))
    (own : rover.draws name = true) :
    (rover.drawer name).move (ids name) = some (after name, moved.drawer name) := by
  obtain ⟨first, plan, planned, rfl, rfl⟩ := move_eq_some.mp result
  have same : first = name := by simpa [draws, planned] using own
  subst same
  refine Drawer.move_eq_some.mpr ⟨plan.count first, ?_, if_pos rfl, ?_⟩
  · rw [drawer, planned, List.count_cons_self]
  · simp [drawer]

theorem move_other {name : String} (result : rover.move ids = some (after, moved))
    (other : rover.draws name = false) :
    after name = ids name ∧ moved.drawer name = rover.drawer name := by
  obtain ⟨first, plan, planned, rfl, rfl⟩ := move_eq_some.mp result
  have different : first ≠ name := by simpa [draws, planned] using other
  exact ⟨if_neg (Ne.symm different), by simp [drawer, planned, different]⟩

end Rover

/-- Of several allocators one hands out what it would hand out if nobody drew from the others. -/
theorem run_rovers (name : String) (schedule : List Nat) (crowd : Crowd (String → Alloc) Rover) :
    (Crowd.run Rover.move schedule crowd).view (fun ids => ids name) (Rover.drawer name) =
      Crowd.run Drawer.move (Crowd.turnsOf Rover.move (Rover.draws name) schedule crowd)
        (crowd.view (fun ids => ids name) (Rover.drawer name)) :=
  Crowd.run_view Rover.move_own Rover.move_other schedule crowd

namespace Allocators

theorem lookup_put (allocators : Allocators) (name other : String) (ids : Alloc) :
    (allocators.put name ids).lookup other =
      if other = name then some ids else allocators.lookup other :=
  lookup_rebind allocators name other ids

theorem run_eq_answers (allocators : Allocators) (steps : List (String × AllocStep)) :
    run allocators steps = Parts.answers step allocators steps := by
  induction steps generalizing allocators with
  | nil => rfl
  | cons first rest ih => exact congrArg _ (ih _)

theorem separate : Parts.Separate step fun allocators name => allocators.lookup name where
  answer := by
    intro s t name same what
    cases what with
    | create => rfl
    | use how =>
      simp only [step, same]
      cases t.lookup name <;> rfl
  own := by
    intro s t name same what
    cases what with
    | create => simp only [step, lookup_put, if_true]
    | use how =>
      cases held : t.lookup name with
      | none => simp only [step, same, held]
      | some ids => simp only [step, same, held, lookup_put, if_true]
  other := by
    intro s name other different what
    cases what with
    | create => simp only [step, lookup_put, if_neg different]
    | use how =>
      simp only [step]
      cases s.lookup name with
      | none => rfl
      | some ids => simp only [lookup_put, if_neg different]

end Allocators

/-- However threads take turns at one allocator, each of them draws in its turns until it has its
quota, and its numbers rise; all numbers drawn are those from where the allocator stood up to where
it stands, each drawn once, and once there were turns enough they are told by the quotas alone. So
it is in a machine word with room for them all. What an allocator hands out does not depend on
draws from another, by whatever threads, and neither do the answers of steps that use it. -/
theorem draws_share_out_numbers (ids : Alloc) (quotas : List Nat)
    (fits : ids.next + quotas.sum ≤ 2 ^ 64 - 1) :
    (∀ schedule,
      let crowd := Crowd.run Drawer.move schedule (ids.crowd quotas)
      let drawn := crowd.threads.flatMap Drawer.drawn
      crowd.threads.map (·.drawn.length) =
        quotas.mapIdx (fun i quota => min quota (schedule.count i)) ∧
      drawn.Perm (List.range' ids.next drawn.length) ∧
      (∀ drawer ∈ crowd.threads, drawer.drawn.Pairwise (· < ·)) ∧
      crowd.shared.text = "IdentAlloc(" ++ toString (ids.next + drawn.length) ++ ")" ∧
      Crowd.run Drawer.moveWord schedule (ids.crowd quotas) = crowd) ∧
    (∀ schedule, Suffices schedule quotas →
      let crowd := Crowd.run Drawer.move schedule (ids.crowd quotas)
      let drawn := crowd.threads.flatMap Drawer.drawn
      crowd.threads.map (·.drawn.length) = quotas ∧
      drawn.Perm (List.range' ids.next quotas.sum) ∧
      drawn.mergeSort (fun a b => a ≤ b) = List.range' ids.next quotas.sum ∧
      crowd.shared.text = "IdentAlloc(" ++ toString (ids.next + quotas.sum) ++ ")") ∧
    (∀ threads each, quotas = List.replicate threads each →
      Allocators.use ids (.race threads each) =
        (.numbers (List.range' ids.next quotas.sum), ⟨ids.next + quotas.sum⟩)) ∧
    (∀ (name : String) schedule (crowd : Crowd (String → Alloc) Rover),
      (Crowd.run Rover.move schedule crowd).view (fun ids => ids name) (Rover.drawer name) =
        Crowd.run Drawer.move (crowd.turnsOf Rover.move (Rover.draws name) schedule)
          (crowd.view (fun ids => ids name) (Rover.drawer name))) ∧
    (∀ (allocators : Allocators) (keep : String → Bool) steps,
      (allocators.run steps).length = steps.length ∧
      allocators.run (steps.filter fun step => keep step.1) =
        Parts.answersTo keep steps (allocators.run steps)) := by
  refine ⟨?_, ?_, ?_, run_rovers, ?_⟩
  · intro schedule
    have handed := (handedOut_crowd ids quotas).run schedule
    exact ⟨lengths_crowd ids quotas schedule, handed.all, handed.rising, handed.text,
      run_moveWord fits schedule⟩
  · intro schedule enough
    have handed := (handedOut_crowd ids quotas).run schedule
    have count := enough.length_drawnBy ids
    have all := handed.all
    have sorted := handed.sorted
    have text := handed.text
    rw [count] at all sorted text
    exact ⟨enough.lengths ids, all, sorted, text⟩
  · rintro threads each rfl
    rw [Allocators.use_race, List.sum_replicate_nat]
  · intro allocators keep steps
    rw [Allocators.run_eq_answers, Allocators.run_eq_answers]
    exact ⟨Parts.length_answers _ allocators steps,
      Allocators.separate.answers_filter (fun _ _ => rfl) steps⟩

/-- Three draws take a word to its last number; the third turn passes, for its thread is done. -/
theorem draws_share_out_numbers_to_the_last :
    let ids : Alloc := ⟨2 ^ 64 - 4⟩
    let crowd := Crowd.run Drawer.move [1, 0, 1, 0] (ids.crowd [2, 1])
    ids.next + [2, 1].sum = 2 ^ 64 - 1 ∧ Suffices [1, 0, 1, 0] [2, 1] ∧
    crowd.threads.map (·.drawn) = [[2 ^ 64 - 3, 2 ^ 64 - 2], [2 ^ 64 - 4]] ∧
    (crowd.threads.flatMap (·.drawn)).mergeSort (fun a b => a ≤ b) =
      [2 ^ 64 - 4, 2 ^ 64 - 3, 2 ^ 64 - 2] ∧
    crowd.shared.text = "IdentAlloc(" ++ toString (2 ^ 64 - 1) ++ ")" ∧
    Crowd.run Drawer.moveWord [1, 0, 1, 0] (ids.crowd [2, 1]) = crowd := by
  intro ids crowd
  have fits : ids.next + [2, 1].sum ≤ 2 ^ 64 - 1 := by decide
  obtain ⟨always, ended, -⟩ := draws_share_out_numbers ids [2, 1] fits
  obtain ⟨-, -, -, -, word⟩ := always [1, 0, 1, 0]
  have enough : Suffices [1, 0, 1, 0] [2, 1] := by
    intro i quota here
    match i, here with
    | 0, rfl => decide
    | 1, rfl => decide
  obtain ⟨-, -, sorted, text⟩ := ended [1, 0, 1, 0] enough
  exact ⟨by decide, enough, by decide, sorted, text, word⟩

end SyntaxDialects
