import SyntaxDialects.Proofs.Session.Acts
import SyntaxDialects.Proofs.Session.Moments

/-!
Numbering. Identities count the dialects that are made: each is the number of those made before
it, canonical ones first, and what fails has no number. So an identity says which dialect it is,
and the allocator stands at the number of all that are made.
-/
namespace SyntaxDialects

def Step.creates : Step → Bool
  | .make recipe _ => recipe.creates
  | .look _ => false

namespace Store

/-- The dialect that a step creates, rather than finds. -/
def creation (store : Store) (step : Step) : Option Dialect :=
  if step.creates then store.gain step else none

def creations (store : Store) : List Step → List Dialect
  | [] => []
  | first :: rest => (store.creation first).toList ++ (store.step first).2.creations rest

theorem step_creates (store : Store) (step : Step) :
    (store.creation step = none ∧ (store.step step).2.ids = store.ids) ∨
      ∃ flags, store.creation step = some ⟨⟨store.ids.next⟩, flags⟩ ∧
        (store.step step).2.ids = store.ids.rest := by
  rcases store.step_cases step with
    ⟨same, gainless⟩ | ⟨recipe, slot, made, ids, rfl, outcome, next, gained⟩
  · simp [creation, gainless, same]
  · rw [next, ids_keep]
    rcases outcome.origin with ⟨finds, kept, _⟩ | ⟨creates, drawn, fresh⟩
    · simp [creation, Step.creates, finds, kept]
    · refine .inr ⟨made.dialect.flags, ?_, drawn⟩
      rw [creation, Step.creates, creates, if_pos rfl, gained, ← fresh]

theorem id_of_creation {store : Store} {step : Step} {dialect : Dialect}
    (created : store.creation step = some dialect) : dialect.id = ⟨store.ids.next⟩ := by
  rcases store.step_creates step with ⟨idle, _⟩ | ⟨flags, fresh, _⟩
  · rw [idle] at created
    cases created
  · rw [fresh] at created
    cases created
    rfl

theorem gain_origin {store : Store} {step : Step} {dialect : Dialect}
    (gained : store.gain step = some dialect) :
    (∃ ref, store.find ref = .ok dialect) ∨ store.creation step = some dialect := by
  obtain ⟨recipe, slot, log, ids, rfl, outcome, _⟩ := gain_outcome gained
  rcases outcome.origin with ⟨_, _, found⟩ | ⟨creates, _, _⟩
  · exact .inl found
  · rw [creation, Step.creates, creates, if_pos rfl]
    exact .inr gained

theorem step_of_creation (store : Store) {recipe : Recipe} (slot : Option String)
    (creates : recipe.creates = true) :
    (∃ dialect, store.creation (.make recipe slot) = some dialect ∧
      (store.step (.make recipe slot)).1.result = .ok (.made dialect.id dialect.name?)) ∨
    (store.creation (.make recipe slot) = none ∧
      ∃ failure, (store.step (.make recipe slot)).1.result = .error failure) := by
  rw [creation, Step.creates, if_pos creates]
  exact store.step_make recipe slot

theorem find_step {store : Store} {step : Step} {ref : Ref} {dialect : Dialect}
    (found : (store.step step).2.find ref = .ok dialect) :
    store.find ref = .ok dialect ∨ store.gain step = some dialect := by
  cases ref with
  | canonical name => exact .inl found
  | slot name => simpa only [find_slot] using slot?_step (find_slot.mp found)

theorem gains_of_creations {store : Store} {steps : List Step} {dialect : Dialect}
    (created : dialect ∈ store.creations steps) : dialect ∈ store.gains steps := by
  induction steps generalizing store with
  | nil => cases created
  | cons first rest ih =>
    rcases List.mem_append.mp created with now | later
    · have gained := (Option.ite_none_right_eq_some.mp (Option.mem_toList.mp now)).2
      exact List.mem_append_left _ (Option.mem_toList.mpr gained)
    · exact List.mem_append_right _ (ih later)

theorem creations_append (store : Store) (first second : List Step) :
    store.creations (first ++ second) =
      store.creations first ++ (store.run first).2.creations second := by
  induction first generalizing store with
  | nil => rfl
  | cons step first ih =>
    rw [List.cons_append, creations, creations, ih, run_cons, List.append_assoc]

theorem creations_take_succ {store : Store} {steps : List Step} {i : Nat} {step : Step}
    (here : steps[i]? = some step) :
    store.creations (steps.take (i + 1)) =
      store.creations (steps.take i) ++ ((store.run (steps.take i)).2.creation step).toList := by
  rw [List.take_add_one, here, creations_append, Option.toList_some]
  exact congrArg _ (List.append_nil _)

theorem length_creations_take_succ {steps : List Step} {i : Nat} {step : Step}
    (here : steps[i]? = some step) :
    (initial.creations (steps.take (i + 1))).length =
      (initial.creations (steps.take i)).length +
        ((reached steps i).creation step).toList.length := by
  rw [creations_take_succ here, List.length_append]
  rfl

theorem ids_creations (store : Store) (steps : List Step) :
    (store.creations steps).map (·.id.index) =
      List.range' store.ids.next (store.creations steps).length := by
  induction steps generalizing store with
  | nil => rfl
  | cons first rest ih =>
    have later := ih (store.step first).2
    rcases store.step_creates first with ⟨idle, kept⟩ | ⟨flags, created, drawn⟩
    · simpa [creations, idle, kept] using later
    · simpa [creations, created, drawn, Alloc.rest, List.range'_succ] using later

theorem ids_run_eq (store : Store) (steps : List Step) :
    (store.run steps).2.ids.next = store.ids.next + (store.creations steps).length := by
  induction steps generalizing store with
  | nil => rfl
  | cons first rest ih =>
    rw [run_cons, ih, creations, List.length_append]
    rcases store.step_creates first with ⟨idle, kept⟩ | ⟨flags, created, drawn⟩
    · simp [idle, kept]
    · simp [created, drawn, Alloc.rest, Nat.add_assoc]

def Within (dialects : List Dialect) (store : Store) : Prop :=
  ∀ {ref dialect}, store.find ref = .ok dialect → dialect ∈ dialects

theorem Within.gain {dialects : List Dialect} {store : Store} (within : store.Within dialects)
    {step : Step} {dialect : Dialect} (gained : store.gain step = some dialect) :
    dialect ∈ dialects ++ (store.creation step).toList := by
  rcases gain_origin gained with ⟨ref, found⟩ | created
  · exact List.mem_append_left _ (within found)
  · exact List.mem_append_right _ (Option.mem_toList.mpr created)

theorem Within.step {dialects : List Dialect} {store : Store} (within : store.Within dialects)
    (step : Step) : (store.step step).2.Within (dialects ++ (store.creation step).toList) := by
  intro ref dialect found
  rcases find_step found with before | gained
  · exact List.mem_append_left _ (within before)
  · exact within.gain gained

theorem Within.run {dialects : List Dialect} {store : Store} (within : store.Within dialects)
    (steps : List Step) : (store.run steps).2.Within (dialects ++ store.creations steps) := by
  induction steps generalizing store dialects with
  | nil =>
    intro ref dialect found
    exact List.mem_append_left _ (within found)
  | cons first rest ih =>
    intro ref dialect found
    have later := ih (within.step first) found
    rwa [List.append_assoc] at later

theorem Within.gains {dialects : List Dialect} {store : Store} (within : store.Within dialects)
    {steps : List Step} {dialect : Dialect} (gained : dialect ∈ store.gains steps) :
    dialect ∈ dialects ++ store.creations steps := by
  induction steps generalizing store dialects with
  | nil => cases gained
  | cons first rest ih =>
    rw [creations, ← List.append_assoc]
    rcases List.mem_append.mp gained with now | later
    · exact List.mem_append_left _ (within.gain (Option.mem_toList.mp now))
    · exact ih (within.step first) later

end Store

namespace Catalog

theorem ids_instancesFrom (canons : List Canon) (ids : Alloc) :
    (instancesFrom canons ids).1.map (·.2.id.index) = List.range' ids.next canons.length ∧
      (instancesFrom canons ids).2.next = ids.next + canons.length := by
  induction canons generalizing ids with
  | nil => exact ⟨rfl, rfl⟩
  | cons c rest ih =>
    obtain ⟨indices, next⟩ := ih ids.rest
    constructor
    · simpa [instancesFrom, Dialect.create, Alloc.draw, Alloc.rest, List.range'_succ] using indices
    · rw [List.length_cons, Nat.add_comm rest.length, ← Nat.add_assoc]
      exact next

theorem mem_canonical {dialect : Dialect} :
    dialect ∈ canonical.map Prod.snd ↔ ∃ c : Canon, c.dialect = dialect := by
  have instances : canonical.map Prod.snd = Canon.all.map Canon.dialect := rfl
  simp [instances, Canon.mem_all]

end Catalog

namespace Dialect

def allMade (steps : List Step) : List Dialect :=
  Catalog.canonical.map Prod.snd ++ Store.initial.creations steps

theorem length_allMade (steps : List Step) :
    (allMade steps).length = (Store.initial.run steps).2.ids.next := by
  rw [Store.ids_run_eq, allMade, List.length_append]
  rfl

theorem ids_allMade (steps : List Step) :
    (allMade steps).map (·.id.index) = List.range (allMade steps).length := by
  have canonical := (Catalog.ids_instancesFrom Canon.all Alloc.fresh).1
  have created := Store.ids_creations Store.initial steps
  have first : (Catalog.canonical.map Prod.snd).map (·.id.index) = List.range' 0 13 := by
    rw [List.map_map]
    exact canonical
  have start : Store.initial.ids.next = 0 + 1 * 13 := rfl
  rw [allMade, List.map_append, first, created, start, List.range'_append, List.length_append,
    List.range_eq_range']
  rfl

theorem id_of_allMade {steps : List Step} {k : Nat} {dialect : Dialect}
    (kth : (allMade steps)[k]? = some dialect) : dialect.id = ⟨k⟩ := by
  have index : ((allMade steps).map (·.id.index))[k]? = some dialect.id.index := by
    rw [List.getElem?_map, kth, Option.map_some]
  rw [ids_allMade, List.getElem?_range (List.getElem?_eq_some_iff.mp kth).1] at index
  rw [Option.some.inj index]

theorem id_of_creations {steps : List Step} {k : Nat} {dialect : Dialect}
    (kth : (Store.initial.creations steps)[k]? = some dialect) : dialect.id = ⟨13 + k⟩ := by
  have canonical : (Catalog.canonical.map Prod.snd).length = 13 := rfl
  have place : (allMade steps)[13 + k]? = some dialect := by
    rw [allMade, List.getElem?_append_right (by omega), canonical, Nat.add_sub_cancel_left, kth]
  exact id_of_allMade place

theorem pairwise_allMade (steps : List Step) :
    (allMade steps).Pairwise fun a b => a.id.index < b.id.index := by
  rw [← List.pairwise_map, ids_allMade]
  exact List.pairwise_lt_range

theorem eq_of_id {steps : List Step} {a b : Dialect} (aMade : a ∈ allMade steps)
    (bMade : b ∈ allMade steps) (same : a.id = b.id) : a = b := by
  obtain ⟨i, aHere⟩ := List.mem_iff_getElem?.mp aMade
  obtain ⟨j, bHere⟩ := List.mem_iff_getElem?.mp bMade
  have places : i = j := by
    have indices := id_of_allMade aHere
    rw [same, id_of_allMade bHere] at indices
    exact (congrArg DialectId.index indices).symm
  rw [places, bHere] at aHere
  exact (Option.some.inj aHere).symm

theorem id_lt_of_allMade {steps : List Step} {dialect : Dialect}
    (member : dialect ∈ allMade steps) :
    dialect.id.index < (Store.initial.run steps).2.ids.next := by
  obtain ⟨k, here⟩ := List.mem_iff_getElem?.mp member
  rw [id_of_allMade here, ← length_allMade]
  exact (List.getElem?_eq_some_iff.mp here).1

theorem allMade_append (steps more : List Step) :
    allMade (steps ++ more) =
      allMade steps ++ (Store.initial.run steps).2.creations more := by
  rw [allMade, Store.creations_append, allMade, List.append_assoc]

theorem within_initial : Store.initial.Within (Catalog.canonical.map Prod.snd) := by
  intro ref dialect found
  rcases Store.find_known Store.sound_initial found with canonical | ⟨later, below⟩
  · exact Catalog.mem_canonical.mpr canonical
  · exact absurd below (Nat.not_lt.mpr later)

theorem mem_allMade_of_find {steps : List Step} {ref : Ref} {dialect : Dialect}
    (found : (Store.initial.run steps).2.find ref = .ok dialect) : dialect ∈ allMade steps :=
  within_initial.run steps found

theorem met_iff {steps : List Step} {dialect : Dialect} :
    dialect.Met steps ↔ dialect ∈ allMade steps := by
  constructor
  · rintro (⟨c, canonical⟩ | gained)
    · rw [c.dialect?_eq] at canonical
      have first := Catalog.mem_canonical.mpr ⟨c, Option.some.inj canonical⟩
      exact List.mem_append_left _ first
    · exact within_initial.gains gained
  · intro member
    rcases List.mem_append.mp member with first | created
    · obtain ⟨c, same⟩ := Catalog.mem_canonical.mp first
      exact .inl ⟨c, by rw [c.dialect?_eq, same]⟩
    · exact .inr (Store.gains_of_creations created)

/-- A dialect of the next identity is new: it has no name and is none of those met so far. -/
theorem new_of_id {steps : List Step} {i : Nat} {dialect : Dialect}
    (next : dialect.id = ⟨(Store.reached steps i).ids.next⟩) :
    dialect.name? = none ∧
      ∀ earlier : Dialect, earlier.Met (steps.take i) → earlier.same dialect = false := by
  constructor
  · apply name?_eq_none
    rw [next]
    exact (Store.run_sound Store.sound_initial (steps.take i)).later
  · intro earlier met
    have below := id_lt_of_allMade (met_iff.mp met)
    rw [same, next, beq_eq_false_iff_ne]
    intro equal
    rw [equal] at below
    exact Nat.lt_irrefl _ below

end Dialect

theorem shown_by_creating {steps : List Step} {i : Nat} {recipe : Recipe} {slot : Option String}
    (here : steps[i]? = some (.make recipe slot)) (creates : recipe.creates = true) :
    let count (i : Nat) := (Store.initial.creations (steps.take i)).length
    ∃ shown, (session steps)[i]? = some shown ∧
      ((shown.result = .ok (.made ⟨13 + count i⟩ none) ∧ count (i + 1) = count i + 1) ∨
        ((∃ failure, shown.result = .error failure) ∧ count (i + 1) = count i)) := by
  intro count
  have next : (Store.reached steps i).ids.next = 13 + count i :=
    Store.ids_run_eq Store.initial (steps.take i)
  have counted : count (i + 1) = count i +
      ((Store.reached steps i).creation (.make recipe slot)).toList.length :=
    Store.length_creations_take_succ here
  refine ⟨_, by rw [Store.session_get?, here, Option.map_some], ?_⟩
  rcases (Store.reached steps i).step_of_creation slot creates with
    ⟨dialect, created, shown⟩ | ⟨idle, failed⟩
  · have nameless : dialect.name? = none := Dialect.name?_eq_none (by
      rw [Store.id_of_creation created, next]
      exact Nat.le_add_right _ _)
    rw [shown, counted, created, nameless, Store.id_of_creation created, next]
    exact .inl ⟨rfl, rfl⟩
  · rw [counted, idle]
    exact .inr ⟨failed, rfl⟩

theorem ids_after_failure {steps : List Step} {i : Nat} {shown : Shown} {failure : Failure}
    (here : (session steps)[i]? = some shown) (failed : shown.result = .error failure) :
    (Store.reached steps (i + 1)).ids = (Store.reached steps i).ids := by
  rw [Store.session_get?] at here
  obtain ⟨step, found, rfl⟩ := Option.map_eq_some_iff.mp here
  rw [Store.reached_succ found, (Store.step_error failed).1]

/-- Identities number all dialects in the order of their making, from the canonical ones on: a
step that creates shows the next number or fails, and no failure, however late in a step, takes a
number away. -/
theorem identities_count_creations (steps : List Step) :
    let made := Dialect.allMade steps
    let store := (Store.initial.run steps).2
    let count (i : Nat) := (Store.initial.creations (steps.take i)).length
    (∀ k (dialect : Dialect), (Store.initial.creations steps)[k]? = some dialect →
      dialect.id = ⟨13 + k⟩) ∧
    made.Pairwise (fun a b => a.id.index < b.id.index) ∧
    (made.length ≤ UInt64.size →
      made.Pairwise fun a b => UInt64.ofNat a.id.index < UInt64.ofNat b.id.index) ∧
    (∀ dialect, dialect.Met steps ↔ dialect ∈ made) ∧
    (∀ ref dialect, store.find ref = .ok dialect → dialect ∈ made) ∧
    (∀ dialect ∈ made, dialect.id.index < store.ids.next) ∧
    store.ids.next = made.length ∧
    (∀ i recipe slot, steps[i]? = some (.make recipe slot) → recipe.creates = true →
      ∃ shown, (session steps)[i]? = some shown ∧
        ((shown.result = .ok (.made ⟨13 + count i⟩ none) ∧ count (i + 1) = count i + 1) ∨
          ((∃ failure, shown.result = .error failure) ∧ count (i + 1) = count i))) ∧
    (∀ i flags slot, steps[i]? = some (.make (.new flags) slot) → count (i + 1) = count i + 1) ∧
    (∀ i shown failure, (session steps)[i]? = some shown → shown.result = .error failure →
      (Store.reached steps (i + 1)).ids = (Store.reached steps i).ids) ∧
    Store.initial.enactAll steps = Store.initial.run steps ∧
    (∀ (store : Store) recipe log failure left,
      (store.acts recipe).run ⟨store.ids, log⟩ = (.error failure, left) → left.ids = store.ids) ∧
    (∀ base change (trail : Trail) (failure : Failure) left,
      (Acts.derive base change).run trail = (.error failure, left) → left.ids = trail.ids) := by
  intro made store count
  have below {dialect : Dialect} : dialect ∈ made → dialect.id.index < store.ids.next :=
    Dialect.id_lt_of_allMade
  refine ⟨fun _ _ => Dialect.id_of_creations, Dialect.pairwise_allMade steps, ?_,
    fun _ => Dialect.met_iff, fun _ _ => Dialect.mem_allMade_of_find, fun _ => below,
    (Dialect.length_allMade steps).symm, fun _ _ _ => shown_by_creating,
    fun _ _ _ => Store.length_creations_take_succ, fun _ _ _ => ids_after_failure, Store.initial.enactAll_eq_run steps, ?_, ?_⟩
  · intro few
    apply (Dialect.pairwise_allMade steps).imp_of_mem
    intro a b aMade bMade less
    have bound : store.ids.next ≤ UInt64.size := by
      rw [← Dialect.length_allMade]
      exact few
    exact (UInt64.ofNat_lt_iff_lt (Nat.lt_of_lt_of_le (below aMade) bound)
      (Nat.lt_of_lt_of_le (below bMade) bound)).mpr less
  · intro store recipe log failure left failed
    rw [Store.acts_run] at failed
    rw [Trail.settle_error failed]
  · intro base change trail failure left failed
    rw [Acts.run_derive] at failed
    rw [Trail.settle_error failed]

/-- A panic, an unknown base and an alias stand between the two creations of this run. -/
theorem identities_count_creations_among_failures :
    let run := [
      Step.make (.unquote .term (.canonical "Scala212") true) (some "$q"),
      .make (.mustUnquote .pattern (.slot "$q") false) (some "$q"),
      .make (.resolve "Scala2" .null) none,
      .make (.alias (.slot "$q")) (some "$r"),
      .make (.derive (.slot "$r") .null) none]
    (∃ first second, Store.initial.creations run = [first, second] ∧
      first.id = ⟨13⟩ ∧ second.id = ⟨14⟩) ∧
    (Store.initial.run run).2.ids.next = 15 := by
  intro run
  obtain ⟨numbered, _, _, _, _, _, counted, _⟩ := identities_count_creations run
  have two : (Store.initial.creations run).length = 2 := by rfl
  obtain ⟨first, second, both⟩ := List.length_eq_two.mp two
  refine ⟨⟨first, second, both, numbered 0 first ?_, numbered 1 second ?_⟩, ?_⟩
  · rw [both, List.getElem?_cons_zero]
  · rw [both, List.getElem?_cons_succ, List.getElem?_cons_zero]
  · rw [counted, Dialect.allMade, List.length_append, two]
    rfl

end SyntaxDialects
