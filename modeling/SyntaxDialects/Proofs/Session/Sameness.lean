import SyntaxDialects.Proofs.Session.Distinct
import SyntaxDialects.Proofs.Session.Lineage

/-!
Sameness. Each reference of a session goes back, through aliases and rebound slots, to one
creation: a canonical dialect, or the step that made the dialect. Dialects are the same exactly if
their creations are, and flags are the same exactly if all their fields are, so a census counts
creations and contents.
-/
namespace SyntaxDialects

inductive Creation where
  | canonical (c : Canon)
  | step (i : Nat)
  deriving DecidableEq

def Creation.dialect? (steps : List Step) : Creation → Option Dialect
  | canonical c => c.dialect?
  | step i => steps[i]?.bind (Store.reached steps i).creation

def Recipe.follows? : Recipe → Option Ref
  | .standard name => some (.canonical name)
  | .alias of => some of
  | _ => none

/-- The creation that a reference goes back to after `i` steps, told by names and steps alone. The
name of a slot goes back to the last step that bound it. -/
def origin? (steps : List Step) : Nat → Ref → Option Creation
  | _, .canonical name => (Canon.all.find? fun c => c.name == name).map .canonical
  | 0, .slot _ => none
  | i + 1, .slot name =>
    match steps[i]? with
    | some (.make recipe (some bound)) =>
      if bound = name ∧ ((Store.reached steps i).gain (.make recipe (some bound))).isSome then
        match recipe.follows? with
        | some ref => origin? steps i ref
        | none => some (.step i)
      else origin? steps i (.slot name)
    | _ => origin? steps i (.slot name)

/-! A reference finds the dialect of its creation. -/

section

variable {steps : List Step} {i : Nat}

theorem origin?_canonical {name : String} {creation : Creation} :
    origin? steps i (.canonical name) = some creation ↔
      ∃ c : Canon, c.name = name ∧ .canonical c = creation := by
  have found : ((Canon.all.find? fun c => c.name == name).map .canonical = some creation) ↔ _ :=
    find?_key_eq_some Canon.name Creation.canonical
      fun _ _ _ _ same => congrArg _ (Canon.name_injective same)
  cases i <;> simpa [origin?, Canon.mem_all] using found

theorem origin?_kept {name : String}
    (unbound : ∀ recipe, steps[i]? = some (.make recipe (some name)) →
      (Store.reached steps i).gain (.make recipe (some name)) = none) :
    origin? steps (i + 1) (.slot name) = origin? steps i (.slot name) := by
  rw [origin?]
  split
  · rename_i recipe bound here
    rw [if_neg]
    rintro ⟨rfl, bound?⟩
    rw [unbound recipe here] at bound?
    cases bound?
  · rfl

theorem origin?_bound {name : String} {recipe : Recipe} {dialect : Dialect}
    (here : steps[i]? = some (.make recipe (some name)))
    (gained : (Store.reached steps i).gain (.make recipe (some name)) = some dialect) :
    origin? steps (i + 1) (.slot name) =
      match recipe.follows? with
      | some ref => origin? steps i ref
      | none => some (.step i) := by
  rw [origin?, here]
  exact if_pos ⟨rfl, by rw [gained, Option.isSome_some]⟩

theorem Outcome.follows {store : Store} {recipe : Recipe} {made : Made} {ids : Alloc}
    (outcome : Outcome store recipe made ids) :
    (∃ ref, recipe.follows? = some ref ∧ store.find ref = .ok made.dialect) ∨
      (recipe.follows? = none ∧ recipe.creates = true) := by
  cases outcome with
  | standard named => exact .inl ⟨_, rfl, Store.find_canonical.mpr named⟩
  | «alias» found => exact .inl ⟨_, rfl, found⟩
  | _ => exact .inr ⟨rfl, rfl⟩

theorem Store.reached_beyond (beyond : steps[i]? = none) :
    reached steps (i + 1) = reached steps i := by
  rw [reached, List.take_add_one, beyond, Option.toList_none, List.append_nil, reached]

theorem find_canonical_iff_origin {name : String} {dialect : Dialect} :
    (Store.reached steps i).find (.canonical name) = .ok dialect ↔
      ∃ creation, origin? steps i (.canonical name) = some creation ∧
        creation.dialect? steps = some dialect := by
  rw [Store.find_canonical, Dialect.named_eq_ok]
  simp only [origin?_canonical]
  constructor
  · rintro ⟨c, named, rfl⟩
    exact ⟨.canonical c, ⟨c, named, rfl⟩, c.dialect?_eq⟩
  · rintro ⟨_, ⟨c, named, rfl⟩, instance?⟩
    exact ⟨c, named, Option.some.inj (c.dialect?_eq.symm.trans instance?)⟩

/-- After any number of steps a reference finds the dialect of the creation it goes back to, and
nothing else. -/
theorem find_iff_origin {ref : Ref} {dialect : Dialect} :
    (Store.reached steps i).find ref = .ok dialect ↔
      ∃ creation, origin? steps i ref = some creation ∧ creation.dialect? steps = some dialect := by
  induction i generalizing ref with
  | zero =>
    cases ref with
    | canonical name => exact find_canonical_iff_origin
    | slot name => exact iff_of_false nofun (by rintro ⟨_, ⟨⟩, _⟩)
  | succ i ih =>
    cases ref with
    | canonical name => exact find_canonical_iff_origin
    | slot name =>
      cases here : steps[i]? with
      | none =>
        rw [Store.reached_beyond here, origin?_kept (by rw [here]; exact nofun), ih]
      | some step =>
        rw [Store.reached_succ here, Store.find_slot]
        rcases (Store.reached steps i).step_cases step with
          ⟨same, gainless⟩ | ⟨recipe, slot, made, ids, rfl, outcome, next, gained⟩
        · rw [same, ← Store.find_slot, ih, origin?_kept]
          intro recipe there
          rw [here] at there
          cases there
          exact gainless
        · rw [next, Store.slot?_keep]
          by_cases binds : slot = some name
          · subst binds
            rw [if_pos rfl, origin?_bound here gained]
            rcases outcome.follows with ⟨ref, follows, found⟩ | ⟨follows, creates⟩
            · rw [follows, ← ih, found, Except.ok.injEq, Option.some.injEq]
            · have made? : (Creation.step i).dialect? steps = some made.dialect := by
                rw [Creation.dialect?, here, Option.bind_some, Store.creation, Step.creates, creates,
                  if_pos rfl, gained]
              rw [follows]
              simp [made?]
          · rw [if_neg binds, origin?_kept, ← ih, Store.find_slot]
            · rfl
            · intro recipe there
              rw [here] at there
              cases there
              exact absurd rfl binds

theorem Creation.eq_of_id {a b : Creation} {first second : Dialect}
    (aMade : a.dialect? steps = some first) (bMade : b.dialect? steps = some second)
    (same : first.id = second.id) : a = b := by
  have early {c : Canon} {dialect : Dialect} (instance? : c.dialect? = some dialect) :
      dialect.id.index < Canon.all.length := by
    rw [← Option.some.inj (c.dialect?_eq.symm.trans instance?)]
    exact c.dialect_id_lt
  have later {j : Nat} {dialect : Dialect}
      (made : (Creation.step j).dialect? steps = some dialect) :
      Canon.all.length ≤ dialect.id.index := by
    obtain ⟨_, _, created⟩ := Option.bind_eq_some_iff.mp made
    exact Store.later_of_creation created
  cases a with
  | canonical c =>
    cases b with
    | canonical d =>
      rw [dialect?, Canon.dialect?_eq, Option.some.injEq] at aMade bMade
      rw [← aMade, ← bMade] at same
      rw [Canon.eq_of_dialect_id same]
    | step j =>
      have below := early aMade
      have above := later bMade
      rw [same] at below
      omega
  | step i =>
    cases b with
    | canonical d =>
      have below := early bMade
      have above := later aMade
      rw [same] at above
      omega
    | step j =>
      obtain ⟨_, here, created⟩ := Option.bind_eq_some_iff.mp aMade
      obtain ⟨_, there, createdToo⟩ := Option.bind_eq_some_iff.mp bMade
      rw [Store.place_of_creation here created there createdToo same]

end

/-! Counting. -/

theorem Dialect.same_eq_true (a b : Dialect) : a.same b = true ↔ a.id = b.id := by
  rw [same, beq_iff_eq]

theorem Flags.beq_eq_true (a b : Flags) : (a == b) = true ↔ a.get = b.get := by
  rw [beq_iff_eq]
  exact ⟨congrArg get, fun agree => ext_get (congrFun agree)⟩

theorem Flags.hashInput_inj {a b : Flags} : a.hashInput = b.hashInput ↔ a.get = b.get := by
  constructor
  · intro same
    rw [hashInput, hashInput, Prod.mk.injEq, List.map_inj_left] at same
    funext f
    cases f with
    | allow s => exact same.1 s s.mem_all
    | separator => exact same.2
  · intro agree
    rw [ext_get (congrFun agree)]

/-- Comparing only members of one hash makes no difference where equal members have one hash. -/
theorem distinct_of_hash {α β κ : Type} [DecidableEq κ] {same : α → α → Bool} {input : α → β}
    (alike : ∀ a b, same a b = true → input a = input b) (hash : β → κ) (members : List α) :
    distinct (fun a b => hash (input a) == hash (input b) && same a b) members =
      distinct same members := by
  have tested : (fun a b => hash (input a) == hash (input b) && same a b) = same := by
    funext a b
    cases tells : same a b with
    | false => rw [Bool.and_false]
    | true => rw [alike a b tells, beq_self_eq_true, Bool.true_and]
  rw [tested]

namespace Census

theorem dialects_eq (dialects : List Dialect) :
    (Census.of dialects).dialects = {id | ∃ dialect ∈ dialects, dialect.id = id}.ncard :=
  length_distinct Dialect.same_eq_true dialects

theorem flagSets_eq (dialects : List Dialect) :
    (Census.of dialects).flagSets =
      {contents | ∃ dialect ∈ dialects, dialect.flags.get = contents}.ncard := by
  have counted := length_distinct Flags.beq_eq_true (dialects.map (·.flags))
  simp only [List.mem_map, exists_exists_and_eq_and] at counted
  exact counted

theorem flagSets_le {dialects : List Dialect}
    (one : ∀ a ∈ dialects, ∀ b ∈ dialects, a.id = b.id → a = b) :
    (Census.of dialects).flagSets ≤ (Census.of dialects).dialects := by
  classical
  let members := distinct Dialect.same dialects
  have contents : {contents | ∃ dialect ∈ dialects, dialect.flags.get = contents} =
      (fun dialect : Dialect => dialect.flags.get) '' (members.toFinset : Set Dialect) := by
    ext contents
    simp only [Set.mem_ofPred_eq, Set.mem_image, List.coe_toFinset]
    constructor
    · rintro ⟨dialect, member, same⟩
      obtain ⟨kept, keptIn, id⟩ := exists_mem_distinct Dialect.same_eq_true member
      obtain rfl := one kept (mem_of_mem_distinct keptIn) dialect member id
      exact ⟨kept, keptIn, same⟩
    · rintro ⟨kept, keptIn, same⟩
      exact ⟨kept, mem_of_mem_distinct keptIn, same⟩
  calc (Census.of dialects).flagSets
      = ((fun dialect : Dialect => dialect.flags.get) '' (members.toFinset : Set Dialect)).ncard := by
        rw [flagSets_eq, contents]
    _ ≤ (members.toFinset : Set Dialect).ncard := Set.ncard_image_le (Finset.finite_toSet _)
    _ = members.toFinset.card := Set.ncard_coe_finset _
    _ ≤ members.length := members.toFinset_card_le

end Census

/-- As many identities as creations: each creation among the references has one. -/
theorem ncard_creations {steps : List Step} {i : Nat} {refs : List Ref} {dialects : List Dialect}
    (found : refs.mapM (Store.reached steps i).find = .ok dialects) :
    {creation | ∃ ref ∈ refs, origin? steps i ref = some creation}.ncard =
      {id | ∃ dialect ∈ dialects, dialect.id = id}.ncard := by
  let idOf (creation : Creation) : DialectId := (creation.dialect? steps).elim ⟨0⟩ Dialect.id
  have idOf_eq {creation : Creation} {dialect : Dialect}
      (made : creation.dialect? steps = some dialect) : idOf creation = dialect.id := by
    simp only [idOf, made, Option.elim_some]
  have each {ref : Ref} (member : ref ∈ refs) {creation : Creation}
      (goes : origin? steps i ref = some creation) :
      ∃ dialect ∈ dialects, creation.dialect? steps = some dialect := by
    obtain ⟨dialect, inside, here⟩ := Except.exists_mem_of_mapM found member
    obtain ⟨other, goesToo, made⟩ := find_iff_origin.mp here
    rw [goes] at goesToo
    cases goesToo
    exact ⟨dialect, inside, made⟩
  have ids : {id | ∃ dialect ∈ dialects, dialect.id = id} =
      idOf '' {creation | ∃ ref ∈ refs, origin? steps i ref = some creation} := by
    ext id
    constructor
    · rintro ⟨dialect, inside, rfl⟩
      obtain ⟨ref, member, here⟩ := (Except.mem_of_mapM found).mp inside
      obtain ⟨creation, goes, made⟩ := find_iff_origin.mp here
      exact ⟨creation, ⟨ref, member, goes⟩, idOf_eq made⟩
    · rintro ⟨creation, ⟨ref, member, goes⟩, rfl⟩
      obtain ⟨dialect, inside, made⟩ := each member goes
      exact ⟨dialect, inside, (idOf_eq made).symm⟩
  rw [ids, Set.InjOn.ncard_image]
  rintro a ⟨aRef, aIn, aGoes⟩ b ⟨bRef, bIn, bGoes⟩ same
  obtain ⟨first, _, aMade⟩ := each aIn aGoes
  obtain ⟨second, _, bMade⟩ := each bIn bGoes
  rw [idOf_eq aMade, idOf_eq bMade] at same
  exact Creation.eq_of_id aMade bMade same

/-- Two references of a session find the same dialect exactly if they go back to one creation, and
then all that they show is the same; flags are the same by their contents. So a set of dialects
counts creations, whatever the hash, and a set of flags counts contents, of which there are never
more. -/
theorem sameness_is_of_creation (steps : List Step) (i : Nat) :
    let store := Store.reached steps i
    let origin := origin? steps i
    (∀ ref dialect, store.find ref = .ok dialect ↔
      ∃ creation, origin ref = some creation ∧ creation.dialect? steps = some dialect) ∧
    (∀ aRef bRef a b, store.find aRef = .ok a → store.find bRef = .ok b →
      (a.same b = true ↔ origin aRef = origin bRef) ∧
      (a.same b = true ↔ a.hashInput = b.hashInput) ∧
      (a.same b = true → a.flags = b.flags ∧ a.name? = b.name? ∧
        ∀ rendering : Rendering, rendering.text a = rendering.text b) ∧
      ((a.flags == b.flags) = true ↔ ∀ f, a.flags.get f = b.flags.get f) ∧
      (a.flags.hashInput = b.flags.hashInput ↔ ∀ f, a.flags.get f = b.flags.get f)) ∧
    (∀ (refs : List Ref) dialects, refs.mapM store.find = .ok dialects →
      (Census.of dialects).dialects =
        {creation | ∃ ref ∈ refs, origin ref = some creation}.ncard ∧
      (Census.of dialects).dialects = {id | ∃ dialect ∈ dialects, dialect.id = id}.ncard ∧
      (Census.of dialects).flagSets =
        {contents | ∃ dialect ∈ dialects, dialect.flags.get = contents}.ncard ∧
      (Census.of dialects).flagSets ≤ (Census.of dialects).dialects) ∧
    ∀ (dialects : List Dialect) (hash : DialectId → Nat) (hashFlags : List Bool × String → Nat),
      (distinct (fun a b => hash a.hashInput == hash b.hashInput && a.same b) dialects).length =
        (Census.of dialects).dialects ∧
      (distinct (fun a b => hashFlags a.hashInput == hashFlags b.hashInput && a == b)
        (dialects.map (·.flags))).length = (Census.of dialects).flagSets := by
  intro store origin
  have one {aRef bRef : Ref} {a b : Dialect} (aFound : store.find aRef = .ok a)
      (bFound : store.find bRef = .ok b) (same : a.id = b.id) : a = b :=
    Dialect.eq_of_id (Dialect.mem_allMade_of_reached aFound)
      (Dialect.mem_allMade_of_reached bFound) same
  refine ⟨fun _ _ => find_iff_origin, ?_, ?_, ?_⟩
  · intro aRef bRef a b aFound bFound
    obtain ⟨aOrigin, (aHere : origin aRef = _), aMade⟩ := find_iff_origin.mp aFound
    obtain ⟨bOrigin, (bHere : origin bRef = _), bMade⟩ := find_iff_origin.mp bFound
    have sameFlags : a.flags.get = b.flags.get ↔ ∀ f, a.flags.get f = b.flags.get f :=
      funext_iff
    refine ⟨?_, Dialect.same_eq_true a b, ?_, ?_, ?_⟩
    · rw [Dialect.same_eq_true]
      constructor
      · intro same
        rw [aHere, bHere, Creation.eq_of_id aMade bMade same]
      · intro same
        rw [aHere, bHere, Option.some.injEq] at same
        rw [same, bMade, Option.some.injEq] at aMade
        rw [aMade]
    · intro same
      rw [one aFound bFound ((Dialect.same_eq_true a b).mp same)]
      exact ⟨rfl, rfl, fun _ => rfl⟩
    · exact (Flags.beq_eq_true _ _).trans sameFlags
    · exact Flags.hashInput_inj.trans sameFlags
  · intro refs dialects found
    refine ⟨?_, Census.dialects_eq dialects, Census.flagSets_eq dialects, ?_⟩
    · exact (Census.dialects_eq dialects).trans (ncard_creations found).symm
    · apply Census.flagSets_le
      intro a aIn b bIn
      obtain ⟨_, _, aFound⟩ := (Except.mem_of_mapM found).mp aIn
      obtain ⟨_, _, bFound⟩ := (Except.mem_of_mapM found).mp bIn
      exact one aFound bFound
  · intro dialects hash hashFlags
    have byId (a b : Dialect) (same : a.same b = true) : a.hashInput = b.hashInput :=
      (Dialect.same_eq_true a b).mp same
    have byContents (a b : Flags) (same : (a == b) = true) : a.hashInput = b.hashInput :=
      Flags.hashInput_inj.mpr ((Flags.beq_eq_true a b).mp same)
    exact ⟨congrArg List.length (distinct_of_hash byId hash dialects),
      congrArg List.length (distinct_of_hash byContents hashFlags _)⟩

/-- An alias goes back to the making of what it names, an empty derivation to itself. -/
theorem sameness_is_of_creation_through_an_alias :
    let run := [
      Step.make (.new Flags.bare) (some "$a"),
      .make (.alias (.slot "$a")) (some "$b"),
      .make (.derive (.slot "$b") .null) (some "$a")]
    let first : Dialect := ⟨⟨13⟩, Flags.bare⟩
    let second : Dialect := ⟨⟨14⟩, Overrides.none.apply Flags.bare⟩
    (Store.reached run 3).find (.slot "$b") = .ok first ∧
      (Store.reached run 3).find (.slot "$a") = .ok second ∧
      origin? run 3 (.slot "$b") = some (.step 0) ∧
      origin? run 3 (.slot "$a") = some (.step 2) ∧
      ¬ first.same second = true ∧ (first.flags == second.flags) = true := by
  intro run first second
  have older : (Store.reached run 3).find (.slot "$b") = .ok first := rfl
  have newer : (Store.reached run 3).find (.slot "$a") = .ok second := rfl
  have firstOrigin : origin? run 3 (.slot "$b") = some (.step 0) := rfl
  have secondOrigin : origin? run 3 (.slot "$a") = some (.step 2) := rfl
  obtain ⟨_, pairs, _⟩ := sameness_is_of_creation run 3
  obtain ⟨creations, _, _, contents, _⟩ := pairs _ _ _ _ older newer
  refine ⟨older, newer, firstOrigin, secondOrigin, ?_, contents.mpr fun f => ?_⟩
  · rw [creations, firstOrigin, secondOrigin]
    decide
  · simp [second, first, Overrides.none]

end SyntaxDialects
