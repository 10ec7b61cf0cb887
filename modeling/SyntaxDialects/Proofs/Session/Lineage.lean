import Mathlib.Data.List.Induction
import SyntaxDialects.Proofs.Session.Numbering

/-!
Lineages. A dialect descends from a canonical one, or from flags that were given, by the changes of
the derivations in between. Its flags are those of the root with the changes made in their order,
and nothing else in a run has a part in them.
-/
namespace SyntaxDialects

def Recipe.derives? : Recipe → Option (Ref × (Flags → Flags))
  | .standard _ | .alias _ | .new _ => none
  | .derive base set =>
    (Store.overridesOf set).toOption.map fun overrides => (base, overrides.apply)
  | .vary base change => some (base, change)
  | .unquote kind base multiline | .mustUnquote kind base multiline =>
    some (base, kind.change multiline)
  | .conf text =>
    (Conf.ofText text).toOption.map fun conf => (.canonical conf.base, conf.overrides.apply)
  | .resolve base set =>
    (Store.overridesOf set).toOption.map fun overrides => (.canonical base, overrides.apply)

/-- The root of a dialect of a run, with the changes from there to the dialect. -/
inductive Lineage (steps : List Step) : DialectId → Flags → List (Flags → Flags) → Prop
  | canonical {c : Canon} {dialect : Dialect} (instance? : c.dialect? = some dialect) :
    Lineage steps dialect.id c.flags []
  | given {i : Nat} {flags : Flags} {slot : Option String} {child : Dialect}
      (here : steps[i]? = some (.make (.new flags) slot))
      (created : (Store.reached steps i).creation (.make (.new flags) slot) = some child) :
    Lineage steps child.id flags []
  | derived {i : Nat} {recipe : Recipe} {slot : Option String} {ref : Ref}
      {change : Flags → Flags} {base child : Dialect} {root : Flags}
      {changes : List (Flags → Flags)} (here : steps[i]? = some (.make recipe slot))
      (derives : recipe.derives? = some (ref, change))
      (found : (Store.reached steps i).find ref = .ok base)
      (created : (Store.reached steps i).creation (.make recipe slot) = some child)
      (older : Lineage steps base.id root changes) :
    Lineage steps child.id root (changes ++ [change])

theorem Outcome.parentage {store : Store} {recipe : Recipe} {made : Made} {ids : Alloc}
    (outcome : Outcome store recipe made ids) (creates : recipe.creates = true) :
    recipe = .new made.dialect.flags ∨
      ∃ ref change base, recipe.derives? = some (ref, change) ∧ store.find ref = .ok base ∧
        made.dialect.flags = change base.flags := by
  cases outcome with
  | standard named => cases creates
  | «alias» found => cases creates
  | new flags => exact .inl rfl
  | @derive ref set base overrides found read =>
    have derives : (Recipe.derive ref set).derives? = some (ref, overrides.apply) := by
      rw [Recipe.derives?, read]
      rfl
    exact .inr ⟨_, _, _, derives, found, rfl⟩
  | vary change found => exact .inr ⟨_, _, _, rfl, found, rfl⟩
  | unquote kind multiline found plain => exact .inr ⟨_, _, _, rfl, found, rfl⟩
  | mustUnquote kind multiline found plain => exact .inr ⟨_, _, _, rfl, found, rfl⟩
  | @conf text conf base read named =>
    have derives : (Recipe.conf text).derives? =
        some (.canonical conf.base, conf.overrides.apply) := by
      rw [Recipe.derives?, read]
      rfl
    exact .inr ⟨_, _, _, derives, Store.find_canonical.mpr named, rfl⟩
  | @resolve name set overrides base read named =>
    have derives : (Recipe.resolve name set).derives? =
        some (.canonical name, overrides.apply) := by
      rw [Recipe.derives?, read]
      rfl
    exact .inr ⟨_, _, _, derives, Store.find_canonical.mpr named, rfl⟩

namespace Store

theorem creation_parentage {store : Store} {step : Step} {child : Dialect}
    (created : store.creation step = some child) :
    (∃ slot, step = .make (.new child.flags) slot) ∨
      ∃ recipe slot ref change base, step = .make recipe slot ∧
        recipe.derives? = some (ref, change) ∧ store.find ref = .ok base ∧
        child.flags = change base.flags := by
  obtain ⟨creates, gained⟩ := Option.ite_none_right_eq_some.mp created
  obtain ⟨recipe, slot, log, ids, rfl, outcome, _⟩ := gain_outcome gained
  rcases outcome.parentage creates with same | ⟨ref, change, base, derives, found, flags⟩
  · exact .inl ⟨slot, by rw [same]⟩
  · exact .inr ⟨recipe, slot, ref, change, base, rfl, derives, found, flags⟩

theorem flags_of_derivation {store : Store} {recipe : Recipe} {slot : Option String}
    {child base : Dialect} {ref : Ref} {change : Flags → Flags}
    (created : store.creation (.make recipe slot) = some child)
    (derives : recipe.derives? = some (ref, change)) (found : store.find ref = .ok base) :
    child.flags = change base.flags := by
  rcases creation_parentage created with
    ⟨_, same⟩ | ⟨_, _, otherRef, otherChange, otherBase, same, told, foundToo, flags⟩
  · cases same
    cases derives
  · cases same
    rw [derives] at told
    cases told
    rw [found] at foundToo
    cases foundToo
    exact flags

theorem flags_of_new {store : Store} {flags : Flags} {slot : Option String} {child : Dialect}
    (created : store.creation (.make (.new flags) slot) = some child) : child.flags = flags := by
  rcases creation_parentage created with ⟨_, same⟩ | ⟨_, _, _, _, _, same, derives, _⟩
  · cases same
    rfl
  · cases same
    cases derives

theorem find_step_of_unbound {store : Store} {step : Step} {ref : Ref} {dialect : Dialect}
    (found : store.find ref = .ok dialect)
    (unbound : ∀ recipe name, ref = .slot name → step ≠ .make recipe (some name)) :
    (store.step step).2.find ref = .ok dialect := by
  cases ref with
  | canonical name => exact found
  | slot name =>
    rcases store.step_cases step with ⟨same, _⟩ | ⟨recipe, slot, made, ids, rfl, _, next, _⟩
    · rw [same]
      exact found
    · have other : slot ≠ some name := by
        rintro rfl
        exact unbound recipe name rfl rfl
      rw [find_slot, next, slot?_keep, if_neg other]
      exact find_slot.mp found

end Store

namespace Dialect

theorem allMade_take (steps : List Step) (i : Nat) :
    ∃ later, allMade steps = allMade (steps.take i) ++ later := by
  have split := allMade_append (steps.take i) (steps.drop i)
  rw [List.take_append_drop] at split
  exact ⟨_, split⟩

theorem mem_allMade_of_reached {steps : List Step} {i : Nat} {ref : Ref} {dialect : Dialect}
    (found : (Store.reached steps i).find ref = .ok dialect) : dialect ∈ allMade steps := by
  obtain ⟨later, split⟩ := allMade_take steps i
  rw [split]
  exact List.mem_append_left _ (mem_allMade_of_find found)

theorem mem_allMade_of_creation {steps : List Step} {i : Nat} {step : Step} {dialect : Dialect}
    (here : steps[i]? = some step)
    (created : (Store.reached steps i).creation step = some dialect) :
    dialect ∈ allMade steps := by
  obtain ⟨later, split⟩ := allMade_take steps (i + 1)
  have added : dialect ∈ Store.initial.creations (steps.take (i + 1)) := by
    rw [Store.creations_take_succ here]
    exact List.mem_append_right _ (Option.mem_toList.mpr created)
  rw [split]
  exact List.mem_append_left _ (List.mem_append_right _ added)

end Dialect

namespace Lineage

variable {steps : List Step} {id : DialectId} {root : Flags} {changes : List (Flags → Flags)}

theorem flags_eq (lineage : Lineage steps id root changes) {dialect : Dialect}
    (made : dialect ∈ Dialect.allMade steps) (same : dialect.id = id) :
    dialect.flags = changes.foldl (fun flags change => change flags) root := by
  induction lineage generalizing dialect with
  | @canonical c other instance? =>
    rw [c.dialect?_eq, Option.some.injEq] at instance?
    have first : other ∈ Dialect.allMade steps :=
      List.mem_append_left _ (Catalog.mem_canonical.mpr ⟨c, instance?⟩)
    rw [Dialect.eq_of_id made first same, ← instance?]
    rfl
  | given here created =>
    have child := Dialect.mem_allMade_of_creation here created
    rw [Dialect.eq_of_id made child same, Store.flags_of_new created]
    rfl
  | derived here derives found created _ ih =>
    have child := Dialect.mem_allMade_of_creation here created
    have base := ih (Dialect.mem_allMade_of_reached found) rfl
    rw [Dialect.eq_of_id made child same, Store.flags_of_derivation created derives found,
      List.foldl_append, base]
    rfl

theorem append (lineage : Lineage steps id root changes) (more : List Step) :
    Lineage (steps ++ more) id root changes := by
  have kept {i : Nat} {step : Step} (here : steps[i]? = some step) :
      (steps ++ more)[i]? = some step ∧
        Store.reached (steps ++ more) i = Store.reached steps i := by
    have inside := (List.getElem?_eq_some_iff.mp here).1
    rw [List.getElem?_append_left inside]
    exact ⟨here, Store.reached_append (Nat.le_of_lt inside) more⟩
  induction lineage with
  | canonical instance? => exact .canonical instance?
  | given here created =>
    obtain ⟨there, same⟩ := kept here
    exact .given there (by rw [same, created])
  | derived here derives found created _ ih =>
    obtain ⟨there, same⟩ := kept here
    exact .derived there derives (by rw [same, found]) (by rw [same, created]) ih

end Lineage

theorem exists_lineage {steps : List Step} {dialect : Dialect}
    (made : dialect ∈ Dialect.allMade steps) :
    ∃ root changes, Lineage steps dialect.id root changes := by
  -- The run is taken apart from its end: what the last step derives from was made before it.
  induction steps using List.reverseRecOn generalizing dialect with
  | nil =>
    have first : dialect ∈ Catalog.canonical.map Prod.snd := by
      simpa only [Dialect.allMade, Store.creations, List.append_nil] using made
    obtain ⟨c, same⟩ := Catalog.mem_canonical.mp first
    exact ⟨_, _, .canonical (by rw [c.dialect?_eq, same])⟩
  | append_singleton steps last ih =>
    rw [Dialect.allMade_append] at made
    rcases List.mem_append.mp made with before | now
    · obtain ⟨root, changes, lineage⟩ := ih before
      exact ⟨root, changes, lineage.append [last]⟩
    · have here : (steps ++ [last])[steps.length]? = some last := List.getElem?_concat_length
      have store : Store.reached (steps ++ [last]) steps.length = (Store.initial.run steps).2 := by
        rw [Store.reached_append (Nat.le_refl _), Store.reached_length]
      have created : (Store.initial.run steps).2.creation last = some dialect := by
        simpa [Store.creations] using now
      rcases Store.creation_parentage created with
        ⟨slot, rfl⟩ | ⟨recipe, slot, ref, change, base, rfl, derives, found, _⟩
      · exact ⟨_, _, .given here (by rw [store, created])⟩
      · obtain ⟨root, changes, older⟩ := ih (Dialect.mem_allMade_of_find found)
        exact ⟨root, _, .derived here derives (by rw [store, found]) (by rw [store, created])
          (older.append _)⟩

/-! Lineages are told by identities alone. -/

namespace Store

theorem ids_lt_of_creation {steps : List Step} {i j : Nat} {step : Step} {child : Dialect}
    (here : steps[i]? = some step) (created : (reached steps i).creation step = some child)
    (later : i < j) : (reached steps i).ids.next < (reached steps j).ids.next := by
  have grown : (reached steps (i + 1)).ids.next = (reached steps i).ids.next + 1 := by
    rw [reached_succ here]
    rcases (reached steps i).step_creates step with ⟨idle, _⟩ | ⟨_, _, drawn⟩
    · rw [idle] at created
      cases created
    · rw [drawn]
      rfl
  have kept : (reached steps (i + 1)).ids.next ≤ (reached steps j).ids.next := ids_reached later
  omega

theorem place_of_creation {steps : List Step} {i j : Nat} {step other : Step}
    {child twin : Dialect} (here : steps[i]? = some step)
    (created : (reached steps i).creation step = some child) (there : steps[j]? = some other)
    (createdToo : (reached steps j).creation other = some twin) (same : child.id = twin.id) :
    i = j := by
  have next : (reached steps i).ids.next = (reached steps j).ids.next := by
    rw [id_of_creation created, id_of_creation createdToo] at same
    exact congrArg DialectId.index same
  rcases Nat.lt_trichotomy i j with before | equal | after
  · have grown := ids_lt_of_creation here created before
    omega
  · exact equal
  · have grown := ids_lt_of_creation there createdToo after
    omega

theorem later_of_creation {steps : List Step} {i : Nat} {step : Step} {child : Dialect}
    (created : (reached steps i).creation step = some child) :
    Canon.all.length ≤ child.id.index := by
  have sound := run_sound sound_initial (steps.take i)
  rw [id_of_creation created]
  exact sound.later

end Store

namespace Lineage

variable {steps : List Step} {root : Flags} {changes : List (Flags → Flags)}

theorem of_canonical {c : Canon} {dialect : Dialect} (instance? : c.dialect? = some dialect)
    (lineage : Lineage steps dialect.id root changes) : root = c.flags ∧ changes = [] := by
  have early : dialect.id.index < Canon.all.length := by
    rw [c.dialect?_eq, Option.some.injEq] at instance?
    rw [← instance?]
    exact c.dialect_id_lt
  generalize named : dialect.id = id at lineage
  cases lineage with
  | @canonical d other otherInstance =>
    rw [Canon.dialect?_eq, Option.some.injEq] at instance? otherInstance
    rw [← instance?, ← otherInstance] at named
    rw [Canon.eq_of_dialect_id named]
    exact ⟨rfl, rfl⟩
  | given here created =>
    have later := Store.later_of_creation created
    rw [named] at early
    omega
  | derived here derives found created older =>
    have later := Store.later_of_creation created
    rw [named] at early
    omega

theorem of_creation {i : Nat} {step : Step} {child : Dialect} (here : steps[i]? = some step)
    (created : (Store.reached steps i).creation step = some child)
    (lineage : Lineage steps child.id root changes) :
    (∃ slot, step = .make (.new root) slot ∧ changes = []) ∨
      ∃ recipe slot ref change base older, step = .make recipe slot ∧
        recipe.derives? = some (ref, change) ∧ (Store.reached steps i).find ref = .ok base ∧
        Lineage steps base.id root older ∧ changes = older ++ [change] := by
  -- No canonical dialect has this identity, and no other step draws it.
  have later := Store.later_of_creation created
  generalize named : child.id = id at lineage
  cases lineage with
  | @canonical c dialect instance? =>
    rw [c.dialect?_eq, Option.some.injEq] at instance?
    have early := c.dialect_id_lt
    rw [instance?, ← named] at early
    omega
  | @given _ _ slot _ there createdToo =>
    obtain rfl := Store.place_of_creation here created there createdToo named
    rw [here, Option.some.injEq] at there
    exact .inl ⟨slot, there, rfl⟩
  | @derived _ recipe slot ref change base _ _ older there derives found createdToo lineage =>
    obtain rfl := Store.place_of_creation here created there createdToo named
    rw [here, Option.some.injEq] at there
    exact .inr ⟨recipe, slot, ref, change, base, older, there, derives, found, lineage, rfl⟩

theorem unique {id : DialectId} {otherRoot : Flags} {otherChanges : List (Flags → Flags)}
    (lineage : Lineage steps id root changes)
    (other : Lineage steps id otherRoot otherChanges) :
    otherRoot = root ∧ otherChanges = changes := by
  induction lineage generalizing otherChanges with
  | canonical instance? => exact other.of_canonical instance?
  | given here created =>
    rcases other.of_creation here created with
      ⟨_, same, empty⟩ | ⟨_, _, _, _, _, _, same, derives, _⟩
    · cases same
      exact ⟨rfl, empty⟩
    · cases same
      cases derives
  | derived here derives found created _ ih =>
    rcases other.of_creation here created with
      ⟨_, same, _⟩ | ⟨_, _, _, _, _, older, same, derivesToo, foundToo, lineage, split⟩
    · cases same
      cases derives
    · cases same
      rw [derives] at derivesToo
      cases derivesToo
      rw [found] at foundToo
      cases foundToo
      obtain ⟨sameRoot, sameOlder⟩ := ih lineage
      exact ⟨sameRoot, by rw [split, sameOlder]⟩

end Lineage

/-- Every dialect met in a run has one lineage, and its flags are those of the root with the
changes made in turn. Neither changes in whatever way the run goes on: no dialect found later under
the identity has other flags, and a reference finds the dialect until its own slot is bound anew.
What the change of an override set does to a field is told by `Overrides.get_apply`, and what those
of several sets in turn do by `Overrides.get_applyAll`. -/
theorem flags_follow_lineage {steps : List Step} {dialect : Dialect} (met : dialect.Met steps) :
    (∃ root changes, Lineage steps dialect.id root changes ∧
      dialect.flags = changes.foldl (fun flags change => change flags) root ∧
      ∀ more otherRoot otherChanges, Lineage (steps ++ more) dialect.id otherRoot otherChanges →
        otherRoot = root ∧ otherChanges = changes) ∧
    (∀ c : Canon, c.dialect? = some dialect → dialect.flags = c.flags) ∧
    (∀ more (other : Dialect), other.Met (steps ++ more) → other.id = dialect.id →
      other.flags = dialect.flags) ∧
    (∀ more ref found, (Store.initial.run (steps ++ more)).2.find ref = .ok found →
      found.id = dialect.id → found.flags = dialect.flags) ∧
    (∀ more step ref, (Store.initial.run (steps ++ more)).2.find ref = .ok dialect →
      (∀ recipe name, ref = .slot name → step ≠ .make recipe (some name)) →
      ((Store.initial.run (steps ++ more)).2.step step).2.find ref = .ok dialect) := by
  have made := Dialect.met_iff.mp met
  have still (more : List Step) : dialect ∈ Dialect.allMade (steps ++ more) := by
    rw [Dialect.allMade_append]
    exact List.mem_append_left _ made
  have one {more : List Step} {other : Dialect}
      (otherMade : other ∈ Dialect.allMade (steps ++ more)) (same : other.id = dialect.id) :
      other.flags = dialect.flags := by
    rw [Dialect.eq_of_id otherMade (still more) same]
  obtain ⟨root, changes, lineage⟩ := exists_lineage made
  refine ⟨⟨root, changes, lineage, lineage.flags_eq made rfl, ?_⟩, ?_, ?_, ?_, ?_⟩
  · intro more otherRoot otherChanges other
    exact (lineage.append more).unique other
  · intro c instance?
    exact Lineage.flags_eq (.canonical instance?) made rfl
  · intro more other otherMet same
    exact one (Dialect.met_iff.mp otherMet) same
  · intro more ref found found? same
    exact one (Dialect.mem_allMade_of_find found?) same
  · intro more step ref found unbound
    exact Store.find_step_of_unbound found unbound

/-- A slot that is bound to what is derived from it, and to an unrelated dialect afterwards. -/
theorem flags_follow_lineage_through_a_slot :
    let andTypes (flags : Flags) := flags.set (.allow .andTypes) true
    let run := [
      Step.make (.new Flags.bare) (some "$a"),
      .make (.vary (.slot "$a") andTypes) (some "$a"),
      .make (.unquote .term (.slot "$a") true) (some "$b"),
      .make (.standard "Dotty") (some "$a")]
    let last : Dialect := ⟨⟨15⟩, Unquote.term.change true (andTypes Flags.bare)⟩
    last.Met run ∧ Lineage run last.id Flags.bare [andTypes, Unquote.term.change true] ∧
      (∀ root changes, Lineage run last.id root changes →
        root = Flags.bare ∧ changes = [andTypes, Unquote.term.change true]) ∧
      ∀ more ref found, (Store.initial.run (run ++ more)).2.find ref = .ok found →
        found.id = ⟨15⟩ → found.flags = last.flags := by
  intro andTypes run last
  have given : Lineage run ⟨13⟩ Flags.bare [] := by
    have created : (Store.reached run 0).creation (.make (.new Flags.bare) (some "$a")) =
        some ⟨⟨13⟩, Flags.bare⟩ := rfl
    exact .given rfl created
  have varied : Lineage run ⟨14⟩ Flags.bare [andTypes] := by
    have found : (Store.reached run 1).find (.slot "$a") = .ok ⟨⟨13⟩, Flags.bare⟩ := rfl
    have created : (Store.reached run 1).creation
        (.make (.vary (.slot "$a") andTypes) (some "$a")) =
        some ⟨⟨14⟩, andTypes Flags.bare⟩ := rfl
    exact .derived rfl rfl found created given
  have quoted : Lineage run ⟨15⟩ Flags.bare [andTypes, Unquote.term.change true] := by
    have found : (Store.reached run 2).find (.slot "$a") = .ok ⟨⟨14⟩, andTypes Flags.bare⟩ := rfl
    have created : (Store.reached run 2).creation
        (.make (.unquote .term (.slot "$a") true) (some "$b")) = some last := rfl
    exact .derived rfl rfl found created varied
  have met : last.Met run :=
    .inr (List.mem_cons_of_mem _ (List.mem_cons_of_mem _ (List.mem_cons_self ..)))
  obtain ⟨⟨_, _, _, _, one⟩, _, _, same, _⟩ := flags_follow_lineage met
  obtain ⟨rfl, rfl⟩ := one [] _ _ quoted
  exact ⟨met, quoted, one [], same⟩

end SyntaxDialects
