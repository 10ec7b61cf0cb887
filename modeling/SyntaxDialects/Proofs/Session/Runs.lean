import SyntaxDialects.Proofs.Catalog.Lookup
import SyntaxDialects.Session.Store

/-!
What a run can do. A making step either comes by a dialect that is there already or makes one of
the next identity, and no other step changes the store. So every dialect met in a run is canonical
or has an identity drawn after the canonical ones, and stays below the allocator.
-/
namespace SyntaxDialects

def Alloc.mint (ids : Alloc) (flags : Flags) (log : List Event) : Made :=
  ⟨⟨⟨ids.next⟩, flags⟩, log⟩

def Alloc.rest (ids : Alloc) : Alloc :=
  ⟨ids.next + 1⟩

theorem Unquote.derive_eq_ok {kind : Unquote} {base : Dialect} {multiline : Bool} {ids : Alloc}
    {made : Made} {left : Alloc} :
    kind.derive base multiline ids = .ok (made, left) ↔
      base.flags.allowsUnquotes = false ∧ left = ids.rest ∧
        made = ids.mint (kind.change multiline base.flags)
          [.unquoted kind ⟨ids.next⟩ base.display] := by
  unfold Unquote.derive
  split
  · rename_i already
    simp [already]
  · rename_i plain
    simp only [Dialect.derive, Dialect.create, Alloc.draw, Alloc.mint, Alloc.rest,
      Except.ok.injEq, Prod.mk.injEq]
    constructor
    · rintro ⟨rfl, rfl⟩
      exact ⟨by simpa using plain, rfl, rfl⟩
    · rintro ⟨_, rfl, rfl⟩
      exact ⟨rfl, rfl⟩

theorem Conf.realize_eq_ok {conf : Conf} {ids : Alloc} {made : Made} {left : Alloc} :
    conf.realize ids = .ok (made, left) ↔
      ∃ base, Dialect.named conf.base = .ok base ∧ left = ids.rest ∧
        made = ids.mint (conf.overrides.apply base.flags)
          [.resolved ⟨ids.next⟩ conf.base (!conf.overrides.isEmpty)] := by
  unfold Conf.realize
  rw [Except.bind_eq_ok]
  apply exists_congr
  intro base
  apply and_congr_right
  intro _
  simp only [Dialect.override, Dialect.derive, Dialect.create, Alloc.draw, Alloc.mint, Alloc.rest,
    Except.pure_eq_ok, Prod.mk.injEq]
  constructor
  · rintro ⟨rfl, rfl⟩
    exact ⟨rfl, rfl⟩
  · rintro ⟨rfl, rfl⟩
    exact ⟨rfl, rfl⟩

/-- All that can come of a recipe, with what it takes for it: the dialect with its records, and
the allocator afterwards. -/
inductive Outcome (store : Store) : Recipe → Made → Alloc → Prop
  | standard {name : String} {dialect : Dialect} (named : Dialect.named name = .ok dialect) :
    Outcome store (.standard name) ⟨dialect, []⟩ store.ids
  | alias {of : Ref} {dialect : Dialect} (found : store.find of = .ok dialect) :
    Outcome store (.alias of) ⟨dialect, []⟩ store.ids
  | new (flags : Flags) :
    Outcome store (.new flags) (store.ids.mint flags []) store.ids.rest
  | derive {ref : Ref} {set : Datum} {base : Dialect} {overrides : Overrides}
      (found : store.find ref = .ok base) (read : Store.overridesOf set = .ok overrides) :
    Outcome store (.derive ref set) (store.ids.mint (overrides.apply base.flags) []) store.ids.rest
  | vary {ref : Ref} {base : Dialect} (change : Flags → Flags)
      (found : store.find ref = .ok base) :
    Outcome store (.vary ref change) (store.ids.mint (change base.flags) []) store.ids.rest
  | unquote (kind : Unquote) {ref : Ref} {base : Dialect} (multiline : Bool)
      (found : store.find ref = .ok base) (plain : base.flags.allowsUnquotes = false) :
    Outcome store (.unquote kind ref multiline)
      (store.ids.mint (kind.change multiline base.flags)
        [.unquoted kind ⟨store.ids.next⟩ base.display]) store.ids.rest
  | mustUnquote (kind : Unquote) {ref : Ref} {base : Dialect} (multiline : Bool)
      (found : store.find ref = .ok base) (plain : base.flags.allowsUnquotes = false) :
    Outcome store (.mustUnquote kind ref multiline)
      (store.ids.mint (kind.change multiline base.flags)
        [.unquoted kind ⟨store.ids.next⟩ base.display]) store.ids.rest
  | conf {text : String} {conf : Conf} {base : Dialect} (read : Conf.ofText text = .ok conf)
      (named : Dialect.named conf.base = .ok base) :
    Outcome store (.conf text)
      (store.ids.mint (conf.overrides.apply base.flags)
        [.resolved ⟨store.ids.next⟩ conf.base (!conf.overrides.isEmpty)]) store.ids.rest
  | resolve {name : String} {set : Datum} {overrides : Overrides} {base : Dialect}
      (read : Store.overridesOf set = .ok overrides) (named : Dialect.named name = .ok base) :
    Outcome store (.resolve name set)
      (store.ids.mint (overrides.apply base.flags)
        [.resolved ⟨store.ids.next⟩ name (!overrides.isEmpty)]) store.ids.rest

theorem Store.make_eq_ok {store : Store} {recipe : Recipe} {made : Made} {ids : Alloc} :
    store.make recipe = .ok (made, ids) ↔ Outcome store recipe made ids := by
  constructor
  · intro followed
    cases recipe with
    | standard name =>
      obtain ⟨dialect, found, same⟩ := Except.bind_eq_ok.mp followed
      cases Except.pure_eq_ok.mp same
      exact .standard (Except.mapError_eq_ok.mp found)
    | «alias» of =>
      obtain ⟨dialect, found, same⟩ := Except.bind_eq_ok.mp followed
      cases Except.pure_eq_ok.mp same
      exact .alias found
    | new flags =>
      cases followed
      exact .new flags
    | derive ref set =>
      obtain ⟨base, found, more⟩ := Except.bind_eq_ok.mp followed
      obtain ⟨overrides, read, same⟩ := Except.bind_eq_ok.mp more
      cases Except.pure_eq_ok.mp same
      exact .derive found read
    | vary ref change =>
      obtain ⟨base, found, same⟩ := Except.bind_eq_ok.mp followed
      cases Except.pure_eq_ok.mp same
      exact .vary change found
    | unquote kind ref multiline =>
      obtain ⟨base, found, more⟩ := Except.bind_eq_ok.mp followed
      obtain ⟨plain, rfl, rfl⟩ := Unquote.derive_eq_ok.mp (Except.mapError_eq_ok.mp more)
      exact .unquote kind multiline found plain
    | mustUnquote kind ref multiline =>
      obtain ⟨base, found, more⟩ := Except.bind_eq_ok.mp followed
      obtain ⟨plain, rfl, rfl⟩ := Unquote.derive_eq_ok.mp (Except.mapError_eq_ok.mp more)
      exact .mustUnquote kind multiline found plain
    | conf text =>
      obtain ⟨conf, read, more⟩ := Except.bind_eq_ok.mp followed
      obtain ⟨base, named, rfl, rfl⟩ := Conf.realize_eq_ok.mp (Except.mapError_eq_ok.mp more)
      exact .conf (Except.mapError_eq_ok.mp read) named
    | resolve name set =>
      obtain ⟨overrides, read, more⟩ := Except.bind_eq_ok.mp followed
      obtain ⟨base, named, rfl, rfl⟩ := Conf.realize_eq_ok.mp (Except.mapError_eq_ok.mp more)
      exact .resolve read named
  · intro outcome
    cases outcome with
    | standard named =>
      exact Except.bind_eq_ok.mpr ⟨_, Except.mapError_eq_ok.mpr named, rfl⟩
    | «alias» found => exact Except.bind_eq_ok.mpr ⟨_, found, rfl⟩
    | new flags => rfl
    | derive found read =>
      exact Except.bind_eq_ok.mpr ⟨_, found, Except.bind_eq_ok.mpr ⟨_, read, rfl⟩⟩
    | vary change found => exact Except.bind_eq_ok.mpr ⟨_, found, rfl⟩
    | unquote kind multiline found plain =>
      refine Except.bind_eq_ok.mpr ⟨_, found, Except.mapError_eq_ok.mpr ?_⟩
      exact Unquote.derive_eq_ok.mpr ⟨plain, rfl, rfl⟩
    | mustUnquote kind multiline found plain =>
      refine Except.bind_eq_ok.mpr ⟨_, found, Except.mapError_eq_ok.mpr ?_⟩
      exact Unquote.derive_eq_ok.mpr ⟨plain, rfl, rfl⟩
    | conf read named =>
      refine Except.bind_eq_ok.mpr ⟨_, Except.mapError_eq_ok.mpr read, Except.mapError_eq_ok.mpr ?_⟩
      exact Conf.realize_eq_ok.mpr ⟨_, named, rfl, rfl⟩
    | resolve read named =>
      refine Except.bind_eq_ok.mpr ⟨_, read, Except.mapError_eq_ok.mpr ?_⟩
      exact Conf.realize_eq_ok.mpr ⟨_, named, rfl, rfl⟩

def Recipe.creates : Recipe → Bool
  | .standard _ | .alias _ => false
  | _ => true

theorem Outcome.origin {store : Store} {recipe : Recipe} {made : Made} {ids : Alloc}
    (outcome : Outcome store recipe made ids) :
    (recipe.creates = false ∧ ids = store.ids ∧ ∃ ref, store.find ref = .ok made.dialect) ∨
      (recipe.creates = true ∧ ids = store.ids.rest ∧ made.dialect.id = ⟨store.ids.next⟩) := by
  cases outcome with
  | @standard name dialect named =>
    exact .inl ⟨rfl, rfl, .canonical name, Except.mapError_eq_ok.mpr named⟩
  | «alias» found => exact .inl ⟨rfl, rfl, _, found⟩
  | _ => exact .inr ⟨rfl, rfl, rfl⟩

theorem Outcome.grows {store : Store} {recipe : Recipe} {made : Made} {ids : Alloc}
    (outcome : Outcome store recipe made ids) : store.ids.next ≤ ids.next := by
  rcases outcome.origin with ⟨_, rfl, _⟩ | ⟨_, rfl, _⟩
  · exact Nat.le_refl _
  · exact Nat.le_succ _

def Dialect.KnownTo (ids : Alloc) (dialect : Dialect) : Prop :=
  (∃ c : Canon, c.dialect = dialect) ∨
    (Canon.all.length ≤ dialect.id.index ∧ dialect.id.index < ids.next)

theorem Dialect.KnownTo.mono {dialect : Dialect} {ids later : Alloc}
    (known : dialect.KnownTo ids) (grown : ids.next ≤ later.next) : dialect.KnownTo later := by
  rcases known with canonical | ⟨fresh, below⟩
  · exact .inl canonical
  · exact .inr ⟨fresh, by omega⟩

theorem Dialect.KnownTo.named_or_later {ids : Alloc} {dialect : Dialect}
    (known : dialect.KnownTo ids) :
    (∃ c : Canon, c.dialect = dialect ∧ dialect.name? = some c.name) ∨
      ((∀ c : Canon, c.dialect ≠ dialect) ∧ dialect.name? = none) := by
  rcases known with ⟨c, rfl⟩ | ⟨later, _⟩
  · exact .inl ⟨c, rfl, name?_canonical c⟩
  · refine .inr ⟨?_, name?_eq_none later⟩
    intro c same
    exact c.dialect?_ne later (by rw [c.dialect?_eq, same])

theorem Dialect.named_eq_ok {name : String} {dialect : Dialect} :
    Dialect.named name = .ok dialect ↔ ∃ c : Canon, c.name = name ∧ c.dialect = dialect := by
  rw [← Catalog.get?_standard]
  unfold Dialect.named
  split
  · rename_i found
    simp [found]
  · rename_i missing
    simp [missing]

namespace Store

theorem slot?_keep (store : Store) (slot : Option String) (dialect : Dialect) (name : String) :
    (store.keep slot dialect).slot? name =
      if slot = some name then some dialect else store.slot? name := by
  cases slot with
  | none => rfl
  | some key =>
    simp only [Option.some.injEq, @eq_comm _ key name]
    exact lookup_rebind store.slots key name dialect

theorem ids_keep (store : Store) (slot : Option String) (dialect : Dialect) :
    (store.keep slot dialect).ids = store.ids := by
  cases slot <;> rfl

structure Sound (store : Store) : Prop where
  later : Canon.all.length ≤ store.ids.next
  known : ∀ {name dialect}, store.slot? name = some dialect → dialect.KnownTo store.ids

theorem sound_initial : initial.Sound where
  later := Nat.le_refl _
  known held := by cases held

theorem find_slot {store : Store} {name : String} {dialect : Dialect} :
    store.find (.slot name) = .ok dialect ↔ store.slot? name = some dialect := by
  rw [find]
  cases store.slot? name <;> simp

theorem find_canonical {store : Store} {name : String} {dialect : Dialect} :
    store.find (.canonical name) = .ok dialect ↔ Dialect.named name = .ok dialect :=
  Except.mapError_eq_ok

theorem find_known {store : Store} {ref : Ref} {dialect : Dialect} (sound : store.Sound)
    (found : store.find ref = .ok dialect) : dialect.KnownTo store.ids := by
  cases ref with
  | slot name => exact sound.known (find_slot.mp found)
  | canonical name =>
    obtain ⟨c, _, same⟩ := Dialect.named_eq_ok.mp (find_canonical.mp found)
    exact .inl ⟨c, same⟩

def gain (store : Store) : Step → Option Dialect
  | .make recipe _ =>
    match store.make recipe with
    | .ok (made, _) => some made.dialect
    | .error _ => none
  | .look _ => none

theorem step_cases (store : Store) (step : Step) :
    ((store.step step).2 = store ∧ store.gain step = none) ∨
      ∃ recipe slot made ids, step = .make recipe slot ∧ Outcome store recipe made ids ∧
        (store.step step).2 = { store with ids := ids }.keep slot made.dialect ∧
        store.gain step = some made.dialect := by
  cases step with
  | look what => exact .inl ⟨rfl, rfl⟩
  | make recipe slot =>
    cases followed : store.make recipe with
    | error failure => exact .inl (by simp [Store.step, gain, followed])
    | ok result =>
      obtain ⟨made, ids⟩ := result
      refine .inr ⟨recipe, slot, made, ids, rfl, make_eq_ok.mp followed, ?_, ?_⟩
      · simp [Store.step, followed]
      · simp [gain, followed]

theorem gain_outcome {store : Store} {step : Step} {dialect : Dialect}
    (gained : store.gain step = some dialect) :
    ∃ recipe slot log ids, step = .make recipe slot ∧ Outcome store recipe ⟨dialect, log⟩ ids ∧
      (store.step step).2 = { store with ids := ids }.keep slot dialect := by
  rcases store.step_cases step with
    ⟨_, gainless⟩ | ⟨recipe, slot, made, ids, same, outcome, next, made?⟩
  · rw [gainless] at gained
    cases gained
  · rw [made?] at gained
    cases gained
    exact ⟨recipe, slot, made.log, ids, same, outcome, next⟩

end Store

theorem Outcome.known {store : Store} {recipe : Recipe} {made : Made} {ids : Alloc}
    (sound : store.Sound) (outcome : Outcome store recipe made ids) :
    made.dialect.KnownTo ids := by
  have grown := outcome.grows
  rcases outcome.origin with ⟨_, _, ref, found⟩ | ⟨_, rfl, fresh⟩
  · exact (Store.find_known sound found).mono grown
  · have index : made.dialect.id.index = store.ids.next := congrArg DialectId.index fresh
    have later := sound.later
    exact .inr ⟨by omega, by rw [index]; exact Nat.lt_succ_self _⟩

namespace Store

theorem ids_step (store : Store) (step : Step) :
    store.ids.next ≤ (store.step step).2.ids.next := by
  rcases store.step_cases step with ⟨same, _⟩ | ⟨recipe, slot, made, ids, _, outcome, next, _⟩
  · exact Nat.le_of_eq (by rw [same])
  · rw [next, ids_keep]
    exact outcome.grows

theorem step_sound {store : Store} (sound : store.Sound) (step : Step) :
    (store.step step).2.Sound := by
  rcases store.step_cases step with ⟨same, _⟩ | ⟨recipe, slot, made, ids, _, outcome, next, _⟩
  · rw [same]
    exact sound
  · rw [next]
    constructor
    · rw [ids_keep]
      exact Nat.le_trans sound.later outcome.grows
    · intro name dialect held
      rw [ids_keep]
      rw [slot?_keep] at held
      split at held
      · cases held
        exact outcome.known sound
      · exact (sound.known held).mono outcome.grows

theorem gain_known {store : Store} (sound : store.Sound) {step : Step} {dialect : Dialect}
    (gained : store.gain step = some dialect) : dialect.KnownTo (store.step step).2.ids := by
  obtain ⟨recipe, slot, log, ids, _, outcome, next⟩ := gain_outcome gained
  rw [next, ids_keep]
  exact outcome.known sound

theorem gain_created {store : Store} (sound : store.Sound) {recipe : Recipe}
    {slot : Option String} {dialect : Dialect} (creates : recipe.creates = true)
    (gained : store.gain (.make recipe slot) = some dialect) :
    Canon.all.length ≤ dialect.id.index := by
  obtain ⟨_, _, log, ids, same, outcome, _⟩ := gain_outcome gained
  cases same
  rcases outcome.origin with ⟨finds, _⟩ | ⟨_, _, fresh⟩
  · rw [creates] at finds
    cases finds
  · have index : dialect.id.index = store.ids.next := congrArg DialectId.index fresh
    rw [index]
    exact sound.later

theorem slot?_step {store : Store} {step : Step} {name : String} {dialect : Dialect}
    (held : (store.step step).2.slot? name = some dialect) :
    store.slot? name = some dialect ∨ store.gain step = some dialect := by
  rcases store.step_cases step with ⟨same, _⟩ | ⟨recipe, slot, made, ids, _, _, next, gained⟩
  · rw [same] at held
    exact .inl held
  · rw [next, slot?_keep] at held
    split at held
    · cases held
      exact .inr gained
    · exact .inl held

def gains (store : Store) : List Step → List Dialect
  | [] => []
  | first :: rest => (store.gain first).toList ++ (store.step first).2.gains rest

theorem ids_run (store : Store) (steps : List Step) :
    store.ids.next ≤ (store.run steps).2.ids.next := by
  induction steps generalizing store with
  | nil => exact Nat.le_refl _
  | cons first rest ih => exact Nat.le_trans (store.ids_step first) (ih (store.step first).2)

theorem run_sound {store : Store} (sound : store.Sound) (steps : List Step) :
    (store.run steps).2.Sound := by
  induction steps generalizing store with
  | nil => exact sound
  | cons first rest ih => exact ih (step_sound sound first)

theorem gains_known {store : Store} (sound : store.Sound) {steps : List Step} {dialect : Dialect}
    (gained : dialect ∈ store.gains steps) : dialect.KnownTo (store.run steps).2.ids := by
  induction steps generalizing store with
  | nil => cases gained
  | cons first rest ih =>
    rcases List.mem_append.mp gained with now | later
    · have known := gain_known sound (Option.mem_toList.mp now)
      exact known.mono ((store.step first).2.ids_run rest)
    · exact ih (step_sound sound first) later

end Store

/-- Canonical, or come by in a run from the start, whether a slot still holds it or not. -/
def Dialect.Met (steps : List Step) (dialect : Dialect) : Prop :=
  (∃ c : Canon, c.dialect? = some dialect) ∨ dialect ∈ Store.initial.gains steps

theorem Dialect.Met.known {steps : List Step} {dialect : Dialect} (met : dialect.Met steps) :
    dialect.KnownTo (Store.initial.run steps).2.ids := by
  rcases met with ⟨c, canonical⟩ | gained
  · rw [c.dialect?_eq] at canonical
    exact .inl ⟨c, Option.some.inj canonical⟩
  · exact Store.gains_known Store.sound_initial gained

theorem Dialect.Met.nameless {steps : List Step} {dialect : Dialect} (met : dialect.Met steps)
    (other : ∀ c : Canon, c.dialect? ≠ some dialect) : dialect.name? = none := by
  rcases met.known.named_or_later with ⟨c, same, _⟩ | ⟨_, nameless⟩
  · exact absurd (c.dialect?_eq.trans (congrArg some same)) (other c)
  · exact nameless

end SyntaxDialects
