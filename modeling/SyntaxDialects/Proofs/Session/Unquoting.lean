import SyntaxDialects.Proofs.Session.Numbering

/-!
Unquoting along a lineage. A dialect is derived for quotations only from a base that allows no
unquotes, and overriding other fields leaves the unquotes as they are. So a descent from a
canonical dialect has at most one quotation in it, and the unquotes allowed at its end say which.
-/
namespace SyntaxDialects

def Overrides.KeepsUnquotes (overrides : Overrides) : Prop :=
  ∀ kind : Unquote, overrides.get (.allow kind.switch) = none

inductive Derivation : Dialect → Option Unquote → Dialect → Prop
  | quoted {kind : Unquote} {base : Dialect} {multiline : Bool} {ids left : Alloc} {made : Made}
      (derived : kind.derive base multiline ids = .ok (made, left)) :
    Derivation base (some kind) made.dialect
  | overridden {overrides : Overrides} (base : Dialect) (keeps : overrides.KeepsUnquotes)
      (ids : Alloc) : Derivation base none (base.override overrides ids).1
  | resolved {conf : Conf} {base : Dialect} {ids left : Alloc} {made : Made}
      (named : Dialect.named conf.base = .ok base) (keeps : conf.overrides.KeepsUnquotes)
      (realized : conf.realize ids = .ok (made, left)) : Derivation base none made.dialect

/-- Derivations in turn from `root` to a dialect, with the quotations among them, oldest first. -/
inductive Descent (root : Dialect) : List Unquote → Dialect → Prop
  | start : Descent root [] root
  | next {kinds : List Unquote} {base child : Dialect} {kind? : Option Unquote}
      (older : Descent root kinds base) (derivation : Derivation base kind? child) :
    Descent root (kinds ++ kind?.toList) child

namespace Unquote

theorem switch_injective : Function.Injective switch := by
  intro kind other same
  cases kind <;> cases other <;> first | rfl | cases same

theorem allows_change (kind other : Unquote) (multiline : Bool) (flags : Flags) :
    (kind.change multiline flags).allows other.switch =
      (decide (other = kind) || flags.allows other.switch) := by
  have apart : Field.allow .multilinePrograms ≠ Field.allow other.switch := by
    cases other <;> decide
  rw [change, Flags.allows, Flags.get_set_other _ _ apart]
  by_cases same : other = kind
  · rw [same, Flags.get_set_same, decide_eq_true rfl, Bool.true_or]
  · have different : Field.allow kind.switch ≠ Field.allow other.switch := by
      intro equal
      exact same (switch_injective (Field.allow.inj equal)).symm
    rw [Flags.get_set_other _ _ different, decide_eq_false same, Bool.false_or, Flags.allows]

end Unquote

theorem Flags.allowsUnquotes_eq_true {flags : Flags} :
    flags.allowsUnquotes = true ↔ ∃ kind : Unquote, flags.allows kind.switch = true := by
  rw [allowsUnquotes, Bool.or_eq_true]
  constructor
  · rintro (pattern | term)
    · exact ⟨.pattern, pattern⟩
    · exact ⟨.term, term⟩
  · rintro ⟨_ | _, allowed⟩
    · exact .inr allowed
    · exact .inl allowed

theorem Overrides.KeepsUnquotes.allows {overrides : Overrides} (keeps : overrides.KeepsUnquotes)
    (flags : Flags) (kind : Unquote) :
    (overrides.apply flags).allows kind.switch = flags.allows kind.switch := by
  rw [Flags.allows, get_apply, keeps kind, Option.getD_none, Flags.allows]

theorem Canon.allowsUnquotes_flags (c : Canon) : c.flags.allowsUnquotes = false := by
  cases c <;> rfl

namespace Derivation

variable {base child : Dialect} {kind? : Option Unquote}

theorem allows (derivation : Derivation base kind? child) (kind : Unquote) :
    child.flags.allows kind.switch = true ↔
      kind? = some kind ∨ base.flags.allows kind.switch = true := by
  cases derivation with
  | @quoted quotedKind _ _ _ _ _ derived =>
    obtain ⟨_, _, rfl⟩ := Unquote.derive_eq_ok.mp derived
    simp only [Alloc.mint, Unquote.allows_change, Bool.or_eq_true, decide_eq_true_eq,
      Option.some.injEq, eq_comm (a := kind)]
  | overridden base keeps ids =>
    have same := keeps.allows base.flags kind
    simp only [reduceCtorEq, false_or]
    exact iff_of_eq (congrArg (· = true) same)
  | resolved named keeps realized =>
    obtain ⟨other, namedToo, _, rfl⟩ := Conf.realize_eq_ok.mp realized
    rw [named] at namedToo
    cases namedToo
    simp only [Alloc.mint, keeps.allows, reduceCtorEq, false_or]

theorem plain_of_quoted {kind : Unquote} (derivation : Derivation base (some kind) child) :
    base.flags.allowsUnquotes = false := by
  cases derivation with
  | quoted derived => exact (Unquote.derive_eq_ok.mp derived).1

end Derivation

namespace Descent

variable {root base dialect : Dialect} {kinds : List Unquote}

theorem trans (older : Descent root kinds base) {later : List Unquote}
    (newer : Descent base later dialect) : Descent root (kinds ++ later) dialect := by
  induction newer with
  | start => rwa [List.append_nil]
  | next _ derivation ih =>
    rw [← List.append_assoc]
    exact ih.next derivation

/-- Either nothing on the way was derived for quotations, or one dialect was and its unquotes are
those allowed at the end. -/
theorem quotations (plain : root.flags.allowsUnquotes = false)
    (descent : Descent root kinds dialect) :
    (kinds = [] ∧ dialect.flags.allowsUnquotes = false) ∨
      ∃ kind, kinds = [kind] ∧
        ∀ other : Unquote, dialect.flags.allows other.switch = true ↔ other = kind := by
  induction descent with
  | start => exact .inl ⟨rfl, plain⟩
  | @next kinds base child kind? _ derivation ih =>
    cases kind? with
    | none =>
      rw [Option.toList_none, List.append_nil]
      have kept (other : Unquote) : child.flags.allows other.switch = true ↔
          base.flags.allows other.switch = true := by
        simpa using derivation.allows other
      rcases ih with ⟨empty, still⟩ | ⟨kind, one, allowed⟩
      · refine .inl ⟨empty, ?_⟩
        rw [Bool.eq_false_iff, ne_eq, Flags.allowsUnquotes_eq_true] at still ⊢
        simpa only [kept] using still
      · exact .inr ⟨kind, one, fun other => (kept other).trans (allowed other)⟩
    | some kind =>
      -- The base allowed no unquotes, so nothing before was derived for quotations.
      have still := derivation.plain_of_quoted
      have silent (other : Unquote) : ¬ base.flags.allows other.switch = true := by
        intro allowed
        rw [Flags.allowsUnquotes_eq_true.mpr ⟨other, allowed⟩] at still
        cases still
      rcases ih with ⟨empty, _⟩ | ⟨older, _, allowed⟩
      · refine .inr ⟨kind, by rw [empty, Option.toList_some, List.nil_append], ?_⟩
        intro other
        rw [derivation.allows other, Option.some.injEq, or_iff_left (silent other), eq_comm]
      · exact absurd ((allowed older).mpr rfl) (silent older)

end Descent

theorem Unquote.derive_of_allowed {dialect : Dialect}
    (already : dialect.flags.allowsUnquotes = true) (kind : Unquote) (multiline : Bool)
    (ids : Alloc) :
    kind.derive dialect multiline ids = .error (.unquotesAlreadyAllowed dialect.display) := by
  rw [Unquote.derive, if_pos already]

theorem Store.step_unquote_of_allowed {store : Store} {ref : Ref} {dialect : Dialect}
    (found : store.find ref = .ok dialect) (already : dialect.flags.allowsUnquotes = true)
    (kind : Unquote) (multiline : Bool) (slot : Option String) :
    store.step (.make (.unquote kind ref multiline) slot) =
      (⟨.error (.dialect (.unquotesAlreadyAllowed dialect.display)), []⟩, store) := by
  have refused : store.make (.unquote kind ref multiline) =
      .error (.dialect (.unquotesAlreadyAllowed dialect.display)) := by
    rw [make, found]
    change (kind.derive dialect multiline store.ids).mapError Failure.dialect = _
    rw [Unquote.derive_of_allowed already]
    rfl
  rw [step, refused]

def Recipe.unquotes? : Recipe → Option (Unquote × Ref)
  | .unquote kind base _ | .mustUnquote kind base _ => some (kind, base)
  | _ => none

def Recipe.overrides? : Recipe → Option (Ref × Overrides)
  | .derive base set => (Store.overridesOf set).toOption.map fun overrides => (base, overrides)
  | .conf text =>
    (Conf.ofText text).toOption.map fun conf => (.canonical conf.base, conf.overrides)
  | .resolve base set =>
    (Store.overridesOf set).toOption.map fun overrides => (.canonical base, overrides)
  | _ => none

theorem Outcome.derivation {store : Store} {recipe : Recipe} {made : Made} {ids : Alloc}
    (outcome : Outcome store recipe made ids) {ref : Ref} {base : Dialect}
    (found : store.find ref = .ok base) :
    (∀ kind, recipe.unquotes? = some (kind, ref) → Derivation base (some kind) made.dialect) ∧
      ∀ overrides : Overrides, recipe.overrides? = some (ref, overrides) →
        overrides.KeepsUnquotes → Derivation base none made.dialect := by
  have one {other : Dialect} (foundToo : store.find ref = .ok other) : other = base := by
    rw [found] at foundToo
    exact (Except.ok.inj foundToo).symm
  have quoted (kind : Unquote) (multiline : Bool) (plain : base.flags.allowsUnquotes = false) :
      Derivation base (some kind) ⟨⟨store.ids.next⟩, kind.change multiline base.flags⟩ :=
    .quoted (Unquote.derive_eq_ok.mpr ⟨plain, rfl, rfl⟩)
  cases outcome with
  | standard | «alias» | new | vary => exact ⟨nofun, nofun⟩
  | unquote kind multiline foundToo plain | mustUnquote kind multiline foundToo plain =>
    refine ⟨?_, nofun⟩
    rintro _ ⟨⟩
    obtain rfl := one foundToo
    exact quoted kind multiline plain
  | derive foundToo read =>
    refine ⟨nofun, ?_⟩
    rw [Recipe.overrides?, read]
    rintro _ ⟨⟩ keeps
    obtain rfl := one foundToo
    exact .overridden _ keeps _
  | conf read named | resolve read named =>
    refine ⟨nofun, ?_⟩
    rw [Recipe.overrides?, read]
    rintro _ ⟨⟩ keeps
    obtain rfl := one (Store.find_canonical.mpr named)
    exact .overridden _ keeps _

/-- At most one dialect on the way down from a canonical one is derived for quotations, and the
unquotes allowed at the end tell of which kind it was; from then on every further quotation is
refused with the display of the dialect it was asked of. The derivations that the steps of a
session make are those of a descent. -/
theorem unquoting_never_nests {c : Canon} {root dialect : Dialect} {kinds : List Unquote}
    (instance? : c.dialect? = some root) (descent : Descent root kinds dialect) :
    kinds.length ≤ 1 ∧
    (dialect.flags.allows .termUnquotes = true ↔ kinds = [.term]) ∧
    (dialect.flags.allows .patUnquotes = true ↔ kinds = [.pattern]) ∧
    ¬ (dialect.flags.allows .termUnquotes = true ∧ dialect.flags.allows .patUnquotes = true) ∧
    (kinds ≠ [] → ∀ later heir, Descent dialect later heir → later = [] ∧
      ∀ kind multiline,
        (∀ ids, Unquote.derive kind heir multiline ids =
          .error (.unquotesAlreadyAllowed heir.display)) ∧
        ∀ (store : Store) ref slot, store.find ref = .ok heir →
          store.step (.make (.unquote kind ref multiline) slot) =
            (⟨.error (.dialect (.unquotesAlreadyAllowed heir.display)), []⟩, store)) ∧
    (kinds = [] → ∀ kind multiline ids, ∃ made left,
      Unquote.derive kind dialect multiline ids = .ok (made, left)) ∧
    ∀ (store : Store) recipe slot ref base child,
      store.gain (.make recipe slot) = some child → store.find ref = .ok base →
      (∀ kind, recipe.unquotes? = some (kind, ref) → Derivation base (some kind) child) ∧
        ∀ overrides, recipe.overrides? = some (ref, overrides) → overrides.KeepsUnquotes →
          Derivation base none child := by
  have plain : root.flags.allowsUnquotes = false := by
    rw [c.dialect?_eq] at instance?
    rw [← Option.some.inj instance?]
    exact c.allowsUnquotes_flags
  have quotations := descent.quotations plain
  have tells (kind : Unquote) : dialect.flags.allows kind.switch = true ↔ kinds = [kind] := by
    rcases quotations with ⟨empty, still⟩ | ⟨one, only, allowed⟩
    · rw [empty]
      refine iff_of_false ?_ nofun
      intro allows
      rw [Flags.allowsUnquotes_eq_true.mpr ⟨kind, allows⟩] at still
      cases still
    · rw [allowed kind, only, List.cons.injEq, and_iff_left rfl, eq_comm]
  refine ⟨?_, tells .term, tells .pattern, ?_, ?_, ?_, ?_⟩
  · rcases quotations with ⟨empty, _⟩ | ⟨_, only, _⟩
    · rw [empty]
      exact Nat.zero_le 1
    · rw [only]
      exact Nat.le_refl 1
  · rintro ⟨term, pattern⟩
    have both := ((tells .term).mp term).symm.trans ((tells .pattern).mp pattern)
    cases both
  · intro quoted later heir further
    rcases (descent.trans further).quotations plain with ⟨empty, _⟩ | ⟨kind, only, allowed⟩
    · exact absurd (List.append_eq_nil_iff.mp empty).1 quoted
    · have already := Flags.allowsUnquotes_eq_true.mpr ⟨kind, (allowed kind).mpr rfl⟩
      have last : later = [] := by
        rcases List.append_eq_singleton_iff.mp only with ⟨empty, _⟩ | ⟨_, empty⟩
        · exact absurd empty quoted
        · exact empty
      refine ⟨last, fun other multiline => ⟨?_, ?_⟩⟩
      · exact Unquote.derive_of_allowed already other multiline
      · intro store ref slot found
        exact Store.step_unquote_of_allowed found already other multiline slot
  · rintro empty kind multiline ids
    rcases quotations with ⟨_, still⟩ | ⟨_, only, _⟩
    · exact ⟨_, _, Unquote.derive_eq_ok.mpr ⟨still, rfl, rfl⟩⟩
    · rw [empty] at only
      cases only
  · intro store recipe slot ref base child gained found
    obtain ⟨_, _, log, ids, same, outcome, _⟩ := Store.gain_outcome gained
    cases same
    exact outcome.derivation found

/-- A dialect for patterns cannot be derived from an heir of one for terms. -/
theorem unquoting_never_nests_across_kinds :
    let orTypes := Overrides.switching [.orTypes] []
    let base := Canon.dotty.dialect
    let quoted : Dialect := ⟨⟨13⟩, Unquote.term.change false base.flags⟩
    let heir : Dialect := ⟨⟨14⟩, orTypes.apply quoted.flags⟩
    Canon.dotty.dialect? = some base ∧ Descent base [.term] heir ∧
      heir.flags.allows .termUnquotes = true ∧ heir.flags.allows .patUnquotes = false ∧
      Unquote.derive .pattern heir true ⟨15⟩ = .error (.unquotesAlreadyAllowed heir.display) := by
  intro orTypes base quoted heir
  have instance? : Canon.dotty.dialect? = some base := Canon.dotty.dialect?_eq
  have keeps : orTypes.KeepsUnquotes := by
    intro kind
    cases kind <;> rfl
  have first : Derivation base (some .term) quoted :=
    .quoted (Unquote.derive_eq_ok.mpr ⟨rfl, rfl, rfl⟩ :
      Unquote.term.derive base false ⟨13⟩ = .ok (⟨quoted, _⟩, _))
  have second : Derivation quoted none heir := .overridden quoted keeps ⟨14⟩
  have descent : Descent base [.term] heir := (Descent.start.next first).next second
  obtain ⟨_, term, pattern, _, refused, _⟩ := unquoting_never_nests instance? descent
  refine ⟨instance?, descent, term.mpr rfl, ?_, ?_⟩
  · rw [Bool.eq_false_iff, ne_eq, pattern]
    exact nofun
  · exact ((refused (List.cons_ne_nil _ _) [] heir .start).2 .pattern true).1 ⟨15⟩

end SyntaxDialects
