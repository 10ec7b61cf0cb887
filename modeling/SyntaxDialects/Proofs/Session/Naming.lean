import SyntaxDialects.Proofs.Dialect.Display
import SyntaxDialects.Proofs.Session.Runs

/-!
Names and displays of the dialects of a run. A dialect has a name only if it is canonical, and the
name finds that very instance; its display tells it from every dialect that differs from it in
instance or, among those without names, in flags.
-/
namespace SyntaxDialects
open Text

namespace Dialect

theorem KnownTo.name?_eq_some_iff {ids : Alloc} {dialect : Dialect} (known : dialect.KnownTo ids)
    {name : String} : dialect.name? = some name ↔ Dialect.named name = .ok dialect := by
  rw [named_eq_ok]
  constructor
  · intro hasName
    rcases known.named_or_later with ⟨c, same, cName⟩ | ⟨_, nameless⟩
    · exact ⟨c, Option.some.inj (cName.symm.trans hasName), same⟩
    · rw [nameless] at hasName
      cases hasName
  · rintro ⟨c, rfl, rfl⟩
    exact name?_canonical c

theorem named_eq_error {name : String} (unknown : ∀ c : Canon, c.name ≠ name) :
    Dialect.named name = .error (.unknownDialect name) := by
  cases found : Dialect.named name with
  | ok dialect =>
    obtain ⟨c, same, _⟩ := named_eq_ok.mp found
    exact absurd same (unknown c)
  | error error =>
    unfold named at found
    split at found
    · cases found
    · exact found.symm

theorem display_canonical (c : Canon) : c.dialect.display = c.name := by
  rw [display_eq_displayOver, displayOver_canonical isUnprintable c.dialect?_eq]

theorem named_display_nameless {dialect : Dialect} (nameless : dialect.name? = none) :
    Dialect.named dialect.display = .error (.unknownDialect dialect.display) := by
  apply named_eq_error
  intro c same
  rw [display_eq_displayOver, displayOver_nameless isUnprintable nameless] at same
  exact Flags.dumpOver_ne_name isUnprintable dialect.flags c same.symm

end Dialect

/-- A canonical dialect is displayed as its name and any other as the dump of its flags. Displays
tell dialects apart whatever their separators hold and whatever characters the class of unprintable
ones has in it. -/
theorem display_identifies (unprintable : Char → Bool) (steps : List Step) {a b : Dialect}
    (aMet : a.Met steps) (bMet : b.Met steps) :
    (∀ dialect : Dialect, dialect.display = dialect.displayOver isUnprintable) ∧
    (∀ c : Canon, c.dialect? = some a → a.displayOver unprintable = c.name) ∧
    ((∀ c : Canon, c.dialect? ≠ some a) →
      a.displayOver unprintable = a.flags.dumpOver unprintable) ∧
    (a.displayOver unprintable = b.displayOver unprintable ↔
      (∃ c : Canon, c.dialect? = some a ∧ c.dialect? = some b) ∨
        ((∀ c : Canon, c.dialect? ≠ some a) ∧ (∀ c : Canon, c.dialect? ≠ some b) ∧
          ∀ f, a.flags.get f = b.flags.get f)) ∧
    Function.Injective (Flags.dumpOver unprintable) ∧
    ∀ (flags : Flags) (c : Canon), flags.dumpOver unprintable ≠ c.name := by
  have injective := Flags.dumpOver_injective unprintable
  have noName := Flags.dumpOver_ne_name unprintable
  have named {c : Canon} {dialect : Dialect} (canonical : c.dialect? = some dialect) :=
    Dialect.displayOver_canonical unprintable canonical
  have aDump other := Dialect.displayOver_nameless unprintable (aMet.nameless other)
  have bDump other := Dialect.displayOver_nameless unprintable (bMet.nameless other)
  refine ⟨Dialect.display_eq_displayOver, fun _ => named, aDump, ?_, injective, noName⟩
  -- Each side shows a name or a dump: names tell instances, dumps flags, and no dump is a name.
  rcases exists_or_forall_not fun c : Canon => c.dialect? = some a with ⟨c, aIsC⟩ | aOther <;>
    rcases exists_or_forall_not fun c : Canon => c.dialect? = some b with ⟨d, bIsD⟩ | bOther
  · rw [named aIsC, named bIsD]
    constructor
    · intro same
      obtain rfl := Canon.name_injective same
      exact .inl ⟨c, aIsC, bIsD⟩
    · rintro (⟨e, first, second⟩ | ⟨other, _⟩)
      · rw [Canon.eq_of_dialect? aIsC first, Canon.eq_of_dialect? bIsD second]
      · exact absurd aIsC (other c)
  · rw [named aIsC, bDump bOther]
    constructor
    · intro same
      exact absurd same.symm (noName b.flags c)
    · rintro (⟨e, _, second⟩ | ⟨other, _⟩)
      · exact absurd second (bOther e)
      · exact absurd aIsC (other c)
  · rw [aDump aOther, named bIsD]
    constructor
    · intro same
      exact absurd same (noName a.flags d)
    · rintro (⟨e, first, _⟩ | ⟨_, other, _⟩)
      · exact absurd first (aOther e)
      · exact absurd bIsD (other d)
  · rw [aDump aOther, bDump bOther]
    constructor
    · intro same
      have flags := injective same
      exact .inr ⟨aOther, bOther, fun f => by rw [flags]⟩
    · rintro (⟨e, first, _⟩ | ⟨_, _, agree⟩)
      · exact absurd first (aOther e)
      · rw [Flags.ext_get agree]

/-- Two separators made to look like the syntax of a dump, in dialects of the same switches. -/
theorem display_tells_lookalikes :
    let plain := Flags.bare.set .separator "\")"
    let lookalike := Flags.bare.set .separator "\\\")"
    let run := [Step.make (.new plain) none, .make (.new lookalike) none]
    Dialect.Met run ⟨⟨13⟩, plain⟩ ∧ Dialect.Met run ⟨⟨14⟩, lookalike⟩ ∧
      (⟨⟨13⟩, plain⟩ : Dialect).display ≠ (⟨⟨14⟩, lookalike⟩ : Dialect).display := by
  intro plain lookalike run
  have first : Dialect.Met run ⟨⟨13⟩, plain⟩ := .inr (List.mem_cons_self ..)
  have second : Dialect.Met run ⟨⟨14⟩, lookalike⟩ :=
    .inr (List.mem_cons_of_mem _ (List.mem_cons_self ..))
  refine ⟨first, second, ?_⟩
  obtain ⟨display, _, _, alike, _⟩ := display_identifies isUnprintable run first second
  rw [display, display]
  intro same
  rcases alike.mp same with ⟨c, canonical, _⟩ | ⟨_, _, agree⟩
  · exact c.dialect?_ne (by decide) canonical
  · have separators : "\")" = "\\\")" := agree .separator
    simp at separators

/-- Names and instances correspond in every run: a dialect has a name exactly if it is canonical,
one that a step creates never gets one, and looking up a display finds the dialect displayed or
fails with that very text. -/
theorem names_find_instances (steps : List Step) {dialect : Dialect} (met : dialect.Met steps) :
    (∀ name, dialect.name? = some name ↔ Dialect.named name = .ok dialect) ∧
    ((∃ name, dialect.name? = some name) ↔ ∃ c : Canon, c.dialect? = some dialect) ∧
    (∀ before recipe slot after created, steps = before ++ .make recipe slot :: after →
      recipe.creates = true →
      (Store.initial.run before).2.gain (.make recipe slot) = some created →
      created.name? = none ∧ (dialect.same created = true → dialect.name? = none)) ∧
    ((∃ c : Canon, c.dialect? = some dialect) → Dialect.named dialect.display = .ok dialect) ∧
    ((∀ c : Canon, c.dialect? ≠ some dialect) →
      Dialect.named dialect.display = .error (.unknownDialect dialect.display)) := by
  have known := met.known
  refine ⟨fun name => known.name?_eq_some_iff, ?_, ?_, ?_, ?_⟩
  · simp only [Canon.dialect?_eq, Option.some.injEq]
    rcases known.named_or_later with ⟨c, same, named⟩ | ⟨other, nameless⟩
    · exact ⟨fun _ => ⟨c, same⟩, fun _ => ⟨c.name, named⟩⟩
    · constructor
      · rintro ⟨name, named⟩
        rw [nameless] at named
        cases named
      · rintro ⟨c, same⟩
        exact absurd same (other c)
  · intro before recipe slot after created _ creates gained
    have sound := Store.run_sound Store.sound_initial before
    have later := Store.gain_created sound creates gained
    refine ⟨Dialect.name?_eq_none later, ?_⟩
    intro same
    have ids : dialect.id = created.id := by simpa [Dialect.same] using same
    exact Dialect.name?_eq_none (by rw [ids]; exact later)
  · rintro ⟨c, canonical⟩
    rw [c.dialect?_eq] at canonical
    obtain rfl := Option.some.inj canonical
    exact Dialect.named_eq_ok.mpr ⟨c, (Dialect.display_canonical c).symm, rfl⟩
  · intro other
    simp only [Canon.dialect?_eq, ne_eq, Option.some.injEq] at other
    rcases known.named_or_later with ⟨c, same, _⟩ | ⟨_, nameless⟩
    · exact absurd same (other c)
    · exact Dialect.named_display_nameless nameless

/-- A derivation that overrides nothing has the flags of a canonical dialect and still no name. -/
theorem names_find_instances_after_empty_derivation :
    let base := Canon.scala212.dialect
    let derived : Dialect := ⟨⟨13⟩, Overrides.none.apply base.flags⟩
    let run :=
      [Step.make (.standard "Scala212") (some "$a"), .make (.derive (.slot "$a") .null) none]
    derived.Met run ∧ derived.flags = base.flags ∧ derived.name? = none ∧
      Dialect.named derived.display = .error (.unknownDialect derived.display) := by
  intro base derived run
  have met : derived.Met run := .inr (List.mem_cons_of_mem _ (List.mem_cons_self ..))
  obtain ⟨names, canonical, _, _, unknown⟩ := names_find_instances run met
  have other : ∀ c : Canon, c.dialect? ≠ some derived := fun c => c.dialect?_ne (by decide)
  refine ⟨met, ?_, ?_, unknown other⟩
  · apply Flags.ext_get
    intro f
    simp [derived, Overrides.none]
  · rw [Option.eq_none_iff_forall_ne_some]
    intro name named
    obtain ⟨c, same⟩ := canonical.mp ⟨name, named⟩
    exact other c same

end SyntaxDialects
