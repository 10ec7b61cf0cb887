import SyntaxDialects.Proofs.Conf.Decoding
import SyntaxDialects.Proofs.Session.Lineage

/-!
Dialects of configurations. Each field of such a dialect has the value that the text writes for it
or else that of the base, and the dialect is a new one even if nothing is written. A base that the
catalog does not know is reported as it is written, before anything is drawn or recorded.
-/
namespace SyntaxDialects
open Toml

namespace Conf

def Prescribes (document : Table Node) (f : Field) (value : f.Value) : Prop :=
  ∃ node, document.Holds "overrides" node ∧ Writes node f value

structure FlagsOver (base : Flags) (document : Table Node) (flags : Flags) : Prop where
  written : ∀ f value, Prescribes document f value → flags.get f = value
  inherited : ∀ f, (∀ value, ¬ Prescribes document f value) → flags.get f = base.get f

theorem DescribedBy.flagsOver {document : Table Node} {conf : Conf}
    (described : DescribedBy document conf) (base : Flags) :
    FlagsOver base document (conf.overrides.apply base) where
  written f value written := by
    rw [Overrides.get_apply, (described.overrides f value).mpr written, Option.getD_some]
  inherited f absent := by
    have nothing : conf.overrides.get f = none := by
      rw [Option.eq_none_iff_forall_ne_some]
      intro value set
      exact absent value ((described.overrides f value).mp set)
    rw [Overrides.get_apply, nothing, Option.getD_none]

theorem realize_of_unknown {conf : Conf} (unknown : Catalog.standard.get? conf.base = none)
    (ids : Alloc) : conf.realize ids = .error (.unknownDialect conf.base) := by
  rw [realize, Dialect.named, unknown]
  rfl

theorem acts_run_of_unknown {conf : Conf} (unknown : Catalog.standard.get? conf.base = none)
    (trail : Trail) : conf.acts.run trail = (.error (.unknownDialect conf.base), trail) := by
  rw [acts_run, realize_of_unknown unknown]
  rfl

def dialectOver (conf : Conf) (base : Dialect) (ids : Alloc) : Dialect :=
  (base.override conf.overrides ids).1

def event (conf : Conf) (dialect : Dialect) : Event :=
  .resolved dialect.id conf.base (!conf.overrides.isEmpty)

section Steps

variable {text : String} {conf : Conf}

theorem outcome_of_known (accepted : Conf.ofText text = .ok conf) {base : Dialect}
    (known : Catalog.standard.get? conf.base = some base) (store : Store) :
    let dialect := conf.dialectOver base store.ids
    Outcome store (.conf text) ⟨dialect, [conf.event dialect]⟩ store.ids.rest := by
  refine .conf accepted ?_
  rw [Dialect.named, known]

theorem step_of_unknown (accepted : Conf.ofText text = .ok conf)
    (unknown : Catalog.standard.get? conf.base = none) (store : Store) (slot : Option String) :
    store.step (.make (.conf text) slot) =
      (⟨.error (.dialect (.unknownDialect conf.base)), []⟩, store) := by
  apply Store.step_of_refusal
  rw [Store.make, accepted]
  change (conf.realize store.ids).mapError Failure.dialect = _
  rw [realize_of_unknown unknown]
  rfl

end Steps

/-- A place of a run at which a text is resolved over a base: what the step makes and shows there,
and what it leaves as it was. -/
structure ResolvedAt (steps : List Step) (i : Nat) (text : String) (conf : Conf)
    (slot : Option String) (base dialect : Dialect) : Prop where
  created : (Store.reached steps i).creation (.make (.conf text) slot) = some dialect
  shown : (session steps)[i]? = some ⟨.ok (.made dialect.id none),
    [.resolved dialect.id conf.base (!conf.overrides.isEmpty)]⟩
  nameless : dialect.name? = none
  apart : base.same dialect = false
  fresh : ∀ earlier : Dialect, earlier.Met (steps.take i) → earlier.same dialect = false
  held : ∀ name, slot = some name → (Store.reached steps (i + 1)).find (.slot name) = .ok dialect
  base_kept : (Store.reached steps (i + 1)).find (.canonical conf.base) = .ok base
  others_kept : ∀ ref other, (Store.reached steps i).find ref = .ok other →
    (∀ name, slot = some name → ref ≠ .slot name) →
      (Store.reached steps (i + 1)).find ref = .ok other

structure FailedAt (steps : List Step) (i : Nat) (failure : Failure) : Prop where
  shown : (session steps)[i]? = some ⟨.error failure, []⟩
  kept : Store.reached steps (i + 1) = Store.reached steps i

section Places

variable {text : String} {conf : Conf} {steps : List Step} {i : Nat} {slot : Option String}

theorem resolvedAt (accepted : Conf.ofText text = .ok conf) {base : Dialect}
    (known : Catalog.standard.get? conf.base = some base)
    (here : steps[i]? = some (.make (.conf text) slot)) :
    ResolvedAt steps i text conf slot base
      (conf.dialectOver base (Store.reached steps i).ids) := by
  have outcome := outcome_of_known accepted known (Store.reached steps i)
  have drawn : (conf.dialectOver base (Store.reached steps i).ids).id =
      ⟨(Store.reached steps i).ids.next⟩ := rfl
  obtain ⟨nameless, fresh⟩ := Dialect.new_of_id drawn
  have named : Dialect.named conf.base = .ok base := by rw [Dialect.named, known]
  have canonical : base.Met (steps.take i) := by
    obtain ⟨c, _, same⟩ := Dialect.named_eq_ok.mp named
    exact .inl ⟨c, by rw [c.dialect?_eq, same]⟩
  have next := Store.reached_succ here
  refine ⟨?_, ?_, nameless, fresh base canonical, fresh, ?_, ?_, ?_⟩
  · exact (if_pos rfl).trans (Store.gain_of_outcome outcome slot)
  · rw [Store.session_get?, here, Option.map_some, Store.step_of_outcome outcome, nameless, event]
  · rintro name rfl
    rw [next, Store.step_of_outcome outcome, Store.find_slot, Store.slot?_keep, if_pos rfl]
  · exact Store.find_canonical.mpr named
  · intro ref other found unbound
    rw [next]
    refine Store.find_step_of_unbound found ?_
    rintro recipe name rfl same
    cases same
    exact unbound name rfl rfl

theorem failedAt (accepted : Conf.ofText text = .ok conf)
    (unknown : Catalog.standard.get? conf.base = none)
    (here : steps[i]? = some (.make (.conf text) slot)) :
    FailedAt steps i (.dialect (.unknownDialect conf.base)) := by
  constructor
  · rw [Store.session_get?, here, Option.map_some, step_of_unknown accepted unknown]
  · rw [Store.reached_succ here, step_of_unknown accepted unknown]

end Places

/-- A configuration is resolved to the flags that its text describes, in a new dialect, and that
exactly if its base is in the catalog; otherwise the error has the base as it is written, and
nothing is drawn or recorded. Texts of equal configurations are resolved alike. The catalog is
built in all runs here; what its first use draws and records is `Sharing.raceForCatalog_settles`. -/
theorem resolution_follows_text {text : String} {conf : Conf}
    (accepted : Conf.ofText text = .ok conf) :
    (∃ document span, document? text.toList = some document ∧
      document.Holds "base" (.scalar (.string conf.base) span) ∧
      ∀ base, Catalog.standard.get? conf.base = some base →
        ∀ steps i slot, steps[i]? = some (.make (.conf text) slot) →
          ∃ dialect, ResolvedAt steps i text conf slot base dialect ∧
            FlagsOver base.flags document dialect.flags) ∧
    (Catalog.standard.get? conf.base = none →
      (∀ trail, conf.acts.run trail = (.error (.unknownDialect conf.base), trail)) ∧
      ∀ steps i slot, steps[i]? = some (.make (.conf text) slot) →
        FailedAt steps i (.dialect (.unknownDialect conf.base))) ∧
    ∀ other, Conf.ofText other = .ok conf → ∀ steps i j slot otherSlot, i ≠ j →
      steps[i]? = some (.make (.conf text) slot) →
      steps[j]? = some (.make (.conf other) otherSlot) →
        (∃ base first second, ResolvedAt steps i text conf slot base first ∧
          ResolvedAt steps j other conf otherSlot base second ∧
          first.flags = second.flags ∧ first.same second = false) ∨
        ∃ failure, FailedAt steps i failure ∧ FailedAt steps j failure := by
  obtain ⟨document, parsed, shape, described⟩ := ofText_eq_ok.mp accepted
  obtain ⟨span, holds⟩ := described.base
  refine ⟨⟨document, span, parsed, holds, ?_⟩, ?_, ?_⟩
  · intro base known steps i slot here
    exact ⟨_, resolvedAt accepted known here, described.flagsOver base.flags⟩
  · intro unknown
    exact ⟨acts_run_of_unknown unknown, fun _ _ _ => failedAt accepted unknown⟩
  · intro other acceptedToo steps i j slot otherSlot apart here there
    cases known : Catalog.standard.get? conf.base with
    | none => exact .inr ⟨_, failedAt accepted known here, failedAt acceptedToo known there⟩
    | some base =>
      have first := resolvedAt accepted known here
      have second := resolvedAt acceptedToo known there
      refine .inl ⟨base, _, _, first, second, rfl, ?_⟩
      -- An identity is drawn at one place only, and these are two.
      rw [Dialect.same, beq_eq_false_iff_ne]
      intro same
      exact apart (Store.place_of_creation here first.created there second.created same)

/-- Two spellings of one configuration are resolved apart, and a name in small letters is
unknown. -/
theorem resolution_follows_text_of_spellings :
    let conf : Conf := ⟨"Dotty", Overrides.none.put (.allow .withTypes) (some true)⟩
    let dotted := "base = 'Dotty'\noverrides.allow_with_types = true\n"
    let header := "base = \"Dotty\"\n[overrides]\nallow_with_types = true\n"
    let small := "base = 'dotty'"
    let run := [Step.make (.conf dotted) (some "$a"), .make (.conf header) (some "$a"),
      .make (.conf small) none]
    (∃ base first second, ResolvedAt run 0 dotted conf (some "$a") base first ∧
      ResolvedAt run 1 header conf (some "$a") base second ∧
      first.flags = second.flags ∧ first.same second = false) ∧
    FailedAt run 2 (.dialect (.unknownDialect "dotty")) := by
  have readDotted : Conf.ofText "base = 'Dotty'\noverrides.allow_with_types = true\n" =
      .ok ⟨"Dotty", Overrides.none.put (.allow .withTypes) (some true)⟩ :=
    ofText_of_sorted (by decide +kernel)
  have readHeader : Conf.ofText "base = \"Dotty\"\n[overrides]\nallow_with_types = true\n" =
      .ok ⟨"Dotty", Overrides.none.put (.allow .withTypes) (some true)⟩ :=
    ofText_of_sorted (by decide +kernel)
  have readSmall : Conf.ofText "base = 'dotty'" = .ok ⟨"dotty", Overrides.none⟩ :=
    ofText_of_sorted (by decide +kernel)
  intro conf dotted header small run
  have known : Catalog.standard.get? conf.base = some Canon.dotty.dialect :=
    Catalog.get?_standard.mpr ⟨.dotty, rfl, rfl⟩
  obtain ⟨⟨_, _, _, _, resolves⟩, _, alike⟩ := resolution_follows_text readDotted
  obtain ⟨_, fails, _⟩ := resolution_follows_text readSmall
  refine ⟨?_, (fails rfl).2 run 2 none rfl⟩
  rcases alike header readHeader run 0 1 _ _ Nat.zero_ne_one rfl rfl with both | ⟨_, failed, _⟩
  · exact both
  · obtain ⟨_, resolved, _⟩ := resolves _ known run 0 _ rfl
    have shown := resolved.shown
    rw [failed.shown] at shown
    cases shown

end Conf

end SyntaxDialects
