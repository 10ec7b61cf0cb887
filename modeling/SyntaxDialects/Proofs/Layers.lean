import Mathlib.Data.List.Induction
import Mathlib.Tactic.TFAE
import SyntaxDialects.Dialect
import SyntaxDialects.Proofs.Overrides

/-!
Override sets in layers. Override sets that are applied in turn act field by field, and the last
layer to set a field has its way. A set that changes nothing, whatever it is applied to, is empty.
-/
namespace SyntaxDialects

/-- No value is the only one of its field. -/
theorem Field.exists_ne (f : Field) (value : f.Value) : ∃ other : f.Value, other ≠ value := by
  cases f with
  | allow s => exact ⟨!value, by simp⟩
  | separator =>
    by_cases empty : value = ""
    · exact ⟨";", by rw [empty]; decide⟩
    · exact ⟨"", Ne.symm empty⟩

namespace Overrides

def applyAll (layers : List Overrides) (flags : Flags) : Flags :=
  layers.foldl (fun flags overrides => overrides.apply flags) flags

theorem applyAll_append_singleton (layers : List Overrides) (last : Overrides) (flags : Flags) :
    applyAll (layers ++ [last]) flags = last.apply (applyAll layers flags) :=
  List.foldl_append

theorem get_applyAll (layers : List Overrides) (flags : Flags) (f : Field) :
    (applyAll layers flags).get f =
      (layers.filterMap fun overrides => overrides.get f).getLast?.getD (flags.get f) := by
  induction layers using List.reverseRecOn with
  | nil => rfl
  | append_singleton layers last ih =>
    rw [applyAll_append_singleton, get_apply, List.filterMap_append, ih]
    cases set : last.get f with
    | none => simp [set]
    | some value => simp [set]

theorem isEmpty_iff {overrides : Overrides} :
    overrides.isEmpty ↔ ∀ f, overrides.get f = none := by
  simp only [isEmpty, List.all_eq_true, Option.isNone_iff_eq_none]
  exact ⟨fun all f => all f f.mem_all, fun all f _ => all f⟩

theorem isEmpty_eq_true {overrides : Overrides} : overrides.isEmpty = true ↔ overrides = .none := by
  rw [isEmpty_iff]
  constructor
  · intro nothing
    exact ext_get fun f => by rw [nothing, get_none]
  · rintro rfl
    exact get_none

/-- What an override set changes is what differs from the flags. -/
theorem apply_eq_self {overrides : Overrides} {flags : Flags} :
    overrides.apply flags = flags ↔ ∀ f value, overrides.get f = some value → flags.get f = value := by
  constructor
  · intro same f value set
    rw [← same, get_apply, set]
    rfl
  · intro agree
    apply Flags.ext_get
    intro f
    rw [get_apply]
    cases set : overrides.get f with
    | none => rfl
    | some value => exact (agree f value set).symm

theorem eq_none_of_inert {overrides : Overrides} (inert : ∀ flags, overrides.apply flags = flags) :
    overrides = .none := by
  apply ext_get
  intro f
  rw [get_none, Option.eq_none_iff_forall_ne_some]
  intro value set
  obtain ⟨other, differs⟩ := f.exists_ne value
  have kept := apply_eq_self.mp (inert (Flags.bare.set f other)) f value set
  rw [Flags.get_set_same] at kept
  exact differs kept

/-- Two layers may change places exactly if they agree on the fields that both set. -/
theorem apply_comm_iff {overrides others : Overrides} {flags : Flags} :
    overrides.apply (others.apply flags) = others.apply (overrides.apply flags) ↔
      ∀ f a b, overrides.get f = some a → others.get f = some b → a = b := by
  constructor
  · intro same f a b set setOther
    have values := congrArg (fun flags => flags.get f) same
    simpa [set, setOther] using values
  · intro agree
    apply Flags.ext_get
    intro f
    simp only [get_apply]
    cases set : overrides.get f with
    | none => rfl
    | some a =>
      cases setOther : others.get f with
      | none => rfl
      | some b => exact agree f a b set setOther

end Overrides

def Dialect.overrideAll (base : Dialect) : List Overrides → Alloc → Dialect × Alloc
  | [], ids => (base, ids)
  | overrides :: layers, ids =>
    let (derived, ids) := base.override overrides ids
    derived.overrideAll layers ids

theorem Dialect.flags_overrideAll (base : Dialect) (layers : List Overrides) (ids : Alloc) :
    (base.overrideAll layers ids).1.flags = Overrides.applyAll layers base.flags := by
  induction layers generalizing base ids with
  | nil => rfl
  | cons overrides layers ih => exact ih (base.override overrides ids).1 _

namespace Overrides

/-- Layers of override sets, applied to flags or to a dialect by derivations, leave each field with
the last value that a layer sets for it, or its own if none does. So a layer that is repeated does
nothing more, and two layers may change places when they agree on the fields that both set. An
override set is empty exactly if it is the default one, and exactly if it changes no flags at all;
it leaves given flags alone exactly if they have the values that it sets. -/
theorem last_layer_wins :
    (∀ layers flags f, (applyAll layers flags).get f =
      (layers.filterMap fun overrides => overrides.get f).getLast?.getD (flags.get f)) ∧
    (∀ (base : Dialect) layers ids,
      (base.overrideAll layers ids).1.flags = applyAll layers base.flags) ∧
    (∀ (overrides : Overrides) flags,
      overrides.apply (overrides.apply flags) = overrides.apply flags) ∧
    (∀ (overrides others : Overrides) flags,
      overrides.apply (others.apply flags) = others.apply (overrides.apply flags) ↔
        ∀ f a b, overrides.get f = some a → others.get f = some b → a = b) ∧
    (∀ overrides : Overrides, [overrides.isEmpty = true, overrides = .none,
      ∀ flags, overrides.apply flags = flags].TFAE) ∧
    (∀ (overrides : Overrides) flags, overrides.apply flags = flags ↔
      ∀ f value, overrides.get f = some value → flags.get f = value) := by
  refine ⟨get_applyAll, Dialect.flags_overrideAll, ?_, fun _ _ _ => apply_comm_iff, ?_,
    fun _ _ => apply_eq_self⟩
  · intro overrides flags
    rw [apply_eq_self]
    intro f value set
    rw [get_apply, set]
    rfl
  · intro overrides
    tfae_have 1 → 2 := by
      intro empty
      apply ext_get
      intro f
      rw [get_none, isEmpty_iff.mp empty f]
    tfae_have 2 → 3 := by
      rintro rfl flags
      rw [apply_eq_self]
      intro f value set
      rw [get_none] at set
      cases set
    tfae_have 3 → 1 := by
      intro inert
      rw [eq_none_of_inert inert, isEmpty_iff]
      exact get_none
    tfae_finish

end Overrides

end SyntaxDialects
