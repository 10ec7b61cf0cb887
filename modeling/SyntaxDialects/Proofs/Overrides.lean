import Mathlib.Data.List.Nodup
import SyntaxDialects.Overrides

/-!
Override sets as lists of settings. Setting the values of an override set one by one, in whatever
order, makes that set.
-/
namespace SyntaxDialects

theorem Field.ofName?_eq_some {name : String} {f : Field} :
    Field.ofName? name = some f ↔ f.name = name := by
  constructor
  · exact Field.name_ofName?
  · rintro rfl
    exact Field.ofName?_name f

theorem Field.name_injective : Function.Injective Field.name := by
  intro f g same
  have found := Field.ofName?_name f
  rw [same, Field.ofName?_name g] at found
  exact (Option.some.inj found).symm

theorem Field.nodup_all : Field.all.Nodup := by
  decide

/-- A field stands at one place only. -/
theorem Field.mem_zip_unique {β : Type} {items : List β} {f : Field} {item other : β}
    (place : (f, item) ∈ Field.all.zip items) (placeOther : (f, other) ∈ Field.all.zip items) :
    item = other := by
  obtain ⟨i, _, atFirst⟩ := List.getElem_of_mem place
  obtain ⟨j, _, atOther⟩ := List.getElem_of_mem placeOther
  rw [List.getElem_zip, Prod.mk.injEq] at atFirst atOther
  have same : i = j := Field.nodup_all.getElem_inj_iff.mp (atFirst.1.trans atOther.1.symm)
  subst same
  exact atFirst.2.symm.trans atOther.2

theorem Field.exists_mem_zip {β : Type} {items : List β} (long : Field.all.length ≤ items.length)
    (f : Field) : ∃ item, (f, item) ∈ Field.all.zip items := by
  have member : f ∈ (Field.all.zip items).map Prod.fst := by
    rw [List.map_fst_zip long]
    exact f.mem_all
  obtain ⟨⟨_, item⟩, inside, rfl⟩ := List.mem_map.mp member
  exact ⟨item, inside⟩

namespace Overrides

abbrev Setting := (f : Field) × f.Value

theorem get_none (f : Field) : Overrides.none.get f = none := by
  rw [Overrides.none, get_ofFn]

theorem mem_settings {overrides : Overrides} {setting : Setting} :
    setting ∈ overrides.settings ↔ overrides.get setting.1 = some setting.2 := by
  obtain ⟨f, value⟩ := setting
  simp only [settings, List.mem_filterMap, Option.map_eq_some_iff, Sigma.mk.injEq]
  constructor
  · rintro ⟨g, _, found, isSet, rfl, same⟩
    rw [isSet, eq_of_heq same]
  · intro isSet
    exact ⟨f, f.mem_all, value, isSet, rfl, HEq.rfl⟩

theorem nodup_fields_settings (overrides : Overrides) :
    (overrides.settings.map Sigma.fst).Nodup := by
  have fields : overrides.settings.map Sigma.fst =
      Field.all.filter fun f => (overrides.get f).isSome := by
    rw [settings, List.map_filterMap, ← List.filterMap_eq_filter]
    congr
    funext f
    cases isSet : overrides.get f <;> simp [Option.guard, isSet]
  rw [fields]
  exact Field.nodup_all.filter _

def putAll (settings : List Setting) (overrides : Overrides) : Overrides :=
  settings.foldl (fun overrides setting => overrides.put setting.1 (some setting.2)) overrides

theorem putAll_append (settings others : List Setting) (overrides : Overrides) :
    putAll (settings ++ others) overrides = putAll others (putAll settings overrides) :=
  List.foldl_append

theorem get_putAll {settings : List Setting} (distinct : (settings.map Sigma.fst).Nodup)
    {overrides : Overrides} {f : Field} {value : f.Value} :
    (putAll settings overrides).get f = some value ↔
      ⟨f, value⟩ ∈ settings ∨ (f ∉ settings.map Sigma.fst ∧ overrides.get f = some value) := by
  induction settings generalizing overrides with
  | nil => simp [putAll]
  | cons setting settings ih =>
    obtain ⟨fresh, distinct⟩ := List.nodup_cons.mp distinct
    have rest : putAll (setting :: settings) overrides =
        putAll settings (overrides.put setting.1 (some setting.2)) := rfl
    rw [rest, ih distinct, List.map_cons, List.mem_cons, List.mem_cons, not_or]
    obtain ⟨g, set⟩ := setting
    by_cases same : g = f
    · subst same
      have notLater : ⟨g, value⟩ ∉ settings :=
        fun later => fresh (List.mem_map.mpr ⟨_, later, rfl⟩)
      rw [get_put_same]
      simp [notLater, fresh, eq_comm]
    · rw [get_put_other _ _ same]
      simp [Ne.symm same]

theorem putAll_settings {overrides : Overrides} {settings : List Setting}
    (all : settings.Perm overrides.settings) : putAll settings .none = overrides := by
  have distinct : (settings.map Sigma.fst).Nodup :=
    (all.map Sigma.fst).nodup_iff.mpr overrides.nodup_fields_settings
  apply ext_get
  intro f
  apply Option.ext
  intro value
  rw [get_putAll distinct, all.mem_iff, mem_settings, get_none]
  simp

end Overrides

end SyntaxDialects
