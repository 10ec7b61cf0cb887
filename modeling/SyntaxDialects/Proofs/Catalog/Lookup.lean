import SyntaxDialects.Catalog
import SyntaxDialects.Proofs.Basic

/-!
Looking up the catalog. Each canonical dialect stands under one name, so the catalog's two indexes
undo each other, whatever identities the instances have. In the standard catalog these are the
identities below `Canon.all.length`, in the order of the catalog.
-/
namespace SyntaxDialects

namespace Canon

def dialect (c : Canon) : Dialect :=
  ⟨⟨all.idxOf c⟩, c.flags⟩

theorem name_injective : Function.Injective name := by
  intro c d same
  have distinct : ∀ c ∈ all, ∀ d ∈ all, c.name = d.name → c = d := by decide
  exact distinct c c.mem_all d d.mem_all same

theorem dialect_id_lt (c : Canon) : c.dialect.id.index < all.length :=
  List.idxOf_lt_length_of_mem c.mem_all

theorem eq_of_dialect_id {c d : Canon} (same : c.dialect.id = d.dialect.id) : c = d :=
  (List.idxOf_inj c.mem_all).mp (congrArg DialectId.index same)

theorem dialect?_eq (c : Canon) : c.dialect? = some c.dialect := by
  cases c <;> rfl

theorem eq_of_dialect? {c d : Canon} {dialect : Dialect} (first : c.dialect? = some dialect)
    (second : d.dialect? = some dialect) : c = d := by
  rw [dialect?_eq, Option.some.injEq] at first second
  exact eq_of_dialect_id (by rw [first, second])

theorem dialect?_ne (c : Canon) {dialect : Dialect} (later : all.length ≤ dialect.id.index) :
    c.dialect? ≠ some dialect := by
  rw [dialect?_eq]
  rintro same
  have small := c.dialect_id_lt
  rw [Option.some.inj same] at small
  omega

end Canon

namespace Catalog

section Entries

variable {catalog : Catalog} {made : Canon → Dialect}
  (entries : catalog.entries = Canon.all.map fun c => (c.name, made c))
include entries

theorem mem_entries {name : String} {dialect : Dialect} :
    (name, dialect) ∈ catalog.entries ↔ ∃ c : Canon, c.name = name ∧ made c = dialect := by
  rw [entries, List.mem_map]
  constructor
  · rintro ⟨c, _, same⟩
    exact ⟨c, congrArg Prod.fst same, congrArg Prod.snd same⟩
  · rintro ⟨c, rfl, rfl⟩
    exact ⟨c, c.mem_all, rfl⟩

theorem get?_eq_some {name : String} {dialect : Dialect} :
    catalog.get? name = some dialect ↔ ∃ c : Canon, c.name = name ∧ made c = dialect := by
  unfold get?
  rw [find?_key_eq_some Prod.fst Prod.snd]
  · constructor
    · rintro ⟨entry, member, rfl, rfl⟩
      exact (mem_entries entries).mp member
    · rintro ⟨c, rfl, rfl⟩
      exact ⟨(c.name, made c), (mem_entries entries).mpr ⟨c, rfl, rfl⟩, rfl, rfl⟩
  · intro a aMember b bMember same
    obtain ⟨c, cName, cDialect⟩ := (mem_entries entries).mp aMember
    obtain ⟨d, dName, dDialect⟩ := (mem_entries entries).mp bMember
    obtain rfl := Canon.name_injective (cName.trans (same.trans dName.symm))
    exact cDialect.symm.trans dDialect

theorem nameOf?_eq_some (distinct : ∀ {c d}, (made c).id = (made d).id → c = d)
    {dialect : Dialect} {name : String} :
    catalog.nameOf? dialect = some name ↔
      ∃ c : Canon, c.name = name ∧ (made c).id = dialect.id := by
  unfold nameOf? Dialect.same
  rw [find?_key_eq_some (fun entry : String × Dialect => entry.2.id) Prod.fst]
  · constructor
    · rintro ⟨entry, member, same, rfl⟩
      obtain ⟨c, cName, cDialect⟩ := (mem_entries entries).mp member
      exact ⟨c, cName, by rw [cDialect, same]⟩
    · rintro ⟨c, rfl, same⟩
      exact ⟨(c.name, made c), (mem_entries entries).mpr ⟨c, rfl, rfl⟩, same, rfl⟩
  · intro a aMember b bMember same
    obtain ⟨c, cName, cDialect⟩ := (mem_entries entries).mp aMember
    obtain ⟨d, dName, dDialect⟩ := (mem_entries entries).mp bMember
    have ids : (made c).id = (made d).id := by rw [cDialect, dDialect, same]
    obtain rfl := distinct ids
    exact cName.symm.trans dName

end Entries

theorem standard_entries :
    standard.entries = Canon.all.map fun c => (c.name, c.dialect) :=
  rfl

theorem get?_standard {name : String} {dialect : Dialect} :
    standard.get? name = some dialect ↔ ∃ c : Canon, c.name = name ∧ c.dialect = dialect :=
  get?_eq_some standard_entries

theorem nameOf?_standard {dialect : Dialect} {name : String} :
    standard.nameOf? dialect = some name ↔
      ∃ c : Canon, c.name = name ∧ c.dialect.id = dialect.id :=
  nameOf?_eq_some standard_entries Canon.eq_of_dialect_id

end Catalog

namespace Dialect

theorem name?_eq_some {dialect : Dialect} {name : String} :
    dialect.name? = some name ↔ ∃ c : Canon, c.name = name ∧ c.dialect.id = dialect.id :=
  Catalog.nameOf?_standard

theorem name?_canonical (c : Canon) : c.dialect.name? = some c.name :=
  name?_eq_some.mpr ⟨c, rfl, rfl⟩

theorem name?_of_canonical {c : Canon} {dialect : Dialect}
    (canonical : c.dialect? = some dialect) : dialect.name? = some c.name := by
  rw [c.dialect?_eq, Option.some.injEq] at canonical
  rw [← canonical, name?_canonical]

/-- Identities drawn after the canonical dialects are made stand for no catalog name. -/
theorem name?_eq_none {dialect : Dialect} (later : Canon.all.length ≤ dialect.id.index) :
    dialect.name? = none := by
  rw [Option.eq_none_iff_forall_ne_some]
  intro name named
  obtain ⟨c, _, same⟩ := name?_eq_some.mp named
  have small := c.dialect_id_lt
  rw [same] at small
  omega

end Dialect

end SyntaxDialects
