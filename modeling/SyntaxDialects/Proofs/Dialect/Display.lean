import SyntaxDialects.Dialect.Rendering
import SyntaxDialects.Proofs.Catalog.Lookup
import SyntaxDialects.Proofs.Text.Quoting

/-!
How dialects are displayed. The dump of a dialect gives back all its flags whatever its separator
holds and whatever class of characters is escaped, and it is never a catalog name.
-/
namespace SyntaxDialects
open Text

namespace Field

def valueTextOver (unprintable : Char → Bool) : (f : Field) → f.Value → String
  | .allow _, value => if value then "true" else "false"
  | .separator, value => String.ofList ('"' :: escape unprintable value.toList ++ ['"'])

theorem valueText_eq_valueTextOver (f : Field) (value : f.Value) :
    f.valueText value = f.valueTextOver isUnprintable value := by
  cases f <;> rfl

theorem valueTextOver_prefixFree (unprintable : Char → Bool) (f : Field) :
    PrefixFree fun value : f.Value => (f.valueTextOver unprintable value).toList := by
  cases f with
  | allow s =>
    intro a b rest others same
    cases a <;> cases b <;> simp [valueTextOver] at same ⊢ <;> exact same
  | separator =>
    intro a b rest others same
    simp only [valueTextOver, String.toList_ofList] at same
    exact escape_quotes_prefixFree unprintable same

end Field

namespace Flags

def dumpOver (unprintable : Char → Bool) (flags : Flags) : String :=
  "Dialect(" ++ ", ".intercalate (Field.all.map fun f =>
    f.name ++ " = " ++ f.valueTextOver unprintable (flags.get f)) ++ ")"

private theorem dumpOver_toList (unprintable : Char → Bool) (flags : Flags) :
    (flags.dumpOver unprintable).toList = "Dialect(".toList ++
      (", ".toList.intercalate (Field.all.map fun f =>
        (f.name ++ " = ").toList ++ (f.valueTextOver unprintable (flags.get f)).toList) ++ [')']) := by
  simp [dumpOver, String.toList_append, Function.comp_def]

theorem dumpOver_injective (unprintable : Char → Bool) :
    Function.Injective (dumpOver unprintable) := by
  intro a b same
  have texts := congrArg String.toList same
  rw [dumpOver_toList, dumpOver_toList, List.append_cancel_left_eq] at texts
  obtain ⟨values, _⟩ := intercalate_prefixFree (", ".toList)
    (fun f : Field => (f.name ++ " = ").toList)
    (fun f value => (f.valueTextOver unprintable value).toList)
    (Field.valueTextOver_prefixFree unprintable) a.get b.get Field.all [')'] [')'] texts
  exact ext_get fun f => values f f.mem_all

theorem dumpOver_ne_name (unprintable : Char → Bool) (flags : Flags) (c : Canon) :
    flags.dumpOver unprintable ≠ c.name := by
  intro same
  have inName : '(' ∈ c.name.toList := by
    rw [← same, dumpOver_toList]
    simp
  cases c <;> simp [Canon.name] at inName

end Flags

namespace Dialect

def displayOver (unprintable : Char → Bool) (dialect : Dialect) : String :=
  dialect.name?.getD (dialect.flags.dumpOver unprintable)

theorem displayOver_canonical (unprintable : Char → Bool) {c : Canon} {dialect : Dialect}
    (canonical : c.dialect? = some dialect) : dialect.displayOver unprintable = c.name := by
  rw [displayOver, name?_of_canonical canonical, Option.getD_some]

theorem displayOver_nameless (unprintable : Char → Bool) {dialect : Dialect}
    (nameless : dialect.name? = none) :
    dialect.displayOver unprintable = dialect.flags.dumpOver unprintable := by
  rw [displayOver, nameless, Option.getD_none]

theorem display_eq_displayOver (dialect : Dialect) :
    dialect.display = dialect.displayOver isUnprintable := by
  unfold display plain displayOver
  cases dialect.name? with
  | some name => rfl
  | none =>
    simp only [dump, Flags.fields, Option.getD_none, Flags.dumpOver, List.map_map,
      Function.comp_def, Field.valueText_eq_valueTextOver]

end Dialect

end SyntaxDialects
