/-!
The capabilities by which dialects differ: seventeen switches and one text. `Field.all` lists
them in declaration order, which is the order of every dump and of positional override sets, and
`Field.name` gives each its written name.
-/
namespace SyntaxDialects

inductive Switch where
  | andTypes
  | atForExtractorVarargs
  | colonForExtractorVarargs
  | inlineIdents
  | inlineMods
  | literalTypes
  | multilinePrograms
  | orTypes
  | patUnquotes
  | spliceUnderscores
  | termUnquotes
  | toplevelTerms
  | trailingCommas
  | traitParameters
  | viewBounds
  | withTypes
  | xmlLiterals
  deriving DecidableEq

namespace Switch

def all : List Switch := [
  andTypes, atForExtractorVarargs, colonForExtractorVarargs, inlineIdents, inlineMods,
  literalTypes, multilinePrograms, orTypes, patUnquotes, spliceUnderscores, termUnquotes,
  toplevelTerms, trailingCommas, traitParameters, viewBounds, withTypes, xmlLiterals]

theorem mem_all (s : Switch) : s ∈ all := by
  cases s <;> decide

def name : Switch → String
  | andTypes => "allow_and_types"
  | atForExtractorVarargs => "allow_at_for_extractor_varargs"
  | colonForExtractorVarargs => "allow_colon_for_extractor_varargs"
  | inlineIdents => "allow_inline_idents"
  | inlineMods => "allow_inline_mods"
  | literalTypes => "allow_literal_types"
  | multilinePrograms => "allow_multiline_programs"
  | orTypes => "allow_or_types"
  | patUnquotes => "allow_pat_unquotes"
  | spliceUnderscores => "allow_splice_underscores"
  | termUnquotes => "allow_term_unquotes"
  | toplevelTerms => "allow_toplevel_terms"
  | trailingCommas => "allow_trailing_commas"
  | traitParameters => "allow_trait_parameters"
  | viewBounds => "allow_view_bounds"
  | withTypes => "allow_with_types"
  | xmlLiterals => "allow_xml_literals"

def index : Switch → Nat
  | andTypes => 0
  | atForExtractorVarargs => 1
  | colonForExtractorVarargs => 2
  | inlineIdents => 3
  | inlineMods => 4
  | literalTypes => 5
  | multilinePrograms => 6
  | orTypes => 7
  | patUnquotes => 8
  | spliceUnderscores => 9
  | termUnquotes => 10
  | toplevelTerms => 11
  | trailingCommas => 12
  | traitParameters => 13
  | viewBounds => 14
  | withTypes => 15
  | xmlLiterals => 16

theorem index_lt (s : Switch) : s.index < all.length := by
  cases s <;> decide

theorem get_all_index (s : Switch) : all.get ⟨s.index, s.index_lt⟩ = s := by
  cases s <;> rfl

theorem index_get_all (i : Fin all.length) : (all.get i).index = i := by
  revert i
  decide

end Switch

structure PerSwitch (β : Type) where
  values : List β
  complete : values.length = Switch.all.length
  deriving DecidableEq

namespace PerSwitch

variable {β : Type}

def get (table : PerSwitch β) (s : Switch) : β :=
  table.values.get ⟨s.index, table.complete ▸ s.index_lt⟩

def ofFn (value : Switch → β) : PerSwitch β :=
  ⟨Switch.all.map value, List.length_map _⟩

@[simp] theorem get_ofFn (value : Switch → β) (s : Switch) : (ofFn value).get s = value s := by
  have same := s.get_all_index
  simp only [List.get_eq_getElem] at same
  simp [ofFn, get, same]

theorem values_eq_map_get (table : PerSwitch β) : table.values = Switch.all.map table.get := by
  apply List.ext_get (by simp [table.complete])
  intro i inside inAll
  have place := Switch.index_get_all ⟨i, table.complete ▸ inside⟩
  simp only [List.get_eq_getElem] at place
  simp [get, place]

theorem ext_get {a b : PerSwitch β} (agree : ∀ s, a.get s = b.get s) : a = b := by
  have same : a.values = b.values := by
    rw [a.values_eq_map_get, b.values_eq_map_get, funext agree]
  cases a
  cases b
  cases same
  rfl

end PerSwitch

/-- `separator` is the token required between top-level statements, empty when none is. -/
inductive Field where
  | allow (what : Switch)
  | separator
  deriving DecidableEq

namespace Field

@[reducible] def Value : Field → Type
  | allow _ => Bool
  | separator => String

instance (f : Field) : DecidableEq f.Value :=
  match f with
  | allow _ => inferInstanceAs (DecidableEq Bool)
  | separator => inferInstanceAs (DecidableEq String)

def all : List Field :=
  Switch.all.map allow ++ [separator]

theorem mem_all (f : Field) : f ∈ all := by
  cases f with
  | allow s => exact List.mem_append_left _ (List.mem_map_of_mem s.mem_all)
  | separator => simp [all]

def name : Field → String
  | allow s => s.name
  | separator => "toplevel_separator"

def names : List String :=
  all.map name

def ofName? (name : String) : Option Field :=
  all.find? fun f => f.name == name

theorem name_ofName? {name : String} {f : Field} (found : ofName? name = some f) :
    f.name = name := by
  simpa using List.find?_some found

theorem ofName?_name (f : Field) : ofName? f.name = some f := by
  cases f with
  | allow s => cases s <;> decide
  | separator => decide

end Field

end SyntaxDialects
