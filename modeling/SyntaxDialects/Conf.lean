import SyntaxDialects.Schema.Written
import SyntaxDialects.Toml.Document
import SyntaxDialects.Toml.Place

/-!
Configurations: the name of a canonical dialect and an override set. A document describes a
configuration when it has a text `base`, perhaps an override set `overrides`, and no other keys.
The keys of a table are visited in increasing order, whatever their order in the text, and the
first problem met is the one reported; only then is a missing `base` noticed.
-/
namespace SyntaxDialects
open Text Number Schema Toml

structure Conf where
  base : String
  overrides : Overrides
  deriving DecidableEq

namespace Conf

def debug (conf : Conf) : String :=
  Record.oneLine
    ⟨"DialectConf",
      [("base", quoted conf.base), ("overrides", conf.overrides.record.oneLine)]⟩

def foundInteger : Option Int → Except Problem Found
  | some value =>
    if withinBits 127 128 value then .ok (.integer value) else .error .integerOverflow
  | none => .error .integerOverflow

/-- Floating-point numbers are shown with all their digits. -/
def floatLayout : Layout :=
  ⟨.up, none⟩

def foundFloat (literal : FloatLiteral) : Except Problem Found :=
  match literal.value? with
  | some value => .ok (.float value floatLayout)
  | none => .error .floatOverflow

def found : Node → Except Problem Found
  | .scalar (.string value) _ => .ok (.text value)
  | .scalar (.integer value) _ => foundInteger value
  | .scalar (.float literal) _ => foundFloat literal
  | .scalar (.boolean value) _ => .ok (.boolean value)
  | .scalar .moment _ => .ok .map
  | .array _ _ _ => .ok .sequence
  | .table _ => .ok .map

def written (node : Node) : Written :=
  match found node with
  | .ok found => .value found
  | .error problem => .unreadable problem

/-- A problem in a document; a problem without a span concerns the document as a whole. -/
abbrev DocumentFault := Fault (Option Span)

def visited (table : Table Node) : List (Key × Node) :=
  table.entries.mergeSort fun a b => !decide (b.1.text < a.1.text)

def entriesOf (table : Table Node) : List (Entry (Option Span)) :=
  (visited table).map fun entry =>
    ⟨entry.1.text, some entry.1.span, written entry.2, some entry.2.span⟩

/-- The name under which a date or time would be read where fields are expected. -/
def momentField : String :=
  "$__toml_private_datetime"

def refuse {α : Type} (node : Node) (expected : Expected) : Except DocumentFault α :=
  match found node with
  | .ok found => .error ⟨.invalidType found expected, some node.span⟩
  | .error problem => .error ⟨problem, some node.span⟩

def overridesOfNode : Node → Except DocumentFault Overrides
  | .table table => overridesOfEntries (entriesOf table)
  | .array items _ span =>
    overridesOfPositions (items.map fun item => (written item, some item.span)) (some span)
  | .scalar .moment span => .error ⟨.unknownField momentField Field.names, some span⟩
  | node => refuse node .overrides

def baseOfNode : Node → Except DocumentFault String
  | .scalar (.string value) _ => .ok value
  | node => refuse node .aString

structure Draft where
  base : Option String
  overrides : Overrides

def visit (draft : Draft) (entry : Key × Node) : Except DocumentFault Draft :=
  if entry.1.text = "base" then do
    return { draft with base := some (← baseOfNode entry.2) }
  else if entry.1.text = "overrides" then do
    return { draft with overrides := (← overridesOfNode entry.2) }
  else .error ⟨.unknownField entry.1.text ["base", "overrides"], some entry.1.span⟩

def ofDocument (document : Table Node) : Except DocumentFault Conf := do
  let draft ← (visited document).foldlM visit ⟨none, .none⟩
  match draft.base with
  | some base => .ok ⟨base, draft.overrides⟩
  | none => .error ⟨.missingField "base", none⟩

end Conf

inductive ConfError where
  | malformed
  | mismatch (problem : Problem) (place : Place)
  deriving DecidableEq

def ConfError.message? : ConfError → Option String
  | malformed => none
  | mismatch problem place => some (place.report problem.message)

def Conf.ofText (text : String) : Except ConfError Conf :=
  match document? text.toList with
  | none => .error .malformed
  | some document =>
    match Conf.ofDocument document with
    | .ok conf => .ok conf
    | .error fault =>
      .error (.mismatch fault.problem (Place.ofSpan text.toList fault.place))

end SyntaxDialects
