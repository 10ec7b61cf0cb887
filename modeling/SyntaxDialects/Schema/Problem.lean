import SyntaxDialects.Number.Layout
import SyntaxDialects.Text.Quoted

/-!
Problems: the ways in which a well-formed document fails to describe what it should, and the one
sentence that reports each.
-/
namespace SyntaxDialects.Schema
open Text Number

inductive Found where
  | boolean (value : Bool)
  | integer (value : Int)
  -- The layout is that of the document's format.
  | float (value : Double) (layout : Layout)
  | text (value : String)
  | sequence
  | map
  deriving DecidableEq

def withinBits (below above : Nat) (value : Int) : Bool :=
  -Int.ofNat (Nat.pow 2 below) ≤ value && value < Int.ofNat (Nat.pow 2 above)

def Found.describe : Found → String
  | boolean value => "boolean `" ++ (if value then "true" else "false") ++ "`"
  | integer value =>
    let width :=
      if withinBits 63 64 value then ""
      else if withinBits 127 127 value then " as i128"
      else " as u128"
    "integer `" ++ toString value ++ "`" ++ width
  | float value layout => "floating point `" ++ value.text layout ++ "`"
  | text value => "string " ++ quoted value
  | sequence => "sequence"
  | map => "map"

inductive Expected where
  | aBoolean
  | aString
  | overrides
  deriving DecidableEq

def Expected.describe : Expected → String
  | aBoolean => "a boolean"
  | aString => "a string"
  | overrides => "struct Overrides"

inductive Length where
  | tooShort (fields : Nat)
  | tooLong
  deriving DecidableEq

def Length.describe : Length → String
  | tooShort fields => "struct Overrides with " ++ toString fields ++ " elements"
  | tooLong => "fewer elements in array"

inductive Problem where
  | unknownField (name : String) (known : List String)
  | missingField (name : String)
  | invalidType (found : Found) (expected : Expected)
  | invalidLength (count : Nat) (expected : Length)
  | integerOverflow
  | floatOverflow
  deriving DecidableEq

def oneOf (known : List String) : String :=
  match known.map fun name => "`" ++ name ++ "`" with
  | [one, other] => one ++ " or " ++ other
  | names => "one of " ++ ", ".intercalate names

def Problem.message : Problem → String
  | unknownField name known => "unknown field `" ++ name ++ "`, expected " ++ oneOf known
  | missingField name => "missing field `" ++ name ++ "`"
  | invalidType found expected =>
    "invalid type: " ++ found.describe ++ ", expected " ++ expected.describe
  | invalidLength count expected =>
    "invalid length " ++ toString count ++ ", expected " ++ expected.describe
  | integerOverflow => "integer number overflowed"
  | floatOverflow => "floating-point number overflowed"

end SyntaxDialects.Schema
