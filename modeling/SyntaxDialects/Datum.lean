import SyntaxDialects.Number.Scaled
import SyntaxDialects.Schema.Written

/-!
Override sets as data: an absent value is the empty set, a record names the fields it overrides,
and a sequence gives one value for each field and no more.
-/
namespace SyntaxDialects
open Schema Number

inductive Datum where
  | null
  | boolean (value : Bool)
  | integer (value : Int)
  | float (value : Double)
  | text (value : String)
  | sequence (items : List Datum)
  | record (entries : List (String × Datum))
  deriving Inhabited

namespace Datum

/-- Floating-point numbers are shown with an exponent if they are very large or small. -/
def floatLayout : Layout :=
  ⟨.even, some (-5, 15)⟩

/-- A number without point and exponent is an integer if it fits 64 bits, signed or not; minus
zero and every other number is a float, unless it is too large. -/
def ofNumeral? (n : Numeral) : Option Datum :=
  let value := n.wholeValue
  if n.isWhole ∧ ¬ (n.negative ∧ value = 0) ∧ withinBits 63 64 value then
    some (integer value)
  else n.double?.map float

def found? : Datum → Option Found
  | null => none
  | boolean value => some (.boolean value)
  | integer value => some (.integer value)
  | float value => some (.float value floatLayout)
  | text value => some (.text value)
  | sequence _ => some .sequence
  | record _ => some .map

def written (datum : Datum) : Written :=
  match datum.found? with
  | some found => .value found
  | none => .absent

def overrides (datum : Datum) : Except (Fault Unit) Overrides :=
  match datum with
  | record entries =>
    overridesOfEntries (entries.map fun entry => ⟨entry.1, (), entry.2.written, ()⟩)
  | sequence items => do
    let overrides ← overridesOfPositions (items.map fun item => (item.written, ())) ()
    if items.length ≤ Field.all.length then .ok overrides
    else .error ⟨.invalidLength items.length .tooLong, ()⟩
  | scalar =>
    match scalar.found? with
    | some found => .error ⟨.invalidType found .overrides, ()⟩
    | none => .ok .none

end Datum

end SyntaxDialects
