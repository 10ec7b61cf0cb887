import SyntaxDialects.Number.Double

/-!
The decimals that stand for floating-point numbers: those with the fewest digits that read back.
Of two such decimals the nearer one is taken; which one in a tie is for the format to say.
-/
namespace SyntaxDialects.Number

/-- The numbers that round to one floating-point number; the ends belong to them if `closed`. -/
structure Interval where
  lower : Ratio
  upper : Ratio
  closed : Bool

namespace Interval

def contains (interval : Interval) (r : Ratio) : Bool :=
  if interval.closed then interval.lower.le r && r.le interval.upper
  else interval.lower.lt r && r.lt interval.upper

/-- Below the least significand of a binade the neighbours are twice as close. -/
def around (significand : Nat) (exponent : Int) : Interval :=
  let gap :=
    if significand = Nat.pow 2 (Double.precision - 1) ∧ Double.leastExponent < exponent then 1
    else 2
  { lower := Ratio.scale 2 (exponent - 2) ⟨4 * significand - gap, 1⟩
    upper := Ratio.scale 2 (exponent - 2) ⟨4 * significand + 2, 1⟩
    closed := significand % 2 = 0 }

end Interval

inductive Tie where
  | up
  | even
  deriving DecidableEq

def Tie.takesLower (tie : Tie) (lower : Nat) : Bool :=
  match tie with
  | up => false
  | even => lower % 2 == 0

/-- The number of digits before the point of a positive number; not positive below one tenth.
The offset lifts every positive finite number above one. -/
def pointPosition (value : Ratio) : Int :=
  let offset := 400
  Int.ofNat (Nat.toDigits 10 (value.scale 10 (Int.ofNat offset)).floor).length - Int.ofNat offset

def Decimal.ratio (d : Decimal) : Ratio :=
  Ratio.scale 10 d.exponent ⟨d.digits, 1⟩

/-- The decimal with `count` digits to write for `value`, if one lies in the interval: it is one
of the two neighbours of `value` on the grid of such decimals. -/
def onGrid? (tie : Tie) (interval : Interval) (value : Ratio) (count : Nat) : Option Decimal :=
  let exponent := pointPosition value - Int.ofNat count
  let below := (value.scale 10 (-exponent)).floor
  let candidate := fun digits => Decimal.mk digits exponent
  match interval.contains (candidate below).ratio,
      interval.contains (candidate (below + 1)).ratio with
  | true, true =>
    let middle := (Decimal.mk (10 * below + 5) (exponent - 1)).ratio
    let lower := value.lt middle || (value.le middle && tie.takesLower below)
    some (candidate (if lower then below else below + 1))
  | true, false => some (candidate below)
  | false, true => some (candidate (below + 1))
  | false, false => none

def shortest (tie : Tie) (significand : Nat) (exponent : Int) : Decimal :=
  let value := Ratio.scale 2 exponent ⟨significand, 1⟩
  let interval := Interval.around significand exponent
  ((List.range 17).findSome? fun fewer => onGrid? tie interval value (fewer + 1)).getD
    ⟨significand, 0⟩

def Decimal.trim : Nat → Decimal → Decimal
  | 0, d => d
  | limit + 1, d =>
    if d.digits % 10 = 0 then Decimal.trim limit ⟨d.digits / 10, d.exponent + 1⟩ else d

end SyntaxDialects.Number
