/-!
Binary floating-point numbers of 64 bits, as exact numbers. A decimal literal is read as the
nearest such number, a tie going to the even significand; a literal beyond the largest one has
no reading.
-/
namespace SyntaxDialects.Number

/-- The number `digits · 10 ^ exponent`. -/
structure Decimal where
  digits : Nat
  exponent : Int
  deriving DecidableEq

structure Ratio where
  num : Nat
  den : Nat
  deriving DecidableEq

namespace Ratio

def scale (base : Nat) (exponent : Int) (r : Ratio) : Ratio :=
  if 0 ≤ exponent then ⟨r.num * base.pow exponent.toNat, r.den⟩
  else ⟨r.num, r.den * base.pow (-exponent).toNat⟩

def floor (r : Ratio) : Nat :=
  r.num / r.den

def nearest (r : Ratio) : Nat :=
  let rest := r.num % r.den
  if 2 * rest < r.den then r.floor
  else if r.den < 2 * rest then r.floor + 1
  else r.floor + r.floor % 2

def le (a b : Ratio) : Bool :=
  a.num * b.den ≤ b.num * a.den

def lt (a b : Ratio) : Bool :=
  a.num * b.den < b.num * a.den

end Ratio

/-- A finite number is `significand · 2 ^ exponent` up to its sign. -/
inductive Double where
  | nan
  | infinite (negative : Bool)
  | finite (negative : Bool) (significand : Nat) (exponent : Int)
  deriving DecidableEq

namespace Double

def precision : Nat := 53

def leastExponent : Int := -1074

def greatestExponent : Int := 971

def round? (r : Ratio) : Option (Nat × Int) :=
  let estimate := max (Int.ofNat r.num.log2 - Int.ofNat r.den.log2 - precision) leastExponent
  let exponent :=
    if Nat.pow 2 precision ≤ (r.scale 2 (-estimate)).floor then estimate + 1 else estimate
  let significand := (r.scale 2 (-exponent)).nearest
  let (significand, exponent) :=
    if significand = Nat.pow 2 precision then (Nat.pow 2 (precision - 1), exponent + 1)
    else (significand, exponent)
  if exponent ≤ greatestExponent then some (significand, exponent) else none

/-- The reading of a literal; `none` when it is too large. Literals far outside the range are
told by their magnitude alone. -/
def ofDecimal? (negative : Bool) (literal : Decimal) : Option Double :=
  if literal.digits = 0 then some (finite negative 0 0)
  else
    let magnitude := Int.ofNat (Nat.toDigits 10 literal.digits).length + literal.exponent
    if 400 < magnitude then none
    else if magnitude < -400 then some (finite negative 0 0)
    else
      let ratio := Ratio.scale 10 literal.exponent ⟨literal.digits, 1⟩
      (round? ratio).map fun rounded => finite negative rounded.1 rounded.2

end Double

inductive FloatLiteral where
  | nan
  | infinite (negative : Bool)
  | decimal (negative : Bool) (literal : Decimal)
  deriving DecidableEq

def FloatLiteral.value? : FloatLiteral → Option Double
  | nan => some .nan
  | infinite negative => some (.infinite negative)
  | decimal negative literal => Double.ofDecimal? negative literal

end SyntaxDialects.Number
