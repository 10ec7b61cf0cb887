import SyntaxDialects.Number.Double

/-!
Decimals read by scaling. The leading digits, as many as 64 bits hold, are multiplied or divided
by a power of ten, and every step rounds to a floating-point number. The result is the nearest
number as long as the digits and the power are exact themselves.
-/
namespace SyntaxDialects.Number

structure Numeral where
  negative : Bool
  whole : List Nat
  fraction : List Nat
  exponent : Option Int

namespace Numeral

def isWhole (n : Numeral) : Bool :=
  n.fraction.isEmpty && n.exponent.isNone

def wholeValue (n : Numeral) : Int :=
  let value := n.whole.foldl (fun value digit => 10 * value + digit) 0
  if n.negative then -Int.ofNat value else Int.ofNat value

end Numeral

def appendDigits : Nat → List Nat → Nat × Nat
  | value, [] => (value, 0)
  | value, digit :: rest =>
    if 10 * value + digit < Nat.pow 2 64 then appendDigits (10 * value + digit) rest
    else (value, rest.length + 1)

namespace Ratio

def mul (a b : Ratio) : Ratio :=
  ⟨a.num * b.num, a.den * b.den⟩

def div (a b : Ratio) : Ratio :=
  ⟨a.num * b.den, a.den * b.num⟩

def rounded? (r : Ratio) : Option Ratio :=
  (Double.round? r).map fun rounded => Ratio.scale 2 rounded.2 ⟨rounded.1, 1⟩

end Ratio

def greatestPower : Nat := 308

def powerOfTen? (power : Nat) : Option Ratio :=
  Ratio.rounded? ⟨Nat.pow 10 power, 1⟩

def scaleUp? (r : Ratio) (power : Nat) : Option Ratio := do
  if r.num = 0 then some r
  else if power ≤ greatestPower then (r.mul (← powerOfTen? power)).rounded?
  else none

def scaleDown? (r : Ratio) (power : Nat) : Option Ratio := do
  if r.num = 0 then some r
  else if greatestPower < power then
    let r ← (r.div (← powerOfTen? greatestPower)).rounded?
    scaleDown? r (power - greatestPower)
  else (r.div (← powerOfTen? power)).rounded?
termination_by power
decreasing_by simp [greatestPower] at *; omega

def Numeral.double? (n : Numeral) : Option Double := do
  let (digits, passed) := appendDigits 0 n.whole
  let (digits, unread) := appendDigits digits n.fraction
  let power := n.exponent.getD 0 + passed - (n.fraction.length - unread)
  let start ← Ratio.rounded? ⟨digits, 1⟩
  let scaled ←
    if 0 ≤ power then scaleUp? start power.toNat else scaleDown? start (-power).toNat
  let (significand, exponent) ← Double.round? scaled
  some (.finite n.negative significand exponent)

end SyntaxDialects.Number
