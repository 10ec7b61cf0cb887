import SyntaxDialects.Number.Shortest

/-!
Floating-point numbers as text: the layouts of a shortest decimal. A number is written out with
all its digits and always with a point, or, where its layout says so, with an exponent.
-/
namespace SyntaxDialects.Number

structure Layout where
  tie : Tie
  /-- The least and the greatest power of ten of a first digit with which a number is written
  without exponent; every number is if there are none. -/
  plain : Option (Int × Int)
  deriving DecidableEq

def Decimal.positional (d : Decimal) : String :=
  let digits := Nat.toDigits 10 d.digits
  if 0 ≤ d.exponent then
    String.ofList (digits ++ List.replicate d.exponent.toNat '0' ++ ['.', '0'])
  else
    let places := (-d.exponent).toNat
    let padded := List.replicate (places + 1 - digits.length) '0' ++ digits
    String.ofList
      (padded.take (padded.length - places) ++ '.' :: padded.drop (padded.length - places))

def Decimal.magnitude (d : Decimal) : Int :=
  Int.ofNat (Nat.toDigits 10 d.digits).length - 1 + d.exponent

def Decimal.scientific (d : Decimal) : String :=
  let fraction :=
    match (Nat.toDigits 10 d.digits).drop 1 with
    | [] => []
    | digits => '.' :: digits
  let sign := if d.magnitude < 0 then "-" else "+"
  String.ofList ((Nat.toDigits 10 d.digits).take 1 ++ fraction) ++ "e" ++ sign ++
    toString d.magnitude.natAbs

def Layout.isPlain (layout : Layout) (d : Decimal) : Bool :=
  match layout.plain with
  | some (least, greatest) => least ≤ d.magnitude ∧ d.magnitude ≤ greatest
  | none => true

def Layout.text (layout : Layout) (d : Decimal) : String :=
  if layout.isPlain d then d.positional else d.scientific

def Double.text (layout : Layout) : Double → String
  | .nan => "NaN"
  | .infinite negative => if negative then "-inf" else "inf"
  | .finite negative significand exponent =>
    let sign := if negative then "-" else ""
    if significand = 0 then sign ++ "0.0"
    else sign ++ layout.text ((shortest layout.tie significand exponent).trim 17)

end SyntaxDialects.Number
