import SyntaxDialects.Number.Double
import SyntaxDialects.Toml.Moment
import SyntaxDialects.Toml.Strings

/-!
Scalars of a configuration text: strings, whole numbers in four bases, floating-point numbers,
booleans, dates and times. Numbers are kept as written, without a limit on their size. The digits
of a whole number are looked at only where the form of the literal depends on them, so that some
literals are whole numbers without a value.
-/
namespace SyntaxDialects.Toml
open Number

inductive Scalar where
  | string (value : String)
  -- A whole number; it has no value if it lacks digits or something else stands in it.
  | integer (value : Option Int)
  | float (literal : FloatLiteral)
  | boolean (value : Bool)
  | moment
  deriving DecidableEq

def grouped? (isDigit : Char → Bool) : List Char → Option (List Char)
  | [] => none
  | [c] => if isDigit c then some [c] else none
  | c :: '_' :: rest => if isDigit c then (grouped? isDigit rest).map (c :: ·) else none
  | c :: rest => if isDigit c then (grouped? isDigit rest).map (c :: ·) else none

def numeral (base : Nat) (digits : List Char) : Nat :=
  digits.foldl (fun value c => base * value + (hexValue? c).getD 0) 0

def isDigitIn (base : Nat) (c : Char) : Bool :=
  match hexValue? c with
  | some value => value < base
  | none => false

inductive Sign where
  | plus
  | minus
  deriving DecidableEq

def splitSign : List Char → Option Sign × List Char
  | '+' :: rest => (some .plus, rest)
  | '-' :: rest => (some .minus, rest)
  | text => (none, text)

def signed (sign : Option Sign) (value : Nat) : Int :=
  if sign = some .minus then -Int.ofNat value else Int.ofNat value

def inBase? (base : Nat) (digits : List Char) : Option (Option Int) :=
  if digits.isEmpty then some none
  else (grouped? (isDigitIn base) digits).map fun digits => some (Int.ofNat (numeral base digits))

/-- Drops underscores, each of which must stand between two digits of some base. What else stands
in the text is not looked at. -/
def withoutUnderscores? (behindDigit : Bool) : List Char → Option (List Char)
  | [] => some []
  | ['_'] => none
  | '_' :: c :: rest =>
    if behindDigit && isDigitIn 16 c then (withoutUnderscores? true rest).map (c :: ·) else none
  | c :: rest => (withoutUnderscores? (isDigitIn 16 c) rest).map (c :: ·)

def hasLeadingZero : List Char → Bool
  | '0' :: c :: _ => c.isDigit || c == '_'
  | _ => false

def marksOtherKind (c : Char) : Bool :=
  c ∈ ['.', 'e', 'E', ' ']

/-- Whether decimal digits are the whole text, or an underscore stands behind them and after it
nothing that marks a value of another kind. -/
def isWholeNumber (text : List Char) : Bool :=
  !hasLeadingZero text &&
    match text.dropWhile Char.isDigit with
    | [] => !text.isEmpty
    | c :: rest => c == '_' && !rest.any marksOtherKind

def decimalInteger? (text : List Char) : Option (Option Int) := do
  let (sign, body) := splitSign text
  if isWholeNumber body then
    let digits ← withoutUnderscores? false body
    if digits.all Char.isDigit then some (some (signed sign (numeral 10 digits))) else some none
  else none

def integer? : List Char → Option (Option Int)
  | '0' :: 'x' :: rest => inBase? 16 rest
  | '0' :: 'o' :: rest => inBase? 8 rest
  | '0' :: 'b' :: rest => inBase? 2 rest
  | text => decimalInteger? text

def exponent? (text : List Char) : Option Int :=
  let (sign, text) := splitSign text
  (grouped? Char.isDigit text).map fun digits => signed sign (numeral 10 digits)

def isExponentMark (c : Char) : Bool :=
  c = 'e' ∨ c = 'E'

def splitDigits (text : List Char) : List Char × List Char :=
  let inRun := fun c : Char => c.isDigit || c == '_'
  (text.takeWhile inRun, text.dropWhile inRun)

def decimal (sign : Option Sign) (whole fraction : List Char) (exponent : Int) : FloatLiteral :=
  .decimal (sign == some .minus)
    ⟨numeral 10 (whole ++ fraction), exponent - Int.ofNat fraction.length⟩

def floatTail? (sign : Option Sign) (whole : List Char) : List Char → Option FloatLiteral
  | [] => none
  | mark :: rest =>
    if mark = '.' then do
      let (fraction, rest) := splitDigits rest
      let fraction ← grouped? Char.isDigit fraction
      match rest with
      | [] => some (decimal sign whole fraction 0)
      | mark :: rest =>
        if isExponentMark mark then (exponent? rest).map (decimal sign whole fraction)
        else none
    else if isExponentMark mark then (exponent? rest).map (decimal sign whole [])
    else none

def wholePart? (text : List Char) : Option (List Char) :=
  if hasLeadingZero text then none else grouped? Char.isDigit text

def float? (text : List Char) : Option FloatLiteral :=
  let (sign, text) := splitSign text
  if text = ['n', 'a', 'n'] then some .nan
  else if text = ['i', 'n', 'f'] then some (.infinite (sign == some .minus))
  else do
    let (whole, rest) := splitDigits text
    floatTail? sign (← wholePart? whole) rest

def boolean? (text : List Char) : Option Bool :=
  if text = ['t', 'r', 'u', 'e'] then some true
  else if text = ['f', 'a', 'l', 's', 'e'] then some false
  else none

def unquoted? (text : List Char) : Option Scalar :=
  match boolean? text with
  | some value => some (.boolean value)
  | none =>
    match integer? text with
    | some value => some (.integer value)
    | none =>
      match float? text with
      | some literal => some (.float literal)
      | none => if isMoment text then some .moment else none

def isWordChar (c : Char) : Bool :=
  c ∉ ['=', ',', '[', ']', '\x7b', '\x7d', '#', ' ', '\t', '\r', '\n']

def wordFollows (text : List Char) : Bool :=
  match skipBlanks text with
  | [] => false
  | c :: _ => isWordChar c && c != '"' && c != '\''

/-- Splits off the unquoted words in front with the blanks between them: a date goes on behind one
space with a time. -/
def splitWords : List Char → List Char × List Char
  | [] => ([], [])
  | c :: rest =>
    if isWordChar c || (isBlank c && wordFollows rest) then
      let (words, rest) := splitWords rest
      (c :: words, rest)
    else ([], c :: rest)

def readScalar (text : List Char) : Option (Scalar × List Char) :=
  match text with
  | [] => none
  | c :: _ =>
    if c = '"' ∨ c = '\'' then
      (readString text).map fun read => (.string (String.ofList read.1), read.2)
    else
      let (words, rest) := splitWords text
      (unquoted? words).map fun scalar => (scalar, rest)

end SyntaxDialects.Toml
