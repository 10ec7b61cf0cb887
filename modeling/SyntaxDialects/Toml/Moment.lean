import SyntaxDialects.Toml.Lines

/-!
Dates and times of a configuration text: a date, a time, or both with an optional offset from
universal time. Their grammar and ranges are checked and nothing of them is kept.
-/
namespace SyntaxDialects.Toml

def digitValue (c : Char) : Nat :=
  c.toNat - '0'.toNat

def readDigits : Nat → Nat → Reader Nat
  | 0, value, text => some (value, text)
  | count + 1, value, c :: rest =>
    if c.isDigit then readDigits count (10 * value + digitValue c) rest else none
  | _ + 1, _, [] => none

def readMark (mark : Char) : List Char → Option (List Char)
  | c :: rest => if c = mark then some rest else none
  | [] => none

def isLeapYear (year : Nat) : Bool :=
  year % 4 = 0 ∧ (year % 100 ≠ 0 ∨ year % 400 = 0)

def daysInMonth (year month : Nat) : Nat :=
  if month = 2 then if isLeapYear year then 29 else 28
  else if month ∈ [4, 6, 9, 11] then 30
  else 31

def skipDate (text : List Char) : Option (List Char) := do
  let (year, text) ← readDigits 4 0 text
  let (month, text) ← readDigits 2 0 (← readMark '-' text)
  let (day, text) ← readDigits 2 0 (← readMark '-' text)
  if 1 ≤ month ∧ month ≤ 12 ∧ 1 ≤ day ∧ day ≤ daysInMonth year month then some text else none

def skipFraction : List Char → Option (List Char)
  | '.' :: c :: rest => if c.isDigit then some (rest.dropWhile Char.isDigit) else none
  | ['.'] => none
  | text => some text

/-- Seconds and their fraction may be left out; second 60 is a leap second. -/
def skipSeconds : List Char → Option (List Char)
  | ':' :: rest => do
    let (second, rest) ← readDigits 2 0 rest
    if second ≤ 60 then skipFraction rest else none
  | text => some text

def skipClock (text : List Char) : Option (List Char) := do
  let (hour, text) ← readDigits 2 0 text
  let (minute, text) ← readDigits 2 0 (← readMark ':' text)
  if hour ≤ 23 ∧ minute ≤ 59 then some text else none

def skipTime (text : List Char) : Option (List Char) := do
  skipSeconds (← skipClock text)

def skipOffset : List Char → Option (List Char)
  | [] => some []
  | sign :: rest =>
    if sign = 'Z' ∨ sign = 'z' then some rest
    else if sign = '+' ∨ sign = '-' then skipClock rest
    else none

def isMoment (text : List Char) : Bool :=
  match skipDate text with
  | some [] => true
  | some (mark :: rest) =>
    (mark = 'T' ∨ mark = 't' ∨ mark = ' ') ∧ ((skipTime rest).bind skipOffset) = some []
  | none => skipTime text = some []

end SyntaxDialects.Toml
