import SyntaxDialects.Toml.Lines

/-!
Strings of a configuration text. There are four forms, between double or single quotes and on one
line or several. Each is a rule that says how to go on from the next character; `readBody` follows
a rule to the closing quotes.
-/
namespace SyntaxDialects.Toml

inductive Phase where
  | plain
  -- Behind a backslash.
  | escape
  -- In a numbered escape with `left` digits to come after those that make `code`.
  | numbered (left code : Nat)
  -- Behind a backslash and blanks, with only a line end allowed.
  | joining
  -- In the blanks and line ends that a backslash at the end of a line removes.
  | trimming
  deriving DecidableEq

inductive Move where
  | take (c : Char) (phase : Phase)
  | skip (phase : Phase)
  | close (contents rest : List Char)
  | reject

abbrev Rule := Phase → Char → List Char → Move

def readBody (rule : Rule) (phase : Phase) : Reader (List Char)
  | [] => none
  | c :: rest =>
    match rule phase c rest with
    | .take d next => (readBody rule next rest).map fun read => (d :: read.1, read.2)
    | .skip next => readBody rule next rest
    | .close contents rest => some (contents, rest)
    | .reject => none

def hexValue? (c : Char) : Option Nat :=
  if c.isDigit then some (c.toNat - '0'.toNat)
  else if 'a' ≤ c ∧ c ≤ 'f' then some (c.toNat - 'a'.toNat + 10)
  else if 'A' ≤ c ∧ c ≤ 'F' then some (c.toNat - 'A'.toNat + 10)
  else none

def namedEscape? : Char → Option Char
  | 'b' => some '\x08'
  | 't' => some '\t'
  | 'n' => some '\n'
  | 'f' => some '\x0c'
  | 'r' => some '\r'
  | 'e' => some '\x1b'
  | '"' => some '"'
  | '\\' => some '\\'
  | _ => none

def escapeDigits? : Char → Option Nat
  | 'x' => some 2
  | 'u' => some 4
  | 'U' => some 8
  | _ => none

def charOfCode? (code : Nat) : Option Char :=
  if code.isValidChar then some (Char.ofNat code) else none

def escapeMove (c : Char) : Move :=
  match namedEscape? c with
  | some d => .take d .plain
  | none =>
    match escapeDigits? c with
    | some digits => .skip (.numbered digits 0)
    | none => .reject

def numberedMove (left code : Nat) (c : Char) : Move :=
  match hexValue? c with
  | none => .reject
  | some value =>
    if left ≤ 1 then
      match charOfCode? (16 * code + value) with
      | some d => .take d .plain
      | none => .reject
    else .skip (.numbered (left - 1) (16 * code + value))

def keep (c : Char) : Move :=
  if isTextChar c then .take c .plain else .reject

def basicRule : Rule
  | .plain, c, rest =>
    if c = '"' then .close [] rest
    else if c = '\\' then .skip .escape
    else keep c
  | .escape, c, _ => escapeMove c
  | .numbered left code, c, _ => numberedMove left code c
  | .joining, _, _ => .reject
  | .trimming, _, _ => .reject

def literalRule : Rule := fun _ c rest =>
  if c = '\'' then .close [] rest else keep c

def keepLine (c : Char) (rest : List Char) : Move :=
  if c = '\n' then .take c .plain
  else if c = '\r' then
    if rest.head? = some '\n' then .take c .plain else .reject
  else keep c

/-- Three quotes close; up to two more before them belong to the string. -/
def closeOrKeep (quote : Char) (rest : List Char) : Move :=
  let more := (rest.takeWhile (· = quote)).length
  if more < 2 then .take quote .plain
  else
    let kept := min (more - 2) 2
    .close (List.replicate kept quote) (rest.drop (kept + 2))

def plainLinesMove (c : Char) (rest : List Char) : Move :=
  if c = '"' then closeOrKeep c rest
  else if c = '\\' then .skip .escape
  else keepLine c rest

def endsLine (c : Char) (rest : List Char) : Bool :=
  c = '\n' ∨ (c = '\r' ∧ rest.head? = some '\n')

def basicLinesRule : Rule
  | .plain, c, rest => plainLinesMove c rest
  | .escape, c, rest =>
    if isBlank c then .skip .joining
    else if endsLine c rest then .skip .trimming
    else escapeMove c
  | .numbered left code, c, _ => numberedMove left code c
  | .joining, c, rest =>
    if isBlank c then .skip .joining
    else if endsLine c rest then .skip .trimming
    else .reject
  | .trimming, c, rest =>
    if isBlank c ∨ endsLine c rest then .skip .trimming
    else plainLinesMove c rest

def literalLinesRule : Rule := fun _ c rest =>
  if c = '\'' then closeOrKeep c rest else keepLine c rest

def dropFirstLineEnd : List Char → List Char
  | '\n' :: rest => rest
  | '\r' :: '\n' :: rest => rest
  | text => text

def readLineString : Reader (List Char)
  | '"' :: rest => readBody basicRule .plain rest
  | '\'' :: rest => readBody literalRule .plain rest
  | _ => none

def readString : Reader (List Char)
  | '"' :: '"' :: '"' :: rest => readBody basicLinesRule .plain (dropFirstLineEnd rest)
  | '\'' :: '\'' :: '\'' :: rest => readBody literalLinesRule .plain (dropFirstLineEnd rest)
  | text => readLineString text

end SyntaxDialects.Toml
