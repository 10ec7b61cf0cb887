/-!
Lines of a configuration text: blanks, comments and line ends. A reader takes the characters that
are left of a text and gives what it read with the characters left after it, or nothing where the
text is malformed. A span tells a stretch of the text by the numbers of characters that are left
at its two ends.
-/
namespace SyntaxDialects.Toml

abbrev Reader (α : Type) := List Char → Option (α × List Char)

structure Span where
  leftAtStart : Nat
  leftAtEnd : Nat
  deriving DecidableEq

def Span.between (start stop : List Char) : Span :=
  ⟨start.length, stop.length⟩

def isBlank (c : Char) : Bool :=
  c = ' ' ∨ c = '\t'

def isTextChar (c : Char) : Bool :=
  c = '\t' ∨ (0x20 ≤ c.toNat ∧ c.toNat ≠ 0x7F)

def skipBlanks (text : List Char) : List Char :=
  text.dropWhile isBlank

/-- Skips blanks and a comment up to and including the line end, which the end of the text may
stand for. -/
def skipLineEnd (inComment : Bool) : List Char → Option (List Char)
  | [] => some []
  | '\n' :: rest => some rest
  | '\r' :: '\n' :: rest => some rest
  | c :: rest =>
    if inComment then
      if isTextChar c then skipLineEnd true rest else none
    else if c = '#' then skipLineEnd true rest
    else if isBlank c then skipLineEnd false rest
    else none

def skipFiller (inComment : Bool) : List Char → Option (List Char)
  | [] => some []
  | '\n' :: rest => skipFiller false rest
  | '\r' :: '\n' :: rest => skipFiller false rest
  | c :: rest =>
    if inComment then
      if isTextChar c then skipFiller true rest else none
    else if c = '#' then skipFiller true rest
    else if isBlank c then skipFiller false rest
    else some (c :: rest)

end SyntaxDialects.Toml
