import SyntaxDialects.Toml.Lines

/-!
Places in a text, as they are shown to a reader: the line with its number, and carets under the
stretch in question.
-/
namespace SyntaxDialects.Toml

structure Place where
  line : Nat
  column : Nat
  shown : List Char
  carets : Nat
  deriving DecidableEq

def byteLength (text : List Char) : Nat :=
  (String.ofList text).utf8ByteSize

def notLineFeed (c : Char) : Bool :=
  c ≠ '\n'

def lastLine (text : List Char) : List Char :=
  (text.reverse.takeWhile notLineFeed).reverse

/-- The place of a stretch of `text` that starts behind `start` characters and is `length`
characters long. Columns count characters; carets count bytes, within the line and at least
one. -/
def Place.ofStretch (text : List Char) (start length : Nat) : Place :=
  let before := text.take start
  let indent := lastLine before
  let shown := indent ++ (text.drop start).takeWhile notLineFeed
  let stretch := byteLength ((text.drop start).take length)
  { line := before.count '\n' + 1
    column := indent.length + 1
    shown := shown
    carets := max 1 (min stretch (byteLength shown - indent.length)) }

def Place.ofSpan (text : List Char) : Option Span → Place
  | none => .ofStretch text 0 0
  | some span =>
    .ofStretch text (text.length - span.leftAtStart) (span.leftAtStart - span.leftAtEnd)

def repeated (count : Nat) (c : Char) : String :=
  String.ofList (List.replicate count c)

def Place.report (place : Place) (problem : String) : String :=
  let number := toString place.line
  let gutter := repeated (number.length + 1) ' ' ++ "|"
  "TOML parse error at line " ++ number ++ ", column " ++ toString place.column ++ "\n" ++
    gutter ++ "\n" ++
    number ++ " | " ++ String.ofList place.shown ++ "\n" ++
    gutter ++ " " ++ repeated (place.column - 1) ' ' ++ repeated place.carets '^' ++ "\n" ++
    problem ++ "\n"

end SyntaxDialects.Toml
