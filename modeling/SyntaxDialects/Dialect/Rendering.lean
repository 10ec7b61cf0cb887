import SyntaxDialects.Catalog
import SyntaxDialects.Text.Doc

/-!
Dialects as text. A canonical dialect is written as its catalog name and any other as a dump of
all its fields, plain on one line or laid out in a given width. The debug texts show identity and
flags of either kind.
-/
namespace SyntaxDialects
open Text

/-- What a printer is after: the text as it would stand in a source, or the structure. Dialects
have no source text, so both give the same. -/
inductive Style where
  | source
  | structural
  deriving DecidableEq

namespace Dialect

def dump (dialect : Dialect) : List String :=
  dialect.flags.fields.map fun field => field.1 ++ " = " ++ field.2

def plain (dialect : Dialect) : Style → String
  | .source | .structural =>
    match dialect.name? with
    | some name => name
    | none => "Dialect(" ++ ", ".intercalate dialect.dump ++ ")"

def doc (dialect : Dialect) : Style → Doc
  | .source | .structural =>
    match dialect.name? with
    | some name => .text name
    | none =>
      let fields := Doc.intersperse (.text "," ++ .line " ") (dialect.dump.map .text)
      .group (.text "Dialect(" ++ .nest 2 (.line "" ++ fields) ++ .line "" ++ .text ")")

def laidOut (dialect : Dialect) (width : Nat) (style : Style) : String :=
  (dialect.doc style).render width

def display (dialect : Dialect) : String :=
  dialect.plain .source

def debug (dialect : Dialect) : String :=
  Record.oneLine
    ⟨"Dialect", [("id", dialect.id.text), ("flags", dialect.flags.record.oneLine)]⟩

def debugOnLines (dialect : Dialect) : String :=
  Record.onLines 0
    ⟨"Dialect", [("id", dialect.id.text), ("flags", dialect.flags.record.onLines 1)]⟩

end Dialect

end SyntaxDialects
