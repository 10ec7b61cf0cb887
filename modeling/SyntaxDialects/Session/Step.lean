import SyntaxDialects.Datum
import SyntaxDialects.Dialect.Derivation

/-!
Steps of a session: recipes that make dialects, and looks at dialects that change nothing.
-/
namespace SyntaxDialects

inductive Ref where
  | slot (name : String)
  | canonical (name : String)
  deriving DecidableEq

def Ref.ofText (text : String) : Ref :=
  match text.toList with
  | '$' :: _ => slot text
  | _ => canonical text

inductive Recipe where
  | standard (name : String)
  | alias (of : Ref)
  | new (flags : Flags)
  | derive (base : Ref) (set : Datum)
  | vary (base : Ref) (change : Flags → Flags)
  | unquote (kind : Unquote) (base : Ref) (multiline : Bool)
  -- Panics where `unquote` fails.
  | mustUnquote (kind : Unquote) (base : Ref) (multiline : Bool)
  | conf (text : String)
  | resolve (base : String) (set : Datum)

inductive Rendering where
  | display
  | debug
  | debugOnLines
  | plain (style : Style)
  | laidOut (style : Style) (width : Nat)
  deriving DecidableEq

def Rendering.text (dialect : Dialect) : Rendering → String
  | display => dialect.display
  | debug => dialect.debug
  | debugOnLines => dialect.debugOnLines
  | plain style => dialect.plain style
  | laidOut style width => dialect.laidOut width style

inductive Look where
  | show (of : Ref) (rendering : Rendering)
  | field (of : Ref) (field : Field)
  | allowsUnquotes (of : Ref)
  | flags (of : Ref)
  | fields (of : Ref)
  | info (of : Ref)
  | compare (a b : Ref)
  | census (of : List Ref)

inductive Step where
  | make (recipe : Recipe) (slot : Option String)
  | look (look : Look)

end SyntaxDialects
