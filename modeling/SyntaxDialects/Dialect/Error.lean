import SyntaxDialects.Conf

/-!
Why a dialect cannot be had. Each error has a message and a debug text, but for a malformed
configuration, whose wording is not fixed here.
-/
namespace SyntaxDialects
open Text

inductive DialectError where
  | unquotesAlreadyAllowed (dialect : String)
  | unknownDialect (name : String)
  | conf (error : ConfError)
  deriving DecidableEq

namespace DialectError

def message? : DialectError → Option String
  | unquotesAlreadyAllowed dialect => some ("dialect " ++ dialect ++ " already allows unquotes")
  | unknownDialect name => some ("unknown dialect `" ++ name ++ "`")
  | conf error => error.message?.map ("malformed dialect configuration: " ++ ·)

def debug? : DialectError → Option String
  | unquotesAlreadyAllowed dialect =>
    some (Record.oneLine ⟨"UnquotesAlreadyAllowed", [("dialect", quoted dialect)]⟩)
  | unknownDialect name => some ("UnknownDialect(" ++ quoted name ++ ")")
  | conf _ => none

end DialectError

end SyntaxDialects
