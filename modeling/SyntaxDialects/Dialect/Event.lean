import SyntaxDialects.Dialect

/-!
Records of the log: what is worth one, and its level, target and message.
-/
namespace SyntaxDialects

inductive Unquote where
  | term
  | pattern
  deriving DecidableEq

def Unquote.name : Unquote → String
  | term => "term"
  | pattern => "pattern"

inductive Event where
  | catalogBuilt (entries : Nat)
  | resolved (id : DialectId) (base : String) (overridden : Bool)
  | unquoted (kind : Unquote) (id : DialectId) (base : String)
  deriving DecidableEq

namespace Event

def level : Event → String
  | catalogBuilt _ => "DEBUG"
  | resolved _ _ _ => "DEBUG"
  | unquoted _ _ _ => "TRACE"

def target : Event → String
  | catalogBuilt _ => "parlance_dialects::catalog"
  | resolved _ _ _ => "parlance_dialects::conf"
  | unquoted _ _ _ => "parlance_dialects::quasiquote"

def message : Event → String
  | catalogBuilt entries => "dialect registry built with " ++ toString entries ++ " entries"
  | resolved id base overridden =>
    "resolved dialect " ++ id.text ++ " from " ++ base ++
      (if overridden then " (with overrides)" else " (without overrides)")
  | unquoted kind id base =>
    "derived " ++ kind.name ++ " unquote dialect " ++ id.text ++ " from " ++ base

end Event

end SyntaxDialects
