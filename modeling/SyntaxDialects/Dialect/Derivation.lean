import SyntaxDialects.Dialect.Error
import SyntaxDialects.Dialect.Event
import SyntaxDialects.Dialect.Rendering

/-!
Dialects had by name, by configuration, and for reading quotations. A derivation that succeeds
draws one identity and leaves one record in the log; one that fails draws none and leaves none.
-/
namespace SyntaxDialects

structure Made where
  dialect : Dialect
  log : List Event

def Dialect.named (name : String) : Except DialectError Dialect :=
  match Catalog.standard.get? name with
  | some dialect => .ok dialect
  | none => .error (.unknownDialect name)

def Conf.realize (conf : Conf) (ids : Alloc) : Except DialectError (Made × Alloc) := do
  let base ← Dialect.named conf.base
  let (dialect, ids) := base.override conf.overrides ids
  let event := Event.resolved dialect.id conf.base (!conf.overrides.isEmpty)
  return (⟨dialect, [event]⟩, ids)

namespace Unquote

def switch : Unquote → Switch
  | term => .termUnquotes
  | pattern => .patUnquotes

def change (kind : Unquote) (multiline : Bool) (flags : Flags) : Flags :=
  (flags.set (.allow kind.switch) true).set (.allow .multilinePrograms) multiline

def derive (kind : Unquote) (base : Dialect) (multiline : Bool) (ids : Alloc) :
    Except DialectError (Made × Alloc) :=
  if base.flags.allowsUnquotes then .error (.unquotesAlreadyAllowed base.display)
  else
    let (dialect, ids) := base.derive (kind.change multiline) ids
    .ok (⟨dialect, [.unquoted kind dialect.id base.display]⟩, ids)

end Unquote

end SyntaxDialects
