import SyntaxDialects.Proofs.Overrides
import SyntaxDialects.Proofs.Session.Unquoting

/-!
Dialects for quotations. One is derived by overriding the unquotes of its kind and whether programs
may have several lines, and nothing else of its base. Where unquotes are allowed already the
derivation fails with the display of the base, and its panicking form panics with that message.
-/
namespace SyntaxDialects

namespace Unquote

def overrides (kind : Unquote) (multiline : Bool) : Overrides :=
  (Overrides.none.put (.allow kind.switch) (some true)).put (.allow .multilinePrograms)
    (some multiline)

def datum (kind : Unquote) (multiline : Bool) : Datum :=
  .record [(kind.switch.name, .boolean true), (Switch.multilinePrograms.name, .boolean multiline)]

section Change

variable (kind : Unquote) (multiline : Bool) (flags : Flags)

end Change

section Derive

variable {kind : Unquote} {base : Dialect} {multiline : Bool} {ids : Alloc}

end Derive

section Steps

variable {kind : Unquote} {ref : Ref} {base : Dialect} {multiline : Bool} {store : Store}

end Steps

end Unquote

end SyntaxDialects
