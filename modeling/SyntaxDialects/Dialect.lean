import SyntaxDialects.Identity
import SyntaxDialects.Overrides

/-!
Dialects. A dialect is a set of flags under an identity of its own. Dialects are equal and hash
alike when their identities are the same, whatever their flags; every way to make a dialect
draws one identity.
-/
namespace SyntaxDialects

structure DialectId where
  index : Nat
  deriving DecidableEq

def DialectId.text (id : DialectId) : String :=
  Identity.labelled "DialectId" id.index

structure Dialect where
  id : DialectId
  flags : Flags
  deriving DecidableEq

namespace Dialect

def same (a b : Dialect) : Bool :=
  a.id == b.id

def hashInput (dialect : Dialect) : DialectId :=
  dialect.id

def create (ids : Alloc) (flags : Flags) : Dialect × Alloc :=
  let (index, ids) := ids.draw
  (⟨⟨index⟩, flags⟩, ids)

def derive (base : Dialect) (change : Flags → Flags) (ids : Alloc) : Dialect × Alloc :=
  create ids (change base.flags)

def override (base : Dialect) (overrides : Overrides) (ids : Alloc) : Dialect × Alloc :=
  base.derive overrides.apply ids

end Dialect

end SyntaxDialects
