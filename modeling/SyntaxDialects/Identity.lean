/-!
Identities. An allocator hands out numbers in increasing order and never the same one twice; an
identity is such a number, shown after a hash sign and, where its kind matters, after the kind's
name.
-/
namespace SyntaxDialects

/-- The counter has no bound here. Runs are taken to draw fewer than `2 ^ 64` numbers, and a machine
word holds it then. -/
structure Alloc where
  next : Nat
  deriving DecidableEq

namespace Alloc

def fresh : Alloc :=
  ⟨0⟩

def draw (alloc : Alloc) : Nat × Alloc :=
  (alloc.next, ⟨alloc.next + 1⟩)

def text (alloc : Alloc) : String :=
  "IdentAlloc(" ++ toString alloc.next ++ ")"

end Alloc

namespace Identity

def tag (number : Nat) : String :=
  "#" ++ toString number

def hashInput (number : Nat) : Nat :=
  number

def labelled (kind : String) (number : Nat) : String :=
  kind ++ tag number

end Identity

end SyntaxDialects
