import SyntaxDialects.Identity

/-!
Tokens: identities of several kinds, kept under names. Every kind draws from an allocator of its
own and has names of its own, so kinds do not interfere.
-/
namespace SyntaxDialects

structure TokenSpace where
  ids : Alloc
  names : List (String × Nat)

namespace TokenSpace

def empty : TokenSpace :=
  ⟨Alloc.fresh, []⟩

def bind (space : TokenSpace) (name : String) : Nat × TokenSpace :=
  let (number, ids) := space.ids.draw
  (number, ⟨ids, (name, number) :: space.names.filter fun entry => entry.1 != name⟩)

end TokenSpace

inductive TokenLook where
  | show (name : String)
  | compare (a b : String)
  | all

inductive TokenStep where
  | fresh (name : String)
  | look (what : TokenLook)

inductive TokenAnswer where
  | index (number : Nat)
  | shown (number : Nat) (concise labelled : String)
  | comparison (same : Bool) (order : Ordering) (sameHash : Bool)
  | indices (numbers : List Nat)

namespace TokenSpace

def find (space : TokenSpace) (name : String) : Except String Nat :=
  match space.names.lookup name with
  | some number => .ok number
  | none => .error name

def look (space : TokenSpace) (kind : String) : TokenLook → Except String TokenAnswer
  | .show name => do
    let number ← space.find name
    return .shown number (Identity.tag number) (Identity.labelled kind number)
  | .compare a b => do
    let a ← space.find a
    let b ← space.find b
    return .comparison (a == b) (Ord.compare a b) (Identity.hashInput a == Identity.hashInput b)
  | .all => .ok (.indices ((space.names.map (·.2)).eraseDups.mergeSort fun a b => a ≤ b))

def step (space : TokenSpace) (kind : String) :
    TokenStep → Except String TokenAnswer × TokenSpace
  | .fresh name =>
    let (number, space) := space.bind name
    (.ok (.index number), space)
  | .look what => (space.look kind what, space)

end TokenSpace

structure TokenStore where
  space : String → TokenSpace

namespace TokenStore

def empty : TokenStore :=
  ⟨fun _ => .empty⟩

def step (store : TokenStore) (kind : String) (step : TokenStep) :
    Except String TokenAnswer × TokenStore :=
  let (answer, space) := (store.space kind).step kind step
  (answer, ⟨fun other => if other = kind then space else store.space other⟩)

def run (store : TokenStore) : List (String × TokenStep) → List (Except String TokenAnswer)
  | [] => []
  | (kind, first) :: rest =>
    let (answer, store) := store.step kind first
    answer :: run store rest

end TokenStore

end SyntaxDialects
