import SyntaxDialects.Identity
import SyntaxDialects.Sharing.Crowd

/-!
Allocators under names, and races for the numbers of one. Drawing a number is one atomic move, so
threads that draw at the same time share out the numbers among them.
-/
namespace SyntaxDialects
open Sharing

structure Drawer where
  left : Nat
  drawn : List Nat

def Drawer.move (ids : Alloc) (drawer : Drawer) : Option (Alloc × Drawer) :=
  match drawer.left with
  | 0 => none
  | left + 1 =>
    let (number, ids) := ids.draw
    some (ids, ⟨left, drawer.drawn ++ [number]⟩)

def Alloc.race (ids : Alloc) (threads each : Nat) : Crowd Alloc Drawer :=
  Crowd.run Drawer.move (rotation threads each) ⟨ids, List.replicate threads ⟨each, []⟩⟩

inductive AllocUse where
  | next
  | text
  | race (threads each : Nat)

inductive AllocStep where
  | create
  | use (how : AllocUse)

inductive AllocAnswer where
  | created
  | number (number : Nat)
  | text (text : String)
  -- The numbers drawn by all threads together, in increasing order.
  | numbers (numbers : List Nat)

abbrev Allocators := List (String × Alloc)

namespace Allocators

def put (allocators : Allocators) (name : String) (ids : Alloc) : Allocators :=
  (name, ids) :: allocators.filter fun entry => entry.1 != name

def use (ids : Alloc) : AllocUse → AllocAnswer × Alloc
  | .next =>
    let (number, ids) := ids.draw
    (.number number, ids)
  | .text => (.text ids.text, ids)
  | .race threads each =>
    let crowd := ids.race threads each
    (.numbers ((crowd.threads.flatMap (·.drawn)).mergeSort fun a b => a ≤ b), crowd.shared)

def step (allocators : Allocators) (name : String) : AllocStep → Option AllocAnswer × Allocators
  | .create => (some .created, allocators.put name Alloc.fresh)
  | .use how =>
    match allocators.lookup name with
    | none => (none, allocators)
    | some ids =>
      let (answer, ids) := use ids how
      (some answer, allocators.put name ids)

def run (allocators : Allocators) : List (String × AllocStep) → List (Option AllocAnswer)
  | [] => []
  | (name, first) :: rest =>
    let (answer, allocators) := step allocators name first
    answer :: run allocators rest

end Allocators

end SyntaxDialects
