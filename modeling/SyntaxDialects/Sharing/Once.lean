import SyntaxDialects.Sharing.Crowd

/-!
Cells that are set once. While an initializer runs the cell is claimed and nobody else can start
one; an initializer that panics leaves the cell vacant. A cell that is set answers with its value
and runs nothing.
-/
namespace SyntaxDialects.Sharing

inductive Once (α : Type) where
  | vacant
  | claimed
  | published (value : α)
  deriving DecidableEq

def Once.get? {α : Type} : Once α → Option α
  | published value => some value
  | _ => none

inductive Initializer (α : Type) where
  | returns (value : α)
  | panics (message : String)

inductive Call (α : Type) where
  | get
  | ensure (initializer : Initializer α)

inductive Reply (α : Type) where
  | found (value : Option α)
  | value (value : α) (ran : Bool)
  | panicked (message : String)

structure Caller (α : Type) where
  running : Option (Initializer α)
  calls : List (Call α)
  replies : List (Reply α)

namespace Caller

variable {α : Type}

def ofCalls (calls : List (Call α)) : Caller α :=
  ⟨none, calls, []⟩

def replied (caller : Caller α) (reply : Reply α) : Caller α :=
  { caller with running := none, replies := caller.replies ++ [reply] }

def move (cell : Once α) (caller : Caller α) : Option (Once α × Caller α) :=
  match caller.running, caller.calls with
  | some (.returns value), _ => some (.published value, caller.replied (.value value true))
  | some (.panics message), _ => some (.vacant, caller.replied (.panicked message))
  | none, [] => none
  | none, .get :: calls =>
    some (cell, { caller with calls := calls }.replied (.found cell.get?))
  | none, .ensure initializer :: calls =>
    match cell with
    | .published value => some (cell, { caller with calls := calls }.replied (.value value false))
    | .claimed => none
    | .vacant => some (.claimed, { caller with running := some initializer, calls := calls })

end Caller

structure Cell (α : Type) where
  value : Option α

namespace Cell

variable {α : Type}

def empty : Cell α :=
  ⟨none⟩

def ensure (cell : Cell α) (initializer : Initializer α) : Reply α × Cell α :=
  match cell.value, initializer with
  | some value, _ => (.value value false, cell)
  | none, .returns value => (.value value true, ⟨some value⟩)
  | none, .panics message => (.panicked message, cell)

def shared (cell : Cell α) : Once α :=
  match cell.value with
  | some value => .published value
  | none => .vacant

def race (cell : Cell α) (threads : Nat) (value : α) : Crowd (Once α) (Caller α) :=
  let caller := Caller.ofCalls [.ensure (.returns value)]
  Crowd.run Caller.move (rotation threads 2) ⟨cell.shared, List.replicate threads caller⟩

end Cell

inductive CellStep (α : Type) where
  | get
  | init (initializer : Initializer α)
  | race (threads : Nat) (value : α)

inductive CellAnswer (α : Type) where
  | content (value : Option α)
  | value (value : α) (runs : Nat)
  | panicked (message : String)
  -- The values that the threads of a race were given, and how many initializers ran.
  | raced (values : List α) (runs : Nat)

namespace Reply

variable {α : Type}

def value? : Reply α → Option α
  | value given _ => some given
  | _ => none

def ran : Reply α → Bool
  | value _ ran => ran
  | _ => false

def answer : Reply α → CellAnswer α
  | found content => .content content
  | value given ran => .value given (if ran then 1 else 0)
  | panicked message => .panicked message

end Reply

namespace Cell

variable {α : Type}

def step (cell : Cell α) : CellStep α → CellAnswer α × Cell α
  | .get => (.content cell.value, cell)
  | .init initializer =>
    let (reply, cell) := cell.ensure initializer
    (reply.answer, cell)
  | .race threads value =>
    let crowd := cell.race threads value
    let replies := crowd.threads.flatMap (·.replies)
    (.raced (replies.filterMap Reply.value?) (replies.countP Reply.ran), ⟨crowd.shared.get?⟩)

def run (cell : Cell α) : List (CellStep α) → List (CellAnswer α)
  | [] => []
  | first :: rest =>
    let (answer, cell) := cell.step first
    answer :: cell.run rest

end Cell

end SyntaxDialects.Sharing
