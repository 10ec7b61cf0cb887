import SyntaxDialects.Session.Step

/-!
What the steps of a session show: an answer or a failure, and the records they leave in the log.
-/
namespace SyntaxDialects
open Schema

inductive Failure where
  | noSlot (name : String)
  | dialect (error : DialectError)
  | overrides (problem : Problem)
  | panic (message : String)
  deriving DecidableEq

structure Comparison where
  same : Bool
  sameHash : Bool
  idOrder : Ordering
  sameFlags : Bool
  sameFlagsHash : Bool
  deriving DecidableEq

def Comparison.of (a b : Dialect) : Comparison :=
  { same := a.same b
    sameHash := a.hashInput == b.hashInput
    idOrder := compare a.id.index b.id.index
    sameFlags := a.flags == b.flags
    sameFlagsHash := a.flags.hashInput == b.flags.hashInput }

def distinct {α : Type} (same : α → α → Bool) (members : List α) : List α :=
  members.foldl (fun kept x => if kept.any (same x) then kept else kept ++ [x]) []

structure Census where
  dialects : Nat
  flagSets : Nat
  ids : List DialectId
  deriving DecidableEq

def Census.of (dialects : List Dialect) : Census :=
  let members := distinct Dialect.same dialects
  { dialects := members.length
    flagSets := (distinct (fun a b : Flags => a == b) (dialects.map (·.flags))).length
    ids := (members.map (·.id)).mergeSort fun a b => a.index ≤ b.index }

structure Info where
  id : DialectId
  name : Option String
  catalogName : Option String
  standard : Bool
  unquotes : Bool
  deriving DecidableEq

def Info.of (dialect : Dialect) : Info :=
  { id := dialect.id
    name := dialect.name?
    catalogName := Catalog.standard.nameOf? dialect
    standard := dialect.isStandard
    unquotes := dialect.flags.allowsUnquotes }

inductive Answer where
  | made (id : DialectId) (name : Option String)
  -- The text of the dialect in the rendering.
  | rendered (dialect : Dialect) (rendering : Rendering)
  | value (f : Field) (value : f.Value)
  | truth (value : Bool)
  | flags (flags : Flags)
  | fields (fields : List (String × String))
  | info (info : Info)
  | comparison (comparison : Comparison)
  | census (census : Census)

structure Shown where
  result : Except Failure Answer
  log : List Event

end SyntaxDialects
