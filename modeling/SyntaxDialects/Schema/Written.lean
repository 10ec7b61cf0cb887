import SyntaxDialects.Overrides
import SyntaxDialects.Schema.Problem

/-!
Override sets as they are written: by name, as a list of named values, or by position, as one
value for every field in declaration order. Both ways read a single value alike. Every value comes
with the place where it stands, of whatever kind the places of a format are, so that a problem
can be reported there. Values are read in the order given and the first problem is the one
reported.
-/
namespace SyntaxDialects.Schema

inductive Written where
  | absent
  | value (found : Found)
  | unreadable (problem : Problem)
  deriving DecidableEq

structure Fault (π : Type) where
  problem : Problem
  place : π
  deriving DecidableEq

structure Entry (π : Type) where
  name : String
  namePlace : π
  value : Written
  valuePlace : π

def readValue : (f : Field) → Written → Except Problem (Option f.Value)
  | _, .absent => .ok none
  | _, .unreadable problem => .error problem
  | .allow _, .value (.boolean value) => .ok (some value)
  | .separator, .value (.text value) => .ok (some value)
  | .allow _, .value found => .error (.invalidType found .aBoolean)
  | .separator, .value found => .error (.invalidType found .aString)

variable {π : Type}

def readAt (f : Field) (value : Written) (place : π) (overrides : Overrides) :
    Except (Fault π) Overrides :=
  match readValue f value with
  | .ok value => .ok (overrides.put f value)
  | .error problem => .error ⟨problem, place⟩

def readEntry (overrides : Overrides) (entry : Entry π) : Except (Fault π) Overrides :=
  match Field.ofName? entry.name with
  | some f => readAt f entry.value entry.valuePlace overrides
  | none => .error ⟨.unknownField entry.name Field.names, entry.namePlace⟩

def overridesOfEntries (entries : List (Entry π)) : Except (Fault π) Overrides :=
  entries.foldlM readEntry .none

def fillPositions : List Field → List (Written × π) → Overrides →
    Except (Fault π) (List Field × Overrides)
  | f :: fields, (value, place) :: values, overrides => do
    fillPositions fields values (← readAt f value place overrides)
  | fields, _, overrides => .ok (fields, overrides)

def overridesOfPositions (values : List (Written × π)) (whole : π) :
    Except (Fault π) Overrides := do
  let (missing, overrides) ← fillPositions Field.all values .none
  if missing.isEmpty then .ok overrides
  else .error ⟨.invalidLength values.length (.tooShort Field.all.length), whole⟩

end SyntaxDialects.Schema
