import SyntaxDialects.Toml.Scalar

/-!
Tables of a configuration text and how they grow. A table remembers how it came to be, because
that decides what may still be added to it: a table written inline is complete; dotted keys add
only to tables that dotted keys or longer headers brought about; and a header may name a table
only once.
-/
namespace SyntaxDialects.Toml

structure Key where
  text : String
  span : Span
  deriving DecidableEq

structure Path where
  parents : List Key
  last : Key
  deriving DecidableEq

inductive Origin where
  -- Named by its own header, or the whole document.
  | header
  -- Implied by a longer header.
  | implied
  -- Made by a dotted key.
  | dotted
  -- Written between braces.
  | inline
  deriving DecidableEq

structure Table (ν : Type) where
  entries : List (Key × ν)
  origin : Origin
  span : Span

/-- A value of a document. An array whose elements are tables with headers is marked, as only
such an array may grow. -/
inductive Node where
  | scalar (value : Scalar) (span : Span)
  | array (items : List Node) (ofTables : Bool) (span : Span)
  | table (table : Table Node)

namespace Node

def span : Node → Span
  | scalar _ place => place
  | array _ _ place => place
  | table contents => contents.span

end Node

namespace Table

variable {ν : Type}

def empty (origin : Origin) (span : Span) : Table ν :=
  ⟨[], origin, span⟩

def find? (table : Table ν) (name : String) : Option ν :=
  (table.entries.find? fun entry => entry.1.text == name).map (·.2)

def insert (table : Table ν) (key : Key) (value : ν) : Table ν :=
  { table with
    entries := table.entries.filter (fun entry => entry.1.text != key.text) ++ [(key, value)] }

def update (table : Table ν) (name : String) (value : ν) : Table ν :=
  { table with
    entries := table.entries.map fun entry =>
      if entry.1.text == name then (entry.1, value) else entry }

def admits (dotted : Bool) (table : Table ν) : Bool :=
  match table.origin with
  | .inline => false
  | .header => !dotted
  | .implied | .dotted => true

end Table

/-- Changes the table that a path leads to. Missing tables on the way are made; an array of tables
leads into its last element. -/
def descend (dotted : Bool) (change : Table Node → Option (Table Node)) :
    List Key → Table Node → Option (Table Node)
  | [], table => change table
  | key :: path, table =>
    match table.find? key.text with
    | none => do
      let origin := if dotted then Origin.dotted else .implied
      let child ← descend dotted change path (Table.empty origin key.span)
      some (table.insert key (.table child))
    | some (.table child) =>
      if child.admits dotted then do
        let child ← descend dotted change path child
        some (table.update key.text (.table child))
      else none
    | some (.array items true span) =>
      match items.getLast? with
      | some (.table last) => do
        let last ← descend dotted change path last
        some (table.update key.text (.array (items.dropLast ++ [.table last]) true span))
      | _ => none
    | some _ => none

structure Assignment where
  path : Path
  value : Node

/-- A dotted name may not add to a table with a header, nor a plain one to a table of dotted keys;
and no name is given twice. -/
def assign (table : Table Node) (assignment : Assignment) : Option (Table Node) :=
  descend true
    (fun parent =>
      if (parent.origin == .dotted) == assignment.path.parents.isEmpty then none
      else if (parent.find? assignment.path.last.text).isSome then none
      else some (parent.insert assignment.path.last assignment.value))
    assignment.path.parents table

def assignAll (assignments : List Assignment) (table : Table Node) : Option (Table Node) :=
  assignments.foldlM assign table

structure Header where
  path : Path
  isElement : Bool
  span : Span

structure Section where
  header : Header
  assignments : List Assignment

def openSection (s : Section) (parent : Table Node) : Option (Table Node) := do
  let key := s.header.path.last
  let opened := Table.empty (ν := Node) .header s.header.span
  match s.header.isElement, parent.find? key.text with
  | false, none =>
    some (parent.insert key (.table (← assignAll s.assignments opened)))
  | false, some (.table child) =>
    if child.origin = .implied then
      let filled ← assignAll s.assignments { opened with entries := child.entries }
      some (parent.insert key (.table filled))
    else none
  | true, none =>
    let filled ← assignAll s.assignments opened
    some (parent.insert key (.array [.table filled] true s.header.span))
  | true, some (.array items true span) =>
    let filled ← assignAll s.assignments opened
    some (parent.update key.text (.array (items ++ [.table filled]) true span))
  | _, some _ => none

def addSection (table : Table Node) (s : Section) : Option (Table Node) :=
  descend false (openSection s) s.header.path.parents table

def assemble (whole : Span) (assignments : List Assignment) (sections : List Section) :
    Option (Table Node) := do
  sections.foldlM addSection (← assignAll assignments (Table.empty .header whole))

end SyntaxDialects.Toml
