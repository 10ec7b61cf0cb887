import SyntaxDialects.Toml.Table

/-!
Documents. A configuration text is a list of statements, each an assignment or a header on a line
of its own; the statements assemble to one table. Values nest no deeper than `nestingLimit` and
names have no more than `pathLimit` parts.
-/
namespace SyntaxDialects.Toml

def nestingLimit : Nat := 80

def pathLimit : Nat := 80

def isBareChar (c : Char) : Bool :=
  c.isAlphanum || c == '_' || c == '-'

def readKey (text : List Char) : Option (Key × List Char) := do
  let (name, rest) ←
    match readLineString text with
    | some read => some read
    | none =>
      let name := text.takeWhile isBareChar
      if name.isEmpty then none else some (name, text.dropWhile isBareChar)
  some (⟨String.ofList name, .between text rest⟩, rest)

def readPath : Nat → Reader Path
  | 0, _ => none
  | limit + 1, text => do
    let (key, rest) ← readKey text
    match skipBlanks rest with
    | '.' :: more => do
      let (path, rest) ← readPath limit (skipBlanks more)
      some (⟨key :: path.parents, path.last⟩, rest)
    | _ => some (⟨[], key⟩, rest)

def readItems {α : Type} (item : Reader α) (closing : Char) : Nat → Reader (List α)
  | 0, _ => none
  | fuel + 1, text => do
    match ← skipFiller false text with
    | [] => none
    | c :: rest =>
      if c = closing then some ([], rest)
      else
        let (first, rest) ← item (c :: rest)
        match ← skipFiller false rest with
        | [] => none
        | c :: rest =>
          if c = closing then some ([first], rest)
          else if c = ',' then
            let (others, rest) ← readItems item closing fuel rest
            some (first :: others, rest)
          else none

def readAssignment (gap : List Char → Option (List Char)) (value : Reader Node) :
    Reader Assignment := fun text => do
  let (path, rest) ← readPath pathLimit text
  match ← gap rest with
  | '=' :: rest => do
    let (value, rest) ← value (← gap rest)
    some (⟨path, value⟩, rest)
  | _ => none

def readScalarNode : Reader Node := fun text => do
  let (scalar, rest) ← readScalar text
  some (.scalar scalar (.between text rest), rest)

def readNode : Nat → Reader Node
  | 0, text => readScalarNode text
  | depth + 1, text =>
    match text with
    | '[' :: rest => do
      let (items, after) ← readItems (readNode depth) ']' (rest.length + 1) rest
      some (.array items false (.between text after), after)
    | '{' :: rest => do
      let entry := readAssignment (skipFiller false) (readNode depth)
      let (assignments, after) ← readItems entry '\x7d' (rest.length + 1) rest
      let table ← assignAll assignments (Table.empty .inline (.between text after))
      some (.table table, after)
    | _ => readScalarNode text

inductive Statement where
  | assignment (assignment : Assignment)
  | header (header : Header)

def readHeader (isElement : Bool) (text rest : List Char) : Option (Header × List Char) := do
  let (path, rest) ← readPath pathLimit (skipBlanks rest)
  match isElement, skipBlanks rest with
  | false, ']' :: rest => some (⟨path, false, .between text rest⟩, rest)
  | true, ']' :: ']' :: rest => some (⟨path, true, .between text rest⟩, rest)
  | _, _ => none

def readStatement : Reader Statement := fun text => do
  match text with
  | '[' :: '[' :: rest =>
    let (header, rest) ← readHeader true text rest
    some (.header header, rest)
  | '[' :: rest =>
    let (header, rest) ← readHeader false text rest
    some (.header header, rest)
  | _ =>
    let gap := fun text => some (skipBlanks text)
    let (assignment, rest) ← readAssignment gap (readNode nestingLimit) text
    some (.assignment assignment, rest)

def readStatements : Nat → List Char → Option (List Statement)
  | 0, _ => none
  | fuel + 1, text => do
    match ← skipFiller false text with
    | [] => some []
    | c :: rest =>
      let (statement, rest) ← readStatement (c :: rest)
      let rest ← skipLineEnd false rest
      let others ← readStatements fuel rest
      some (statement :: others)

def sections : List Statement → List Assignment × List Section
  | [] => ([], [])
  | .assignment assignment :: rest =>
    let (assignments, others) := sections rest
    (assignment :: assignments, others)
  | .header header :: rest =>
    let (assignments, others) := sections rest
    ([], ⟨header, assignments⟩ :: others)

def skipMark : List Char → List Char
  | '\ufeff' :: rest => rest
  | text => text

def document? (text : List Char) : Option (Table Node) := do
  let statements ← readStatements (text.length + 1) (skipMark text)
  let (assignments, others) := sections statements
  assemble (.between text []) assignments others

end SyntaxDialects.Toml
