import SyntaxDialects.Session.Answer

/-!
Sessions. A session is a list of steps over a store of named slots. A step answers or fails, and
leaves the store for the steps after it; a step that fails or only looks leaves the store as it
was.
-/
namespace SyntaxDialects

structure Store where
  ids : Alloc
  slots : List (String × Dialect)

namespace Store

/-- Nothing made yet but the canonical dialects: the catalog is built, and the identities that its
first use draws and the record of the build belong to what was before. -/
def initial : Store :=
  ⟨Catalog.idsAfterCanonical, []⟩

def slot? (store : Store) (name : String) : Option Dialect :=
  store.slots.lookup name

def keep (store : Store) (slot : Option String) (dialect : Dialect) : Store :=
  match slot with
  | some name =>
    { store with slots := (name, dialect) :: store.slots.filter (fun entry => entry.1 != name) }
  | none => store

def find (store : Store) : Ref → Except Failure Dialect
  | .slot name =>
    match store.slot? name with
    | some dialect => .ok dialect
    | none => .error (.noSlot name)
  | .canonical name => (Dialect.named name).mapError .dialect

def overridesOf (set : Datum) : Except Failure Overrides :=
  set.overrides.mapError fun fault => .overrides fault.problem

def panicOf (error : DialectError) : Failure :=
  .panic (error.message?.getD "")

/-- Follows a recipe. References are looked up before anything else is examined. -/
def make (store : Store) : Recipe → Except Failure (Made × Alloc)
  | .standard name => do
    return (⟨← (Dialect.named name).mapError .dialect, []⟩, store.ids)
  | .alias of => do
    return (⟨← store.find of, []⟩, store.ids)
  | .new flags =>
    let (dialect, ids) := Dialect.create store.ids flags
    .ok (⟨dialect, []⟩, ids)
  | .derive base set => do
    let base ← store.find base
    let (dialect, ids) := base.override (← overridesOf set) store.ids
    return (⟨dialect, []⟩, ids)
  | .vary base change => do
    let (dialect, ids) := (← store.find base).derive change store.ids
    return (⟨dialect, []⟩, ids)
  | .unquote kind base multiline => do
    (kind.derive (← store.find base) multiline store.ids).mapError .dialect
  | .mustUnquote kind base multiline => do
    (kind.derive (← store.find base) multiline store.ids).mapError panicOf
  | .conf text => do
    let conf ← (Conf.ofText text).mapError fun error => .dialect (.conf error)
    (conf.realize store.ids).mapError .dialect
  | .resolve base set => do
    let conf := Conf.mk base (← overridesOf set)
    (conf.realize store.ids).mapError .dialect

def look (store : Store) : Look → Except Failure Answer
  | .show of rendering => do return .rendered (← store.find of) rendering
  | .field of field => do return .value field ((← store.find of).flags.get field)
  | .allowsUnquotes of => do return .truth (← store.find of).flags.allowsUnquotes
  | .flags of => do return .flags (← store.find of).flags
  | .fields of => do return .fields (← store.find of).flags.fields
  | .info of => do return .info (Info.of (← store.find of))
  | .compare a b => do
    let a ← store.find a
    let b ← store.find b
    return .comparison (Comparison.of a b)
  | .census of => do return .census (Census.of (← of.mapM store.find))

def step (store : Store) : Step → Shown × Store
  | .make recipe slot =>
    match store.make recipe with
    | .ok (made, ids) =>
      (⟨.ok (.made made.dialect.id made.dialect.name?), made.log⟩,
        { store with ids := ids }.keep slot made.dialect)
    | .error failure => (⟨.error failure, []⟩, store)
  | .look what => (⟨store.look what, []⟩, store)

def run (store : Store) : List Step → List Shown × Store
  | [] => ([], store)
  | first :: rest =>
    let (shown, store) := store.step first
    let (others, store) := store.run rest
    (shown :: others, store)

end Store

def session (steps : List Step) : List Shown :=
  (Store.initial.run steps).1

end SyntaxDialects
