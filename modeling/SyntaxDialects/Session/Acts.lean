import SyntaxDialects.Session.Store

/-!
Sessions act by act. Here a recipe is followed in single acts, in the order in which they are
done: an identity that is drawn and a record that is written stay so, whatever fails afterwards.
-/
namespace SyntaxDialects

structure Trail where
  ids : Alloc
  log : List Event
  deriving DecidableEq

/-- Acts in turn; a failure ends them and takes none of them back. -/
abbrev Acts (ε : Type) :=
  ExceptT ε (StateM Trail)

namespace Acts

variable {ε : Type}

def create (flags : Flags) : Acts ε Dialect := do
  let trail ← get
  let (dialect, ids) := Dialect.create trail.ids flags
  set { trail with ids := ids }
  return dialect

def record (event : Event) : Acts ε Unit :=
  modify fun trail => { trail with log := trail.log ++ [event] }

def derive (base : Dialect) (change : Flags → Except ε Flags) : Acts ε Dialect := do
  let flags ← ofExcept (change base.flags)
  create flags

def override (base : Dialect) (overrides : Overrides) : Acts ε Dialect :=
  derive base fun flags => .ok (overrides.apply flags)

end Acts

def Unquote.acts (kind : Unquote) (base : Dialect) (multiline : Bool) :
    Acts DialectError Dialect := do
  if base.flags.allowsUnquotes then throw (.unquotesAlreadyAllowed base.display)
  let dialect ← Acts.derive base fun flags => .ok (kind.change multiline flags)
  Acts.record (.unquoted kind dialect.id base.display)
  return dialect

/-- The catalog is built before, so that a look into it draws and records nothing. -/
def Conf.acts (conf : Conf) : Acts DialectError Dialect := do
  let base ← ofExcept (Dialect.named conf.base)
  let dialect ← Acts.override base conf.overrides
  Acts.record (.resolved dialect.id conf.base (!conf.overrides.isEmpty))
  return dialect

namespace Store

def acts (store : Store) : Recipe → Acts Failure Dialect
  | .standard name => ofExcept ((Dialect.named name).mapError .dialect)
  | .alias of => ofExcept (store.find of)
  | .new flags => Acts.create flags
  | .derive base set => do
    let base ← ofExcept (store.find base)
    let overrides ← ofExcept (overridesOf set)
    Acts.override base overrides
  | .vary base change => do
    let base ← ofExcept (store.find base)
    Acts.derive base fun flags => .ok (change flags)
  | .unquote kind base multiline => do
    let base ← ofExcept (store.find base)
    ExceptT.adapt .dialect (kind.acts base multiline)
  | .mustUnquote kind base multiline => do
    let base ← ofExcept (store.find base)
    ExceptT.adapt panicOf (kind.acts base multiline)
  | .conf text => do
    let conf ← ofExcept ((Conf.ofText text).mapError fun error => .dialect (.conf error))
    ExceptT.adapt .dialect conf.acts
  | .resolve base set => do
    let overrides ← ofExcept (overridesOf set)
    ExceptT.adapt .dialect (Conf.mk base overrides).acts

/-- A step act by act; a step that fails midway would leave what it did until then. -/
def enact (store : Store) : Step → Shown × Store
  | .make recipe slot =>
    let (result, trail) := (store.acts recipe).run ⟨store.ids, []⟩
    let store := { store with ids := trail.ids }
    match result with
    | .ok dialect => (⟨.ok (.made dialect.id dialect.name?), trail.log⟩, store.keep slot dialect)
    | .error failure => (⟨.error failure, trail.log⟩, store)
  | .look what => (⟨store.look what, []⟩, store)

def enactAll (store : Store) : List Step → List Shown × Store
  | [] => ([], store)
  | first :: rest =>
    let (shown, store) := store.enact first
    let (others, store) := store.enactAll rest
    (shown :: others, store)

end Store

end SyntaxDialects
