import SyntaxDialects.Canon
import SyntaxDialects.Dialect

/-!
The catalog: the canonical dialects under their names. A dialect has a catalog name only if it is
the very instance in the catalog; equal flags do not make a dialect canonical.
-/
namespace SyntaxDialects

structure Catalog where
  entries : List (String × Dialect)
  deriving DecidableEq

namespace Catalog

def size (catalog : Catalog) : Nat :=
  catalog.entries.length

def isEmpty (catalog : Catalog) : Bool :=
  catalog.entries.isEmpty

def get? (catalog : Catalog) (name : String) : Option Dialect :=
  (catalog.entries.find? fun entry => entry.1 == name).map (·.2)

def nameOf? (catalog : Catalog) (dialect : Dialect) : Option String :=
  (catalog.entries.find? fun entry => entry.2.same dialect).map (·.1)

def ofInstances (instances : List (Canon × Dialect)) : Catalog :=
  ⟨instances.map fun entry => (entry.1.name, entry.2)⟩

def instancesFrom : List Canon → Alloc → List (Canon × Dialect) × Alloc
  | [], ids => ([], ids)
  | c :: rest, ids =>
    let (dialect, ids) := Dialect.create ids c.flags
    let (instances, ids) := instancesFrom rest ids
    ((c, dialect) :: instances, ids)

/-- The instances of a program whose first act is to use the catalog. -/
def canonical : List (Canon × Dialect) :=
  (instancesFrom Canon.all Alloc.fresh).1

def idsAfterCanonical : Alloc :=
  (instancesFrom Canon.all Alloc.fresh).2

def standard : Catalog :=
  ofInstances canonical

end Catalog

def Dialect.name? (dialect : Dialect) : Option String :=
  Catalog.standard.nameOf? dialect

def Dialect.isStandard (dialect : Dialect) : Bool :=
  dialect.name?.isSome

def Canon.dialect? (c : Canon) : Option Dialect :=
  (Catalog.canonical.find? fun entry => entry.1 == c).map (·.2)

end SyntaxDialects
