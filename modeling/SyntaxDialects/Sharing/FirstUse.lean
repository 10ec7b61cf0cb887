import SyntaxDialects.Catalog
import SyntaxDialects.Dialect.Event
import SyntaxDialects.Sharing.Once

/-!
First use of the canonical dialects. Each is made when it is first needed, after its parent, and
the catalog is built when it is first accessed, after all of them. Threads may do this in any
order and at the same time; each dialect and the catalog stand in a cell that is set once.
-/
namespace SyntaxDialects.Sharing

structure Memory where
  ids : Alloc
  canonical : Canon → Once Dialect
  catalog : Once Catalog
  builds : Nat
  log : List Event

namespace Memory

def initial : Memory :=
  ⟨Alloc.fresh, fun _ => .vacant, .vacant, 0, []⟩

def setCanonical (memory : Memory) (c : Canon) (state : Once Dialect) : Memory :=
  { memory with
    canonical := fun other => if other = c then state else memory.canonical other }

def instances (memory : Memory) : List (Canon × Dialect) :=
  Canon.all.filterMap fun c => (memory.canonical c).get?.map fun dialect => (c, dialect)

def baseFlags? (memory : Memory) (c : Canon) : Option Flags :=
  match c.parent with
  | none => some Flags.bare
  | some p => (memory.canonical p).get?.map (·.flags)

end Memory

/-- What a thread may be asked to do. Looking a name up, asking a dialect for its name and writing
a dialect as text all access the catalog. -/
inductive Task where
  | force (c : Canon)
  | access
  | create (flags : Flags)

inductive Outcome where
  | forced (c : Canon) (dialect : Dialect)
  | accessed (catalog : Catalog)
  | created (dialect : Dialect)
  deriving DecidableEq

inductive Frame where
  | force (c : Canon)
  -- The thread has claimed the dialect; its parent is made before it goes on.
  | derive (c : Canon)
  -- The thread has drawn the identity of the dialect, which is not to be seen yet.
  | publish (c : Canon) (dialect : Dialect)
  | access
  -- The thread has claimed the catalog and is to count the build.
  | count
  -- The thread has these dialects yet to force for the catalog.
  | build (pending : List Canon)
  -- The thread has put the catalog together, which is not to be seen yet.
  | settle (catalog : Catalog)
  | create (flags : Flags)

def Task.frame : Task → Frame
  | force c => .force c
  | access => .access
  | create flags => .create flags

structure Worker where
  frames : List Frame
  tasks : List Task
  outcomes : List Outcome

namespace Worker

def ofTasks (tasks : List Task) : Worker :=
  ⟨[], tasks, []⟩

def leave (worker : Worker) (frames : List Frame) (outcome : Outcome) : Worker :=
  { worker with
    frames := frames
    outcomes := if frames.isEmpty then worker.outcomes ++ [outcome] else worker.outcomes }

def enter (worker : Worker) (frames : List Frame) : Worker :=
  { worker with frames := frames }

def moveForce (memory : Memory) (worker : Worker) (c : Canon) (frames : List Frame) :
    Option (Memory × Worker) :=
  match memory.canonical c with
  | .published dialect => some (memory, worker.leave frames (.forced c dialect))
  | .claimed => none
  | .vacant =>
    let inner := match c.parent with
      | some p => [Frame.force p]
      | none => []
    some (memory.setCanonical c .claimed, worker.enter (inner ++ .derive c :: frames))

def moveDerive (memory : Memory) (worker : Worker) (c : Canon) (frames : List Frame) :
    Option (Memory × Worker) := do
  let base ← memory.baseFlags? c
  let (dialect, ids) := Dialect.create memory.ids (c.change.apply base)
  some ({ memory with ids := ids }, worker.enter (.publish c dialect :: frames))

def moveAccess (memory : Memory) (worker : Worker) (frames : List Frame) :
    Option (Memory × Worker) :=
  match memory.catalog with
  | .published catalog => some (memory, worker.leave frames (.accessed catalog))
  | .claimed => none
  | .vacant =>
    some ({ memory with catalog := .claimed }, worker.enter (.count :: frames))

def moveBuild (memory : Memory) (worker : Worker) (frames : List Frame) :
    List Canon → Option (Memory × Worker)
  | c :: pending => some (memory, worker.enter (.force c :: .build pending :: frames))
  | [] =>
    let catalog := Catalog.ofInstances memory.instances
    some ({ memory with log := memory.log ++ [.catalogBuilt catalog.size] },
      worker.enter (.settle catalog :: frames))

def move (memory : Memory) (worker : Worker) : Option (Memory × Worker) :=
  match worker.frames with
  | [] =>
    match worker.tasks with
    | [] => none
    | task :: tasks => some (memory, { worker with frames := [task.frame], tasks := tasks })
  | .force c :: frames => moveForce memory worker c frames
  | .derive c :: frames => moveDerive memory worker c frames
  | .publish c dialect :: frames =>
    some (memory.setCanonical c (.published dialect), worker.leave frames (.forced c dialect))
  | .access :: frames => moveAccess memory worker frames
  | .count :: frames =>
    some ({ memory with builds := memory.builds + 1 }, worker.enter (.build Canon.all :: frames))
  | .build pending :: frames => moveBuild memory worker frames pending
  | .settle catalog :: frames =>
    some ({ memory with catalog := .published catalog }, worker.leave frames (.accessed catalog))
  | .create flags :: frames =>
    let (dialect, ids) := Dialect.create memory.ids flags
    some ({ memory with ids := ids }, worker.leave frames (.created dialect))

end Worker

/-- Turns enough for a thread to build the catalog alone: forcing a dialect takes five. -/
def turnsToBuild : Nat :=
  5 * (Canon.all.length + 1)

def raceForCatalog (threads : Nat) : Crowd Memory Worker :=
  Crowd.run Worker.move (rotation threads turnsToBuild)
    ⟨Memory.initial, List.replicate threads (Worker.ofTasks [.access])⟩

structure CatalogReport where
  buildsBefore : Nat
  buildsAfter : Nat
  agree : Bool
  catalog : Catalog
  log : List Event

def reportRace (threads : Nat) : CatalogReport :=
  let crowd := raceForCatalog threads
  let catalog := crowd.shared.catalog.get?.getD ⟨[]⟩
  { buildsBefore := Memory.initial.builds
    buildsAfter := crowd.shared.builds
    agree := crowd.threads.all fun worker => worker.outcomes == [.accessed catalog]
    catalog := catalog
    log := crowd.shared.log }

end SyntaxDialects.Sharing
