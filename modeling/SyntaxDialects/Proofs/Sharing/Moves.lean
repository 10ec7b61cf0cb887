import SyntaxDialects.Sharing.FirstUse

/-!
What a thread's move can do. The frames of a thread are chained: above one that derives a dialect
stands only work on its parent, above one that builds the catalog only work on a dialect, and above
any other frame nothing.
-/
namespace SyntaxDialects.Sharing

namespace Memory

variable {memory : Memory} {c : Canon} {state : Once Dialect}

@[simp]
theorem setCanonical_self : (memory.setCanonical c state).canonical c = state := by
  simp [setCanonical]

theorem setCanonical_ne {other : Canon} (ne : other ≠ c) :
    (memory.setCanonical c state).canonical other = memory.canonical other := by
  simp [setCanonical, ne]

@[simp]
theorem setCanonical_catalog : (memory.setCanonical c state).catalog = memory.catalog :=
  rfl

@[simp]
theorem setCanonical_builds : (memory.setCanonical c state).builds = memory.builds :=
  rfl

end Memory

def Frame.subject? : Frame → Option Canon
  | force c | derive c | publish c _ => some c
  | _ => none

def Frame.Above (upper lower : Frame) : Prop :=
  match lower with
  | derive c => ∃ p, c.parent = some p ∧ upper.subject? = some p
  | build _ => ∃ c, upper.subject? = some c
  | _ => False

namespace Worker

variable {worker : Worker} {frames : List Frame} {outcome : Outcome}

@[simp]
theorem enter_frames : (worker.enter frames).frames = frames :=
  rfl

@[simp]
theorem enter_outcomes : (worker.enter frames).outcomes = worker.outcomes :=
  rfl

@[simp]
theorem enter_tasks : (worker.enter frames).tasks = worker.tasks :=
  rfl

@[simp]
theorem leave_frames : (worker.leave frames outcome).frames = frames :=
  rfl

@[simp]
theorem leave_tasks : (worker.leave frames outcome).tasks = worker.tasks :=
  rfl

theorem mem_top {frame : Frame} (top : worker.frames = frame :: frames) : frame ∈ worker.frames := by
  rw [top]
  exact List.mem_cons_self ..

theorem mem_leave_outcomes {other : Outcome}
    (member : other ∈ (worker.leave frames outcome).outcomes) :
    other ∈ worker.outcomes ∨ other = outcome := by
  unfold leave at member
  split at member
  · simpa using member
  · exact .inl member

end Worker

inductive Moves (memory : Memory) (worker : Worker) : Memory → Worker → Prop where
  | start {task : Task} {tasks : List Task} (idle : worker.frames = [])
      (next : worker.tasks = task :: tasks) :
      Moves memory worker memory { worker with frames := [task.frame], tasks := tasks }
  | found {c : Canon} {dialect : Dialect} {frames : List Frame}
      (top : worker.frames = .force c :: frames)
      (made : memory.canonical c = .published dialect) :
      Moves memory worker memory (worker.leave frames (.forced c dialect))
  | claimOldest {c : Canon} {frames : List Frame} (top : worker.frames = .force c :: frames)
      (vacant : memory.canonical c = .vacant) (oldest : c.parent = none) :
      Moves memory worker (memory.setCanonical c .claimed) (worker.enter (.derive c :: frames))
  | claim {c p : Canon} {frames : List Frame} (top : worker.frames = .force c :: frames)
      (vacant : memory.canonical c = .vacant) (child : c.parent = some p) :
      Moves memory worker (memory.setCanonical c .claimed)
        (worker.enter (.force p :: .derive c :: frames))
  | draw {c : Canon} {base : Flags} {frames : List Frame}
      (top : worker.frames = .derive c :: frames) (ready : memory.baseFlags? c = some base) :
      Moves memory worker { memory with ids := ⟨memory.ids.next + 1⟩ }
        (worker.enter (.publish c ⟨⟨memory.ids.next⟩, c.change.apply base⟩ :: frames))
  | publish {c : Canon} {dialect : Dialect} {frames : List Frame}
      (top : worker.frames = .publish c dialect :: frames) :
      Moves memory worker (memory.setCanonical c (.published dialect))
        (worker.leave frames (.forced c dialect))
  | accessed {catalog : Catalog} {frames : List Frame} (top : worker.frames = .access :: frames)
      (built : memory.catalog = .published catalog) :
      Moves memory worker memory (worker.leave frames (.accessed catalog))
  | claimCatalog {frames : List Frame} (top : worker.frames = .access :: frames)
      (vacant : memory.catalog = .vacant) :
      Moves memory worker { memory with catalog := .claimed } (worker.enter (.count :: frames))
  | count {frames : List Frame} (top : worker.frames = .count :: frames) :
      Moves memory worker { memory with builds := memory.builds + 1 }
        (worker.enter (.build Canon.all :: frames))
  | next {c : Canon} {pending : List Canon} {frames : List Frame}
      (top : worker.frames = .build (c :: pending) :: frames) :
      Moves memory worker memory (worker.enter (.force c :: .build pending :: frames))
  | assemble {frames : List Frame} (top : worker.frames = .build [] :: frames) :
      Moves memory worker
        { memory with
          log := memory.log ++ [.catalogBuilt (Catalog.ofInstances memory.instances).size] }
        (worker.enter (.settle (Catalog.ofInstances memory.instances) :: frames))
  | settle {catalog : Catalog} {frames : List Frame}
      (top : worker.frames = .settle catalog :: frames) :
      Moves memory worker { memory with catalog := .published catalog }
        (worker.leave frames (.accessed catalog))
  | create {flags : Flags} {frames : List Frame} (top : worker.frames = .create flags :: frames) :
      Moves memory worker { memory with ids := ⟨memory.ids.next + 1⟩ }
        (worker.leave frames (.created ⟨⟨memory.ids.next⟩, flags⟩))

namespace Worker

variable {memory after : Memory} {worker moved : Worker}

theorem moves_of_moveForce {c : Canon} {frames : List Frame}
    (top : worker.frames = .force c :: frames)
    (result : worker.moveForce memory c frames = some (after, moved)) :
    Moves memory worker after moved := by
  unfold moveForce at result
  split at result
  case h_1 dialect made =>
    cases result
    exact .found top made
  case h_2 => cases result
  case h_3 vacant =>
    cases parent : c.parent with
    | none =>
      simp only [parent] at result
      cases result
      exact .claimOldest top vacant parent
    | some p =>
      simp only [parent] at result
      cases result
      exact .claim top vacant parent

theorem moves_of_moveAccess {frames : List Frame} (top : worker.frames = .access :: frames)
    (result : worker.moveAccess memory frames = some (after, moved)) :
    Moves memory worker after moved := by
  unfold moveAccess at result
  split at result
  case h_1 catalog built =>
    cases result
    exact .accessed top built
  case h_2 => cases result
  case h_3 vacant =>
    cases result
    exact .claimCatalog top vacant

theorem moves_of_moveDerive {c : Canon} {frames : List Frame}
    (top : worker.frames = .derive c :: frames)
    (result : worker.moveDerive memory c frames = some (after, moved)) :
    Moves memory worker after moved := by
  obtain ⟨base, ready, drawn⟩ := Option.bind_eq_some_iff.mp result
  cases drawn
  exact .draw top ready

theorem moves_of_moveBuild {pending : List Canon} {frames : List Frame}
    (top : worker.frames = .build pending :: frames)
    (result : worker.moveBuild memory frames pending = some (after, moved)) :
    Moves memory worker after moved := by
  cases pending with
  | nil =>
    cases result
    exact .assemble top
  | cons c pending =>
    cases result
    exact .next top

theorem move_eq_some :
    worker.move memory = some (after, moved) ↔ Moves memory worker after moved := by
  constructor
  · intro result
    unfold move at result
    split at result
    case h_1 idle =>
      split at result
      case h_1 => cases result
      case h_2 next =>
        cases result
        exact .start idle next
    case h_2 top => exact moves_of_moveForce top result
    case h_3 top => exact moves_of_moveDerive top result
    case h_4 top =>
      cases result
      exact .publish top
    case h_5 top => exact moves_of_moveAccess top result
    case h_6 top =>
      cases result
      exact .count top
    case h_7 top => exact moves_of_moveBuild top result
    case h_8 top =>
      cases result
      exact .settle top
    case h_9 top =>
      cases result
      exact .create top
  · intro moves
    cases moves with
    | start idle next => simp [move, idle, next]
    | found top made => simp [move, moveForce, top, made]
    | claimOldest top vacant oldest => simp [move, moveForce, top, vacant, oldest]
    | claim top vacant child => simp [move, moveForce, top, vacant, child]
    | draw top ready => simp [move, moveDerive, top, ready, Dialect.create, Alloc.draw]
    | publish top => simp [move, top]
    | accessed top built => simp [move, moveAccess, top, built]
    | claimCatalog top vacant => simp [move, moveAccess, top, vacant]
    | count top => simp [move, top]
    | next top => simp [move, moveBuild, top]
    | assemble top => simp [move, moveBuild, top]
    | settle top => simp [move, top]
    | create top => simp [move, top, Dialect.create, Alloc.draw]

end Worker

end SyntaxDialects.Sharing
