import SyntaxDialects.Proofs.Sharing.Invariant

/-!
No thread waits for ever. A thread that has claimed a dialect waits for an ancestor of it only, and
the thread that has claimed the catalog for a dialect only; so some thread can always move until
all tasks are ended, and every task ends with an outcome of its kind.
-/
namespace SyntaxDialects.Sharing

def Worker.Done (worker : Worker) : Prop :=
  worker.frames = [] ∧ worker.tasks = []

def Crowd.CanMove (crowd : Crowd Memory Worker) : Prop :=
  ∃ worker ∈ crowd.threads, ∃ after moved, Moves crowd.shared worker after moved

def Frame.works : Frame → Bool
  | force _ | access => false
  | _ => true

theorem Frame.of_owns {frame : Frame} {c : Canon} (owns : frame.owns c) :
    frame.subject? = some c ∧ frame.works := by
  cases frame with
  | derive d | publish d _ => exact ⟨congrArg some (of_decide_eq_true owns), rfl⟩
  | force _ | access | count | build _ | settle _ | create _ => cases owns

theorem Frame.works_of_builds {frame : Frame} (builds : frame.builds) : frame.works := by
  cases frame with
  | count | build _ | settle _ => rfl
  | force _ | derive _ | publish _ _ | access | create _ => cases builds

theorem idxOf_parent_lt {c p : Canon} (child : c.parent = some p) :
    Canon.all.idxOf p < Canon.all.idxOf c := by
  cases c <;> cases child <;> decide

/-- What the innermost frame is to give is an ancestor of what those below it are to give. -/
theorem Frame.top_rank {top frame : Frame} {frames : List Frame} {c : Canon}
    (chain : (top :: frames).IsChain Frame.Above) (member : frame ∈ frames)
    (gives : frame.subject? = some c) :
    ∃ p, top.subject? = some p ∧ Canon.all.idxOf p < Canon.all.idxOf c := by
  induction frames generalizing top with
  | nil => cases member
  | cons lower frames ih =>
    rw [List.isChain_cons_cons] at chain
    obtain ⟨q, lowerGives, atMost⟩ :
        ∃ q, lower.subject? = some q ∧ Canon.all.idxOf q ≤ Canon.all.idxOf c := by
      rcases List.mem_cons.mp member with rfl | later
      · exact ⟨c, gives, Nat.le_refl _⟩
      · obtain ⟨q, lowerGives, lt⟩ := ih chain.2 later
        exact ⟨q, lowerGives, Nat.le_of_lt lt⟩
    cases lower with
    | derive d =>
      obtain ⟨p, child, topGives⟩ := chain.1
      cases lowerGives
      exact ⟨p, topGives, Nat.lt_of_lt_of_le (idxOf_parent_lt child) atMost⟩
    | build pending => cases lowerGives
    | force _ | publish _ _ | access | count | settle _ | create _ => exact chain.1.elim

section Blocked

variable {memory : Memory} {worker : Worker}

/-- A thread that cannot move is done or waits for a cell that is claimed. -/
theorem Ready.blocked (ready : Ready memory worker)
    (stuck : ¬ ∃ after moved, Moves memory worker after moved) :
    worker.Done ∨
      (∃ c frames, worker.frames = .force c :: frames ∧ memory.canonical c = .claimed) ∨
      ∃ frames, worker.frames = .access :: frames ∧ memory.catalog = .claimed := by
  cases stack : worker.frames with
  | nil =>
    cases waiting : worker.tasks with
    | nil => exact .inl ⟨stack, waiting⟩
    | cons task tasks => exact absurd ⟨_, _, .start stack waiting⟩ stuck
  | cons top frames =>
    cases top with
    | force c =>
      cases cell : memory.canonical c with
      | vacant =>
        cases parent : c.parent with
        | none => exact absurd ⟨_, _, .claimOldest stack cell parent⟩ stuck
        | some p => exact absurd ⟨_, _, .claim stack cell parent⟩ stuck
      | claimed => exact .inr (.inl ⟨c, frames, rfl, cell⟩)
      | published dialect => exact absurd ⟨_, _, .found stack cell⟩ stuck
    | derive c =>
      have fits := ready.fits
      rw [stack] at fits
      obtain ⟨base, ready⟩ : ∃ base, memory.baseFlags? c = some base := by
        cases parent : c.parent with
        | none => exact ⟨_, Memory.baseFlags?_eq_some.mpr (.inl ⟨parent, rfl⟩)⟩
        | some p =>
          rcases fits.1 p parent with ⟨older, made⟩ | above
          · exact ⟨_, Memory.baseFlags?_eq_some.mpr (.inr ⟨p, older, parent, made, rfl⟩)⟩
          · cases above
      exact absurd ⟨_, _, .draw stack ready⟩ stuck
    | publish c dialect => exact absurd ⟨_, _, .publish stack⟩ stuck
    | access =>
      cases cell : memory.catalog with
      | vacant => exact absurd ⟨_, _, .claimCatalog stack cell⟩ stuck
      | claimed => exact .inr (.inr ⟨frames, rfl, rfl⟩)
      | published catalog => exact absurd ⟨_, _, .accessed stack cell⟩ stuck
    | count => exact absurd ⟨_, _, .count stack⟩ stuck
    | build pending =>
      cases pending with
      | nil => exact absurd ⟨_, _, .assemble stack⟩ stuck
      | cons c pending => exact absurd ⟨_, _, .next stack⟩ stuck
    | settle catalog => exact absurd ⟨_, _, .settle stack⟩ stuck
    | create flags => exact absurd ⟨_, _, .create stack⟩ stuck

/-- A thread that cannot move while it is at work below waits for a dialect above. -/
theorem Ready.waits (ready : Ready memory worker)
    (stuck : ¬ ∃ after moved, Moves memory worker after moved) {frame : Frame}
    (member : frame ∈ worker.frames) (works : frame.works) :
    ∃ d frames, worker.frames = .force d :: frames ∧ frame ∈ frames ∧
      memory.canonical d = .claimed := by
  rcases ready.blocked stuck with
    ⟨idle, -⟩ | ⟨d, frames, top, claimed⟩ | ⟨frames, top, -⟩
  · rw [idle] at member
    cases member
  · rw [top] at member
    rcases List.mem_cons.mp member with rfl | below
    · cases works
    · exact ⟨d, frames, top, below, claimed⟩
  · rw [top, Frame.chain_none top ready.shaped rfl, List.mem_singleton] at member
    rw [member] at works
    cases works

end Blocked

namespace Sound

variable {crowd : Crowd Memory Worker}

theorem exists_frame (kind : Frame → Bool) (standing : 0 < crowd.standing kind) :
    ∃ worker ∈ crowd.threads, ∃ frame ∈ worker.frames, kind frame := by
  obtain ⟨worker, thread, positive⟩ := Crowd.exists_of_total_pos standing
  exact ⟨worker, thread, List.countP_pos_iff.mp positive⟩

/-- The owner of a claimed dialect can move, or it waits for an ancestor, whose owner can move. -/
theorem canMove_of_claimed (sound : Sound crowd) {c : Canon}
    (claimed : crowd.shared.canonical c = .claimed) : crowd.CanMove := by
  induction rank : Canon.all.idxOf c using Nat.strong_induction_on generalizing c with
  | h rank ih =>
    subst rank
    have standing : 0 < crowd.standing (Frame.owns c) := by
      rw [sound.owners, claimed]
      decide
    obtain ⟨worker, thread, frame, member, owns⟩ := exists_frame _ standing
    obtain ⟨gives, works⟩ := Frame.of_owns owns
    have ready := sound.ready thread
    by_contra stuck
    obtain ⟨d, frames, top, below, waiting⟩ :=
      ready.waits (fun moves => stuck ⟨worker, thread, moves⟩) member works
    obtain ⟨p, same, lt⟩ := Frame.top_rank (top ▸ ready.shaped) below gives
    cases same
    exact stuck (ih _ lt waiting rfl)

theorem canMove_of_catalog_claimed (sound : Sound crowd)
    (claimed : crowd.shared.catalog = .claimed) : crowd.CanMove := by
  have standing : 0 < crowd.standing Frame.builds := by
    rw [sound.builders, claimed]
    decide
  obtain ⟨worker, thread, frame, member, builds⟩ := exists_frame _ standing
  by_contra stuck
  obtain ⟨d, frames, -, -, waiting⟩ := (sound.ready thread).waits
    (fun moves => stuck ⟨worker, thread, moves⟩) member (Frame.works_of_builds builds)
  exact stuck (sound.canMove_of_claimed waiting)

/-- As long as a thread is not done, some thread can move. -/
theorem canMove (sound : Sound crowd) {worker : Worker} (thread : worker ∈ crowd.threads)
    (unfinished : ¬ worker.Done) : crowd.CanMove := by
  by_contra stuck
  rcases (sound.ready thread).blocked fun moves => stuck ⟨worker, thread, moves⟩ with
    done | ⟨c, -, -, claimed⟩ | ⟨-, -, claimed⟩
  · exact unfinished done
  · exact stuck (sound.canMove_of_claimed claimed)
  · exact stuck (sound.canMove_of_catalog_claimed claimed)

end Sound

def Frame.weight : Frame → Nat
  | force c => 3 * (Canon.all.idxOf c + 1)
  | derive _ => 2
  | publish _ _ => 1
  | access => (3 * Canon.all.length + 1) * Canon.all.length + 4
  | count => (3 * Canon.all.length + 1) * Canon.all.length + 3
  | build pending => (3 * Canon.all.length + 1) * pending.length + 2
  | settle _ => 1
  | create _ => 1

def Worker.weight (worker : Worker) : Nat :=
  (worker.frames.map Frame.weight).sum + (worker.tasks.map fun task => task.frame.weight + 1).sum

theorem Moves.weight_lt {before after : Memory} {worker moved : Worker}
    (moves : Moves before worker after moved) : moved.weight < worker.weight := by
  unfold Worker.weight
  cases moves with
  | start idle next => simp [idle, next]
  | claimOldest top =>
    simp only [Worker.enter_frames, Worker.enter_tasks, top, List.map_cons, List.sum_cons,
      Frame.weight]
    omega
  | claim top _ child =>
    have lt := idxOf_parent_lt child
    simp only [Worker.enter_frames, Worker.enter_tasks, top, List.map_cons, List.sum_cons,
      Frame.weight]
    omega
  | @next c pending _ top =>
    have lt := List.idxOf_lt_length_of_mem c.mem_all
    simp only [Worker.enter_frames, Worker.enter_tasks, top, List.map_cons, List.sum_cons,
      Frame.weight, List.length_cons, Nat.mul_succ]
    omega
  | found top | draw top | publish top | accessed top | claimCatalog top | count top
  | assemble top | settle top | create top => simp [top, Frame.weight]

def Frame.task : Frame → Task
  | force c | derive c | publish c _ => .force c
  | access | count | build _ | settle _ => .access
  | create flags => .create flags

def served : List Frame → List Task
  | [] => []
  | [frame] => [frame.task]
  | _ :: frames => served frames

inductive Task.Gives : Task → Outcome → Prop where
  | force (c : Canon) (dialect : Dialect) : Gives (.force c) (.forced c dialect)
  | access (catalog : Catalog) : Gives .access (.accessed catalog)
  | create (dialect : Dialect) : Gives (.create dialect.flags) (.created dialect)

def Worker.Serves (tasks : List Task) (worker : Worker) : Prop :=
  ∃ ended, tasks = ended ++ served worker.frames ++ worker.tasks ∧
    List.Forall₂ Task.Gives ended worker.outcomes

section Serving

variable {worker : Worker} {tasks : List Task} {top swapped upper : Frame} {frames : List Frame}

theorem served_swap (same : swapped.task = top.task) :
    served (swapped :: frames) = served (top :: frames) := by
  cases frames with
  | nil => exact congrArg (fun task => [task]) same
  | cons lower frames => rfl

theorem Worker.Serves.swap (serves : worker.Serves tasks) (stack : worker.frames = top :: frames)
    (same : swapped.task = top.task) : (worker.enter (swapped :: frames)).Serves tasks := by
  obtain ⟨ended, given, gives⟩ := serves
  rw [stack, ← served_swap same] at given
  exact ⟨ended, given, gives⟩

theorem Worker.Serves.push (serves : worker.Serves tasks) (stack : worker.frames = top :: frames)
    (same : swapped.task = top.task) :
    (worker.enter (upper :: swapped :: frames)).Serves tasks := by
  obtain ⟨ended, given, gives⟩ := serves.swap stack same
  exact ⟨ended, given, gives⟩

theorem Worker.Serves.pop (serves : worker.Serves tasks) (stack : worker.frames = top :: frames)
    {outcome : Outcome} (gives : top.task.Gives outcome) :
    (worker.leave frames outcome).Serves tasks := by
  obtain ⟨ended, given, before⟩ := serves
  rw [stack] at given
  cases frames with
  | nil =>
    refine ⟨ended ++ [top.task], ?_, List.rel_append before (.cons gives .nil)⟩
    rw [given]
    simp [served, Worker.leave]
  | cons lower frames => exact ⟨ended, given, before⟩

theorem Moves.serves {before after : Memory} {moved : Worker}
    (moves : Moves before worker after moved) (serves : worker.Serves tasks) :
    moved.Serves tasks := by
  cases moves with
  | @start task _ idle next =>
    obtain ⟨ended, given, gives⟩ := serves
    refine ⟨ended, ?_, gives⟩
    rw [given, idle, next]
    cases task <;> simp [served, Task.frame, Frame.task]
  | found top => exact serves.pop top (.force _ _)
  | claimOldest top => exact serves.swap top rfl
  | claim top => exact serves.push top rfl
  | draw top => exact serves.swap top rfl
  | publish top => exact serves.pop top (.force _ _)
  | accessed top => exact serves.pop top (.access _)
  | claimCatalog top => exact serves.swap top rfl
  | count top => exact serves.swap top rfl
  | next top => exact serves.push top rfl
  | assemble top => exact serves.swap top rfl
  | settle top => exact serves.pop top (.access _)
  | create top => exact serves.pop top (.create ⟨_, _⟩)

end Serving

def Crowd.Serves (tasks : List (List Task)) (crowd : Crowd Memory Worker) : Prop :=
  List.Forall₂ Worker.Serves tasks crowd.threads

theorem Crowd.serves_turn {tasks : List (List Task)} {crowd : Crowd Memory Worker}
    (serves : crowd.Serves tasks) (number : Nat) :
    (crowd.turn Worker.move number).Serves tasks :=
  Crowd.turn_keeps serves number fun here result =>
    forall₂_set serves here fun _ => (Worker.move_eq_some.mp result).serves

theorem Crowd.serves_ofTasks (tasks : List (List Task)) :
    (Crowd.ofTasks tasks).Serves tasks := by
  rw [Crowd.Serves, Crowd.ofTasks, List.forall₂_map_right_iff, List.forall₂_same]
  intro own _
  exact ⟨[], rfl, .nil⟩

namespace Sound

variable {crowd : Crowd Memory Worker}

theorem exists_done (sound : Sound crowd) :
    ∃ more, ∀ worker ∈ (Crowd.run Worker.move more crowd).threads, worker.Done := by
  refine Crowd.exists_ended Worker.weight Sound.turn ?_ ?_ sound
  · intro memory worker after moved result
    exact (Worker.move_eq_some.mp result).weight_lt
  · intro crowd sound worker thread unfinished
    obtain ⟨mover, member, after, moved, moves⟩ := sound.canMove thread unfinished
    exact ⟨mover, member, after, moved, Worker.move_eq_some.mpr moves⟩

end Sound

theorem Worker.Serves.ended {worker : Worker} {tasks : List Task} (serves : worker.Serves tasks)
    (done : worker.Done) : List.Forall₂ Task.Gives tasks worker.outcomes := by
  obtain ⟨ended, given, gives⟩ := serves
  rw [done.1, done.2, served, List.append_nil, List.append_nil] at given
  rw [given]
  exact gives

/-- Whatever turns the threads have taken, they can take more until each has ended all its tasks,
each task with an outcome of its kind. -/
theorem every_task_can_end (tasks : List (List Task)) (schedule : List Nat) :
    ∃ more, List.Forall₂ (fun own worker => List.Forall₂ Task.Gives own worker.outcomes) tasks
      (Crowd.run Worker.move more
        (Crowd.run Worker.move schedule (Crowd.ofTasks tasks))).threads := by
  obtain ⟨more, done⟩ := ((Sound.ofTasks tasks).run schedule).exists_done
  have before := Crowd.run_invariant Crowd.serves_turn (Crowd.serves_ofTasks tasks) schedule
  have serves := Crowd.run_invariant Crowd.serves_turn before more
  exact ⟨more, forall₂_imp_of_mem serves done Worker.Serves.ended⟩

end SyntaxDialects.Sharing
