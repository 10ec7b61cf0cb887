import SyntaxDialects.Proofs.Catalog.Lookup
import SyntaxDialects.Proofs.Sharing.Progress
import SyntaxDialects.Proofs.Sharing.SetOnce
import SyntaxDialects.Session.Store

/-!
Races in rounds: threads that all want the same, each with one turn in every round. The first
thread does the work while the others wait, and the rounds are enough for all to end. In a race for
the catalog it is the standard catalog that is built, with the identities that a session starts
from.
-/
namespace SyntaxDialects.Sharing

section Cells

variable {α : Type}

theorem Cell.race_eq_run (value : α) (threads : Nat) :
    Cell.empty.race threads value = Crowd.run Caller.move (rotation threads 2)
      (Crowd.ofCalls (List.replicate threads [.ensure (.returns value)])) := by
  rw [Crowd.ofCalls, List.map_replicate]
  rfl

theorem Cell.race_set (kept value : α) (others : Nat) :
    (Cell.mk (some kept)).race (others + 1) value =
      ⟨.published kept, List.replicate (others + 1) ⟨none, [], [.value kept false]⟩⟩ := by
  let waiting : Caller α := .ofCalls [.ensure (.returns value)]
  let ended : Caller α := ⟨none, [], [.value kept false]⟩
  have reuses : waiting.move (.published kept) = some (.published kept, ended) := rfl
  have finds : (waiting.move (.published kept)).getD (.published kept, waiting) =
      (.published kept, ended) := rfl
  change Crowd.run Caller.move _ ⟨.published kept, List.replicate (others + 1) waiting⟩ = _
  rw [List.replicate_succ, Crowd.run_round reuses finds, ← List.replicate_succ]
  exact Crowd.run_replicate_of_stuck rfl _ _

/-- The first thread starts in the first round and publishes in the second, where the others find
its value. -/
theorem Cell.race_empty (value : α) (others : Nat) :
    Cell.empty.race (others + 1) value =
      ⟨.published value, ⟨none, [], [.value value true]⟩ ::
        List.replicate others ⟨none, [], [.value value false]⟩⟩ := by
  let waiting : Caller α := .ofCalls [.ensure (.returns value)]
  let running : Caller α := ⟨some (.returns value), [], []⟩
  have starts : waiting.move .vacant = some (.claimed, running) := rfl
  have publishes : running.move .claimed = some (.published value, ⟨none, [], [.value value true]⟩) :=
    rfl
  have waits : (waiting.move .claimed).getD (.claimed, waiting) = (.claimed, waiting) := rfl
  have finds : (waiting.move (.published value)).getD (.published value, waiting) =
      (.published value, ⟨none, [], [.value value false]⟩) := rfl
  rw [Cell.race_eq_run, Crowd.ofCalls, List.map_replicate, List.replicate_succ]
  change Crowd.run Caller.move _ ⟨.vacant, waiting :: List.replicate others waiting⟩ = _
  rw [Crowd.run_round starts waits, Crowd.run_round publishes finds]
  rfl

/-- A race leaves the cell as one call by itself would, and gives its value to every thread. -/
theorem Cell.step_race (cell : Cell α) (others : Nat) (value : α) :
    cell.step (.race (others + 1) value) =
      (.raced (List.replicate (others + 1) (cell.value.getD value))
          (if cell.value.isSome then 0 else 1),
        (cell.ensure (.returns value)).2) := by
  have replies (count : Nat) (given : α) :
      (List.replicate count (Caller.mk none [] [.value given false])).flatMap (·.replies) =
        List.replicate count (.value given false) := by
    rw [List.flatMap_replicate, List.flatten_replicate_singleton]
  have values (count : Nat) (given : α) :
      (List.replicate count (Reply.value given false)).filterMap Reply.value? =
        List.replicate count given :=
    List.filterMap_replicate_of_some rfl
  have runs (count : Nat) (given : α) :
      (List.replicate count (Reply.value given false)).countP Reply.ran = 0 := by
    rw [List.countP_replicate]
    rfl
  obtain ⟨content⟩ := cell
  cases content with
  | some kept =>
    simp only [step, Cell.race_set, replies, values, runs]
    rfl
  | none =>
    have race : (Cell.mk none).race (others + 1) value = _ := Cell.race_empty value others
    simp only [step, race, List.flatMap_cons, replies, List.singleton_append, List.countP_cons,
      runs, List.filterMap_cons, Reply.value?, values]
    rfl

end Cells

/-! The race for the catalog. -/

namespace Memory

def halfway (made : List Canon) : Memory :=
  { ids := ⟨made.length⟩
    canonical := fun c => if c ∈ made then .published c.dialect else .vacant
    catalog := .claimed
    builds := 1
    log := [] }

def assembled : Memory :=
  { halfway Canon.all with log := [.catalogBuilt Catalog.standard.size] }

/-- The catalog is built, with the identities that a session starts from. -/
def settled : Memory :=
  { ids := Store.initial.ids
    canonical := fun c => .published c.dialect
    catalog := .published Catalog.standard
    builds := 1
    log := [.catalogBuilt Catalog.standard.size] }

theorem ofInstances_standard {memory : Memory}
    (made : ∀ c, memory.canonical c = .published c.dialect) :
    Catalog.ofInstances memory.instances = Catalog.standard := by
  have all : memory.instances = Canon.all.map fun c => (c, c.dialect) := by
    simp [instances, made, Once.get?]
  rw [all]
  rfl

end Memory

section Order

variable {made pending : List Canon} {c : Canon} (split : Canon.all = made ++ c :: pending)
include split

theorem notMem_of_split : c ∉ made := by
  have distinct : Canon.all.Nodup := by decide
  rw [split, List.nodup_append] at distinct
  exact fun member => distinct.2.2 c member c (List.mem_cons_self ..) rfl

theorem idxOf_of_split : Canon.all.idxOf c = made.length := by
  rw [split, List.idxOf_append_of_notMem (notMem_of_split split), List.idxOf_cons_self,
    Nat.add_zero]

theorem mem_of_parent {p : Canon} (child : c.parent = some p) : p ∈ made := by
  have earlier := idxOf_parent_lt child
  rw [idxOf_of_split split, split] at earlier
  by_contra absent
  rw [List.idxOf_append_of_notMem absent] at earlier
  omega

end Order

section Building

variable (others : Nat)

def builders (memory : Memory) (builder : Worker) : Crowd Memory Worker :=
  ⟨memory, builder :: List.replicate others ⟨[.access], [], []⟩⟩

/-- So many rounds in which the builder gets from one point to another and nobody else moves. -/
def Builds (rounds : Nat) (memory : Memory) (builder : Worker) (after : Memory) (moved : Worker) :
    Prop :=
  ∀ more, Crowd.run Worker.move (rotation (others + 1) (rounds + more))
      (builders others memory builder) =
    Crowd.run Worker.move (rotation (others + 1) more) (builders others after moved)

variable {others}

namespace Builds

variable {memory middle after : Memory} {builder between moved : Worker} {first second : Nat}

theorem trans (left : Builds others first memory builder middle between)
    (right : Builds others second middle between after moved) :
    Builds others (first + second) memory builder after moved := by
  intro more
  rw [Nat.add_assoc, left, right]

theorem move (moves : Moves memory builder after moved) (claimed : after.catalog = .claimed) :
    Builds others 1 memory builder after moved := by
  intro more
  have waits : (Worker.move after ⟨[.access], [], []⟩).getD (after, ⟨[.access], [], []⟩) =
      (after, ⟨[.access], [], []⟩) := by
    simp [Worker.move, Worker.moveAccess, claimed]
  rw [builders, Nat.add_comm 1, Crowd.run_round (Worker.move_eq_some.mpr moves) waits]
  rfl

end Builds

theorem Memory.halfway_publish {made pending : List Canon} {c : Canon}
    (split : Canon.all = made ++ c :: pending) :
    Memory.setCanonical
        { (Memory.halfway made).setCanonical c .claimed with ids := ⟨made.length + 1⟩ } c
        (.published ⟨⟨made.length⟩, c.flags⟩) =
      .halfway (made ++ [c]) := by
  have index := idxOf_of_split split
  simp only [setCanonical, halfway, List.length_append, List.length_singleton, Memory.mk.injEq,
    true_and, and_true]
  funext other
  by_cases same : other = c
  · simp [same, Canon.dialect, index]
  · simp [same]

/-- Forcing the next dialect takes five rounds, or four if it is the oldest. -/
theorem builds_next {made pending : List Canon} {c : Canon}
    (split : Canon.all = made ++ c :: pending) :
    ∃ rounds ≤ 5, Builds others rounds (.halfway made) ⟨[.build (c :: pending)], [], []⟩
      (.halfway (made ++ [c])) ⟨[.build pending], [], []⟩ := by
  let claimed := (Memory.halfway made).setCanonical c .claimed
  let drawn : Memory := { claimed with ids := ⟨made.length + 1⟩ }
  let dialect : Dialect := ⟨⟨made.length⟩, c.flags⟩
  have vacant : (Memory.halfway made).canonical c = .vacant := if_neg (notMem_of_split split)
  have forces : Builds others 1 (.halfway made) ⟨[.build (c :: pending)], [], []⟩
      (.halfway made) ⟨[.force c, .build pending], [], []⟩ := .move (.next rfl) rfl
  have publishes : Builds others 1 drawn ⟨[.publish c dialect, .build pending], [], []⟩
      (.halfway (made ++ [c])) ⟨[.build pending], [], []⟩ := by
    rw [← Memory.halfway_publish split]
    exact .move (.publish rfl) rfl
  have draws {base : Flags} (ready : claimed.baseFlags? c = some base)
      (flags : c.flags = c.change.apply base) :
      Builds others 1 claimed ⟨[.derive c, .build pending], [], []⟩
        drawn ⟨[.publish c dialect, .build pending], [], []⟩ := by
    have moves : Moves claimed ⟨[.derive c, .build pending], [], []⟩ _ _ := .draw rfl ready
    rw [← flags] at moves
    exact .move moves rfl
  cases parent : c.parent with
  | none =>
    have claims : Builds others 1 (.halfway made) ⟨[.force c, .build pending], [], []⟩
        claimed ⟨[.derive c, .build pending], [], []⟩ :=
      .move (.claimOldest rfl vacant parent) rfl
    have derives := draws (Memory.baseFlags?_eq_some.mpr (.inl ⟨parent, rfl⟩))
      (Canon.flags_oldest parent)
    exact ⟨4, by decide, forces.trans (claims.trans (derives.trans publishes))⟩
  | some p =>
    have older : claimed.canonical p = .published p.dialect := by
      have ne : p ≠ c := fun same => notMem_of_split split (same ▸ mem_of_parent split parent)
      rw [Memory.setCanonical_ne ne]
      exact if_pos (mem_of_parent split parent)
    have claims : Builds others 1 (.halfway made) ⟨[.force c, .build pending], [], []⟩
        claimed ⟨[.force p, .derive c, .build pending], [], []⟩ :=
      .move (.claim rfl vacant parent) rfl
    have finds : Builds others 1 claimed ⟨[.force p, .derive c, .build pending], [], []⟩
        claimed ⟨[.derive c, .build pending], [], []⟩ := .move (.found rfl older) rfl
    have derives := draws (Memory.baseFlags?_eq_some.mpr (.inr ⟨p, _, parent, older, rfl⟩))
      (Canon.flags_eq_change_apply_parent parent)
    exact ⟨5, by decide, forces.trans (claims.trans (finds.trans (derives.trans publishes)))⟩

/-- By induction on what is left to force, along the order of the catalog. -/
theorem builds_all (others : Nat) (made pending : List Canon)
    (split : Canon.all = made ++ pending) :
    ∃ rounds ≤ 5 * pending.length, Builds others rounds (.halfway made) ⟨[.build pending], [], []⟩
      (.halfway Canon.all) ⟨[.build []], [], []⟩ := by
  induction pending generalizing made with
  | nil =>
    rw [List.append_nil] at split
    rw [split]
    exact ⟨0, Nat.le_refl _, fun more => by rw [Nat.zero_add]⟩
  | cons c pending ih =>
    obtain ⟨first, few, next⟩ := builds_next split
    obtain ⟨rest, bounded, later⟩ := ih (made ++ [c]) (by rw [split, List.append_assoc]; rfl)
    refine ⟨first + rest, ?_, next.trans later⟩
    rw [List.length_cons]
    omega

theorem raceForCatalog_eq_run (threads : Nat) :
    raceForCatalog threads = Crowd.run Worker.move (rotation threads turnsToBuild)
      (Crowd.ofTasks (List.replicate threads [.access])) := by
  rw [Crowd.ofTasks, List.map_replicate, raceForCatalog]

theorem builds_catalog (others : Nat) :
    ∃ rounds < turnsToBuild - 1, Builds others rounds .initial ⟨[.access], [], []⟩
      .assembled ⟨[.settle Catalog.standard], [], []⟩ := by
  obtain ⟨rounds, few, forces⟩ := builds_all others [] Canon.all rfl
  let claimed : Memory := { Memory.initial with catalog := .claimed }
  have claims : Builds others 1 .initial ⟨[.access], [], []⟩ claimed ⟨[.count], [], []⟩ :=
    .move (.claimCatalog rfl rfl) rfl
  have counts : Builds others 1 claimed ⟨[.count], [], []⟩
      (.halfway []) ⟨[.build Canon.all], [], []⟩ := .move (.count rfl) rfl
  have assembles : Builds others 1 (.halfway Canon.all) ⟨[.build []], [], []⟩
      .assembled ⟨[.settle Catalog.standard], [], []⟩ := by
    have moves : Moves (.halfway Canon.all) ⟨[.build []], [], []⟩ _ _ := .assemble rfl
    rw [Memory.ofInstances_standard fun c => if_pos c.mem_all] at moves
    exact .move moves rfl
  refine ⟨1 + (1 + (rounds + 1)), ?_, claims.trans (counts.trans (forces.trans assembles))⟩
  rw [turnsToBuild]
  omega

/-- Threads that all access the catalog first end with the standard catalog and leave what a
session starts from: the catalog was built once, with identities in its order, and recorded
once. -/
theorem raceForCatalog_settles (others : Nat) :
    raceForCatalog (others + 1) =
      ⟨.settled, List.replicate (others + 1) ⟨[], [], [.accessed Catalog.standard]⟩⟩ := by
  obtain ⟨rounds, few, builds⟩ := builds_catalog others
  obtain ⟨spare, enough⟩ : ∃ spare, turnsToBuild = rounds + (spare + 1) + 1 :=
    ⟨turnsToBuild - rounds - 2, by omega⟩
  have starts : (Worker.ofTasks [.access]).move Memory.initial =
      some (Memory.initial, ⟨[.access], [], []⟩) := rfl
  have settles : Worker.move .assembled ⟨[.settle Catalog.standard], [], []⟩ =
      some (.settled, ⟨[], [], [.accessed Catalog.standard]⟩) := by
    have settled : { Memory.assembled with catalog := .published Catalog.standard } =
        Memory.settled := by
      simp only [Memory.assembled, Memory.halfway, Canon.mem_all, if_true]
      rfl
    rw [← settled]
    exact Worker.move_eq_some.mpr (.settle rfl)
  have finds : (Worker.move .settled ⟨[.access], [], []⟩).getD (.settled, ⟨[.access], [], []⟩) =
      (Memory.settled, ⟨[], [], [.accessed Catalog.standard]⟩) := rfl
  rw [raceForCatalog_eq_run, Crowd.ofTasks, List.map_replicate, enough, List.replicate_succ]
  change Crowd.run _ _ ⟨Memory.initial, _⟩ = _
  rw [Crowd.run_round starts rfl]
  change Crowd.run _ _ (builders others .initial ⟨[.access], [], []⟩) = _
  rw [builds, builders, Crowd.run_round settles finds, ← List.replicate_succ]
  exact Crowd.run_replicate_of_stuck rfl _ _

theorem reportRace_eq (others : Nat) :
    reportRace (others + 1) =
      { buildsBefore := 0
        buildsAfter := 1
        agree := true
        catalog := Catalog.standard
        log := [.catalogBuilt Catalog.standard.size] } := by
  have agree : (List.replicate (others + 1) (Worker.mk [] [] [.accessed Catalog.standard])).all
      (fun worker => worker.outcomes == [.accessed Catalog.standard]) = true := by
    rw [List.all_replicate]
    simp
  simp only [reportRace, raceForCatalog_settles]
  exact congrArg (CatalogReport.mk 0 1 · _ _) agree

end Building

end SyntaxDialects.Sharing
