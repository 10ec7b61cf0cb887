import Mathlib.Data.List.Nodup
import SyntaxDialects.Proofs.Catalog.Lookup
import SyntaxDialects.Proofs.Sharing.Progress

/-!
First use in any order. Whatever tasks the threads have and in whatever order they take turns, each
canonical dialect is initialized once and after its parent, all identities are distinct, every
access to the catalog gives the one catalog of all canonical dialects, and every task can end.
-/
namespace SyntaxDialects.Sharing

def Worker.created (worker : Worker) : List Dialect :=
  worker.outcomes.filterMap fun outcome =>
    match outcome with
    | .created dialect => some dialect
    | _ => none

def Crowd.dialects (crowd : Crowd Memory Worker) : List Dialect :=
  crowd.shared.instances.map (·.2) ++ crowd.threads.flatMap Worker.created

namespace Once

variable {α : Type} {cell : Once α}

theorem published_add_claimed_le (cell : Once α) :
    cell.isPublished.toNat + cell.isClaimed.toNat ≤ 1 := by
  cases cell <;> simp [isPublished, isClaimed]

theorem get?_eq_some {value : α} : cell.get? = some value ↔ cell = .published value := by
  cases cell <;> simp [get?]

end Once

namespace Memory

theorem mem_instances {memory : Memory} {c : Canon} {dialect : Dialect} :
    (c, dialect) ∈ memory.instances ↔ memory.canonical c = .published dialect := by
  rw [instances, List.mem_filterMap]
  constructor
  · rintro ⟨d, -, found⟩
    obtain ⟨value, made, same⟩ := Option.map_eq_some_iff.mp found
    cases same
    exact Once.get?_eq_some.mp made
  · intro made
    exact ⟨c, c.mem_all, by rw [made]; rfl⟩

theorem count_instances (memory : Memory) {id : DialectId} :
    ((memory.instances.map (·.2)).map (·.id)).count id = memory.uses id := by
  rw [instances, List.map_map, List.map_filterMap, List.count_filterMap]
  apply List.countP_congr
  intro c _
  cases memory.canonical c <;> simp [Once.get?, Once.holds]

end Memory

namespace Worker

theorem top_of_initializes {worker : Worker} {c : Canon} (initializes : worker.initializes c) :
    ∃ frames, worker.frames = .derive c :: frames := by
  unfold Worker.initializes at initializes
  split at initializes
  case h_1 d frames top =>
    exact ⟨frames, by rw [top, of_decide_eq_true initializes]⟩
  case h_2 => cases initializes

theorem count_created_le (worker : Worker) (id : DialectId) :
    (worker.created.map (·.id)).count id ≤ worker.uses id := by
  rw [created, List.map_filterMap, List.count_filterMap]
  refine Nat.le_trans (List.countP_mono_left ?_) (Nat.le_add_left _ _)
  intro outcome _ found
  cases outcome <;> simp_all [Outcome.uses]

end Worker

namespace Sound

variable {crowd : Crowd Memory Worker} {worker : Worker}

theorem initialized_le (sound : Sound crowd) (c : Canon) :
    (crowd.shared.canonical c).isPublished.toNat + crowd.standing (Frame.publishes c) ≤ 1 := by
  have owners := sound.owners c
  have cell := (crowd.shared.canonical c).published_add_claimed_le
  have publishers : crowd.standing (Frame.publishes c) ≤ crowd.standing (Frame.owns c) := by
    refine Crowd.total_le_total fun worker => List.countP_mono_left fun frame _ publishes => ?_
    cases frame with
    | publish d dialect => exact publishes
    | force | derive | access | count | build | settle | create => cases publishes
  omega

/-- An initializer that has run has its value published or about to be. -/
theorem initializations_eq (tasks : List (List Task)) (schedule : List Nat) (c : Canon) :
    Crowd.tally Worker.move (Worker.initializes c) schedule (Crowd.ofTasks tasks) =
      ((Crowd.run Worker.move schedule (Crowd.ofTasks tasks)).shared.canonical c).isPublished.toNat +
        (Crowd.run Worker.move schedule (Crowd.ofTasks tasks)).standing (Frame.publishes c) := by
  have tally := Crowd.tally_add (Worker.initializes c)
    (fun memory => (memory.canonical c).isPublished.toNat)
    (fun worker => worker.frames.countP (Frame.publishes c)) Sound.turn
    (fun sound thread result =>
      (Worker.move_eq_some.mp result).initializations (sound.ready thread) c)
    (Sound.ofTasks tasks) schedule
  have idle : (Crowd.ofTasks tasks).standing (Frame.publishes c) = 0 :=
    Crowd.total_ofTasks fun _ => rfl
  have unset : ((Crowd.ofTasks tasks).shared.canonical c).isPublished.toNat = 0 := rfl
  unfold Crowd.standing at idle ⊢
  omega

theorem parent_made (sound : Sound crowd) {c p : Canon} {number : Nat} (child : c.parent = some p)
    (next : crowd.moves Worker.move (Worker.initializes c) number) : crowd.shared.Made p := by
  rcases Crowd.turn_cases Worker.move crowd number with
    ⟨-, silent⟩ | ⟨worker, after, moved, here, -, -, told⟩
  · rw [silent] at next
    cases next
  · rw [told] at next
    obtain ⟨frames, top⟩ := Worker.top_of_initializes next
    have fits := sound.fits worker (List.mem_of_getElem? here)
    rw [top] at fits
    rcases fits.1 p child with made | above
    · exact made
    · cases above

theorem nodup_ids (sound : Sound crowd) : (crowd.dialects.map (·.id)).Nodup := by
  rw [List.nodup_iff_count_le_one]
  intro id
  have uses := sound.uses id
  have drawn := Bool.toNat_le (crowd.shared.drawn id)
  have threads : crowd.total (fun worker => (worker.created.map (·.id)).count id) ≤
      crowd.total (Worker.uses id) :=
    Crowd.total_le_total (Worker.count_created_le · id)
  rw [Crowd.dialects, List.map_append, List.count_append, List.map_flatMap, List.count_flatMap,
    crowd.shared.count_instances]
  change _ + crowd.total (fun worker => (worker.created.map (·.id)).count id) ≤ 1
  omega

theorem canon_eq_of_id (sound : Sound crowd) {c d : Canon} {a b : Dialect}
    (aMade : crowd.shared.canonical c = .published a)
    (bMade : crowd.shared.canonical d = .published b) (same : a.id = b.id) : c = d := by
  have distinct := sound.nodup_ids
  rw [Crowd.dialects, List.map_append, List.map_map] at distinct
  have entries := List.inj_on_of_nodup_map distinct.of_append_left
    (Memory.mem_instances.mpr aMade) (Memory.mem_instances.mpr bMade) same
  exact congrArg Prod.fst entries

theorem builds_le (sound : Sound crowd) : crowd.shared.builds ≤ 1 := by
  have builds := sound.builds
  have most := Bool.toNat_le (!crowd.shared.catalog.isVacant)
  omega

variable {catalog : Catalog}

theorem entries_flags (sound : Sound crowd) (complete : crowd.shared.Complete catalog) :
    catalog.entries.map (fun entry => (entry.1, entry.2.flags)) =
      Canon.all.map fun c => (c.name, c.flags) := by
  obtain ⟨made, published, entries⟩ := complete
  rw [entries, List.map_map]
  apply List.map_congr_left
  intro c _
  exact Prod.ext rfl (sound.derived (published c)).flags

theorem nameOf?_eq_some (sound : Sound crowd) (complete : crowd.shared.Complete catalog)
    (name : String) (dialect : Dialect) :
    catalog.nameOf? dialect = some name ↔ ∃ c made, c.name = name ∧
      crowd.shared.canonical c = .published made ∧ made.id = dialect.id := by
  obtain ⟨made, published, entries⟩ := complete
  rw [Catalog.nameOf?_eq_some entries fun same =>
    sound.canon_eq_of_id (published _) (published _) same]
  constructor
  · rintro ⟨c, named, same⟩
    exact ⟨c, made c, named, published c, same⟩
  · rintro ⟨c, value, named, found, same⟩
    cases (published c).symm.trans found
    exact ⟨c, named, same⟩

end Sound

namespace Memory.Complete

variable {memory : Memory} {catalog : Catalog}

theorem size (complete : memory.Complete catalog) : catalog.size = Canon.all.length := by
  obtain ⟨made, -, entries⟩ := complete
  rw [Catalog.size, entries, List.length_map]

theorem get?_eq_some (complete : memory.Complete catalog) (name : String) (dialect : Dialect) :
    catalog.get? name = some dialect ↔
      ∃ c, c.name = name ∧ memory.canonical c = .published dialect := by
  obtain ⟨made, published, entries⟩ := complete
  rw [Catalog.get?_eq_some entries]
  simp [published]

end Memory.Complete

/-- Whatever the threads have to do and in whatever order they take turns: the initializer of a
canonical dialect runs once at most, after the parent is published, and its value stays; the flags
are those of the lineage; no two dialects have one identity; the catalog is built once at most; and
all accesses give one catalog, in which names and canonical dialects stand for each other. No thread
is ever stuck: more turns end every task with an outcome of its kind. -/
theorem catalog_same_in_any_order (tasks : List (List Task)) (schedule : List Nat) :
    let start := Crowd.ofTasks tasks
    let crowd := Crowd.run Worker.move schedule start
    let memory := crowd.shared
    (∀ c, Crowd.tally Worker.move (Worker.initializes c) schedule start ≤ 1) ∧
    (∀ c dialect, memory.canonical c = .published dialect →
      Crowd.tally Worker.move (Worker.initializes c) schedule start = 1 ∧
      ∀ more, (Crowd.run Worker.move more crowd).shared.canonical c = .published dialect) ∧
    (∀ c p number, c.parent = some p → crowd.moves Worker.move (Worker.initializes c) number →
      ∃ older, memory.canonical p = .published older) ∧
    (∀ c dialect, memory.canonical c = .published dialect → dialect.flags = c.flags ∧
      ∀ p, c.parent = some p →
        ∃ older, memory.canonical p = .published older ∧ older.id.index < dialect.id.index) ∧
    (crowd.dialects.map (·.id)).Nodup ∧
    memory.builds ≤ 1 ∧
    (∀ worker ∈ crowd.threads, ∀ catalog, .accessed catalog ∈ worker.outcomes →
      memory.catalog = .published catalog ∧
      catalog.size = 13 ∧
      catalog.entries.map (fun entry => (entry.1, entry.2.flags)) =
        Canon.all.map (fun c => (c.name, c.flags)) ∧
      (∀ name dialect, catalog.get? name = some dialect ↔
        ∃ c, c.name = name ∧ memory.canonical c = .published dialect) ∧
      (∀ name dialect, catalog.nameOf? dialect = some name ↔
        ∃ c made, c.name = name ∧ memory.canonical c = .published made ∧ made.id = dialect.id)) ∧
    ∃ more, List.Forall₂ (fun own worker => List.Forall₂ Task.Gives own worker.outcomes) tasks
      (Crowd.run Worker.move more crowd).threads := by
  intro start crowd memory
  have first : Sound start := .ofTasks tasks
  have sound : Sound crowd := first.run schedule
  have runs : ∀ c, Crowd.tally Worker.move (Worker.initializes c) schedule start =
      (crowd.shared.canonical c).isPublished.toNat + crowd.standing (Frame.publishes c) :=
    Sound.initializations_eq tasks schedule
  refine ⟨fun c => (runs c).trans_le (sound.initialized_le c),
    fun c dialect made => ⟨?_, fun more => (sound.grows_run more).canonical made⟩,
    fun c p number child next => sound.parent_made child next,
    fun c dialect made => ⟨(sound.derived made).flags, (sound.derived made).parent⟩,
    sound.nodup_ids, sound.builds_le, ?_, every_task_can_end tasks schedule⟩
  · have most := sound.initialized_le c
    have published : (crowd.shared.canonical c).isPublished = true := by rw [made]; rfl
    have ran := runs c
    rw [published, Bool.toNat_true] at most ran
    omega
  · intro worker thread catalog returned
    have built : memory.catalog = .published catalog := sound.told worker thread _ returned
    have complete := sound.complete built
    exact ⟨built, complete.size, sound.entries_flags complete, complete.get?_eq_some,
      sound.nameOf?_eq_some complete⟩

end SyntaxDialects.Sharing
