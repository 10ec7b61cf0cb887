import SyntaxDialects.Proofs.Sharing.Conservation
import SyntaxDialects.Proofs.Sharing.Crowd

/-!
The invariant of threads that use the canonical dialects. It holds of threads that have yet to
start, every turn keeps it, and it gives the thread whose turn it is all that it relies on.
-/
namespace SyntaxDialects.Sharing

def Crowd.ofTasks (tasks : List (List Task)) : Crowd Memory Worker :=
  ⟨Memory.initial, tasks.map Worker.ofTasks⟩

def Crowd.standing (kind : Frame → Bool) (crowd : Crowd Memory Worker) : Nat :=
  crowd.total fun worker => worker.frames.countP kind

structure Sound (crowd : Crowd Memory Worker) : Prop where
  owners : ∀ c, crowd.standing (Frame.owns c) = (crowd.shared.canonical c).isClaimed.toNat
  builders : crowd.standing Frame.builds = crowd.shared.catalog.isClaimed.toNat
  builds : crowd.shared.builds + crowd.standing Frame.uncounted =
    (!crowd.shared.catalog.isVacant).toNat
  uses : ∀ id, crowd.shared.uses id + crowd.total (Worker.uses id) =
    (crowd.shared.drawn id).toNat
  derived : ∀ {c dialect}, crowd.shared.canonical c = .published dialect →
    crowd.shared.Derived c dialect
  complete : ∀ {catalog}, crowd.shared.catalog = .published catalog →
    crowd.shared.Complete catalog
  shaped : ∀ worker ∈ crowd.threads, worker.frames.IsChain Frame.Above
  fits : ∀ worker ∈ crowd.threads, Fits crowd.shared none worker.frames
  told : ∀ worker ∈ crowd.threads, ∀ outcome ∈ worker.outcomes, outcome.Holds crowd.shared

namespace Crowd

variable {crowd : Crowd Memory Worker} {worker : Worker} {kind : Frame → Bool}

theorem standing_pos {frame : Frame} (thread : worker ∈ crowd.threads)
    (member : frame ∈ worker.frames) (fits : kind frame) : 0 < crowd.standing kind :=
  Nat.lt_of_lt_of_le (List.countP_pos_iff.mpr ⟨frame, member, fits⟩)
    (amount_le_total (fun worker => worker.frames.countP kind) thread)

theorem standing_set {number : Nat} (here : crowd.threads[number]? = some worker) (after : Memory)
    (moved : Worker) (kind : Frame → Bool) :
    standing kind ⟨after, crowd.threads.set number moved⟩ + worker.frames.countP kind =
      crowd.standing kind + moved.frames.countP kind :=
  total_set here after moved _

theorem total_ofTasks {tasks : List (List Task)} {amount : Worker → Nat}
    (idle : ∀ tasks, amount (.ofTasks tasks) = 0) : (ofTasks tasks).total amount = 0 := by
  apply List.sum_eq_zero
  simp [ofTasks, idle]

end Crowd

namespace Once

variable {α : Type} {cell : Once α}

theorem eq_claimed (claims : 0 < cell.isClaimed.toNat) : cell = .claimed := by
  cases cell with
  | claimed => rfl
  | vacant | published _ => cases claims

end Once

namespace Sound

variable {crowd : Crowd Memory Worker} {worker : Worker}

theorem ready (sound : Sound crowd) (thread : worker ∈ crowd.threads) :
    Ready crowd.shared worker where
  shaped := sound.shaped worker thread
  fits := sound.fits worker thread
  owned := by
    intro frame member c owns
    have standing := Crowd.standing_pos thread member owns
    rw [sound.owners c] at standing
    exact Once.eq_claimed standing
  building := by
    intro frame member builds
    have standing := Crowd.standing_pos thread member builds
    rw [sound.builders] at standing
    exact Once.eq_claimed standing
  derived := sound.derived
  complete := sound.complete

theorem ofTasks (tasks : List (List Task)) : Sound (Crowd.ofTasks tasks) where
  owners _ := Crowd.total_ofTasks fun _ => rfl
  builders := Crowd.total_ofTasks fun _ => rfl
  builds := (Nat.zero_add _).trans (Crowd.total_ofTasks fun _ => rfl)
  uses id := by
    have cells : Memory.initial.uses id = 0 := by simp [Memory.uses, Memory.initial, Once.holds]
    have undrawn : Memory.initial.drawn id = false := by
      simp [Memory.drawn, Memory.initial, Alloc.fresh]
    have threads : (Crowd.ofTasks tasks).total (Worker.uses id) = 0 :=
      Crowd.total_ofTasks fun _ => rfl
    change Memory.initial.uses id + _ = (Memory.initial.drawn id).toNat
    rw [cells, undrawn, threads]
    rfl
  derived made := by cases made
  complete built := by cases built
  shaped worker thread := by
    obtain ⟨tasks, -, rfl⟩ := List.mem_map.mp thread
    exact .nil
  fits worker thread := by
    obtain ⟨tasks, -, rfl⟩ := List.mem_map.mp thread
    trivial
  told worker thread := by
    obtain ⟨tasks, -, rfl⟩ := List.mem_map.mp thread
    intro outcome member
    cases member

theorem turn (sound : Sound crowd) (number : Nat) : Sound (crowd.turn Worker.move number) := by
  refine Crowd.turn_keeps sound number fun {worker after moved} here result => ?_
  have moves := Worker.move_eq_some.mp result
  have thread := List.mem_of_getElem? here
  have ready := sound.ready thread
  have grows := moves.grows ready
  exact {
    owners := by
      intro c
      have before := sound.owners c
      have law := moves.owners ready c
      have whole := Crowd.standing_set here after moved (Frame.owns c)
      simp only
      omega
    builders := by
      have before := sound.builders
      have law := moves.builders ready
      have whole := Crowd.standing_set here after moved Frame.builds
      simp only
      omega
    builds := by
      have before := sound.builds
      have law := moves.builds ready
      have whole := Crowd.standing_set here after moved Frame.uncounted
      simp only
      omega
    uses := by
      intro id
      have before := sound.uses id
      have law := moves.uses ready id
      have whole := Crowd.total_set here after moved (Worker.uses id)
      simp only
      omega
    derived := moves.derived ready
    complete := moves.complete ready
    shaped := Crowd.forall_set sound.shaped (fun _ shaped => shaped) (moves.shaped ready.shaped)
    fits := Crowd.forall_set sound.fits (fun _ fits => fits.grows grows) (moves.fits ready)
    told := by
      refine Crowd.forall_set sound.told
        (fun _ told outcome member => (told outcome member).grows grows) ?_
      intro outcome member
      rcases moves.told member with before | holds
      · exact (sound.told worker thread outcome before).grows grows
      · exact holds }

theorem run (sound : Sound crowd) (schedule : List Nat) :
    Sound (Crowd.run Worker.move schedule crowd) :=
  Crowd.run_invariant Sound.turn sound schedule

theorem grows_turn (sound : Sound crowd) (number : Nat) :
    crowd.shared.Grows (crowd.turn Worker.move number).shared :=
  Crowd.turn_keeps (P := fun later => crowd.shared.Grows later.shared) (.refl _) number
    fun here result =>
      (Worker.move_eq_some.mp result).grows (sound.ready (List.mem_of_getElem? here))

theorem grows_run (sound : Sound crowd) (schedule : List Nat) :
    crowd.shared.Grows (Crowd.run Worker.move schedule crowd).shared :=
  Crowd.run_relation Sound.turn Memory.Grows.refl .trans Sound.grows_turn sound schedule

end Sound

end SyntaxDialects.Sharing
