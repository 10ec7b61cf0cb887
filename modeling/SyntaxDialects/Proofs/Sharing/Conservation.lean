import SyntaxDialects.Proofs.Sharing.Reliance

/-!
What a move conserves. A cell is claimed as long as some thread has a frame that owns it, the
catalog is claimed as long as some thread has a frame that builds it, and an identity that is drawn
is at every moment in one place: on its way in a frame, in a cell, or given out.
-/
namespace SyntaxDialects.Sharing

def Once.holds {α : Type} (property : α → Bool) : Once α → Bool
  | published value => property value
  | _ => false

namespace Frame

def uncounted : Frame → Bool
  | count => true
  | _ => false

def publishes (c : Canon) : Frame → Bool
  | publish d _ => d = c
  | _ => false

def uses (id : DialectId) : Frame → Bool
  | publish _ dialect => dialect.id = id
  | _ => false

end Frame

def Outcome.uses (id : DialectId) : Outcome → Bool
  | created dialect => dialect.id = id
  | _ => false

theorem countP_changed {α : Type} {p q : α → Bool} {a : α} (same : ∀ b, b ≠ a → q b = p b)
    {items : List α} (distinct : items.Nodup) (member : a ∈ items) :
    items.countP q + (p a).toNat = items.countP p + (q a).toNat := by
  induction items with
  | nil => cases member
  | cons first rest ih =>
    obtain ⟨fresh, distinct⟩ := List.nodup_cons.mp distinct
    rw [List.countP_cons, List.countP_cons]
    rcases List.mem_cons.mp member with rfl | later
    · have others : rest.countP q = rest.countP p := by
        apply List.countP_congr
        intro b inside
        rw [same b (by rintro rfl; exact fresh inside)]
      rw [others]
      cases p a <;> cases q a <;> simp
    · have ne : first ≠ a := by
        rintro rfl
        exact fresh later
      have rest := ih distinct later
      rw [same first ne]
      omega

theorem countP_top {p : Frame → Bool} {stack frames : List Frame} {frame : Frame}
    (top : stack = frame :: frames) : stack.countP p = frames.countP p + (p frame).toNat := by
  rw [top, List.countP_cons]
  cases p frame <;> rfl

namespace Memory

variable {memory : Memory} {c : Canon} {state : Once Dialect} {id : DialectId}

def drawn (memory : Memory) (id : DialectId) : Bool :=
  id.index < memory.ids.next

def uses (memory : Memory) (id : DialectId) : Nat :=
  Canon.all.countP fun c => (memory.canonical c).holds (·.id = id)

theorem drawn_next (memory : Memory) (id : DialectId) :
    ({ memory with ids := ⟨memory.ids.next + 1⟩ }.drawn id).toNat =
      (memory.drawn id).toNat + (decide ((⟨memory.ids.next⟩ : DialectId) = id)).toNat := by
  obtain ⟨index⟩ := id
  simp only [drawn, DialectId.mk.injEq]
  rcases Nat.lt_trichotomy index memory.ids.next with lt | rfl | gt
  · simp [lt, Nat.ne_of_gt lt, Nat.lt_succ_of_lt lt]
  · simp
  · simp [Nat.ne_of_lt gt, Nat.not_lt_of_gt gt, Nat.not_lt_of_ge gt]

@[simp]
theorem setCanonical_drawn : (memory.setCanonical c state).drawn id = memory.drawn id :=
  rfl

theorem uses_allocate {ids : Alloc} : { memory with ids := ids }.uses id = memory.uses id :=
  rfl

theorem uses_setCanonical (memory : Memory) (c : Canon) (state : Once Dialect) (id : DialectId) :
    (memory.setCanonical c state).uses id + ((memory.canonical c).holds (·.id = id)).toNat =
      memory.uses id + (state.holds (·.id = id)).toNat := by
  have changed := countP_changed
    (p := fun d => (memory.canonical d).holds (·.id = id))
    (q := fun d => ((memory.setCanonical c state).canonical d).holds (·.id = id)) (a := c)
    (fun d ne => by simp [setCanonical_ne ne]) (by decide) c.mem_all
  simp only [setCanonical_self] at changed
  exact changed

end Memory

namespace Worker

variable {worker : Worker} {frames : List Frame} {outcome : Outcome} {id : DialectId}

def initializes (c : Canon) (worker : Worker) : Bool :=
  match worker.frames with
  | .derive d :: _ => d = c
  | _ => false

def uses (id : DialectId) (worker : Worker) : Nat :=
  worker.frames.countP (Frame.uses id) + worker.outcomes.countP (Outcome.uses id)

theorem uses_enter : (worker.enter frames).uses id =
    frames.countP (Frame.uses id) + worker.outcomes.countP (Outcome.uses id) :=
  rfl

theorem uses_leave (quiet : outcome.uses id = false) : (worker.leave frames outcome).uses id =
    frames.countP (Frame.uses id) + worker.outcomes.countP (Outcome.uses id) := by
  cases frames <;> simp [uses, leave, quiet]

theorem uses_leave_last : (worker.leave [] outcome).uses id =
    worker.outcomes.countP (Outcome.uses id) + (outcome.uses id).toNat := by
  cases told : outcome.uses id <;> simp [uses, leave, told]

end Worker

namespace Moves

variable {before after : Memory} {worker moved : Worker}

theorem owners (moves : Moves before worker after moved) (ready : Ready before worker)
    (c : Canon) :
    moved.frames.countP (Frame.owns c) + (before.canonical c).isClaimed.toNat =
      worker.frames.countP (Frame.owns c) + (after.canonical c).isClaimed.toNat := by
  cases moves with
  | @start task _ idle =>
    cases task <;> simp [idle, Task.frame, Frame.owns]
  | @claimOldest d _ top vacant | @claim d _ _ top vacant =>
    by_cases same : d = c
    · subst same
      simp [top, vacant, Frame.owns, Once.isClaimed]
    · simp [top, Frame.owns, same, Memory.setCanonical_ne (Ne.symm same)]
  | @publish d _ _ top =>
    by_cases same : d = c
    · subst same
      have claimed := ready.owned _ (Worker.mem_top top) d (decide_eq_true rfl)
      simp [top, claimed, Frame.owns, Once.isClaimed]
    · simp [top, Frame.owns, same, Memory.setCanonical_ne (Ne.symm same)]
  | found top | draw top | accessed top | claimCatalog top | count top | next top | assemble top
  | settle top | create top => simp [top, Frame.owns, List.countP_cons]

theorem builders (moves : Moves before worker after moved) (ready : Ready before worker) :
    moved.frames.countP Frame.builds + before.catalog.isClaimed.toNat =
      worker.frames.countP Frame.builds + after.catalog.isClaimed.toNat := by
  cases moves with
  | @start task _ idle =>
    cases task <;> simp [idle, Task.frame, Frame.builds]
  | claimCatalog top vacant =>
    simp [top, vacant, Frame.builds, Once.isClaimed, List.countP_cons]
  | settle top =>
    have claimed := ready.building _ (Worker.mem_top top) rfl
    simp [top, claimed, Frame.builds, Once.isClaimed, List.countP_cons]
  | found top | claimOldest top | claim top | draw top | publish top | accessed top | count top
  | next top | assemble top | create top => simp [top, Frame.builds, List.countP_cons]

theorem builds (moves : Moves before worker after moved) (ready : Ready before worker) :
    after.builds + moved.frames.countP Frame.uncounted + (!before.catalog.isVacant).toNat =
      before.builds + worker.frames.countP Frame.uncounted + (!after.catalog.isVacant).toNat := by
  cases moves with
  | @start task _ idle =>
    cases task <;> simp [idle, Task.frame, Frame.uncounted]
  | claimCatalog top vacant =>
    simp [top, vacant, Frame.uncounted, Once.isVacant, List.countP_cons, Nat.add_assoc]
  | count top =>
    rw [Worker.enter_frames, countP_top top, countP_top rfl]
    simp only [Frame.uncounted, Bool.toNat_false, Bool.toNat_true]
    omega
  | settle top =>
    have claimed := ready.building _ (Worker.mem_top top) rfl
    simp [top, claimed, Frame.uncounted, Once.isVacant]
  | found top | claimOldest top | claim top | draw top | publish top | accessed top
  | next top | assemble top | create top => simp [top, Frame.uncounted]

theorem initializations (moves : Moves before worker after moved) (ready : Ready before worker)
    (c : Canon) :
    (worker.initializes c).toNat + ((before.canonical c).isPublished.toNat +
        worker.frames.countP (Frame.publishes c)) =
      (after.canonical c).isPublished.toNat + moved.frames.countP (Frame.publishes c) := by
  cases moves with
  | @start task _ idle =>
    cases task <;> simp [idle, Task.frame, Worker.initializes, Frame.publishes]
  | @claimOldest d _ top vacant | @claim d _ _ top vacant =>
    by_cases same : d = c
    · subst same
      simp [top, vacant, Worker.initializes, Frame.publishes, Once.isPublished]
    · simp [top, Worker.initializes, Frame.publishes, Memory.setCanonical_ne (Ne.symm same)]
  | draw top =>
    rw [Worker.enter_frames, countP_top top, countP_top rfl]
    simp only [Worker.initializes, top, Frame.publishes, Bool.toNat_false]
    omega
  | @publish d _ _ top =>
    rw [Worker.leave_frames, countP_top top]
    by_cases same : d = c
    · subst same
      have claimed := ready.owned _ (Worker.mem_top top) d (decide_eq_true rfl)
      simp [top, claimed, Worker.initializes, Frame.publishes, Once.isPublished, Nat.add_comm]
    · simp [top, same, Worker.initializes, Frame.publishes, Memory.setCanonical_ne (Ne.symm same)]
  | found top | accessed top | claimCatalog top | count top | next top | assemble top
  | settle top | create top => simp [top, Worker.initializes, Frame.publishes]

theorem uses (moves : Moves before worker after moved) (ready : Ready before worker)
    (id : DialectId) :
    after.uses id + moved.uses id + (before.drawn id).toNat =
      before.uses id + worker.uses id + (after.drawn id).toNat := by
  cases moves with
  | @start task _ idle =>
    cases task <;> simp [idle, Task.frame, Worker.uses, Frame.uses]
  | @claimOldest d _ top vacant | @claim d _ _ top vacant =>
    have cells := before.uses_setCanonical d .claimed id
    simp only [vacant, Once.holds, Bool.toNat_false, Nat.add_zero] at cells
    simp [Worker.uses, top, cells, Frame.uses]
  | draw top =>
    rw [before.drawn_next, Memory.uses_allocate, Worker.uses_enter, Worker.uses, countP_top top,
      countP_top rfl]
    simp only [Frame.uses, Bool.toNat_false]
    omega
  | @publish d dialect _ top =>
    have claimed := ready.owned _ (Worker.mem_top top) d (decide_eq_true rfl)
    have cells := before.uses_setCanonical d (.published dialect) id
    simp only [claimed, Once.holds, Bool.toNat_false, Nat.add_zero] at cells
    rw [cells, Memory.setCanonical_drawn, Worker.uses_leave rfl, Worker.uses, countP_top top]
    simp only [Frame.uses]
    omega
  | create top =>
    -- Nothing waits for a dialect that is not canonical, so it is given out at once.
    obtain rfl := Frame.chain_none top ready.shaped rfl
    rw [before.drawn_next, Memory.uses_allocate, Worker.uses_leave_last, Worker.uses,
      countP_top top]
    simp only [Frame.uses, Outcome.uses, Bool.toNat_false, List.countP_nil]
    omega
  | found top | accessed top | settle top  =>
    rw [Worker.uses_leave rfl]
    simp [top, Worker.uses, Frame.uses, Memory.uses, Memory.drawn]
  | claimCatalog top | count top | next top | assemble top  =>
    simp [top, Worker.uses, Frame.uses, Memory.uses, Memory.drawn]

end Moves
end SyntaxDialects.Sharing
