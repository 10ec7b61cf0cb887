import Mathlib.Data.List.Chain
import SyntaxDialects.Proofs.Sharing.Moves

/-!
What a thread relies on. What is published stays as it is, so what a thread knows of the memory
stays true while others move. A thread that claims a cell is the one to publish it, and it does so
only once all that the value is made of is published.
-/
namespace SyntaxDialects.Sharing

namespace Once

variable {α : Type}

def isVacant : Once α → Bool
  | vacant => true
  | _ => false

def isClaimed : Once α → Bool
  | claimed => true
  | _ => false

def isPublished : Once α → Bool
  | published _ => true
  | _ => false

end Once

namespace Memory

def Made (memory : Memory) (c : Canon) : Prop :=
  ∃ dialect, memory.canonical c = .published dialect

structure Derived (memory : Memory) (c : Canon) (dialect : Dialect) : Prop where
  flags : dialect.flags = c.flags
  drawn : dialect.id.index < memory.ids.next
  parent : ∀ p, c.parent = some p →
    ∃ older, memory.canonical p = .published older ∧ older.id.index < dialect.id.index

def Complete (memory : Memory) (catalog : Catalog) : Prop :=
  ∃ dialect : Canon → Dialect, (∀ c, memory.canonical c = .published (dialect c)) ∧
    catalog.entries = Canon.all.map fun c => (c.name, dialect c)

/-- What is published stays, and identities are not given back. -/
structure Grows (before after : Memory) : Prop where
  canonical : ∀ {c dialect}, before.canonical c = .published dialect →
    after.canonical c = .published dialect
  catalog : ∀ {catalog}, before.catalog = .published catalog → after.catalog = .published catalog
  ids : before.ids.next ≤ after.ids.next

theorem Grows.refl (memory : Memory) : memory.Grows memory :=
  ⟨id, id, Nat.le_refl _⟩

variable {memory before middle after : Memory} {c : Canon} {dialect : Dialect} {catalog : Catalog}

/-- A cell that is not published yet may be set: what is published is elsewhere. -/
theorem canonical_setCanonical {state : Once Dialect}
    (unset : ∀ value, memory.canonical c ≠ .published value) {other : Canon}
    (made : memory.canonical other = .published dialect) :
    (memory.setCanonical c state).canonical other = .published dialect := by
  rw [setCanonical_ne, made]
  rintro rfl
  exact unset _ made

theorem Grows.trans (first : before.Grows middle) (second : middle.Grows after) :
    before.Grows after :=
  ⟨fun made => second.canonical (first.canonical made),
    fun built => second.catalog (first.catalog built), Nat.le_trans first.ids second.ids⟩

theorem Made.grows (made : before.Made c) (grows : before.Grows after) : after.Made c := by
  obtain ⟨dialect, made⟩ := made
  exact ⟨dialect, grows.canonical made⟩

theorem Derived.grows (derived : before.Derived c dialect) (grows : before.Grows after) :
    after.Derived c dialect where
  flags := derived.flags
  drawn := Nat.lt_of_lt_of_le derived.drawn grows.ids
  parent := by
    intro p child
    obtain ⟨older, made, lt⟩ := derived.parent p child
    exact ⟨older, grows.canonical made, lt⟩

theorem Complete.grows (complete : before.Complete catalog) (grows : before.Grows after) :
    after.Complete catalog := by
  obtain ⟨dialect, made, entries⟩ := complete
  exact ⟨dialect, fun c => grows.canonical (made c), entries⟩

/-- Once all canonical dialects are made, their instances make a complete catalog. -/
theorem complete_ofInstances {memory : Memory} (made : ∀ c, memory.Made c) :
    memory.Complete (.ofInstances memory.instances) := by
  choose dialect made using made
  refine ⟨dialect, made, ?_⟩
  have instances : memory.instances = Canon.all.map fun c => (c, dialect c) := by
    simp [instances, made, Once.get?]
  rw [instances, Catalog.ofInstances, List.map_map]
  rfl

theorem baseFlags?_eq_some {base : Flags} :
    memory.baseFlags? c = some base ↔ (c.parent = none ∧ Flags.bare = base) ∨
      ∃ p older, c.parent = some p ∧ memory.canonical p = .published older ∧
        older.flags = base := by
  unfold baseFlags?
  cases c.parent with
  | none => simp
  | some p => cases cell : memory.canonical p <;> simp [cell, Once.get?]

/-- The identity drawn for a canonical dialect makes an instance of it. -/
theorem derived_draw {base : Flags}
    (derived : ∀ {p older}, memory.canonical p = .published older → memory.Derived p older)
    (ready : memory.baseFlags? c = some base) :
    { memory with ids := ⟨memory.ids.next + 1⟩ }.Derived c
      ⟨⟨memory.ids.next⟩, c.change.apply base⟩ := by
  rcases baseFlags?_eq_some.mp ready with ⟨oldest, rfl⟩ | ⟨p, older, child, made, rfl⟩
  · exact ⟨(Canon.flags_oldest oldest).symm, Nat.lt_succ_self _, by simp [oldest]⟩
  · have parent := derived made
    refine ⟨?_, Nat.lt_succ_self _, ?_⟩
    · rw [Canon.flags_eq_change_apply_parent child, ← parent.flags]
    · intro q same
      cases child.symm.trans same
      exact ⟨older, made, parent.drawn⟩

end Memory

def Outcome.Holds (memory : Memory) : Outcome → Prop
  | forced c dialect => memory.canonical c = .published dialect
  | accessed catalog => memory.catalog = .published catalog
  | created dialect => dialect.id.index < memory.ids.next

theorem Outcome.Holds.grows {before after : Memory} {outcome : Outcome}
    (holds : outcome.Holds before) (grows : before.Grows after) : outcome.Holds after := by
  cases outcome with
  | forced c dialect => exact grows.canonical holds
  | accessed catalog => exact grows.catalog holds
  | created dialect => exact Nat.lt_of_lt_of_le holds grows.ids

/-- What is true of a frame; `above` is the dialect that the frame above it will have made. -/
def Frame.Fits (memory : Memory) (above : Option Canon) : Frame → Prop
  | derive c => ∀ p, c.parent = some p → memory.Made p ∨ above = some p
  | publish c dialect => memory.Derived c dialect
  | build pending => ∀ c, c ∈ pending ∨ memory.Made c ∨ above = some c
  | settle catalog => memory.Complete catalog
  | force _ | access | count | create _ => True

def Fits (memory : Memory) : Option Canon → List Frame → Prop
  | _, [] => True
  | above, frame :: frames => frame.Fits memory above ∧ Fits memory frame.subject? frames

section Fitting

variable {before after memory : Memory} {above : Option Canon} {frame : Frame}
  {frames : List Frame} {c : Canon}

theorem Frame.Fits.grows (fits : frame.Fits before above) (grows : before.Grows after) :
    frame.Fits after above := by
  cases frame with
  | derive c => exact fun p child => (fits p child).imp_left fun made => made.grows grows
  | publish c dialect => exact Memory.Derived.grows fits grows
  | build pending =>
    exact fun c => (fits c).imp_right fun rest => rest.imp_left fun made => made.grows grows
  | settle catalog => exact Memory.Complete.grows fits grows
  | force _ | access | count | create _ => trivial

theorem Fits.exists_above (fits : Fits memory above frames) (member : frame ∈ frames) :
    ∃ above, frame.Fits memory above := by
  induction frames generalizing above with
  | nil => cases member
  | cons first rest ih =>
    rcases List.mem_cons.mp member with rfl | later
    · exact ⟨above, fits.1⟩
    · exact ih fits.2 later

theorem Fits.grows (fits : Fits before above frames) (grows : before.Grows after) :
    Fits after above frames := by
  induction frames generalizing above with
  | nil => trivial
  | cons frame frames ih => exact ⟨fits.1.grows grows, ih fits.2⟩

/-- The frame above a stack may go once the dialect that it was to make is made. -/
theorem Fits.resume (fits : Fits memory (some c) frames) (made : memory.Made c) :
    Fits memory none frames := by
  have settled : ∀ d, memory.Made d ∨ some c = some d → memory.Made d ∨ none = some d := by
    rintro d (done | same)
    · exact .inl done
    · cases same
      exact .inl made
  cases frames with
  | nil => trivial
  | cons frame frames =>
    refine ⟨?_, fits.2⟩
    cases frame with
    | derive child => exact fun p parent => settled p (fits.1 p parent)
    | build pending => exact fun d => (fits.1 d).imp_right (settled d)
    | publish _ _ | settle _ => exact fits.1
    | force _ | access | count | create _ => trivial

end Fitting

section Shape

variable {stack frames : List Frame} {upper swapped : Frame}

theorem Frame.chain_tail (top : stack = upper :: frames) (chain : stack.IsChain Frame.Above) :
    frames.IsChain Frame.Above := by
  rw [top] at chain
  exact chain.tail

/-- What may stand above a frame depends on the dialect it is to give only. -/
theorem Frame.chain_swap (top : stack = upper :: frames) (chain : stack.IsChain Frame.Above)
    (same : swapped.subject? = upper.subject?) : (swapped :: frames).IsChain Frame.Above := by
  rw [top] at chain
  cases frames with
  | nil => exact .singleton _
  | cons lower frames =>
    rw [List.isChain_cons_cons] at chain ⊢
    refine ⟨?_, chain.2⟩
    cases lower <;> simpa [Frame.Above, same] using chain.1

/-- A frame that gives no canonical dialect stands below all others. -/
theorem Frame.chain_none (top : stack = upper :: frames) (chain : stack.IsChain Frame.Above)
    (idle : upper.subject? = none) : frames = [] := by
  rw [top] at chain
  cases frames with
  | nil => rfl
  | cons lower frames =>
    rw [List.isChain_cons_cons] at chain
    cases lower <;> simp [Frame.Above, idle] at chain

end Shape

namespace Frame

def owns (c : Canon) : Frame → Bool
  | derive d | publish d _ => d = c
  | _ => false

def builds : Frame → Bool
  | count | build _ | settle _ => true
  | _ => false

end Frame

structure Ready (memory : Memory) (worker : Worker) : Prop where
  shaped : worker.frames.IsChain Frame.Above
  fits : Fits memory none worker.frames
  owned : ∀ frame ∈ worker.frames, ∀ c, frame.owns c → memory.canonical c = .claimed
  building : ∀ frame ∈ worker.frames, frame.builds → memory.catalog = .claimed
  derived : ∀ {c dialect}, memory.canonical c = .published dialect → memory.Derived c dialect
  complete : ∀ {catalog}, memory.catalog = .published catalog → memory.Complete catalog

namespace Moves

variable {before after : Memory} {worker moved : Worker}

theorem shaped (moves : Moves before worker after moved)
    (shaped : worker.frames.IsChain Frame.Above) : moved.frames.IsChain Frame.Above := by
  cases moves with
  | start => exact .singleton _
  | found top => exact Frame.chain_tail top shaped
  | claimOldest top => exact Frame.chain_swap top shaped rfl
  | claim top _ child => exact .cons_cons ⟨_, child, rfl⟩ (Frame.chain_swap top shaped rfl)
  | draw top => exact Frame.chain_swap top shaped rfl
  | publish top => exact Frame.chain_tail top shaped
  | accessed top => exact Frame.chain_tail top shaped
  | claimCatalog top => exact Frame.chain_swap top shaped rfl
  | count top => exact Frame.chain_swap top shaped rfl
  | next top => exact .cons_cons ⟨_, rfl⟩ (Frame.chain_swap top shaped rfl)
  | assemble top => exact Frame.chain_swap top shaped rfl
  | settle top => exact Frame.chain_tail top shaped
  | create top => exact Frame.chain_tail top shaped

theorem grows (moves : Moves before worker after moved) (ready : Ready before worker) :
    before.Grows after := by
  cases moves with
  | claimOldest _ vacant _ | claim _ vacant _ =>
    exact ⟨fun made => Memory.canonical_setCanonical (by simp [vacant]) made, id, Nat.le_refl _⟩
  | @publish c _ _ top =>
    have claimed := ready.owned _ (Worker.mem_top top) c (decide_eq_true rfl)
    exact ⟨fun made => Memory.canonical_setCanonical (by simp [claimed]) made, id, Nat.le_refl _⟩
  | claimCatalog _ vacant =>
    exact ⟨id, fun built => by simp [vacant] at built, Nat.le_refl _⟩
  | settle top =>
    have claimed := ready.building _ (Worker.mem_top top) rfl
    exact ⟨id, fun built => by simp [claimed] at built, Nat.le_refl _⟩
  | draw | create => exact ⟨id, id, Nat.le_succ _⟩
  | start | found | accessed | count | next | assemble => exact ⟨id, id, Nat.le_refl _⟩

theorem fits (moves : Moves before worker after moved) (ready : Ready before worker) :
    Fits after none moved.frames := by
  have grows := moves.grows ready
  have fits := ready.fits
  cases moves with
  | @start task =>
    refine ⟨?_, trivial⟩
    cases task <;> trivial
  | found top made =>
    rw [top] at fits
    exact fits.2.resume ⟨_, made⟩
  | claimOldest top _ oldest =>
    rw [top] at fits
    exact ⟨fun p child => by simp [oldest] at child, fits.2.grows grows⟩
  | claim top _ child =>
    rw [top] at fits
    exact ⟨trivial, fun p parent => .inr (child.symm.trans parent), fits.2.grows grows⟩
  | draw top based =>
    rw [top] at fits
    exact ⟨Memory.derived_draw ready.derived based, fits.2.grows grows⟩
  | publish top =>
    rw [top] at fits
    exact (fits.2.grows grows).resume ⟨_, Memory.setCanonical_self⟩
  | accessed top | settle top | create top =>
    rw [top] at fits
    exact fits.2.grows grows
  | claimCatalog top =>
    rw [top] at fits
    exact ⟨trivial, fits.2.grows grows⟩
  | count top =>
    rw [top] at fits
    exact ⟨fun c => .inl c.mem_all, fits.2.grows grows⟩
  | next top =>
    rw [top] at fits
    refine ⟨trivial, fun d => ?_, fits.2⟩
    rcases fits.1 d with waiting | made | above
    · rcases List.mem_cons.mp waiting with rfl | later
      · exact .inr (.inr rfl)
      · exact .inl later
    · exact .inr (.inl made)
    · cases above
  | assemble top =>
    rw [top] at fits
    have made : ∀ c, before.Made c := by
      intro c
      rcases fits.1 c with waiting | made | above
      · cases waiting
      · exact made
      · cases above
    exact ⟨(Memory.complete_ofInstances made).grows grows, fits.2.grows grows⟩

/-- A canonical dialect is published by the thread that drew its identity. -/
theorem published_cases (moves : Moves before worker after moved) {c : Canon} {dialect : Dialect}
    (made : after.canonical c = .published dialect) :
    before.canonical c = .published dialect ∨ .publish c dialect ∈ worker.frames := by
  cases moves with
  | @claimOldest d | @claim d =>
    by_cases same : c = d
    · subst same
      simp at made
    · exact .inl (Memory.setCanonical_ne same ▸ made)
  | @publish d value _ top =>
    by_cases same : c = d
    · subst same
      rw [Memory.setCanonical_self] at made
      cases made
      exact .inr (Worker.mem_top top)
    · exact .inl (Memory.setCanonical_ne same ▸ made)
  | start | found | draw | accessed | claimCatalog | count | next | assemble | settle | create =>
    exact .inl made

theorem catalog_cases (moves : Moves before worker after moved) {catalog : Catalog}
    (built : after.catalog = .published catalog) :
    before.catalog = .published catalog ∨ .settle catalog ∈ worker.frames := by
  cases moves with
  | claimCatalog => cases built
  | settle top =>
    cases built
    exact .inr (Worker.mem_top top)
  | start | found | claimOldest | claim | draw | publish | accessed | count | next | assemble
  | create => exact .inl built

theorem derived (moves : Moves before worker after moved) (ready : Ready before worker) {c : Canon}
    {dialect : Dialect} (made : after.canonical c = .published dialect) :
    after.Derived c dialect := by
  rcases moves.published_cases made with already | publishes
  · exact (ready.derived already).grows (moves.grows ready)
  · obtain ⟨above, fits⟩ := ready.fits.exists_above publishes
    exact Memory.Derived.grows fits (moves.grows ready)

theorem complete (moves : Moves before worker after moved) (ready : Ready before worker)
    {catalog : Catalog} (built : after.catalog = .published catalog) : after.Complete catalog := by
  rcases moves.catalog_cases built with already | settles
  · exact (ready.complete already).grows (moves.grows ready)
  · obtain ⟨above, fits⟩ := ready.fits.exists_above settles
    exact Memory.Complete.grows fits (moves.grows ready)

theorem told (moves : Moves before worker after moved) {outcome : Outcome}
    (member : outcome ∈ moved.outcomes) : outcome ∈ worker.outcomes ∨ outcome.Holds after := by
  cases moves with
  | found _ made =>
    exact (Worker.mem_leave_outcomes member).imp_right (by rintro rfl; exact made)
  | publish =>
    exact (Worker.mem_leave_outcomes member).imp_right
      (by rintro rfl; exact Memory.setCanonical_self)
  | accessed _ built =>
    exact (Worker.mem_leave_outcomes member).imp_right (by rintro rfl; exact built)
  | settle => exact (Worker.mem_leave_outcomes member).imp_right (by rintro rfl; rfl)
  | create =>
    exact (Worker.mem_leave_outcomes member).imp_right (by rintro rfl; exact Nat.lt_succ_self _)
  | start | claimOldest | claim | draw | claimCatalog | count | next | assemble =>
    exact .inl member

end Moves

end SyntaxDialects.Sharing
