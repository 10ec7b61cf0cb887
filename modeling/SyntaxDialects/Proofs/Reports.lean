import SyntaxDialects.Proofs.Basic

/-!
Which problem is reported. A computation that goes through positions in their order reports the
first one that offends; so does one that goes on with other, later positions when it has found no
problem yet, and one that walks along a list.
-/
namespace SyntaxDialects

variable {ρ σ α β ε : Type}

structure IsFirst (Before : ρ → ρ → Prop) (offends : ρ → ε → Prop) (position : ρ) (problem : ε) :
    Prop where
  here : offends position problem
  others : ∀ other problem, offends other problem → other = position ∨ Before position other

/-- The result is an error exactly if something offends, and the error is the first offence. -/
structure Reports (Before : ρ → ρ → Prop) (offends : ρ → ε → Prop) (result : Except ε α) : Prop where
  succeeds : (∃ value, result = .ok value) ↔ ∀ position problem, ¬ offends position problem
  fails : ∀ problem, result = .error problem ↔ ∃ position, IsFirst Before offends position problem

variable {Before : ρ → ρ → Prop}

def Ahead (Before : ρ → ρ → Prop) (offends later : ρ → ε → Prop) : Prop :=
  ∀ p q x y, offends p x → later q y → Before p q

theorem exists_isFirst_or (asymm : ∀ p q, Before p q → ¬ Before q p)
    {offends later : ρ → ε → Prop} (ahead : Ahead Before offends later) {problem : ε} :
    (∃ position, IsFirst Before (fun p x => offends p x ∨ later p x) position problem) ↔
      (∃ position, IsFirst Before offends position problem) ∨
        ((∀ position other, ¬ offends position other) ∧
          ∃ position, IsFirst Before later position problem) := by
  constructor
  · rintro ⟨position, here | here, first⟩
    · exact .inl ⟨position, here, fun other x also => first other x (.inl also)⟩
    · refine .inr ⟨?_, position, here, fun other x also => first other x (.inr also)⟩
      intro other x also
      have sooner := ahead other position x problem also here
      rcases first other x (.inl also) with rfl | after
      · exact asymm _ _ sooner sooner
      · exact asymm _ _ sooner after
  · rintro (⟨position, here, first⟩ | ⟨absent, position, here, first⟩)
    · refine ⟨position, .inl here, ?_⟩
      rintro other x (also | also)
      · exact first other x also
      · exact .inr (ahead position other problem x here also)
    · refine ⟨position, .inr here, ?_⟩
      rintro other x (also | also)
      · exact absurd also (absent other x)
      · exact first other x also

namespace Reports

variable {offends later : ρ → ε → Prop} {result : Except ε α}

theorem congr (reports : Reports Before offends result)
    (same : ∀ position problem, offends position problem ↔ later position problem) :
    Reports Before later result := by
  have equal : offends = later := funext fun position => funext fun problem => propext (same _ _)
  rwa [← equal]

/-- A single position. -/
theorem single {refused : ε → Prop} (fails : ∀ problem, result = .error problem ↔ refused problem)
    (position : ρ) : Reports Before (fun p x => p = position ∧ refused x) result where
  succeeds := by
    simp only [Except.exists_ok_iff, ne_eq, fails]
    constructor
    · exact fun fine p x also => fine x also.2
    · exact fun silent x isRefused => silent position x ⟨rfl, isRefused⟩
  fails problem := by
    rw [fails]
    constructor
    · exact fun isRefused => ⟨position, ⟨rfl, isRefused⟩, fun other x also => .inl also.1⟩
    · rintro ⟨_, ⟨rfl, isRefused⟩, _⟩
      exact isRefused

theorem map (reports : Reports Before offends result) (f : α → β) :
    Reports Before offends (result >>= fun value => .ok (f value)) where
  succeeds := by
    rw [← reports.succeeds]
    simp [Except.bind_eq_ok]
  fails problem := by
    rw [← reports.fails]
    simp [Except.bind_eq_error]

theorem bind (asymm : ∀ p q, Before p q → ¬ Before q p) (ahead : Ahead Before offends later)
    {next : α → Except ε β} (reports : Reports Before offends result)
    (nextReports : ∀ value, result = .ok value → Reports Before later (next value)) :
    Reports Before (fun p x => offends p x ∨ later p x) (result >>= next) where
  succeeds := by
    simp only [Except.bind_eq_ok, not_or, forall_and]
    rw [← reports.succeeds]
    constructor
    · rintro ⟨last, value, success, more⟩
      exact ⟨⟨value, success⟩, (nextReports value success).succeeds.mp ⟨last, more⟩⟩
    · rintro ⟨⟨value, success⟩, silent⟩
      obtain ⟨last, more⟩ := (nextReports value success).succeeds.mpr silent
      exact ⟨last, value, success, more⟩
  fails problem := by
    rw [Except.bind_eq_error, exists_isFirst_or asymm ahead, ← reports.fails, ← reports.succeeds]
    refine or_congr_right ?_
    rw [← exists_and_right]
    exact exists_congr fun value => and_congr_right fun success =>
      (nextReports value success).fails problem

/-- A walk through a list that reports for each item reports for all of them. -/
theorem foldlM_indexed (asymm : ∀ p q, Before p q → ¬ Before q p) {step : σ → α → Except ε σ}
    {items : List α} {offends : Nat → α → ρ → ε → Prop}
    (each : ∀ i item, items[i]? = some item → ∀ state,
      Reports Before (offends i item) (step state item))
    (ahead : ∀ i j a b, i < j → items[i]? = some a → items[j]? = some b →
      Ahead Before (offends i a) (offends j b)) (start : σ) :
    Reports Before (fun p x => ∃ i item, items[i]? = some item ∧ offends i item p x)
      (items.foldlM step start) := by
  -- Along the list: after the first item the same walk goes on, with indices one less.
  induction items generalizing offends start with
  | nil =>
    refine ⟨by simp [pure, Except.pure], fun problem => ?_⟩
    constructor
    · exact fun impossible => nomatch impossible
    · rintro ⟨position, ⟨i, item, absent, _⟩, _⟩
      cases absent
  | cons item items ih =>
    have rest : ∀ next, Reports Before
        (fun p x => ∃ i item, items[i]? = some item ∧ offends (i + 1) item p x)
        (items.foldlM step next) :=
      ih (fun i => each (i + 1)) fun i j a b sooner => ahead _ _ a b (Nat.succ_lt_succ sooner)
    have first : Ahead Before (offends 0 item)
        (fun p x => ∃ i item, items[i]? = some item ∧ offends (i + 1) item p x) := by
      rintro p q x y here ⟨j, other, member, later⟩
      exact ahead 0 (j + 1) item other (Nat.succ_pos j) rfl member p q x y here later
    rw [List.foldlM_cons]
    refine (bind asymm first (each 0 item rfl start) fun next _ => rest next).congr fun p x => ?_
    constructor
    · rintro (here | ⟨i, other, member, later⟩)
      · exact ⟨0, item, rfl, here⟩
      · exact ⟨i + 1, other, member, later⟩
    · rintro ⟨i, other, member, offence⟩
      cases i with
      | zero =>
        cases member
        exact .inl offence
      | succ i => exact .inr ⟨i, other, member, offence⟩

theorem foldlM (asymm : ∀ p q, Before p q → ¬ Before q p) {step : σ → α → Except ε σ}
    {items : List α} {offends : α → ρ → ε → Prop}
    (each : ∀ item ∈ items, ∀ state, Reports Before (offends item) (step state item))
    (ahead : items.Pairwise fun a b => Ahead Before (offends a) (offends b)) (start : σ) :
    Reports Before (fun p x => ∃ item ∈ items, offends item p x) (items.foldlM step start) := by
  have indexed : Reports Before (fun p x => ∃ i item, items[i]? = some item ∧ offends item p x)
      (items.foldlM step start) :=
    foldlM_indexed asymm (fun i item place => each item (List.mem_of_getElem? place)) ?_ start
  · refine indexed.congr fun p x => ?_
    simp only [List.mem_iff_getElem?, ← exists_and_right]
    exact exists_comm
  · intro i j a b sooner atI atJ
    obtain ⟨inside, rfl⟩ := List.getElem?_eq_some_iff.mp atI
    obtain ⟨insideJ, rfl⟩ := List.getElem?_eq_some_iff.mp atJ
    exact List.pairwise_iff_getElem.mp ahead i j inside insideJ sooner

/-- Positions may be part of others. -/
theorem embed {τ : Type} {BeforeIn : τ → τ → Prop} {offends : τ → ε → Prop}
    (reports : Reports BeforeIn offends result) (place : τ → ρ)
    (mono : ∀ s t, Before (place s) (place t) ↔ BeforeIn s t)
    (injective : ∀ s t, place s = place t → s = t) :
    Reports Before (fun p x => ∃ spot, p = place spot ∧ offends spot x) result where
  succeeds := by
    rw [reports.succeeds]
    constructor
    · rintro silent _ x ⟨spot, _, here⟩
      exact silent spot x here
    · exact fun silent spot x here => silent _ x ⟨spot, rfl, here⟩
  fails problem := by
    rw [reports.fails]
    constructor
    · rintro ⟨spot, here, others⟩
      refine ⟨place spot, ⟨spot, rfl, here⟩, ?_⟩
      rintro _ x ⟨other, rfl, also⟩
      exact (others other x also).imp (congrArg place) (mono _ _).mpr
    · rintro ⟨_, ⟨spot, rfl, here⟩, others⟩
      refine ⟨spot, here, fun other x also => ?_⟩
      exact (others _ x ⟨other, rfl, also⟩).imp (injective _ _) (mono _ _).mp

end Reports

def FailsAt (read : α → Except ε β) (items : List α) (i : Nat) (problem : ε) : Prop :=
  ∃ item, items[i]? = some item ∧ read item = .error problem

def FirstFailure (read : α → Except ε β) (items : List α) (problem : ε) : Prop :=
  ∃ i : Nat, IsFirst (· < ·) (FailsAt read items) i problem

theorem firstFailure_map {γ : Type} {read : α → Except ε β} {f : γ → α} {items : List γ}
    {problem : ε} :
    FirstFailure read (items.map f) problem ↔
      FirstFailure (fun item => read (f item)) items problem := by
  have same : FailsAt read (items.map f) = FailsAt (fun item => read (f item)) items := by
    funext i problem
    simp [FailsAt, List.getElem?_map]
  rw [FirstFailure, FirstFailure, same]

/-- A fold whose steps fail whatever the state fails as the first of its items does. -/
theorem foldlM_eq_error {step : σ → α → Except ε σ} {read : α → Except ε β} {items : List α}
    (each : ∀ state item problem, step state item = .error problem ↔ read item = .error problem)
    {start : σ} {problem : ε} :
    items.foldlM step start = .error problem ↔ FirstFailure read items problem := by
  have reports : Reports (fun i j : Nat => i < j)
      (fun i problem => ∃ j item, items[j]? = some item ∧ i = j ∧ read item = .error problem)
      (items.foldlM step start) := by
    refine .foldlM_indexed (fun _ _ => Nat.lt_asymm) ?_ ?_ start
    · exact fun i item _ state => .single (each state item) i
    · rintro i j _ _ sooner _ _ _ _ x y ⟨rfl, _⟩ ⟨rfl, _⟩
      exact sooner
  refine (reports.congr fun i problem => ?_).fails problem
  constructor
  · rintro ⟨_, item, atItem, rfl, failed⟩
    exact ⟨item, atItem, failed⟩
  · rintro ⟨item, atItem, failed⟩
    exact ⟨i, item, atItem, rfl, failed⟩

end SyntaxDialects
