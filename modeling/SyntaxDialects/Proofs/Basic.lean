import Mathlib.Data.List.Basic

/-!
Results that may fail, folds of steps that may fail, and lists that are looked up by keys.
-/
namespace SyntaxDialects

namespace Except

variable {ε δ α β : Type}

theorem bind_eq_ok {first : Except ε α} {next : α → Except ε β} {result : β} :
    (first >>= next) = .ok result ↔ ∃ value, first = .ok value ∧ next value = .ok result := by
  cases first with
  | error problem => simp [bind, Except.bind]
  | ok value => simp [bind, Except.bind]

theorem bind_eq_error {first : Except ε α} {next : α → Except ε β} {problem : ε} :
    (first >>= next) = .error problem ↔
      first = .error problem ∨ ∃ value, first = .ok value ∧ next value = .error problem := by
  cases first with
  | error other => simp [bind, Except.bind]
  | ok value => simp [bind, Except.bind]

theorem ite_eq_ok {p : Prop} [Decidable p] {value result : α} {problem : ε} :
    (if p then .ok value else .error problem : Except ε α) = .ok result ↔ p ∧ value = result := by
  by_cases holds : p <;> simp [holds]

theorem ite_eq_error {p : Prop} [Decidable p] {value : α} {problem other : ε} :
    (if p then .ok value else .error problem : Except ε α) = .error other ↔
      ¬ p ∧ problem = other := by
  by_cases holds : p <;> simp [holds]

theorem mapError_eq_ok {rename : ε → δ} {first : Except ε α} {result : α} :
    first.mapError rename = .ok result ↔ first = .ok result := by
  cases first <;> simp [Except.mapError]

theorem pure_eq_ok {value result : α} :
    (pure value : Except ε α) = .ok result ↔ value = result := by
  simp [pure, Except.pure]

theorem exists_mem_of_mapM {f : α → Except ε β} {items : List α} {results : List β}
    (all : items.mapM f = .ok results) {item : α} (member : item ∈ items) :
    ∃ result ∈ results, f item = .ok result := by
  induction items generalizing results with
  | nil => cases member
  | cons first items ih =>
    rw [List.mapM_cons] at all
    obtain ⟨value, here, more⟩ := bind_eq_ok.mp all
    obtain ⟨rest, there, same⟩ := bind_eq_ok.mp more
    cases pure_eq_ok.mp same
    rcases List.mem_cons.mp member with rfl | later
    · exact ⟨value, List.mem_cons_self .., here⟩
    · obtain ⟨result, inside, found⟩ := ih there later
      exact ⟨result, List.mem_cons_of_mem _ inside, found⟩

theorem mem_of_mapM {f : α → Except ε β} {items : List α} {results : List β}
    (all : items.mapM f = .ok results) {result : β} :
    result ∈ results ↔ ∃ item ∈ items, f item = .ok result := by
  induction items generalizing results with
  | nil =>
    cases all
    simp
  | cons item items ih =>
    rw [List.mapM_cons] at all
    obtain ⟨first, here, more⟩ := bind_eq_ok.mp all
    obtain ⟨rest, there, same⟩ := bind_eq_ok.mp more
    cases pure_eq_ok.mp same
    rw [List.mem_cons, List.exists_mem_cons_iff, ih there, here, Except.ok.injEq, eq_comm]

theorem exists_ok_iff {result : Except ε α} :
    (∃ value, result = .ok value) ↔ ∀ problem, result ≠ .error problem := by
  cases result <;> simp

section Folds

variable {σ : Type} {step : σ → α → Except ε σ} {items : List α}

theorem foldlM_ok_iff {Good : α → Prop}
    (each : ∀ state item, (∃ next, step state item = .ok next) ↔ Good item) {start : σ} :
    (∃ result, items.foldlM step start = .ok result) ↔ ∀ item ∈ items, Good item := by
  induction items generalizing start with
  | nil => simp [pure, Except.pure]
  | cons item items ih =>
    rw [List.foldlM_cons, List.forall_mem_cons]
    constructor
    · rintro ⟨result, folded⟩
      obtain ⟨next, first, rest⟩ := bind_eq_ok.mp folded
      exact ⟨(each start item).mp ⟨next, first⟩, ih.mp ⟨result, rest⟩⟩
    · rintro ⟨good, others⟩
      obtain ⟨next, first⟩ := (each start item).mpr good
      obtain ⟨result, rest⟩ : ∃ result, items.foldlM step next = .ok result := ih.mpr others
      exact ⟨result, bind_eq_ok.mpr ⟨next, first, rest⟩⟩

/-- What a view shows in the end was set by some item, or was there from the start and no item
sets it. -/
theorem foldlM_last (view : σ → β) (Sets : α → β → Prop)
    (each : ∀ {state item next}, step state item = .ok next →
      Sets item (view next) ∨ ((∀ value, ¬ Sets item value) ∧ view next = view state))
    {start result : σ} (folded : items.foldlM step start = .ok result) :
    (∃ item ∈ items, Sets item (view result)) ∨
      ((∀ item ∈ items, ∀ value, ¬ Sets item value) ∧ view result = view start) := by
  induction items generalizing start with
  | nil =>
    cases folded
    exact .inr ⟨by simp, rfl⟩
  | cons item items ih =>
    obtain ⟨next, first, rest⟩ := bind_eq_ok.mp folded
    rw [List.forall_mem_cons]
    rcases ih rest with ⟨later, member, sets⟩ | ⟨noneLater, kept⟩
    · exact .inl ⟨later, List.mem_cons_of_mem _ member, sets⟩
    · rw [kept]
      rcases each first with sets | ⟨silent, same⟩
      · exact .inl ⟨item, List.mem_cons_self .., sets⟩
      · exact .inr ⟨⟨silent, noneLater⟩, same⟩

end Folds

end Except

/-- The first entry of a key is the only one to count, as entries of one key have one value. -/
theorem find?_key_eq_some {α β κ : Type} [DecidableEq κ] {entries : List α} (key : α → κ)
    (value : α → β) (agree : ∀ a ∈ entries, ∀ b ∈ entries, key a = key b → value a = value b)
    {k : κ} {v : β} :
    (entries.find? fun entry => key entry == k).map value = some v ↔
      ∃ entry ∈ entries, key entry = k ∧ value entry = v := by
  constructor
  · intro found
    obtain ⟨entry, first, valueSame⟩ := Option.map_eq_some_iff.mp found
    have keySame : key entry = k := by simpa using List.find?_some first
    exact ⟨entry, List.mem_of_find?_eq_some first, keySame, valueSame⟩
  · rintro ⟨entry, member, rfl, rfl⟩
    have present : (entries.find? fun other => key other == key entry).isSome := by
      rw [List.find?_isSome]
      exact ⟨entry, member, by simp⟩
    obtain ⟨other, first⟩ := Option.isSome_iff_exists.mp present
    have keySame : key other = key entry := by simpa using List.find?_some first
    rw [first, Option.map_some, agree other (List.mem_of_find?_eq_some first) entry member keySame]

theorem lookup_filter_other {α : Type} {entries : List (String × α)} {name other : String}
    (different : other ≠ name) :
    (entries.filter fun entry => entry.1 != name).lookup other = entries.lookup other := by
  induction entries with
  | nil => rfl
  | cons entry entries ih =>
    obtain ⟨key, value⟩ := entry
    by_cases same : key = name
    · subst key
      have skipped : (other == name) = false := by simpa using different
      simp [List.lookup_cons, skipped, ih]
    · simp [same, List.lookup_cons, ih]

/-- A name that is bound anew finds its new value, and other names find what they found. -/
theorem lookup_rebind {α : Type} (entries : List (String × α)) (name other : String) (value : α) :
    ((name, value) :: entries.filter fun entry => entry.1 != name).lookup other =
      if other = name then some value else entries.lookup other := by
  rw [List.lookup_cons]
  by_cases same : other = name
  · simp [same]
  · have skipped : (other == name) = false := by simpa using same
    simp only [skipped, if_neg same]
    exact lookup_filter_other same

end SyntaxDialects
