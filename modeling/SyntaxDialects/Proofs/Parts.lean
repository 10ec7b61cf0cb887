import Mathlib.Data.List.Basic

/-!
States made of parts. Each step is addressed to one part, is answered from that part and changes
that part alone; so steps addressed elsewhere can be deleted and no other answer changes.
-/
namespace SyntaxDialects.Parts

variable {σ κ ι α ν : Type}

def answers (step : σ → κ → ι → α × σ) (state : σ) : List (κ × ι) → List α
  | [] => []
  | (key, first) :: rest =>
    let (answer, state) := step state key first
    answer :: answers step state rest

def after (step : σ → κ → ι → α × σ) (state : σ) (steps : List (κ × ι)) : σ :=
  steps.foldl (fun state entry => (step state entry.1 entry.2).2) state

theorem length_answers (step : σ → κ → ι → α × σ) (state : σ) (steps : List (κ × ι)) :
    (answers step state steps).length = steps.length := by
  induction steps generalizing state with
  | nil => rfl
  | cons first rest ih => exact congrArg (· + 1) (ih _)

theorem answers_get? (step : σ → κ → ι → α × σ) (state : σ) (steps : List (κ × ι)) (i : Nat) :
    (answers step state steps)[i]? =
      steps[i]?.map fun entry => (step (after step state (steps.take i)) entry.1 entry.2).1 := by
  induction steps generalizing state i with
  | nil => rfl
  | cons first rest ih =>
    cases i with
    | zero => rfl
    | succ i => exact ih _ i

theorem after_concat (step : σ → κ → ι → α × σ) (state : σ) (steps : List (κ × ι))
    (last : κ × ι) : after step state (steps ++ [last]) =
      (step (after step state steps) last.1 last.2).2 := by
  simp only [after, List.foldl_append, List.foldl_cons, List.foldl_nil]

def answersTo (keep : κ → Bool) (steps : List (κ × ι)) (answers : List α) : List α :=
  ((steps.zip answers).filter fun entry => keep entry.1.1).map Prod.snd

/-- Each part answers the steps addressed to it and is changed by them alone. -/
structure Separate (step : σ → κ → ι → α × σ) (part : σ → κ → ν) : Prop where
  answer : ∀ {s t key}, part s key = part t key → ∀ what, (step s key what).1 = (step t key what).1
  own : ∀ {s t key}, part s key = part t key →
    ∀ what, part (step s key what).2 key = part (step t key what).2 key
  other : ∀ s {key other}, other ≠ key → ∀ what, part (step s key what).2 other = part s other

namespace Separate

variable {step : σ → κ → ι → α × σ} {part : σ → κ → ν} (separate : Separate step part)
  {s t : σ} {keep : κ → Bool}
include separate

theorem agree_step [DecidableEq κ] (agree : ∀ key, keep key = true → part s key = part t key)
    (at? : κ) (what : ι) : ∀ key, keep key = true →
      part (step s at? what).2 key = part (step t at? what).2 key := by
  intro key kept
  by_cases same : key = at?
  · subst same
    exact separate.own (agree key kept) what
  · rw [separate.other s same, separate.other t same, agree key kept]

theorem agree_skip (agree : ∀ key, keep key = true → part s key = part t key) {at? : κ}
    (dropped : keep at? = false) (what : ι) :
    ∀ key, keep key = true → part (step s at? what).2 key = part t key := by
  intro key kept
  have different : key ≠ at? := by
    rintro rfl
    rw [dropped] at kept
    cases kept
  rw [separate.other s different, agree key kept]

/-- Steps addressed to other parts can be left out. -/
theorem answers_filter [DecidableEq κ] (agree : ∀ key, keep key = true → part s key = part t key)
    (steps : List (κ × ι)) :
    answers step t (steps.filter fun entry => keep entry.1) =
      answersTo keep steps (answers step s steps) := by
  induction steps generalizing s t with
  | nil => rfl
  | cons first rest ih =>
    obtain ⟨key, what⟩ := first
    cases kept : keep key with
    | true =>
      have same := separate.answer (agree key kept) what
      have others := ih (separate.agree_step agree key what)
      simp only [List.filter_cons, kept, answers, answersTo, List.zip_cons_cons, if_true,
        List.map_cons]
      rw [same, others, answersTo]
    | false =>
      have others := ih (separate.agree_skip agree kept what)
      simp only [List.filter_cons, kept, answers, answersTo, List.zip_cons_cons,
        Bool.false_eq_true, if_false]
      exact others

end Separate
end SyntaxDialects.Parts
