import SyntaxDialects.Proofs.Session.Acts
import SyntaxDialects.Proofs.Session.Moments

/-!
Steps without a trace. A step that fails or only looks leaves the store as it was, so the other
steps show the same without it, and whatever fails has recorded nothing.
-/
namespace SyntaxDialects
namespace Store

def Traceless (store : Store) (step : Step) : Prop :=
  (∃ what, step = .look what) ∨ ∃ failure, (store.step step).1.result = .error failure

theorem Traceless.step {store : Store} {step : Step} (traceless : store.Traceless step) :
    (store.step step).2 = store ∧ (store.step step).1.log = [] := by
  rcases traceless with ⟨what, rfl⟩ | ⟨failure, failed⟩
  · exact ⟨rfl, rfl⟩
  · exact step_error failed

theorem reached_traceless {steps : List Step} {i : Nat} {step : Step}
    (here : steps[i]? = some step) (traceless : (reached steps i).Traceless step) :
    reached steps (i + 1) = reached steps i := by
  rw [reached_succ here, traceless.step.1]

theorem run_eraseIdx {steps : List Step} {i : Nat} {step : Step} (here : steps[i]? = some step)
    (traceless : (reached steps i).Traceless step) :
    initial.run (steps.eraseIdx i) =
      ((initial.run steps).1.eraseIdx i, (initial.run steps).2) := by
  have inside := (List.getElem?_eq_some_iff.mp here).1
  have front := length_run_take (Nat.le_of_lt inside)
  have rest : (initial.run (steps.take i)).2 = reached steps (i + 1) :=
    (reached_traceless here traceless).symm
  rw [List.eraseIdx_eq_take_drop_succ, run_append, rest, run_split here,
    List.eraseIdx_append_of_length_le (Nat.le_of_eq front), front, Nat.sub_self,
    List.eraseIdx_cons_zero]

theorem reached_eraseIdx {steps : List Step} {i j : Nat} {step : Step}
    (here : steps[i]? = some step) (traceless : (reached steps i).Traceless step) (later : i ≤ j) :
    reached (steps.eraseIdx i) j = reached steps (j + 1) := by
  have front : (steps.take (j + 1)).take i = steps.take i := by
    rw [List.take_take, Nat.min_eq_left (by omega)]
  have there : (steps.take (j + 1))[i]? = some step := by
    rw [List.getElem?_take_of_lt (by omega), here]
  have erased : (steps.eraseIdx i).take j = (steps.take (j + 1)).eraseIdx i := by
    have inside := (List.getElem?_eq_some_iff.mp here).1
    rw [List.eraseIdx_eq_take_drop_succ, List.eraseIdx_eq_take_drop_succ, front, List.take_append,
      List.take_take, Nat.min_eq_right later, List.length_take,
      Nat.min_eq_left (Nat.le_of_lt inside), List.drop_take, Nat.add_sub_add_right]
  rw [reached, erased, run_eraseIdx there, reached]
  rw [reached, front]
  exact traceless

end Store

/-- Deleting a step that failed or only looked changes nothing that the others show or find, and
it recorded nothing; a failure takes back nothing, for until then nothing is done. -/
theorem traceless_steps_delete {steps : List Step} {i : Nat} {step : Step}
    (here : steps[i]? = some step)
    (traceless : (∃ what, step = .look what) ∨
      ∃ shown failure, (session steps)[i]? = some shown ∧ shown.result = .error failure) :
    session (steps.eraseIdx i) = (session steps).eraseIdx i ∧
    (Store.initial.run (steps.eraseIdx i)).2 = (Store.initial.run steps).2 ∧
    Store.reached steps (i + 1) = Store.reached steps i ∧
    (∀ j, i ≤ j → Store.reached (steps.eraseIdx i) j = Store.reached steps (j + 1)) ∧
    (∀ shown, (session steps)[i]? = some shown → shown.log = []) ∧
    (∀ others, Store.initial.enactAll others = Store.initial.run others) ∧
    (∀ (store : Store) recipe log failure left,
      (store.acts recipe).run ⟨store.ids, log⟩ = (.error failure, left) →
      left = ⟨store.ids, log⟩) := by
  have shows : (session steps)[i]? = some ((Store.reached steps i).step step).1 := by
    rw [Store.session_get?, here, Option.map_some]
  have without : (Store.reached steps i).Traceless step := by
    rcases traceless with look | ⟨shown, failure, shown?, failed⟩
    · exact .inl look
    · rw [shows, Option.some.injEq] at shown?
      exact .inr ⟨failure, by rw [shown?, failed]⟩
  have erased := Store.run_eraseIdx here without
  refine ⟨congrArg Prod.fst erased, by rw [erased], Store.reached_traceless here without,
    fun j => Store.reached_eraseIdx here without, ?_, Store.initial.enactAll_eq_run, ?_⟩
  · intro shown shown?
    rw [shows, Option.some.injEq] at shown?
    rw [← shown?, without.step.2]
  · intro store recipe log failure left failed
    rw [Store.acts_run] at failed
    exact Trail.settle_error failed

/-- A quotation within a quotation panics; the derivations around it do not notice. -/
theorem traceless_steps_delete_a_panic :
    let run := [
      Step.make (.unquote .term (.canonical "Scala212") true) (some "$q"),
      .make (.mustUnquote .pattern (.slot "$q") false) (some "$q"),
      .make (.derive (.slot "$q") .null) none]
    (∃ shown failure, (session run)[1]? = some shown ∧ shown.result = .error failure ∧
      shown.log = []) ∧
    session (run.eraseIdx 1) = (session run).eraseIdx 1 ∧
    Store.reached (run.eraseIdx 1) 1 = Store.reached run 2 := by
  intro run
  have panics : ∃ shown failure, (session run)[1]? = some shown ∧
      shown.result = .error failure :=
    ⟨_, _, rfl, rfl⟩
  have here : run[1]? = some (.make (.mustUnquote .pattern (.slot "$q") false) (some "$q")) := rfl
  obtain ⟨others, _, _, later, silent, _⟩ := traceless_steps_delete here (.inr panics)
  obtain ⟨shown, failure, shown?, failed⟩ := panics
  exact ⟨⟨shown, failure, shown?, failed, silent shown shown?⟩, others, later 1 (Nat.le_refl 1)⟩

end SyntaxDialects
