import SyntaxDialects.Proofs.Session.Runs

/-!
Moments of a session. What a session shows for a step is what the step shows in the store that
the steps in front of it have left, and steps behind it have no part in that.
-/
namespace SyntaxDialects
namespace Store

theorem step_error {store : Store} {step : Step} {failure : Failure}
    (failed : (store.step step).1.result = .error failure) :
    (store.step step).2 = store ∧ (store.step step).1.log = [] := by
  cases step with
  | look what => exact ⟨rfl, rfl⟩
  | make recipe slot =>
    cases followed : store.make recipe with
    | ok made => simp [Store.step, followed] at failed
    | error other => simp [Store.step, followed]

theorem step_of_outcome {store : Store} {recipe : Recipe} {made : Made} {ids : Alloc}
    (outcome : Outcome store recipe made ids) (slot : Option String) :
    store.step (.make recipe slot) =
      (⟨.ok (.made made.dialect.id made.dialect.name?), made.log⟩,
        { store with ids := ids }.keep slot made.dialect) := by
  rw [step, make_eq_ok.mpr outcome]

theorem gain_of_outcome {store : Store} {recipe : Recipe} {made : Made} {ids : Alloc}
    (outcome : Outcome store recipe made ids) (slot : Option String) :
    store.gain (.make recipe slot) = some made.dialect := by
  rw [gain, make_eq_ok.mpr outcome]

theorem step_of_refusal {store : Store} {recipe : Recipe} {failure : Failure}
    (refused : store.make recipe = .error failure) (slot : Option String) :
    store.step (.make recipe slot) = (⟨.error failure, []⟩, store) := by
  rw [step, refused]

theorem step_make (store : Store) (recipe : Recipe) (slot : Option String) :
    (∃ dialect, store.gain (.make recipe slot) = some dialect ∧
      (store.step (.make recipe slot)).1.result = .ok (.made dialect.id dialect.name?)) ∨
    (store.gain (.make recipe slot) = none ∧
      ∃ failure, (store.step (.make recipe slot)).1.result = .error failure) := by
  cases followed : store.make recipe with
  | ok made => exact .inl ⟨made.1.dialect, by simp [gain, followed], by simp [Store.step, followed]⟩
  | error failure =>
    exact .inr ⟨by simp [gain, followed], failure, by simp [Store.step, followed]⟩

theorem run_cons (store : Store) (first : Step) (rest : List Step) :
    store.run (first :: rest) =
      ((store.step first).1 :: ((store.step first).2.run rest).1,
        ((store.step first).2.run rest).2) :=
  rfl

theorem run_append (store : Store) (first second : List Step) :
    store.run (first ++ second) =
      ((store.run first).1 ++ ((store.run first).2.run second).1,
        ((store.run first).2.run second).2) := by
  induction first generalizing store with
  | nil => rfl
  | cons step first ih => rw [List.cons_append, run_cons, ih, run_cons, List.cons_append]

theorem length_run (store : Store) (steps : List Step) :
    (store.run steps).1.length = steps.length := by
  induction steps generalizing store with
  | nil => rfl
  | cons first rest ih => rw [run_cons, List.length_cons, ih, List.length_cons]

theorem length_run_take {steps : List Step} {i : Nat} (inside : i ≤ steps.length) :
    (initial.run (steps.take i)).1.length = i := by
  rw [length_run, List.length_take, Nat.min_eq_left inside]

def reached (steps : List Step) (i : Nat) : Store :=
  (initial.run (steps.take i)).2

theorem reached_length (steps : List Step) :
    reached steps steps.length = (initial.run steps).2 := by
  rw [reached, List.take_length]

theorem reached_append {steps : List Step} {i : Nat} (inside : i ≤ steps.length)
    (more : List Step) : reached (steps ++ more) i = reached steps i := by
  rw [reached, List.take_append_of_le_length inside, reached]

theorem reached_succ {steps : List Step} {i : Nat} {step : Step} (here : steps[i]? = some step) :
    reached steps (i + 1) = ((reached steps i).step step).2 := by
  rw [reached, List.take_add_one, here, Option.toList_some, run_append]
  rfl

theorem ids_reached {steps : List Step} {i j : Nat} (before : i ≤ j) :
    (reached steps i).ids.next ≤ (reached steps j).ids.next := by
  have split : steps.take j = steps.take i ++ (steps.take j).drop i := by
    conv_lhs => rw [← List.take_append_drop i (steps.take j)]
    rw [List.take_take, Nat.min_eq_left before]
  have grown := (reached steps i).ids_run ((steps.take j).drop i)
  rw [reached, reached, split, run_append]
  exact grown

theorem run_split {steps : List Step} {i : Nat} {step : Step} (here : steps[i]? = some step) :
    initial.run steps =
      ((initial.run (steps.take i)).1 ++ ((reached steps i).step step).1 ::
          ((reached steps (i + 1)).run (steps.drop (i + 1))).1,
        ((reached steps (i + 1)).run (steps.drop (i + 1))).2) := by
  obtain ⟨inside, same⟩ := List.getElem?_eq_some_iff.mp here
  have split : steps = steps.take i ++ step :: steps.drop (i + 1) := by
    rw [← same, List.getElem_cons_drop, List.take_append_drop]
  conv_lhs => rw [split]
  rw [run_append, run_cons, reached_succ here, reached]

theorem session_get? (steps : List Step) (i : Nat) :
    (session steps)[i]? = steps[i]?.map fun step => ((reached steps i).step step).1 := by
  cases here : steps[i]? with
  | none =>
    have beyond := List.getElem?_eq_none_iff.mp here
    rw [Option.map_none, List.getElem?_eq_none_iff, session, length_run]
    exact beyond
  | some step =>
    have inside := (List.getElem?_eq_some_iff.mp here).1
    have front := length_run_take (Nat.le_of_lt inside)
    rw [session, run_split here, List.getElem?_append_right (Nat.le_of_eq front), front,
      Nat.sub_self, List.getElem?_cons_zero, Option.map_some]

end Store
end SyntaxDialects
