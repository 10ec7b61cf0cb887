import Mathlib.Data.List.Induction
import SyntaxDialects.Identity.Tokens
import SyntaxDialects.Proofs.Basic
import SyntaxDialects.Proofs.Parts
import SyntaxDialects.Proofs.Text.Quoting

/-!
Tokens stand for draws. The tokens of a kind are numbered by its draws alone, so other kinds do not
matter to it; a name goes back to the last draw that was bound to it, and tokens compare as their
draws do. The label of a token tells its kind and its number.
-/
namespace SyntaxDialects
open Text

/-! The mark in front of the number is the last one in a label, whatever the kind is called. -/

theorem Identity.mark_notMem_toDigits (number : Nat) : '#' ∉ Nat.toDigits 10 number :=
  notMem_toDigits (by decide) (by decide) number

theorem Identity.toList_labelled (kind : String) (number : Nat) :
    (labelled kind number).toList = kind.toList ++ '#' :: Nat.toDigits 10 number := by
  simp [labelled, tag, String.toList_append, Nat.toString_eq_repr, Nat.toList_repr]

theorem Identity.labelled_inj {kind other : String} {a b : Nat} :
    labelled kind a = labelled other b ↔ kind = other ∧ a = b := by
  constructor
  · intro same
    have texts := congrArg (fun text => text.toList.reverse) same
    simp only [toList_labelled, List.reverse_append, List.reverse_cons, List.append_assoc,
      List.singleton_append] at texts
    obtain ⟨digits, kinds⟩ := append_mark_inj (by simpa using mark_notMem_toDigits a)
      (by simpa using mark_notMem_toDigits b) texts
    exact ⟨String.toList_inj.mp (List.reverse_injective kinds),
      toDigits_injective (by decide) (by decide) (List.reverse_injective digits)⟩
  · rintro ⟨rfl, rfl⟩
    rfl

/-! The tokens of a kind. -/

def drawsToken (kind : String) : String × TokenStep → Bool
  | (of, .fresh _) => of == kind
  | (_, .look _) => false

def tokensDrawn (kind : String) (steps : List (String × TokenStep)) : Nat :=
  steps.countP (drawsToken kind)

/-- The step at a place is the last one that drew a token of a kind for a name. -/
structure GoesBack (steps : List (String × TokenStep)) (kind name : String) (i : Nat) : Prop where
  draws : steps[i]? = some (kind, .fresh name)
  last : ∀ j, i < j → steps[j]? ≠ some (kind, .fresh name)

namespace GoesBack

variable {steps : List (String × TokenStep)} {kind name : String} {i : Nat}

theorem lt_length (back : GoesBack steps kind name i) : i < steps.length :=
  (List.getElem?_eq_some_iff.mp back.draws).1

theorem concat_self : GoesBack (steps ++ [(kind, .fresh name)]) kind name i ↔ i = steps.length := by
  constructor
  · intro back
    have inside := back.lt_length
    rw [List.length_append, List.length_singleton] at inside
    by_contra early
    exact back.last steps.length (by omega) List.getElem?_concat_length
  · rintro rfl
    refine ⟨List.getElem?_concat_length, ?_⟩
    intro j later here
    have inside := (List.getElem?_eq_some_iff.mp here).1
    rw [List.length_append, List.length_singleton] at inside
    omega

theorem concat_other {last : String × TokenStep} (other : last ≠ (kind, .fresh name)) :
    GoesBack (steps ++ [last]) kind name i ↔ GoesBack steps kind name i := by
  have same (j : Nat) :
      (steps ++ [last])[j]? = some (kind, .fresh name) ↔ steps[j]? = some (kind, .fresh name) := by
    rw [List.getElem?_append]
    split
    · rfl
    · rename_i beyond
      refine iff_of_false ?_ fun here => beyond (List.getElem?_eq_some_iff.mp here).1
      intro here
      exact other (List.mem_singleton.mp (List.mem_of_getElem? here)).symm
  constructor
  · rintro ⟨draws, last⟩
    exact ⟨(same i).mp draws, fun j later here => last j later ((same j).mpr here)⟩
  · rintro ⟨draws, last⟩
    exact ⟨(same i).mpr draws, fun j later here => last j later ((same j).mp here)⟩

end GoesBack

namespace TokenStore

theorem run_eq_answers (store : TokenStore) (steps : List (String × TokenStep)) :
    store.run steps = Parts.answers step store steps := by
  induction steps generalizing store with
  | nil => rfl
  | cons first rest ih => exact congrArg _ (ih _)

theorem space_step (store : TokenStore) (kind other : String) (what : TokenStep) :
    (store.step kind what).2.space other =
      if other = kind then ((store.space kind).step kind what).2 else store.space other :=
  rfl

theorem separate : Parts.Separate step space where
  answer same what := by simp only [step, same]
  own same what := by simp only [space_step, same, if_true]
  other store _ _ different what := by rw [space_step, if_neg different]

end TokenStore

theorem TokenSpace.find_bind (space : TokenSpace) (name other : String) :
    (space.bind name).2.find other =
      if other = name then .ok space.ids.next else space.find other := by
  simp only [find, bind, Alloc.draw, lookup_rebind]
  by_cases same : other = name <;> simp only [same, if_true, if_false]

def tokensAfter (steps : List (String × TokenStep)) (kind : String) : TokenSpace :=
  (Parts.after TokenStore.step .empty steps).space kind

section Reached

variable {steps : List (String × TokenStep)} {kind name : String}

theorem tokensAfter_concat (steps : List (String × TokenStep)) (of : String) (what : TokenStep)
    (kind : String) : tokensAfter (steps ++ [(of, what)]) kind =
      if kind = of then ((tokensAfter steps of).step of what).2 else tokensAfter steps kind := by
  rw [tokensAfter, Parts.after_concat, TokenStore.space_step, tokensAfter, tokensAfter]

theorem next_tokensAfter (kind : String) (steps : List (String × TokenStep)) :
    (tokensAfter steps kind).ids.next = tokensDrawn kind steps := by
  induction steps using List.reverseRecOn with
  | nil => rfl
  | append_singleton steps last ih =>
    obtain ⟨of, what⟩ := last
    rw [tokensAfter_concat, tokensDrawn, List.countP_append, ← tokensDrawn, ← ih]
    by_cases same : kind = of
    · subst same
      rw [if_pos rfl]
      cases what with
      | fresh name => simp [drawsToken, TokenSpace.step, TokenSpace.bind, Alloc.draw]
      | look what => simp [drawsToken, TokenSpace.step]
    · rw [if_neg same]
      cases what <;> simp [drawsToken, Ne.symm same]

theorem find_tokensAfter_other {last : String × TokenStep} (other : last ≠ (kind, .fresh name)) :
    (tokensAfter (steps ++ [last]) kind).find name = (tokensAfter steps kind).find name := by
  obtain ⟨of, what⟩ := last
  rw [tokensAfter_concat]
  by_cases same : kind = of
  · subst same
    rw [if_pos rfl]
    cases what with
    | fresh bound =>
      have different : name ≠ bound := by
        rintro rfl
        exact other rfl
      exact (TokenSpace.find_bind _ bound name).trans (if_neg different)
    | look what => rfl
  · rw [if_neg same]

/-- A name finds the token of the draw that it goes back to, and nothing else. -/
theorem find_tokensAfter {number : Nat} : (tokensAfter steps kind).find name = .ok number ↔
    ∃ i, GoesBack steps kind name i ∧ number = tokensDrawn kind (steps.take i) := by
  induction steps using List.reverseRecOn with
  | nil =>
    refine iff_of_false nofun ?_
    rintro ⟨i, ⟨draws, _⟩, _⟩
    cases draws
  | append_singleton steps last ih =>
    by_cases binds : last = (kind, .fresh name)
    · subst binds
      have found : (tokensAfter (steps ++ [(kind, .fresh name)]) kind).find name =
          .ok (tokensDrawn kind steps) := by
        rw [tokensAfter_concat, if_pos rfl, ← next_tokensAfter]
        exact (TokenSpace.find_bind _ name name).trans (if_pos rfl)
      simp only [found, GoesBack.concat_self, exists_eq_left, List.take_left, Except.ok.injEq,
        eq_comm]
    · rw [find_tokensAfter_other binds, ih]
      apply exists_congr
      intro i
      rw [GoesBack.concat_other binds, and_congr_right_iff]
      intro back
      rw [List.take_append_of_le_length (Nat.le_of_lt back.lt_length)]

theorem tokensDrawn_lt {i j : Nat} (here : steps[i]? = some (kind, .fresh name))
    (earlier : i < j) : tokensDrawn kind (steps.take i) < tokensDrawn kind (steps.take j) := by
  have next : tokensDrawn kind (steps.take (i + 1)) = tokensDrawn kind (steps.take i) + 1 := by
    rw [List.take_add_one, here, tokensDrawn, List.countP_append, ← tokensDrawn]
    simp [drawsToken]
  have grown : tokensDrawn kind (steps.take (i + 1)) ≤ tokensDrawn kind (steps.take j) :=
    (List.take_sublist_take_left earlier).countP_le
  omega

theorem tokensDrawn_lt_iff {i j : Nat} {first second : String}
    (here : steps[i]? = some (kind, .fresh first))
    (there : steps[j]? = some (kind, .fresh second)) :
    tokensDrawn kind (steps.take i) < tokensDrawn kind (steps.take j) ↔ i < j := by
  refine ⟨?_, tokensDrawn_lt here⟩
  intro less
  by_contra later
  rcases Nat.lt_or_eq_of_le (Nat.le_of_not_lt later) with after | rfl
  · exact Nat.lt_asymm less (tokensDrawn_lt there after)
  · exact Nat.lt_irrefl _ less

theorem tokensDrawn_inj {i j : Nat} {first second : String}
    (here : steps[i]? = some (kind, .fresh first))
    (there : steps[j]? = some (kind, .fresh second)) :
    tokensDrawn kind (steps.take i) = tokensDrawn kind (steps.take j) ↔ i = j := by
  refine ⟨?_, fun same => by rw [same]⟩
  intro same
  apply Nat.le_antisymm
  · exact Nat.le_of_not_lt fun later =>
      Nat.ne_of_gt ((tokensDrawn_lt_iff there here).mpr later) same
  · exact Nat.le_of_not_lt fun later =>
      Nat.ne_of_lt ((tokensDrawn_lt_iff here there).mpr later) same

theorem TokenStore.run_get? (steps : List (String × TokenStep)) (i : Nat) :
    (TokenStore.empty.run steps)[i]? = steps[i]?.map fun entry =>
      ((tokensAfter (steps.take i) entry.1).step entry.1 entry.2).1 := by
  rw [TokenStore.run_eq_answers, Parts.answers_get?]
  rfl

theorem fresh_at {i : Nat} (here : steps[i]? = some (kind, .fresh name)) :
    (TokenStore.empty.run steps)[i]? = some (.ok (.index (tokensDrawn kind (steps.take i)))) := by
  rw [TokenStore.run_get?, here, Option.map_some, ← next_tokensAfter]
  rfl

end Reached

/-! What names show in the midst of a run. -/

section Places

variable {steps : List (String × TokenStep)} {p i j : Nat} {kind name : String}

theorem GoesBack.here (back : GoesBack (steps.take p) kind name i) :
    steps[i]? = some (kind, .fresh name) := by
  have inside := back.lt_length
  rw [List.length_take] at inside
  rw [← List.getElem?_take_of_lt (Nat.lt_of_lt_of_le inside (Nat.min_le_left ..)), back.draws]

theorem GoesBack.found (back : GoesBack (steps.take p) kind name i) :
    (tokensAfter (steps.take p) kind).find name = .ok (tokensDrawn kind (steps.take i)) := by
  refine find_tokensAfter.mpr ⟨i, back, ?_⟩
  have inside := back.lt_length
  rw [List.length_take] at inside
  rw [List.take_take, Nat.min_eq_left (by omega)]

theorem shown_at (here : steps[p]? = some (kind, .look (.show name)))
    (back : GoesBack (steps.take p) kind name i) :
    let number := tokensDrawn kind (steps.take i)
    (TokenStore.empty.run steps)[p]? =
      some (.ok (.shown number (Identity.tag number) (Identity.labelled kind number))) := by
  rw [TokenStore.run_get?, here, Option.map_some]
  simp only [TokenSpace.step, TokenSpace.look, back.found]
  rfl

theorem compared_at {a b : String} (here : steps[p]? = some (kind, .look (.compare a b)))
    (first : GoesBack (steps.take p) kind a i) (second : GoesBack (steps.take p) kind b j) :
    ∃ same order sameHash,
      (TokenStore.empty.run steps)[p]? = some (.ok (.comparison same order sameHash)) ∧
      (same = true ↔ i = j) ∧ (sameHash = true ↔ i = j) ∧
      (order = .eq ↔ i = j) ∧ (order = .lt ↔ i < j) := by
  have equal := tokensDrawn_inj first.here second.here
  have less := tokensDrawn_lt_iff first.here second.here
  refine ⟨tokensDrawn kind (steps.take i) == tokensDrawn kind (steps.take j),
    compare (tokensDrawn kind (steps.take i)) (tokensDrawn kind (steps.take j)),
    Identity.hashInput (tokensDrawn kind (steps.take i)) ==
      Identity.hashInput (tokensDrawn kind (steps.take j)), ?_, ?_, ?_, ?_, ?_⟩
  · rw [TokenStore.run_get?, here, Option.map_some]
    simp only [TokenSpace.step, TokenSpace.look, first.found, second.found]
    rfl
  · rw [beq_iff_eq, equal]
  · rw [Identity.hashInput, Identity.hashInput, beq_iff_eq, equal]
  · rw [Nat.compare_eq_eq, equal]
  · rw [Nat.compare_eq_lt, less]

end Places

/-- Kinds do not interfere: the steps of some of them are answered as if there were no others, and
a draw is numbered by the draws of its kind before it. A name shows the number of the draw that it
goes back to, and tokens are the same, have the same hash, or come one before the other as their
draws are and do. Labels tell kinds and numbers apart. -/
theorem tokens_stand_for_draws (steps : List (String × TokenStep)) :
    let shown := TokenStore.empty.run steps
    shown.length = steps.length ∧
    (∀ keep : String → Bool, TokenStore.empty.run (steps.filter fun step => keep step.1) =
      Parts.answersTo keep steps shown) ∧
    (∀ (i : Nat) kind name, steps[i]? = some (kind, .fresh name) →
      shown[i]? = some (.ok (.index (tokensDrawn kind (steps.take i))))) ∧
    (∀ (p : Nat) kind name i, steps[p]? = some (kind, .look (.show name)) →
      GoesBack (steps.take p) kind name i →
      ∃ number, shown[i]? = some (.ok (.index number)) ∧ shown[p]? =
        some (.ok (.shown number (Identity.tag number) (Identity.labelled kind number)))) ∧
    (∀ (p : Nat) kind a b i j, steps[p]? = some (kind, .look (.compare a b)) →
      GoesBack (steps.take p) kind a i → GoesBack (steps.take p) kind b j →
      ∃ same order sameHash, shown[p]? = some (.ok (.comparison same order sameHash)) ∧
        (same = true ↔ i = j) ∧ (sameHash = true ↔ i = j) ∧
        (order = .eq ↔ i = j) ∧ (order = .lt ↔ i < j)) ∧
    (∀ kind other a b,
      Identity.labelled kind a = Identity.labelled other b ↔ kind = other ∧ a = b) := by
  refine ⟨?_, ?_, fun _ _ _ => fresh_at, ?_, fun _ _ _ _ _ _ => compared_at,
    fun _ _ _ _ => Identity.labelled_inj⟩
  · rw [TokenStore.run_eq_answers, Parts.length_answers]
  · intro keep
    rw [TokenStore.run_eq_answers, TokenStore.run_eq_answers]
    exact TokenStore.separate.answers_filter (fun _ _ => rfl) steps
  · intro p kind name i here back
    exact ⟨_, fresh_at back.here, shown_at here back⟩

/-- A name that is bound anew stands for the later draw, and another kind's draw is none of them. -/
theorem tokens_stand_for_draws_when_rebound :
    let steps := [("NodeId", TokenStep.fresh "a"), ("EdgeId", .fresh "a"), ("NodeId", .fresh "b"),
      ("NodeId", .fresh "a"), ("NodeId", .look (.compare "b" "a"))]
    GoesBack (steps.take 4) "NodeId" "b" 2 ∧ GoesBack (steps.take 4) "NodeId" "a" 3 ∧
    (TokenStore.empty.run steps)[3]? = some (.ok (.index 2)) ∧
    ∃ same sameHash,
      (TokenStore.empty.run steps)[4]? = some (.ok (.comparison same .lt sameHash)) := by
  intro steps
  have b : GoesBack (steps.take 4) "NodeId" "b" 2 := by
    refine ⟨rfl, ?_⟩
    intro j later
    match j, later with
    | 3, _ => simp [steps]
    | j + 4, _ => simp [steps]
  have a : GoesBack (steps.take 4) "NodeId" "a" 3 := by
    refine ⟨rfl, ?_⟩
    intro j later
    match j, later with
    | j + 4, _ => simp [steps]
  obtain ⟨-, -, numbered, -, compared, -⟩ := tokens_stand_for_draws steps
  obtain ⟨same, order, sameHash, shown, -, -, -, less⟩ := compared 4 _ _ _ 2 3 rfl b a
  rw [less.mpr (by decide)] at shown
  exact ⟨b, a, numbered 3 _ _ rfl, same, sameHash, shown⟩

end SyntaxDialects
