import Mathlib.Data.List.Induction
import Mathlib.Data.Set.Card
import SyntaxDialects.Session.Answer

/-!
What stays of a list when members that count as equal to an earlier one are left out: one member
for every key, where a key tells which members count as equal.
-/
namespace SyntaxDialects

variable {α β : Type} {same : α → α → Bool}

theorem distinct_append_singleton (members : List α) (x : α) :
    distinct same (members ++ [x]) =
      if (distinct same members).any (same x) then distinct same members
      else distinct same members ++ [x] := by
  rw [distinct, List.foldl_append]
  rfl

theorem mem_of_mem_distinct {members : List α} {a : α} (kept : a ∈ distinct same members) :
    a ∈ members := by
  induction members using List.reverseRecOn with
  | nil => cases kept
  | append_singleton members x ih =>
    rw [distinct_append_singleton] at kept
    split at kept
    · exact List.mem_append_left _ (ih kept)
    · rcases List.mem_append.mp kept with before | now
      · exact List.mem_append_left _ (ih before)
      · exact List.mem_append_right _ now

theorem distinct_map {sameToo : β → β → Bool} {f : α → β} {members : List α}
    (alike : ∀ a ∈ members, ∀ b ∈ members, sameToo (f a) (f b) = same a b) :
    distinct sameToo (members.map f) = (distinct same members).map f := by
  induction members using List.reverseRecOn with
  | nil => rfl
  | append_singleton members x ih =>
    have before {a : α} (member : a ∈ members) : a ∈ members ++ [x] :=
      List.mem_append_left _ member
    have last : x ∈ members ++ [x] := List.mem_append_right _ (List.mem_singleton_self x)
    have kept := ih fun a aIn b bIn => alike a (before aIn) b (before bIn)
    have found : ((distinct same members).map f).any (sameToo (f x)) =
        (distinct same members).any (same x) := by
      rw [List.any_map, Bool.eq_iff_iff, List.any_eq_true, List.any_eq_true]
      apply exists_congr
      intro a
      apply and_congr_right
      intro member
      rw [Function.comp_apply, alike x last a (before (mem_of_mem_distinct member))]
    rw [List.map_append, List.map_singleton, distinct_append_singleton, kept, found,
      distinct_append_singleton]
    split
    · rfl
    · rw [List.map_append, List.map_singleton]

section Keys

variable {κ : Type} {key : α → κ} (tells : ∀ a b, same a b = true ↔ key a = key b)
include tells

theorem exists_mem_distinct {members : List α} {a : α} (member : a ∈ members) :
    ∃ b ∈ distinct same members, key b = key a := by
  induction members using List.reverseRecOn with
  | nil => cases member
  | append_singleton members x ih =>
    rw [distinct_append_singleton]
    rcases List.mem_append.mp member with before | now
    · obtain ⟨b, kept, alike⟩ := ih before
      split
      · exact ⟨b, kept, alike⟩
      · exact ⟨b, List.mem_append_left _ kept, alike⟩
    · obtain rfl := List.mem_singleton.mp now
      split
      · rename_i found
        obtain ⟨b, kept, alike⟩ := List.any_eq_true.mp found
        exact ⟨b, kept, ((tells a b).mp alike).symm⟩
      · exact ⟨a, List.mem_append_right _ now, rfl⟩

theorem nodup_keys_distinct (members : List α) : ((distinct same members).map key).Nodup := by
  induction members using List.reverseRecOn with
  | nil => exact List.nodup_nil
  | append_singleton members x ih =>
    rw [distinct_append_singleton]
    split
    · exact ih
    · rename_i missing
      rw [List.map_append, List.map_singleton, List.nodup_append]
      refine ⟨ih, List.nodup_singleton _, ?_⟩
      rintro k first _ last rfl
      obtain ⟨b, kept, alike⟩ := List.mem_map.mp first
      rw [List.mem_singleton] at last
      have found := List.any_eq_true.mpr ⟨b, kept, (tells x b).mpr (by rw [alike, last])⟩
      exact missing found

/-- There stays one member for every key. -/
theorem length_distinct (members : List α) :
    (distinct same members).length = {k | ∃ a ∈ members, key a = k}.ncard := by
  classical
  have keys : {k | ∃ a ∈ members, key a = k} =
      ((distinct same members).map key).toFinset := by
    ext k
    rw [List.coe_toFinset, Set.mem_ofPred_eq, Set.mem_ofPred_eq, List.mem_map]
    constructor
    · rintro ⟨a, member, rfl⟩
      exact exists_mem_distinct tells member
    · rintro ⟨b, kept, rfl⟩
      exact ⟨b, mem_of_mem_distinct kept, rfl⟩
  rw [keys, Set.ncard_coe_finset, List.toFinset_card_of_nodup (nodup_keys_distinct tells members),
    List.length_map]

end Keys

end SyntaxDialects
