import SyntaxDialects.Text.Width

/-!
Columns add up. A text takes other columns beside a neighbour than alone only where two characters
are drawn as one, so columns add up in front of every text whose first character stays apart from
what is in front of it, as ASCII characters do.
-/
namespace SyntaxDialects.Text

/-- Nothing in front of the text is drawn as one with it. -/
def Apart (text : String) : Prop :=
  (measure text.toList).2 = .none

theorem measure_append (front : List Char) {behind : List Char}
    (apart : (measure behind).2 = .none) :
    measure (front ++ behind) =
      ((measure front).1 + (measure behind).1, (measure front).2) := by
  induction front with
  | nil => simp [measure, ← apart]
  | cons c front ih => simp [measure, ih, Nat.add_assoc]

theorem columns_append (front : String) {behind : String} (apart : Apart behind) :
    columns (front ++ behind) = columns front + columns behind := by
  simp [columns, String.toList_append, measure_append _ apart]

theorem Apart.append {front behind : String} (first : Apart front) (second : Apart behind) :
    Apart (front ++ behind) := by
  unfold Apart at *
  rw [String.toList_append, measure_append _ second]
  exact first

private theorem measure_cons_ascii {c : Char} (ascii : c.toNat < 0x80) (behind : List Char) :
    measure (c :: behind) = (1 + (measure behind).1, .none) := by
  simp [measure, place, ascii]

theorem apart_of_ascii {text : String} {c : Char} {behind : List Char}
    (form : text.toList = c :: behind) (ascii : c.toNat < 0x80) : Apart text := by
  rw [Apart, form, measure_cons_ascii ascii]

theorem columns_ascii {text : String} (ascii : ∀ c ∈ text.toList, c.toNat < 0x80) :
    columns text = text.length := by
  rw [columns, ← String.length_toList]
  generalize text.toList = characters at ascii
  induction characters with
  | nil => rfl
  | cons c behind ih =>
    have first := ascii c (List.mem_cons_self ..)
    have others := ih fun d member => ascii d (List.mem_cons_of_mem _ member)
    rw [measure_cons_ascii first, others, List.length_cons, Nat.add_comm]

end SyntaxDialects.Text
