import SyntaxDialects.Proofs.Text.Columns
import SyntaxDialects.Text.Doc

/-!
The two layouts of a group. A group without groups inside is laid out with no break at all if its
columns are within the width, and otherwise with a break at every place for one.
-/
namespace SyntaxDialects.Text.Doc

def flat : Doc → String
  | text contents => contents
  | line instead => instead
  | append first second => first.flat ++ second.flat
  | nest _ inner => inner.flat
  | group inner => inner.flat

def broken (indent : Nat) : Doc → String
  | text contents => contents
  | line _ => "\n" ++ blanks indent
  | append first second => first.broken indent ++ second.broken indent
  | nest more inner => inner.broken (indent + more)
  | group inner => inner.broken indent

def flatColumns : Doc → Nat
  | text contents => columns contents
  | line instead => columns instead
  | append first second => first.flatColumns + second.flatColumns
  | nest _ inner => inner.flatColumns
  | group inner => inner.flatColumns

def Ungrouped : Doc → Prop
  | text _ => True
  | line _ => True
  | append first second => first.Ungrouped ∧ second.Ungrouped
  | nest _ inner => inner.Ungrouped
  | group _ => False

def TextsApart : Doc → Prop
  | text contents => Apart contents
  | line instead => Apart instead
  | append first second => first.TextsApart ∧ second.TextsApart
  | nest _ inner => inner.TextsApart
  | group inner => inner.TextsApart

theorem apart_flat {doc : Doc} (apart : doc.TextsApart) : Apart doc.flat := by
  induction doc with
  | text contents => exact apart
  | line instead => exact apart
  | append first second ihFirst ihSecond => exact (ihFirst apart.1).append (ihSecond apart.2)
  | nest more inner ih => exact ih apart
  | group inner ih => exact ih apart

theorem columns_flat {doc : Doc} (apart : doc.TextsApart) :
    columns doc.flat = doc.flatColumns := by
  induction doc with
  | text contents => rfl
  | line instead => rfl
  | append first second ihFirst ihSecond =>
    have sum := columns_append first.flat (apart_flat apart.2)
    rw [ihFirst apart.1, ihSecond apart.2] at sum
    exact sum
  | nest more inner ih => exact ih apart
  | group inner ih => exact ih apart

theorem fits_flat (width column indent : Nat) (doc : Doc) (rest : List Pending) :
    fits width column (⟨indent, true, doc⟩ :: rest) =
      (decide (column + doc.flatColumns ≤ width) && fits width (column + doc.flatColumns) rest) := by
  induction doc generalizing column indent rest with
  | text contents => rw [fits, flatColumns]
  | line instead => rw [fits, flatColumns]
  | append first second ihFirst ihSecond =>
    rw [fits, ihFirst, ihSecond, flatColumns, ← Nat.add_assoc, ← Bool.and_assoc,
      ← Bool.decide_and]
    congr 2
    rw [eq_iff_iff, and_iff_right_iff_imp]
    omega
  | nest more inner ih => rw [fits, ih, flatColumns]
  | group inner ih => rw [fits, ih, flatColumns]

theorem layOut_flat (width column indent : Nat) (doc : Doc) (rest : List Pending) :
    layOut width column (⟨indent, true, doc⟩ :: rest) =
      doc.flat ++ layOut width (column + doc.flatColumns) rest := by
  induction doc generalizing column indent rest with
  | text contents => rw [layOut, flat, flatColumns]
  | line instead => rw [layOut, flat, flatColumns]
  | append first second ihFirst ihSecond =>
    rw [layOut, ihFirst, ihSecond, flat, flatColumns, String.append_assoc, Nat.add_assoc]
  | nest more inner ih => rw [layOut, ih, flat, flatColumns]
  | group inner ih => rw [layOut, Bool.true_or, ih, flat, flatColumns]

theorem layOut_broken (width column indent : Nat) {doc : Doc} (ungrouped : doc.Ungrouped) :
    ∃ last, ∀ rest, layOut width column (⟨indent, false, doc⟩ :: rest) =
      doc.broken indent ++ layOut width last rest := by
  induction doc generalizing column indent with
  | text contents => exact ⟨column + columns contents, fun rest => by rw [layOut, broken]⟩
  | line instead => exact ⟨indent, fun rest => by rw [layOut, broken]⟩
  | append first second ihFirst ihSecond =>
    obtain ⟨middle, firstLaid⟩ := ihFirst column indent ungrouped.1
    obtain ⟨last, secondLaid⟩ := ihSecond middle indent ungrouped.2
    refine ⟨last, fun rest => ?_⟩
    rw [layOut, firstLaid, secondLaid, broken, String.append_assoc]
  | nest more inner ih =>
    obtain ⟨last, laid⟩ := ih column (indent + more) ungrouped
    exact ⟨last, fun rest => by rw [layOut, laid, broken]⟩
  | group inner => exact ungrouped.elim

/-- The width decides between the two layouts of a group, and nothing else. -/
theorem render_group (width : Nat) {doc : Doc} (ungrouped : doc.Ungrouped)
    (apart : doc.TextsApart) :
    (group doc).render width =
      if columns doc.flat ≤ width then doc.flat else doc.broken 0 := by
  rw [render, layOut, Bool.false_or, fits_flat, columns_flat apart]
  by_cases within : doc.flatColumns ≤ width
  · have fitting : (decide (0 + doc.flatColumns ≤ width) &&
        fits width (0 + doc.flatColumns) []) = true := by
      simp [fits, within]
    rw [fitting, layOut_flat, if_pos within, layOut, String.append_empty]
  · have wide : (decide (0 + doc.flatColumns ≤ width) &&
        fits width (0 + doc.flatColumns) []) = false := by
      simp [within]
    obtain ⟨last, laid⟩ := layOut_broken width 0 0 ungrouped
    rw [wide, laid, if_neg within, layOut, String.append_empty]

/-- What writes two documents one after the other writes separators between documents. -/
theorem write_intersperse (write : Doc → String) (nothing : write empty = "")
    (both : ∀ first second, write (append first second) = write first ++ write second)
    (separator : Doc) (docs : List Doc) :
    write (intersperse separator docs) = (write separator).intercalate (docs.map write) := by
  induction docs with
  | nil => simp [intersperse, nothing]
  | cons first rest ih =>
    cases rest with
    | nil => simp [intersperse]
    | cons second rest =>
      change write (append first (append separator (intersperse separator (second :: rest)))) = _
      simp only [List.map_cons] at ih ⊢
      rw [both, both, ih, String.intercalate_cons_cons, String.append_assoc]

theorem forall_intersperse (Holds : Doc → Prop) (nothing : Holds empty)
    (both : ∀ {first second}, Holds first → Holds second → Holds (append first second))
    {separator : Doc} {docs : List Doc} (between : Holds separator)
    (each : ∀ doc ∈ docs, Holds doc) : Holds (intersperse separator docs) := by
  induction docs with
  | nil => exact nothing
  | cons first rest ih =>
    have head := each first (List.mem_cons_self ..)
    have tail := ih fun doc member => each doc (List.mem_cons_of_mem _ member)
    cases rest with
    | nil => exact head
    | cons second rest => exact both head (both between tail)

end SyntaxDialects.Text.Doc
