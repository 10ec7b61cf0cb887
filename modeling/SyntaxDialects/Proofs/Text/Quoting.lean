import Mathlib.Logic.Function.Basic
import SyntaxDialects.Text.Quoted

/-!
Quoted texts can be read back. A code is prefix free when what it writes can be told from what
follows it. The escapes of characters are prefix free whatever class of characters counts as
unprintable, and so are texts between quotes and lists of labelled values whose codes are.
-/
namespace SyntaxDialects.Text

/-- What the code writes for a value shows both the value and what stands behind it. -/
def PrefixFree {α : Type} (code : α → List Char) : Prop :=
  ∀ {a b : α} {rest others : List Char}, code a ++ rest = code b ++ others → a = b ∧ rest = others

theorem PrefixFree.injective {α : Type} {code : α → List Char} (free : PrefixFree code) :
    Function.Injective code := by
  intro a b same
  have codes : code a ++ [] = code b ++ [] := by rw [same]
  exact (free codes).1

/-- Digits up to a mark that is no digit. -/
theorem append_mark_inj {digits more rest others : List Char} {mark : Char}
    (inDigits : mark ∉ digits) (inMore : mark ∉ more)
    (same : digits ++ mark :: rest = more ++ mark :: others) : digits = more ∧ rest = others := by
  induction digits generalizing more with
  | nil =>
    cases more with
    | nil => exact ⟨rfl, (List.cons.inj same).2⟩
    | cons c more =>
      have first : mark = c := (List.cons.inj same).1
      exact absurd (by simp [first]) inMore
  | cons c digits ih =>
    cases more with
    | nil =>
      have first : c = mark := (List.cons.inj same).1
      exact absurd (by simp [first]) inDigits
    | cons d more =>
      obtain ⟨first, tail⟩ := List.cons.inj same
      obtain ⟨digitsSame, restSame⟩ := ih (fun inside => inDigits (List.mem_cons_of_mem _ inside))
        (fun inside => inMore (List.mem_cons_of_mem _ inside)) tail
      exact ⟨by rw [first, digitsSame], restSame⟩

private theorem digitChar_inj : ∀ a < 16, ∀ b < 16, Nat.digitChar a = Nat.digitChar b → a = b := by
  decide

theorem toDigits_injective {base : Nat} (many : 1 < base) (few : base ≤ 16) :
    Function.Injective (Nat.toDigits base) := by
  intro a
  induction a using Nat.strongRecOn with
  | ind a ih =>
    intro b same
    rw [Nat.toDigits_eq_if many (n := a), Nat.toDigits_eq_if many (n := b)] at same
    split at same <;> split at same
    · rename_i aSmall bSmall
      exact digitChar_inj a (by omega) b (by omega) (List.cons.inj same).1
    · have sizes := congrArg List.length same
      have long : 0 < (Nat.toDigits base (b / base)).length := Nat.length_toDigits_pos
      simp only [List.length_append, List.length_singleton] at sizes
      omega
    · have sizes := congrArg List.length same
      have long : 0 < (Nat.toDigits base (a / base)).length := Nat.length_toDigits_pos
      simp only [List.length_append, List.length_singleton] at sizes
      omega
    · rename_i aLarge bLarge
      obtain ⟨front, last⟩ := List.append_inj' same rfl
      have aDigit := Nat.mod_lt a (by omega : 0 < base)
      have bDigit := Nat.mod_lt b (by omega : 0 < base)
      have quotients := ih (a / base) (Nat.div_lt_self (by omega) many) front
      have remainders := digitChar_inj _ (by omega) _ (by omega) (List.cons.inj last).1
      rw [← Nat.div_add_mod a base, ← Nat.div_add_mod b base, quotients, remainders]

theorem exists_digit_of_mem_toDigits {base number : Nat} {c : Char} (many : 1 < base)
    (member : c ∈ Nat.toDigits base number) : ∃ digit < base, c = Nat.digitChar digit := by
  induction number using Nat.strongRecOn with
  | ind number ih =>
    rw [Nat.toDigits_eq_if many] at member
    split at member
    · rename_i small
      exact ⟨number, small, List.mem_singleton.mp member⟩
    · rename_i large
      rcases List.mem_append.mp member with front | last
      · exact ih (number / base) (Nat.div_lt_self (by omega) many) front
      · exact ⟨number % base, Nat.mod_lt _ (by omega), List.mem_singleton.mp last⟩

theorem notMem_toDigits {base : Nat} (many : 1 < base) {mark : Char}
    (noDigit : ∀ digit < base, mark ≠ Nat.digitChar digit) (number : Nat) :
    mark ∉ Nat.toDigits base number := by
  intro member
  obtain ⟨digit, small, same⟩ := exists_digit_of_mem_toDigits many member
  exact noDigit digit small same

/-- A number with a mark behind it that is no digit. -/
theorem toDigits_prefixFree {base : Nat} (many : 1 < base) (few : base ≤ 16) {mark : Char}
    (noDigit : ∀ digit < base, mark ≠ Nat.digitChar digit) :
    PrefixFree fun number => Nat.toDigits base number ++ [mark] := by
  intro a b rest others same
  simp only [List.append_assoc, List.singleton_append] at same
  obtain ⟨digits, restSame⟩ :=
    append_mark_inj (notMem_toDigits many noDigit a) (notMem_toDigits many noDigit b) same
  exact ⟨toDigits_injective many few digits, restSame⟩

private theorem brace_notMem_toDigits (number : Nat) : '\x7d' ∉ Nat.toDigits 16 number :=
  notMem_toDigits (by decide) (by decide) number

private def marked : List (Char × Char) :=
  [('"', '"'), ('\\', '\\'), ('\n', 'n'), ('\r', 'r'), ('\t', 't'), ('\x00', '0')]

private theorem marked_inj : ∀ p ∈ marked, ∀ q ∈ marked, p.2 = q.2 → p.1 = q.1 := by
  decide

private theorem mark_ne_u : ∀ p ∈ marked, p.2 ≠ 'u' := by
  decide

/-- The three forms of an escape. -/
private theorem escapeChar_forms (unprintable : Char → Bool) (c : Char) :
    (escapeChar unprintable c = [c] ∧ c ≠ '"' ∧ c ≠ '\\' ∧ unprintable c = false) ∨
    (∃ p ∈ marked, p.1 = c ∧ escapeChar unprintable c = ['\\', p.2]) ∨
    escapeChar unprintable c = numberedEscape c := by
  unfold escapeChar
  split
  · exact .inr (.inl ⟨('"', '"'), by decide, by simp [*]⟩)
  split
  · exact .inr (.inl ⟨('\\', '\\'), by decide, by simp [*]⟩)
  split
  · exact .inr (.inl ⟨('\n', 'n'), by decide, by simp [*]⟩)
  split
  · exact .inr (.inl ⟨('\r', 'r'), by decide, by simp [*]⟩)
  split
  · exact .inr (.inl ⟨('\t', 't'), by decide, by simp [*]⟩)
  split
  · exact .inr (.inl ⟨('\x00', '0'), by decide, by simp [*]⟩)
  split
  · exact .inr (.inr rfl)
  · rename_i noQuote noBackslash _ _ _ _ printable
    exact .inl ⟨rfl, noQuote, noBackslash, by simpa using printable⟩

private theorem numberedEscape_append_inj {c d : Char} {rest others : List Char}
    (same : numberedEscape c ++ rest = numberedEscape d ++ others) : c = d ∧ rest = others := by
  have tails : Nat.toDigits 16 c.toNat ++ '\x7d' :: rest =
      Nat.toDigits 16 d.toNat ++ '\x7d' :: others := by
    simpa [numberedEscape] using same
  obtain ⟨digits, restSame⟩ :=
    append_mark_inj (brace_notMem_toDigits _) (brace_notMem_toDigits _) tails
  exact ⟨Char.toNat_inj.mp (toDigits_injective (by decide) (by decide) digits), restSame⟩

theorem escapeChar_prefixFree (unprintable : Char → Bool) :
    PrefixFree (escapeChar unprintable) := by
  intro c d rest others same
  rcases escapeChar_forms unprintable c with ⟨cForm, _, cPlain, _⟩ | ⟨p, pMarked, rfl, cForm⟩ | cForm <;>
    rcases escapeChar_forms unprintable d with ⟨dForm, _, dPlain, _⟩ | ⟨q, qMarked, rfl, dForm⟩ | dForm <;>
    rw [cForm, dForm] at same
  · simpa using same
  · exact absurd (List.cons.inj same).1 cPlain
  · exact absurd (List.cons.inj same).1 cPlain
  · exact absurd (List.cons.inj same).1.symm dPlain
  · simp only [List.cons_append, List.nil_append, List.cons.injEq, true_and] at same
    exact ⟨marked_inj p pMarked q qMarked same.1, same.2⟩
  · simp only [numberedEscape, List.cons_append, List.nil_append, List.cons.injEq, true_and] at same
    exact absurd same.1 (mark_ne_u p pMarked)
  · exact absurd (List.cons.inj same).1.symm dPlain
  · simp only [numberedEscape, List.cons_append, List.nil_append, List.cons.injEq, true_and] at same
    exact absurd same.1.symm (mark_ne_u q qMarked)
  · exact numberedEscape_append_inj same

/-- No escape starts with a quote, so the first bare quote closes the text. -/
private theorem escapeChar_head (unprintable : Char → Bool) (c : Char) :
    ∃ first tail, escapeChar unprintable c = first :: tail ∧ first ≠ '"' := by
  rcases escapeChar_forms unprintable c with ⟨form, noQuote, _⟩ | ⟨p, _, _, form⟩ | form
  · exact ⟨c, [], form, noQuote⟩
  · exact ⟨'\\', [p.2], form, by decide⟩
  · exact ⟨'\\', _, form, by decide⟩

private theorem printable_mark : ∀ p ∈ marked, isUnprintable p.2 = false := by
  decide

private theorem printable_digit : ∀ digit < 16, isUnprintable (Nat.digitChar digit) = false := by
  decide

private theorem printable_numberedEscape {c d : Char} (member : d ∈ numberedEscape c) :
    isUnprintable d = false := by
  simp only [numberedEscape, List.mem_append, List.mem_cons, List.not_mem_nil, or_false] at member
  rcases member with ((rfl | rfl | rfl) | inDigits) | rfl
  · decide
  · decide
  · decide
  · obtain ⟨digit, small, rfl⟩ := exists_digit_of_mem_toDigits (by decide) inDigits
    exact printable_digit digit small
  · decide

/-- Nothing that needs an escape is left in an escaped text, a line break least of all. -/
theorem printable_escape {text : List Char} {d : Char} (member : d ∈ escape isUnprintable text) :
    isUnprintable d = false := by
  obtain ⟨c, _, inEscape⟩ := List.mem_flatMap.mp member
  rcases escapeChar_forms isUnprintable c with ⟨form, _, _, kept⟩ | ⟨p, isMarked, _, form⟩ | form
  · rw [form, List.mem_singleton] at inEscape
    rw [inEscape]
    exact kept
  · simp only [form, List.mem_cons, List.not_mem_nil, or_false] at inEscape
    rcases inEscape with rfl | rfl
    · decide
    · exact printable_mark p isMarked
  · rw [form] at inEscape
    exact printable_numberedEscape inEscape

/-- An escaped text with its closing quote. -/
theorem escape_close_prefixFree (unprintable : Char → Bool) :
    PrefixFree fun text => escape unprintable text ++ ['"'] := by
  intro text more rest others same
  simp only [List.append_assoc, List.singleton_append] at same
  induction text generalizing more with
  | nil =>
    cases more with
    | nil => exact ⟨rfl, (List.cons.inj same).2⟩
    | cons d more =>
      obtain ⟨first, tail, form, noQuote⟩ := escapeChar_head unprintable d
      simp only [escape, List.flatMap_nil, List.flatMap_cons, form, List.nil_append,
        List.cons_append, List.cons.injEq] at same
      exact absurd same.1.symm noQuote
  | cons c text ih =>
    cases more with
    | nil =>
      obtain ⟨first, tail, form, noQuote⟩ := escapeChar_head unprintable c
      simp only [escape, List.flatMap_nil, List.flatMap_cons, form, List.nil_append,
        List.cons_append, List.cons.injEq] at same
      exact absurd same.1 noQuote
    | cons d more =>
      simp only [escape, List.flatMap_cons, List.append_assoc] at same
      obtain ⟨charSame, tailSame⟩ := escapeChar_prefixFree unprintable same
      obtain ⟨textSame, restSame⟩ := ih tailSame
      exact ⟨by rw [charSame, textSame], restSame⟩

/-- An escaped text between its quotes. -/
theorem escape_quotes_prefixFree (unprintable : Char → Bool) :
    PrefixFree fun text : String => '"' :: escape unprintable text.toList ++ ['"'] := by
  intro a b rest others same
  simp only [List.cons_append, List.cons.injEq, true_and] at same
  obtain ⟨texts, restSame⟩ := escape_close_prefixFree unprintable same
  exact ⟨String.toList_inj.mp texts, restSame⟩

theorem quoted_prefixFree : PrefixFree fun text : String => (quoted text).toList := by
  intro a b rest others same
  simp only [quoted, String.toList_ofList] at same
  exact escape_quotes_prefixFree isUnprintable same

/-- Values under fixed labels, with a fixed text between each two. -/
theorem intercalate_prefixFree {ι : Type} {β : ι → Type} (separator : List Char)
    (label : ι → List Char) (code : (i : ι) → β i → List Char)
    (free : ∀ i, PrefixFree (code i)) (v w : (i : ι) → β i) :
    ∀ (labels : List ι) (rest others : List Char),
      separator.intercalate (labels.map fun i => label i ++ code i (v i)) ++ rest =
        separator.intercalate (labels.map fun i => label i ++ code i (w i)) ++ others →
      (∀ i ∈ labels, v i = w i) ∧ rest = others
  | [], rest, others, same => ⟨by simp, by simpa using same⟩
  | [i], rest, others, same => by
    simp only [List.map_cons, List.map_nil, List.intercalate_singleton, List.append_assoc,
      List.append_cancel_left_eq] at same
    obtain ⟨value, restSame⟩ := free i same
    exact ⟨by simpa using value, restSame⟩
  | i :: j :: labels, rest, others, same => by
    simp only [List.map_cons, List.intercalate_cons_cons, List.append_assoc,
      List.append_cancel_left_eq] at same
    obtain ⟨value, tail⟩ := free i same
    rw [List.append_cancel_left_eq] at tail
    obtain ⟨values, restSame⟩ :=
      intercalate_prefixFree separator label code free v w (j :: labels) rest others tail
    refine ⟨?_, restSame⟩
    intro k member
    rcases List.mem_cons.mp member with rfl | later
    · exact value
    · exact values k later

end SyntaxDialects.Text
