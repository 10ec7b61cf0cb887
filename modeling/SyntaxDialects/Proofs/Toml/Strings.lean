import Mathlib.Tactic.Ring
import SyntaxDialects.Toml.Strings

/-!
Basic strings read back. Between its quotes a character stands for itself or is given by its
number in four or eight hexadecimal digits, of either case each; quotes, backslashes and controls
are always given so. Whatever is chosen for each character, reading gives the string.
-/
namespace SyntaxDialects.Toml

def IsHexDigit (value : Nat) (digit : Char) : Prop :=
  value < 16 ∧ (digit = value.digitChar ∨ digit = value.digitChar.toUpper)

inductive HexDigits : Nat → List Char → Nat → Prop where
  | nil (number : Nat) : HexDigits number [] number
  | cons {before value number : Nat} {digit : Char} {digits : List Char}
    (first : IsHexDigit value digit) (rest : HexDigits (16 * before + value) digits number) :
    HexDigits before (digit :: digits) number

def NeedsEscape (c : Char) : Prop :=
  c = '"' ∨ c = '\\' ∨ c.toNat < 0x20 ∨ c.toNat = 0x7F

instance : DecidablePred NeedsEscape :=
  fun c => inferInstanceAs (Decidable (c = '"' ∨ c = '\\' ∨ c.toNat < 0x20 ∨ c.toNat = 0x7F))

inductive SpelledChar : Char → List Char → Prop where
  | kept {c : Char} (plain : ¬ NeedsEscape c) : SpelledChar c [c]
  | short {c : Char} {digits : List Char} (four : digits.length = 4)
    (code : HexDigits 0 digits c.toNat) : SpelledChar c ('\\' :: 'u' :: digits)
  | long {c : Char} {digits : List Char} (eight : digits.length = 8)
    (code : HexDigits 0 digits c.toNat) : SpelledChar c ('\\' :: 'U' :: digits)

inductive SpelledChars : List Char → List Char → Prop where
  | nil : SpelledChars [] []
  | cons {c : Char} {contents spelled others : List Char} (first : SpelledChar c spelled)
    (rest : SpelledChars contents others) : SpelledChars (c :: contents) (spelled ++ others)

inductive SpelledString (value : String) : List Char → Prop where
  | quoted {spelled : List Char} (contents : SpelledChars value.toList spelled) :
    SpelledString value ('"' :: (spelled ++ ['"']))

theorem IsHexDigit.hexValue? {value : Nat} {digit : Char} (isDigit : IsHexDigit value digit) :
    Toml.hexValue? digit = some value := by
  obtain ⟨small, form⟩ := isDigit
  have lower : ∀ value < 16, Toml.hexValue? value.digitChar = some value := by decide
  have upper : ∀ value < 16, Toml.hexValue? value.digitChar.toUpper = some value := by decide
  rcases form with rfl | rfl
  · exact lower value small
  · exact upper value small

theorem HexDigits.eq_of_nil {before number : Nat} (code : HexDigits before [] number) :
    before = number := by
  cases code
  rfl

theorem charOfCode?_toNat (c : Char) : charOfCode? c.toNat = some c := by
  have valid : c.toNat.isValidChar := c.valid
  rw [charOfCode?, if_pos valid, Char.ofNat_toNat]

theorem readBody_numbered {before : Nat} {digits : List Char} {c : Char}
    (code : HexDigits before digits c.toNat) (nonempty : digits ≠ []) (rest : List Char) :
    readBody basicRule (.numbered digits.length before) (digits ++ rest) =
      (readBody basicRule .plain rest).map fun read => (c :: read.1, read.2) := by
  induction digits generalizing before with
  | nil => exact absurd rfl nonempty
  | cons digit digits ih =>
    cases code with
    | cons first code =>
      have value := first.hexValue?
      -- Only the last digit makes a character of the number.
      cases digits with
      | nil =>
        have last := charOfCode?_toNat c
        rw [← code.eq_of_nil] at last
        simp [readBody, basicRule, numberedMove, value, last]
      | cons next digits =>
        rw [← ih code (List.cons_ne_nil _ _)]
        simp [readBody, basicRule, numberedMove, value]

theorem readBody_escape {digits : List Char} {c mark : Char}
    (width : escapeMove mark = .skip (.numbered digits.length 0))
    (code : HexDigits 0 digits c.toNat) (nonempty : digits ≠ []) (rest : List Char) :
    readBody basicRule .plain ('\\' :: mark :: digits ++ rest) =
      (readBody basicRule .plain rest).map fun read => (c :: read.1, read.2) := by
  rw [← readBody_numbered code nonempty rest]
  simp [readBody, basicRule, width]

theorem readBody_spelledChar {c : Char} {spelled : List Char} (form : SpelledChar c spelled)
    (rest : List Char) : readBody basicRule .plain (spelled ++ rest) =
      (readBody basicRule .plain rest).map fun read => (c :: read.1, read.2) := by
  cases form with
  | kept plain =>
    simp only [NeedsEscape, not_or] at plain
    obtain ⟨quote, backslash, control, delete⟩ := plain
    have isText : isTextChar c = true := by
      simp only [isTextChar, decide_eq_true_eq]
      exact .inr ⟨by omega, delete⟩
    simp [readBody, basicRule, quote, backslash, keep, isText]
  | short four code =>
    exact readBody_escape (by rw [four]; rfl) code (List.ne_nil_of_length_pos (by omega)) rest
  | long eight code =>
    exact readBody_escape (by rw [eight]; rfl) code (List.ne_nil_of_length_pos (by omega)) rest

theorem readBody_spelledChars {contents spelled : List Char} (form : SpelledChars contents spelled)
    (rest : List Char) :
    readBody basicRule .plain (spelled ++ '"' :: rest) = some (contents, rest) := by
  induction form with
  | nil => rfl
  | cons first _ ih => rw [List.append_assoc, readBody_spelledChar first, ih, Option.map_some]

theorem SpelledChars.head_ne_quote {contents spelled : List Char}
    (form : SpelledChars contents spelled) : spelled.head? ≠ some '"' := by
  cases form with
  | nil => simp
  | cons first _ =>
    cases first with
    | kept plain =>
      intro same
      have quote := Option.some.inj same
      exact plain (.inl quote)
    | short => simp
    | long => simp

theorem readString_of_not_tripled {text : List Char} (single : ∀ more, text ≠ '"' :: '"' :: more) :
    readString ('"' :: text) = readBody basicRule .plain text := by
  unfold readString
  split
  · rename_i more same
    exact absurd (List.cons.inj same).2 (single more)
  · rename_i same
    exact absurd (List.cons.inj same).1 (by decide)
  · rfl

theorem readString_spelled {value : String} {spelled : List Char}
    (form : SpelledString value spelled) {rest : List Char} (noQuote : rest.head? ≠ some '"') :
    readString (spelled ++ rest) = some (value.toList, rest) := by
  cases form with
  | @quoted spelled contents =>
    rw [List.cons_append, List.append_assoc, List.singleton_append, readString_of_not_tripled,
      readBody_spelledChars contents]
    intro more same
    cases spelled with
    | nil =>
      rw [(List.cons.inj same).2] at noQuote
      exact noQuote rfl
    | cons c spelled =>
      have head := contents.head_ne_quote
      rw [(List.cons.inj same).1] at head
      exact head rfl

theorem spelledChars_kept {contents : List Char} (plain : ∀ c ∈ contents, ¬ NeedsEscape c) :
    SpelledChars contents contents := by
  induction contents with
  | nil => exact .nil
  | cons c contents ih =>
    rw [List.forall_mem_cons] at plain
    exact .cons (.kept plain.1) (ih plain.2)

theorem exists_hexDigits (width before : Nat) {number : Nat} (small : number < 16 ^ width) :
    ∃ digits, digits.length = width ∧ HexDigits before digits (before * 16 ^ width + number) := by
  induction width generalizing before number with
  | zero =>
    obtain rfl : number = 0 := by simpa using small
    exact ⟨[], rfl, by simpa using HexDigits.nil before⟩
  | succ width ih =>
    have leading : number / 16 ^ width < 16 :=
      Nat.div_lt_of_lt_mul (by rwa [Nat.pow_succ] at small)
    have others : number % 16 ^ width < 16 ^ width := Nat.mod_lt _ (Nat.pow_pos (by decide))
    obtain ⟨digits, length, rest⟩ := ih (16 * before + number / 16 ^ width) others
    have whole : (16 * before + number / 16 ^ width) * 16 ^ width + number % 16 ^ width =
        before * 16 ^ (width + 1) + number := by
      calc
        _ = before * 16 ^ (width + 1) +
            (16 ^ width * (number / 16 ^ width) + number % 16 ^ width) := by ring
        _ = before * 16 ^ (width + 1) + number := by rw [Nat.div_add_mod]
    rw [whole] at rest
    exact ⟨_ :: digits, by rw [List.length_cons, length], .cons ⟨leading, .inl rfl⟩ rest⟩

theorem exists_spelledChars (contents : List Char) : ∃ spelled, SpelledChars contents spelled := by
  induction contents with
  | nil => exact ⟨[], .nil⟩
  | cons c contents ih =>
    obtain ⟨others, rest⟩ := ih
    have small : c.toNat < 16 ^ 8 := c.val.toNat_lt
    obtain ⟨digits, eight, code⟩ := exists_hexDigits 8 0 small
    rw [Nat.zero_mul, Nat.zero_add] at code
    exact ⟨_, .cons (.long eight code) rest⟩

theorem exists_spelledString (value : String) : ∃ spelled, SpelledString value spelled := by
  obtain ⟨spelled, contents⟩ := exists_spelledChars value.toList
  exact ⟨_, .quoted contents⟩

end SyntaxDialects.Toml
