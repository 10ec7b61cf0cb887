import SyntaxDialects.Conf
import SyntaxDialects.Proofs.Dialect.Layout
import SyntaxDialects.Proofs.Text.Records

/-!
Debug texts. They show all that a dialect, an override set or a configuration is made of, whatever
the texts in it hold, and the debug text on lines comes to the one on one line.
-/
namespace SyntaxDialects
open Text

theorem Field.valueText_prefixFree (f : Field) :
    PrefixFree fun value : f.Value => (f.valueText value).toList := by
  intro a b rest others same
  simp only [f.valueText_eq_valueTextOver] at same
  exact f.valueTextOver_prefixFree isUnprintable same

def Field.optionText (f : Field) : Option f.Value → String
  | some value => "Some(" ++ f.valueText value ++ ")"
  | none => "None"

theorem Field.optionText_prefixFree (f : Field) :
    PrefixFree fun value : Option f.Value => (f.optionText value).toList := by
  intro a b rest others same
  cases a with
  | none =>
    cases b with
    | none => exact ⟨rfl, List.append_cancel_left same⟩
    | some b => simp [optionText, String.toList_append] at same
  | some a =>
    cases b with
    | none => simp [optionText, String.toList_append] at same
    | some b =>
      simp only [optionText, String.toList_append, List.append_assoc,
        List.append_cancel_left_eq] at same
      obtain ⟨values, tails⟩ := f.valueText_prefixFree same
      exact ⟨by rw [values], List.append_cancel_left tails⟩

theorem Flags.record_prefixFree : PrefixFree fun flags : Flags => flags.record.oneLine.toList := by
  intro a b rest others same
  obtain ⟨values, restSame⟩ := Record.oneLine_prefixFree "DialectFlags" Field.all Field.name
    Field.valueText Field.valueText_prefixFree same
  exact ⟨ext_get fun f => values f f.mem_all, restSame⟩

theorem Overrides.record_eq (overrides : Overrides) :
    overrides.record =
      ⟨"Overrides", Field.all.map fun f => (f.name, f.optionText (overrides.get f))⟩ := by
  have texts (f : Field) : overrides.valueText f = f.optionText (overrides.get f) := by
    unfold valueText Field.optionText
    cases overrides.get f <;> rfl
  simp only [record, texts]

theorem Overrides.record_prefixFree :
    PrefixFree fun overrides : Overrides => overrides.record.oneLine.toList := by
  intro a b rest others same
  simp only [record_eq] at same
  obtain ⟨values, restSame⟩ := Record.oneLine_prefixFree "Overrides" Field.all Field.name
    Field.optionText Field.optionText_prefixFree same
  exact ⟨ext_get fun f => values f f.mem_all, restSame⟩

theorem Conf.debug_injective : Function.Injective Conf.debug := by
  intro a b same
  have texts := congrArg String.toList same
  simp only [debug, Record.oneLine_toList, List.map_cons, List.map_nil, List.intercalate_cons_cons,
    List.intercalate_singleton, List.append_assoc, List.append_cancel_left_eq] at texts
  obtain ⟨base, rest⟩ := quoted_prefixFree texts
  rw [List.append_cancel_left_eq, List.append_cancel_left_eq] at rest
  obtain ⟨overrides, _⟩ := Overrides.record_prefixFree rest
  cases a
  cases b
  cases base
  cases overrides
  rfl

theorem digit_ne_comma : ∀ digit < 10, ',' ≠ Nat.digitChar digit := by
  decide

/-- The number of an identity ends at the comma behind it. -/
theorem Dialect.debug_injective : Function.Injective Dialect.debug := by
  intro a b same
  have texts := congrArg String.toList same
  simp only [debug, Record.oneLine_toList, List.map_cons, List.map_nil, List.intercalate_cons_cons,
    List.intercalate_singleton, List.append_assoc, List.append_cancel_left_eq, DialectId.text,
    Identity.labelled, Identity.tag, String.toList_append, Nat.toString_eq_repr,
    Nat.toList_repr] at texts
  have marked : ", ".toList = [','] ++ " ".toList := by decide
  rw [marked, List.append_assoc, List.append_assoc, ← List.append_assoc,
    ← List.append_assoc (Nat.toDigits 10 b.id.index)] at texts
  obtain ⟨index, rest⟩ := toDigits_prefixFree (by decide) (by decide) digit_ne_comma texts
  simp only [List.append_cancel_left_eq] at rest
  obtain ⟨flags, _⟩ := Flags.record_prefixFree rest
  obtain ⟨⟨number⟩, _⟩ := a
  obtain ⟨⟨other⟩, _⟩ := b
  cases index
  cases flags
  rfl

/-! The texts on lines. -/

theorem Field.name_initial (f : Field) :
    ∃ c, f.name.toList.head? = some c ∧ c ∉ [' ', '\n', ','] ∧ c ≠ '\x7d' := by
  cases f with
  | allow s => exact ⟨'a', by cases s <;> rfl, by decide⟩
  | separator => exact ⟨'t', rfl, by decide⟩

def Field.labelled (f : Field) (value : f.Value) : Labelled where
  label := f.name
  lines := f.valueText value
  flat := f.valueText value
  front := f.name_initial
  noBreak member := ne_newline (f.printable_name _ member) rfl
  laysOut := laysOut_of_flat fun member => ne_newline (f.printable_valueText value _ member) rfl

theorem Flags.laysOut_record (flags : Flags) (depth : Nat) :
    LaysOut (flags.record.onLines depth).toList flags.record.oneLine.toList := by
  have name : '\n' ∉ "DialectFlags".toList := by decide
  have nonempty : Field.all.map (fun f => f.labelled (flags.get f)) ≠ [] := List.cons_ne_nil _ _
  have laid := Text.laysOut_record name depth nonempty
  rw [List.map_map, List.map_map] at laid
  exact laid

theorem DialectId.newline_notMem_text (id : DialectId) : '\n' ∉ id.text.toList := by
  rw [text, Identity.labelled, Identity.tag, Nat.toString_eq_repr, String.toList_append,
    String.toList_append, Nat.toList_repr, List.mem_append, List.mem_append]
  rintro (inKind | inMark | inDigits)
  · exact absurd inKind (by decide)
  · exact absurd inMark (by decide)
  · exact notMem_toDigits (by decide) (by decide) _ inDigits

theorem Dialect.onOneLine_debugOnLines (dialect : Dialect) :
    onOneLine dialect.debugOnLines = dialect.debug := by
  let id : Labelled :=
    { label := "id"
      lines := dialect.id.text
      flat := dialect.id.text
      front := ⟨'i', rfl, by decide⟩
      noBreak := by decide
      laysOut := laysOut_of_flat dialect.id.newline_notMem_text }
  let flags : Labelled :=
    { label := "flags"
      lines := dialect.flags.record.onLines 1
      flat := dialect.flags.record.oneLine
      front := ⟨'f', rfl, by decide⟩
      noBreak := by decide
      laysOut := dialect.flags.laysOut_record 1 }
  have name : '\n' ∉ "Dialect".toList := by decide
  have joined := laysOut_record name 0 (List.cons_ne_nil id [flags]) [] nofun
  rw [List.append_nil, joinLines, List.append_nil] at joined
  have text : joinLines dialect.debugOnLines.toList = dialect.debug.toList := joined
  rw [onOneLine, text, String.ofList_toList]

theorem Dialect.eq_iff_get {a b : Dialect} :
    a = b ↔ a.id = b.id ∧ ∀ f, a.flags.get f = b.flags.get f := by
  constructor
  · rintro rfl
    exact ⟨rfl, fun _ => rfl⟩
  · rintro ⟨id, agree⟩
    have flags := Flags.ext_get agree
    cases a
    cases b
    cases id
    cases flags
    rfl

/-- Debug texts show the identity and the flags of a dialect, in either layout, and the layout on
lines comes to the other one when its line breaks are taken back. Those of override sets show every
value that is set, and those of configurations the base and the overrides. -/
theorem debug_texts_identify :
    (∀ a b : Dialect, a.debug = b.debug ↔ a.id = b.id ∧ ∀ f, a.flags.get f = b.flags.get f) ∧
    (∀ a b : Dialect,
      a.debugOnLines = b.debugOnLines ↔ a.id = b.id ∧ ∀ f, a.flags.get f = b.flags.get f) ∧
    (∀ dialect : Dialect, onOneLine dialect.debugOnLines = dialect.debug) ∧
    (∀ a b : Overrides, a.record.oneLine = b.record.oneLine ↔ ∀ f, a.get f = b.get f) ∧
    ∀ a b : Conf, a.debug = b.debug ↔ a.base = b.base ∧ a.overrides = b.overrides := by
  refine ⟨?_, ?_, Dialect.onOneLine_debugOnLines, ?_, ?_⟩
  · intro a b
    rw [Dialect.debug_injective.eq_iff, Dialect.eq_iff_get]
  · intro a b
    rw [← Dialect.eq_iff_get]
    constructor
    · intro same
      have joined := congrArg onOneLine same
      rw [a.onOneLine_debugOnLines, b.onOneLine_debugOnLines] at joined
      exact Dialect.debug_injective joined
    · exact congrArg Dialect.debugOnLines
  · intro a b
    constructor
    · intro same f
      rw [Overrides.record_prefixFree.injective (congrArg String.toList same)]
    · intro agree
      rw [Overrides.ext_get agree]
  · intro a b
    rw [Conf.debug_injective.eq_iff]
    cases a
    cases b
    rw [Conf.mk.injEq]

end SyntaxDialects
