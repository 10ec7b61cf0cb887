import SyntaxDialects.Proofs.Text.Quoting
import SyntaxDialects.Text.Record

/-!
The two layouts of a record. A record on one line shows its values if their codes are prefix free,
and a record on lines becomes the one on one line when its line breaks are taken back.
-/
namespace SyntaxDialects.Text

namespace Record

theorem oneLine_toList (name : String) (fields : List (String × String)) :
    (oneLine ⟨name, fields⟩).toList = name.toList ++ " \x7b ".toList ++
      (", ".toList.intercalate (fields.map fun field =>
        (field.1 ++ ": ").toList ++ field.2.toList) ++ " \x7d".toList) := by
  simp [oneLine, String.toList_append, Function.comp_def]

/-- Records of one name with the same labels. -/
theorem oneLine_prefixFree {ι : Type} {β : ι → Type} (name : String) (labels : List ι)
    (label : ι → String) (code : (i : ι) → β i → String)
    (free : ∀ i, PrefixFree fun value : β i => (code i value).toList)
    {v w : (i : ι) → β i} {rest others : List Char}
    (same : (oneLine ⟨name, labels.map fun i => (label i, code i (v i))⟩).toList ++ rest =
      (oneLine ⟨name, labels.map fun i => (label i, code i (w i))⟩).toList ++ others) :
    (∀ i ∈ labels, v i = w i) ∧ rest = others := by
  simp only [oneLine_toList, List.map_map, Function.comp_def, List.append_assoc,
    List.append_cancel_left_eq] at same
  obtain ⟨values, tails⟩ := intercalate_prefixFree (", ".toList) (fun i => (label i ++ ": ").toList)
    (fun i value => (code i value).toList) free v w labels _ _ same
  exact ⟨values, List.append_cancel_left tails⟩

end Record

/-- Takes line breaks back: a break with the margin behind it becomes a blank, and a comma in front
of it goes if the next line closes a record. -/
def joinLines : List Char → List Char
  | [] => []
  | c :: rest =>
    let joined := joinLines rest
    if c = '\n' then ' ' :: joined.dropWhile (· == ' ')
    else if c = ',' ∧ rest.head? = some '\n' ∧ joined.take 2 = [' ', '\x7d'] then joined
    else c :: joined

def onOneLine (text : String) : String :=
  String.ofList (joinLines text.toList)

section Joining

variable {c : Char} {rest : List Char}

theorem joinLines_cons (noBreak : c ≠ '\n') (inside : c = ',' → rest.head? ≠ some '\n') :
    joinLines (c :: rest) = c :: joinLines rest := by
  rw [joinLines, if_neg noBreak, if_neg]
  rintro ⟨comma, ends, _⟩
  exact inside comma ends

/-- Nothing happens in a line but to a comma at its end. -/
theorem joinLines_append_of_flat {text : List Char} (flat : '\n' ∉ text)
    (inside : text.getLast? = some ',' → rest.head? ≠ some '\n') :
    joinLines (text ++ rest) = text ++ joinLines rest := by
  induction text with
  | nil => rfl
  | cons c text ih =>
    rw [List.mem_cons, not_or] at flat
    rw [List.cons_append, List.cons_append]
    cases text with
    | nil => exact joinLines_cons (Ne.symm flat.1) fun comma => inside (by rw [comma]; rfl)
    | cons d text =>
      have first : ((d :: text) ++ rest).head? ≠ some '\n' := by
        intro first
        exact flat.2 (by rw [Option.some.inj first]; exact List.mem_cons_self ..)
      rw [joinLines_cons (Ne.symm flat.1) fun _ => first, ih flat.2 inside]

/-- A line behind a break, on whatever margin. -/
theorem joinLines_break {margin text : List Char} (blank : ∀ d ∈ margin, d = ' ')
    (front : text.head? = some c) (visible : c ∉ [' ', '\n', ',']) :
    joinLines ('\n' :: (margin ++ text)) = ' ' :: joinLines text := by
  obtain ⟨rest, rfl⟩ : ∃ rest, text = c :: rest := List.head?_eq_some_iff.mp front
  simp only [List.mem_cons, List.not_mem_nil, or_false, not_or] at visible
  obtain ⟨noBlank, noBreak, noComma⟩ := visible
  have flat : '\n' ∉ margin := by
    intro member
    exact absurd (blank _ member) (by decide)
  have first : (c :: rest).head? ≠ some '\n' := by simpa using noBreak
  rw [joinLines, if_pos rfl, joinLines_append_of_flat flat fun _ => first,
    joinLines_cons noBreak fun comma => absurd comma noComma,
    List.dropWhile_append_of_pos (by simpa using blank),
    List.dropWhile_cons_of_neg (by simpa using noBlank)]

theorem joinLines_comma (more : List Char) :
    joinLines (',' :: '\n' :: more) =
      if (joinLines ('\n' :: more)).take 2 = [' ', '\x7d'] then joinLines ('\n' :: more)
      else ',' :: joinLines ('\n' :: more) := by
  rw [joinLines, if_neg (by decide)]
  simp

end Joining

def LaysOut (lines flat : List Char) : Prop :=
  ∀ rest : List Char, rest.head? ≠ some '\n' → joinLines (lines ++ rest) = flat ++ joinLines rest

theorem laysOut_of_flat {text : List Char} (flat : '\n' ∉ text) : LaysOut text text :=
  fun _ inside => joinLines_append_of_flat flat fun _ => inside

structure Labelled where
  label : String
  lines : String
  flat : String
  front : ∃ c, label.toList.head? = some c ∧ c ∉ [' ', '\n', ','] ∧ c ≠ '\x7d'
  noBreak : '\n' ∉ label.toList
  laysOut : LaysOut lines.toList flat.toList

namespace Labelled

variable {margin closing rest : List Char}

def onLine (entry : Labelled) : List Char :=
  (entry.label ++ ": ").toList ++ entry.flat.toList

def onLines (entry : Labelled) (margin : List Char) : List Char :=
  margin ++ ((entry.label ++ ": ").toList ++ (entry.lines.toList ++ [',', '\n']))

theorem joinLines_onLines (entry : Labelled) (blank : ∀ d ∈ margin, d = ' ') :
    joinLines ('\n' :: (entry.onLines margin ++ rest)) =
      ' ' :: (entry.onLine ++ joinLines (',' :: '\n' :: rest)) := by
  obtain ⟨c, front, visible, _⟩ := entry.front
  have front : ((entry.label ++ ": ").toList ++
      (entry.lines.toList ++ ',' :: '\n' :: rest)).head? = some c := by
    simp [String.toList_append, front]
  have flat : '\n' ∉ (entry.label ++ ": ").toList := by
    simpa [String.toList_append] using entry.noBreak
  have line : entry.onLines margin ++ rest = margin ++ ((entry.label ++ ": ").toList ++
      (entry.lines.toList ++ ',' :: '\n' :: rest)) := by
    simp [onLines]
  rw [line, joinLines_break blank front visible, joinLines_append_of_flat flat (by simp),
    entry.laysOut _ (by simp), onLine, List.append_assoc]

/-- In front of another entry the comma stays. -/
theorem joinLines_comma_onLines (entry : Labelled) (blank : ∀ d ∈ margin, d = ' ') :
    joinLines (',' :: '\n' :: (entry.onLines margin ++ rest)) =
      ',' :: joinLines ('\n' :: (entry.onLines margin ++ rest)) := by
  obtain ⟨c, front, _, noBrace⟩ := entry.front
  rw [joinLines_comma, if_neg]
  rw [entry.joinLines_onLines blank, List.take_succ_cons, List.cons.injEq]
  rintro ⟨_, closes⟩
  have first := congrArg List.head? closes
  rw [onLine, String.toList_append, List.head?_take, if_neg Nat.one_ne_zero, List.append_assoc,
    List.append_assoc, List.head?_append, front] at first
  exact noBrace (Option.some.inj first)

/-- In front of the end of the record it goes. -/
theorem joinLines_comma_closing (blank : ∀ d ∈ closing, d = ' ') :
    joinLines (',' :: '\n' :: (closing ++ '\x7d' :: rest)) = ' ' :: '\x7d' :: joinLines rest := by
  have brace : '\x7d' ≠ ',' := by decide
  have line :
      joinLines ('\n' :: (closing ++ '\x7d' :: rest)) = ' ' :: '\x7d' :: joinLines rest := by
    rw [joinLines_break blank rfl (by decide),
      joinLines_cons (by decide) fun comma => absurd comma brace]
  rw [joinLines_comma, line, if_pos]
  rfl

theorem joinLines_entries (blank : ∀ d ∈ margin, d = ' ') (blankToo : ∀ d ∈ closing, d = ' ')
    {entries : List Labelled} (nonempty : entries ≠ []) :
    joinLines ('\n' :: ((entries.flatMap fun entry => entry.onLines margin) ++
        (closing ++ '\x7d' :: rest))) =
      ' ' :: (", ".toList.intercalate (entries.map onLine) ++ ' ' :: '\x7d' :: joinLines rest) := by
  induction entries with
  | nil => exact absurd rfl nonempty
  | cons entry entries ih =>
    rw [List.flatMap_cons, List.append_assoc, entry.joinLines_onLines blank]
    -- Whether the comma stays depends on the line behind it.
    cases entries with
    | nil =>
      rw [List.flatMap_nil, List.nil_append, joinLines_comma_closing blankToo, List.map_singleton,
        List.intercalate_singleton]
    | cons second entries =>
      have later := ih (List.cons_ne_nil _ _)
      rw [List.flatMap_cons, List.append_assoc] at later
      rw [List.flatMap_cons, List.append_assoc, second.joinLines_comma_onLines blank, later]
      simp [List.intercalate_cons_cons]

end Labelled

/-- A record on lines comes to the record on one line, at whatever depth it stands. -/
theorem laysOut_record {name : String} (flat : '\n' ∉ name.toList) (depth : Nat)
    {entries : List Labelled} (nonempty : entries ≠ []) :
    LaysOut (Record.onLines depth ⟨name, entries.map fun e => (e.label, e.lines)⟩).toList
      (Record.oneLine ⟨name, entries.map fun e => (e.label, e.flat)⟩).toList := by
  intro rest _
  let margin := List.replicate (4 * depth) ' '
  have blank : ∀ d ∈ margin, d = ' ' := fun d member => List.eq_of_mem_replicate member
  have blankToo : ∀ d ∈ margin ++ "    ".toList, d = ' ' := by
    intro d member
    rcases List.mem_append.mp member with inMargin | inIndent
    · exact blank d inMargin
    · simpa using inIndent
  have lines :
      (Record.onLines depth ⟨name, entries.map fun e => (e.label, e.lines)⟩).toList ++ rest =
        (name ++ " \x7b").toList ++ '\n' ::
        ((entries.flatMap fun e => e.onLines (margin ++ "    ".toList)) ++
          (margin ++ '\x7d' :: rest)) := by
    simp [Record.onLines, margin, String.toList_join, String.toList_append, List.flatMap_map,
      Labelled.onLines, Function.comp_def]
  have front : '\n' ∉ (name ++ " \x7b").toList := by
    simpa [String.toList_append] using flat
  have entriesFlat : (entries.map fun e => (e.label, e.flat)).map (fun field =>
      (field.1 ++ ": ").toList ++ field.2.toList) = entries.map Labelled.onLine := by
    simp [Labelled.onLine, Function.comp_def]
  rw [lines, joinLines_append_of_flat front (by simp),
    Labelled.joinLines_entries blankToo blank nonempty, Record.oneLine_toList, entriesFlat]
  simp [String.toList_append]

/-- A brace and a comma in a value are no end of a record. -/
example : onOneLine "Pair \x7b\n    first: 1,\n    second: \",\x7d\",\n\x7d" =
    "Pair \x7b first: 1, second: \",\x7d\" \x7d" := by
  decide

end SyntaxDialects.Text
