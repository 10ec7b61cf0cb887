import SyntaxDialects.Proofs.Dialect.Display
import SyntaxDialects.Proofs.Overrides
import SyntaxDialects.Proofs.Session.Runs
import SyntaxDialects.Proofs.Text.Layout

/-!
Dialects laid out in a width. A dialect that is not canonical is laid out on one line exactly if its
columns are within the width, and otherwise with every field on a line of its own; either way the
layout can be undone, so both show the same fields in the same order.
-/
namespace SyntaxDialects
open Text

def commaEnded : List String → List String
  | [] => []
  | [last] => [last]
  | first :: second :: rest => (first ++ ",") :: commaEnded (second :: rest)

/-- Takes lines off their margins and joins them, with a blank behind every comma at an end. -/
def rejoin : List (List Char) → List Char
  | [] => []
  | [last] => last.dropWhile (· == ' ')
  | first :: second :: rest =>
    first.dropWhile (· == ' ') ++ (if first.getLast? = some ',' then [' '] else []) ++
      rejoin (second :: rest)

def linesOf (text : String) : List (List Char) :=
  text.toList.splitOn '\n'

def undoLayout (text : String) : String :=
  String.ofList (rejoin (linesOf text))

namespace Flags

def fieldTexts (flags : Flags) : List String :=
  Field.all.map fun f => f.name ++ " = " ++ f.valueText (flags.get f)

def onOneLine (flags : Flags) : String :=
  "Dialect(" ++ ", ".intercalate flags.fieldTexts ++ ")"

def fieldLines (flags : Flags) : List String :=
  "Dialect(" :: ((commaEnded flags.fieldTexts).map ("  " ++ ·) ++ [")"])

def onFieldLines (flags : Flags) : String :=
  "\n".intercalate flags.fieldLines

end Flags

theorem length_commaEnded (texts : List String) : (commaEnded texts).length = texts.length := by
  induction texts with
  | nil => rfl
  | cons first rest ih =>
    cases rest with
    | nil => rfl
    | cons second rest => simpa [commaEnded] using ih

theorem commaEnded_ne_nil {texts : List String} (nonempty : texts ≠ []) :
    commaEnded texts ≠ [] := by
  intro empty
  have lengths := length_commaEnded texts
  rw [empty] at lengths
  exact nonempty (List.length_eq_zero_iff.mp lengths.symm)

theorem mem_commaEnded {texts : List String} {text : String} (member : text ∈ commaEnded texts) :
    ∃ shown ∈ texts, text = shown ∨ text = shown ++ "," := by
  induction texts with
  | nil => cases member
  | cons first rest ih =>
    cases rest with
    | nil => exact ⟨text, member, .inl rfl⟩
    | cons second rest =>
      rcases List.mem_cons.mp member with rfl | later
      · exact ⟨first, List.mem_cons_self .., .inr rfl⟩
      · obtain ⟨shown, inRest, form⟩ := ih later
        exact ⟨shown, List.mem_cons_of_mem _ inRest, form⟩

theorem intercalate_commaEnded (margin : String) {texts : List String} (nonempty : texts ≠ []) :
    "\n".intercalate ((commaEnded texts).map (margin ++ ·)) =
      margin ++ ("," ++ ("\n" ++ margin)).intercalate texts := by
  induction texts with
  | nil => exact absurd rfl nonempty
  | cons first rest ih =>
    cases rest with
    | nil => simp [commaEnded]
    | cons second rest =>
      have later := ih (List.cons_ne_nil _ _)
      have more : (commaEnded (second :: rest)).map (margin ++ ·) ≠ [] := by
        simpa using commaEnded_ne_nil (List.cons_ne_nil second rest)
      rw [commaEnded, List.map_cons, String.intercalate_cons_of_ne_nil more, later,
        String.intercalate_cons_cons]
      simp only [String.append_assoc]

section Fields

structure FieldText (text : String) : Prop where
  front : ∃ c rest, text.toList = c :: rest ∧ c.toNat < 0x80 ∧ c ≠ ' '
  end_ne_comma : text.toList.getLast? ≠ some ','
  printable : ∀ c ∈ text.toList, isUnprintable c = false

theorem Field.name_front (f : Field) :
    ∃ c rest, f.name.toList = c :: rest ∧ c.toNat < 0x80 ∧ c ≠ ' ' := by
  cases f with
  | allow s => cases s <;> exact ⟨_, _, rfl, by decide, by decide⟩
  | separator => exact ⟨_, _, rfl, by decide, by decide⟩

theorem printable_of_all {text : String}
    (checked : (text.toList.all fun c => !isUnprintable c) = true) :
    ∀ c ∈ text.toList, isUnprintable c = false := by
  simpa using checked

theorem Field.printable_name (f : Field) : ∀ c ∈ f.name.toList, isUnprintable c = false := by
  apply printable_of_all
  cases f with
  | allow s => cases s <;> decide +kernel
  | separator => decide +kernel

theorem Field.valueText_end (f : Field) (value : f.Value) :
    ∃ last, (f.valueText value).toList.getLast? = some last ∧ last ≠ ',' := by
  cases f with
  | allow s =>
    have both : ∀ value : Bool,
        (if value then "true" else "false").toList.getLast? = some 'e' := by decide
    exact ⟨'e', both value, by decide⟩
  | separator =>
    refine ⟨'"', ?_, by decide⟩
    rw [Field.valueText, quoted, String.toList_ofList, List.cons_append, ← List.cons_append,
      List.getLast?_concat]

theorem Field.printable_valueText (f : Field) (value : f.Value) :
    ∀ c ∈ (f.valueText value).toList, isUnprintable c = false := by
  cases f with
  | allow s =>
    apply printable_of_all
    have both : ∀ value : Bool,
        ((if value then "true" else "false").toList.all fun c => !isUnprintable c) = true := by
      decide
    exact both value
  | separator =>
    intro c member
    rw [Field.valueText, quoted, String.toList_ofList, List.cons_append, List.mem_cons,
      List.mem_append, List.mem_singleton] at member
    rcases member with rfl | inside | rfl
    · decide
    · exact printable_escape inside
    · decide

theorem fieldText_of_field (f : Field) (value : f.Value) :
    FieldText (f.name ++ " = " ++ f.valueText value) := by
  obtain ⟨c, rest, name, ascii, visible⟩ := f.name_front
  obtain ⟨last, text, noComma⟩ := f.valueText_end value
  constructor
  · refine ⟨c, rest ++ " = ".toList ++ (f.valueText value).toList, ?_, ascii, visible⟩
    rw [String.toList_append, String.toList_append, name, List.cons_append, List.cons_append]
  · rw [String.toList_append, List.getLast?_append, text]
    simpa using noComma
  · intro d member
    rw [String.toList_append, String.toList_append, List.mem_append, List.mem_append] at member
    rcases member with (inName | inSign) | inValue
    · exact f.printable_name d inName
    · exact printable_of_all (by decide) d inSign
    · exact f.printable_valueText value d inValue

theorem fieldText_of_mem {flags : Flags} {text : String} (member : text ∈ flags.fieldTexts) :
    FieldText text := by
  obtain ⟨f, _, rfl⟩ := List.mem_map.mp member
  exact fieldText_of_field f _

end Fields

/-! The layout that breaks. -/

theorem rejoin_cons (line : List Char) {others : List (List Char)} (more : others ≠ []) :
    rejoin (line :: others) =
      line.dropWhile (· == ' ') ++ (if line.getLast? = some ',' then [' '] else []) ++
        rejoin others := by
  cases others with
  | nil => exact absurd rfl more
  | cons second rest => rfl

theorem FieldText.dropWhile_margin {text : String} (field : FieldText text) (more : List Char) :
    ("  ".toList ++ text.toList ++ more).dropWhile (· == ' ') = text.toList ++ more := by
  obtain ⟨c, rest, form, _, visible⟩ := field.front
  have kept : (c == ' ') = false := by simpa using visible
  simp [form, kept]

theorem rejoin_fieldLines {texts : List String} (nonempty : texts ≠ [])
    (fields : ∀ text ∈ texts, FieldText text) :
    rejoin (((commaEnded texts).map ("  " ++ ·) ++ [")"]).map String.toList) =
      (", ".intercalate texts).toList ++ [')'] := by
  induction texts with
  | nil => exact absurd rfl nonempty
  | cons first rest ih =>
    have field := fields first (List.mem_cons_self ..)
    cases rest with
    | nil =>
      have line := field.dropWhile_margin []
      have noComma : ("  ".toList ++ first.toList).getLast? ≠ some ',' := by
        obtain ⟨c, front, form, _⟩ := field.front
        have last := field.end_ne_comma
        rw [form] at last ⊢
        rwa [List.getLast?_append_of_ne_nil _ (List.cons_ne_nil c front)]
      simp only [List.append_nil] at line
      simp only [commaEnded, List.map_cons, List.map_nil, List.cons_append, List.nil_append,
        String.toList_append, rejoin, line, if_neg noComma, String.intercalate_singleton,
        List.append_nil]
      rfl
    | cons second rest =>
      have line := field.dropWhile_margin [',']
      have later := ih (List.cons_ne_nil _ _) fun text member =>
        fields text (List.mem_cons_of_mem _ member)
      have comma : ("  ".toList ++ (first.toList ++ [','])).getLast? = some ',' := by
        rw [← List.append_assoc, List.getLast?_concat]
      have more : ((commaEnded (second :: rest)).map ("  " ++ ·) ++ [")"]).map String.toList ≠ [] := by
        simp
      rw [commaEnded, List.map_cons, List.cons_append, List.map_cons, rejoin_cons _ more, later,
        String.intercalate_cons_cons]
      simp only [String.toList_append] at line ⊢
      rw [List.append_assoc] at line
      rw [show ",".toList = [','] from rfl, line, if_pos comma]
      simp

namespace Flags

theorem fieldTexts_ne_nil (flags : Flags) : flags.fieldTexts ≠ [] := by
  intro empty
  have lengths := congrArg List.length empty
  rw [fieldTexts, List.length_map] at lengths
  cases lengths

def body (flags : Flags) : Doc :=
  .text "Dialect(" ++
    .nest 2 (.line "" ++ Doc.intersperse (.text "," ++ .line " ") (flags.fieldTexts.map .text)) ++
    .line "" ++ .text ")"

theorem ungrouped_body (flags : Flags) : flags.body.Ungrouped := by
  have fields :
      (Doc.intersperse (.text "," ++ .line " ") (flags.fieldTexts.map .text)).Ungrouped := by
    have between : (Doc.text "," ++ Doc.line " ").Ungrouped := ⟨trivial, trivial⟩
    apply Doc.forall_intersperse Doc.Ungrouped trivial And.intro between
    intro doc member
    obtain ⟨text, _, rfl⟩ := List.mem_map.mp member
    trivial
  exact ⟨⟨⟨trivial, trivial, fields⟩, trivial⟩, trivial⟩

theorem textsApart_body (flags : Flags) : flags.body.TextsApart := by
  have ascii (text : String) (c : Char) (rest : List Char) (form : text.toList = c :: rest)
      (small : c.toNat < 0x80) : Apart text := apart_of_ascii form small
  have fields :
      (Doc.intersperse (.text "," ++ .line " ") (flags.fieldTexts.map .text)).TextsApart := by
    have between : (Doc.text "," ++ Doc.line " ").TextsApart :=
      ⟨ascii "," ',' [] rfl (by decide), ascii " " ' ' [] rfl (by decide)⟩
    apply Doc.forall_intersperse Doc.TextsApart rfl And.intro between
    intro doc member
    obtain ⟨text, inTexts, rfl⟩ := List.mem_map.mp member
    obtain ⟨c, rest, form, small, _⟩ := (fieldText_of_mem inTexts).front
    exact ascii text c rest form small
  exact ⟨⟨⟨ascii "Dialect(" 'D' _ rfl (by decide), rfl, fields⟩, rfl⟩,
    ascii ")" ')' [] rfl (by decide)⟩

theorem flat_body (flags : Flags) : flags.body.flat = flags.onOneLine := by
  have fields := Doc.write_intersperse Doc.flat rfl (fun _ _ => rfl)
    (.text "," ++ .line " ") (flags.fieldTexts.map .text)
  have texts : (flags.fieldTexts.map Doc.text).map Doc.flat = flags.fieldTexts := by
    simp [Function.comp_def, Doc.flat]
  rw [texts] at fields
  change "Dialect(" ++ ("" ++ (Doc.intersperse _ _).flat) ++ "" ++ ")" = _
  rw [fields, String.append_empty, String.empty_append]
  rfl

theorem broken_body (flags : Flags) : flags.body.broken 0 = flags.onFieldLines := by
  have fields := Doc.write_intersperse (Doc.broken 2) rfl (fun _ _ => rfl)
    (.text "," ++ .line " ") (flags.fieldTexts.map .text)
  have texts : (flags.fieldTexts.map Doc.text).map (Doc.broken 2) = flags.fieldTexts := by
    simp [Function.comp_def, Doc.broken]
  have more : (commaEnded flags.fieldTexts).map ("  " ++ ·) ≠ [] := by
    simpa using commaEnded_ne_nil flags.fieldTexts_ne_nil
  rw [texts] at fields
  change "Dialect(" ++ ("\n" ++ "  " ++ (Doc.intersperse _ _).broken 2) ++ ("\n" ++ "") ++ ")" = _
  rw [fields, onFieldLines, fieldLines, String.intercalate_cons_of_ne_nil (by simp),
    String.intercalate_append_of_ne_nil more (List.cons_ne_nil _ _),
    intercalate_commaEnded "  " flags.fieldTexts_ne_nil]
  simp only [String.append_assoc, String.append_empty, String.intercalate_singleton]
  rfl

end Flags

namespace Dialect

variable {dialect : Dialect}

theorem dump_eq (dialect : Dialect) : dialect.dump = dialect.flags.fieldTexts := by
  rw [dump, Flags.fields, List.map_map]
  rfl

theorem plain_nameless (nameless : dialect.name? = none) (style : Style) :
    dialect.plain style = dialect.flags.onOneLine := by
  cases style <;> rw [plain, nameless, dump_eq] <;> rfl

theorem laidOut_nameless (nameless : dialect.name? = none) (width : Nat) (style : Style) :
    dialect.laidOut width style =
      if columns dialect.flags.onOneLine ≤ width then dialect.flags.onOneLine
      else dialect.flags.onFieldLines := by
  have grouped : dialect.doc style = .group dialect.flags.body := by
    cases style <;> rw [doc, nameless, dump_eq] <;> rfl
  rw [laidOut, grouped, Doc.render_group width dialect.flags.ungrouped_body
    dialect.flags.textsApart_body, Flags.flat_body, Flags.broken_body]

theorem laidOut_named {name : String} (named : dialect.name? = some name) (width : Nat)
    (style : Style) : dialect.laidOut width style = name := by
  cases style <;>
    rw [laidOut, doc, named, Doc.render, Doc.layOut, Doc.layOut, String.append_empty]

theorem plain_named {name : String} (named : dialect.name? = some name) (style : Style) :
    dialect.plain style = name := by
  cases style <;> rw [plain, named]

end Dialect

/-! What a text on one line is made of. -/

theorem printable_intercalate {separator : String} {texts : List String}
    (between : ∀ c ∈ separator.toList, isUnprintable c = false)
    (each : ∀ text ∈ texts, ∀ c ∈ text.toList, isUnprintable c = false) :
    ∀ c ∈ (separator.intercalate texts).toList, isUnprintable c = false := by
  induction texts with
  | nil => simp
  | cons first rest ih =>
    have head := each first (List.mem_cons_self ..)
    have tail := ih fun text member => each text (List.mem_cons_of_mem _ member)
    cases rest with
    | nil => simpa using head
    | cons second rest =>
      intro c member
      rw [String.intercalate_cons_cons, String.toList_append, String.toList_append,
        List.mem_append, List.mem_append] at member
      rcases member with (inFirst | inSeparator) | inRest
      · exact head c inFirst
      · exact between c inSeparator
      · exact tail c inRest

theorem ne_newline {c : Char} (printable : isUnprintable c = false) : c ≠ '\n' := by
  rintro rfl
  have newline : isUnprintable '\n' = true := by decide
  rw [newline] at printable
  cases printable

theorem Canon.printable_name (canon : Canon) :
    ∀ c ∈ canon.name.toList, isUnprintable c = false := by
  apply printable_of_all
  cases canon <;> decide +kernel

theorem Canon.name_front (canon : Canon) :
    ∃ c rest, canon.name.toList = c :: rest ∧ c ≠ ' ' := by
  cases canon <;> exact ⟨_, _, rfl, by decide⟩

namespace Dialect

theorem printable_plain (dialect : Dialect) (style : Style) :
    ∀ c ∈ (dialect.plain style).toList, isUnprintable c = false := by
  cases named : dialect.name? with
  | some name =>
    obtain ⟨canon, rfl, _⟩ := name?_eq_some.mp named
    rw [plain_named named]
    exact canon.printable_name
  | none =>
    have opening : ∀ c ∈ "Dialect(".toList, isUnprintable c = false := printable_of_all (by decide)
    have between : ∀ c ∈ ", ".toList, isUnprintable c = false := printable_of_all (by decide)
    have closing : ∀ c ∈ ")".toList, isUnprintable c = false := printable_of_all (by decide)
    have fields := printable_intercalate between
      fun text (member : text ∈ dialect.flags.fieldTexts) => (fieldText_of_mem member).printable
    intro c member
    rw [plain_nameless named, Flags.onOneLine, String.toList_append, String.toList_append,
      List.mem_append, List.mem_append] at member
    rcases member with (inOpening | inFields) | inClosing
    · exact opening c inOpening
    · exact fields c inFields
    · exact closing c inClosing

theorem plain_front (dialect : Dialect) (style : Style) :
    ∃ c rest, (dialect.plain style).toList = c :: rest ∧ c ≠ ' ' := by
  cases named : dialect.name? with
  | some name =>
    obtain ⟨canon, rfl, _⟩ := name?_eq_some.mp named
    rw [plain_named named]
    exact canon.name_front
  | none =>
    rw [plain_nameless named, Flags.onOneLine, String.toList_append, String.toList_append]
    exact ⟨'D', _, rfl, by decide⟩

theorem newline_notMem_plain (dialect : Dialect) (style : Style) :
    '\n' ∉ (dialect.plain style).toList :=
  fun member => ne_newline (dialect.printable_plain style _ member) rfl

theorem undoLayout_plain (dialect : Dialect) (style : Style) :
    undoLayout (dialect.plain style) = dialect.plain style := by
  obtain ⟨c, rest, form, visible⟩ := dialect.plain_front style
  have kept : (c == ' ') = false := by simpa using visible
  rw [undoLayout, linesOf, List.splitOn_eq_singleton (dialect.newline_notMem_plain style), rejoin,
    form, List.dropWhile_cons, kept, if_neg (by simp), ← form, String.ofList_toList]

end Dialect

namespace Flags

theorem length_fieldLines (flags : Flags) : flags.fieldLines.length = 20 := by
  rw [fieldLines, List.length_cons, List.length_append, List.length_map, length_commaEnded,
    fieldTexts, List.length_map]
  rfl

theorem newline_notMem_fieldLines (flags : Flags) :
    ∀ line ∈ flags.fieldLines.map String.toList, '\n' ∉ line := by
  intro line member inLine
  obtain ⟨text, inLines, rfl⟩ := List.mem_map.mp member
  rw [fieldLines, List.mem_cons, List.mem_append, List.mem_singleton, List.mem_map] at inLines
  rcases inLines with rfl | ⟨field, inFields, rfl⟩ | rfl
  · exact absurd inLine (by decide)
  · rw [String.toList_append, List.mem_append] at inLine
    rcases inLine with inMargin | inField
    · exact absurd inMargin (by decide)
    · obtain ⟨shown, inTexts, rfl | rfl⟩ := mem_commaEnded inFields
      · exact ne_newline ((fieldText_of_mem inTexts).printable _ inField) rfl
      · rw [String.toList_append, List.mem_append] at inField
        rcases inField with inShown | inComma
        · exact ne_newline ((fieldText_of_mem inTexts).printable _ inShown) rfl
        · exact absurd inComma (by decide)
  · exact absurd inLine (by decide)

theorem linesOf_onFieldLines (flags : Flags) :
    linesOf flags.onFieldLines = flags.fieldLines.map String.toList := by
  have nonempty : flags.fieldLines.map String.toList ≠ [] := by
    simp [fieldLines]
  rw [linesOf, onFieldLines, String.toList_intercalate]
  exact List.splitOn_intercalate '\n' flags.newline_notMem_fieldLines nonempty

theorem undoLayout_onFieldLines (flags : Flags) :
    undoLayout flags.onFieldLines = flags.onOneLine := by
  have fields := rejoin_fieldLines flags.fieldTexts_ne_nil fun _ => fieldText_of_mem
  have more : ((commaEnded flags.fieldTexts).map ("  " ++ ·) ++ [")"]).map String.toList ≠ [] := by
    simp
  rw [undoLayout, linesOf_onFieldLines, fieldLines, List.map_cons, rejoin_cons _ more, fields,
    ← String.toList_inj, String.toList_ofList, onOneLine, String.toList_append,
    String.toList_append]
  simp

theorem onOneLine_injective : Function.Injective onOneLine := by
  have same : onOneLine = dumpOver isUnprintable := by
    funext flags
    simp only [onOneLine, fieldTexts, dumpOver, Field.valueText_eq_valueTextOver]
  rw [same]
  exact dumpOver_injective isUnprintable

theorem onFieldLines_injective : Function.Injective onFieldLines := by
  intro a b same
  apply onOneLine_injective
  rw [← undoLayout_onFieldLines, same, undoLayout_onFieldLines]

end Flags

/-- At every width a canonical dialect is shown by its name, and any other on one line exactly if
its columns are within the width and otherwise on twenty lines. Between the first line and the last
each field has one line, which tells its value, and both layouts can be undone. -/
theorem layouts_agree (dialect : Dialect) (style : Style) (width : Nat) :
    let texts := Field.all.map fun f => f.name ++ " = " ++ f.valueText (dialect.flags.get f)
    let lines := "Dialect(" :: ((commaEnded texts).map ("  " ++ ·) ++ [")"])
    let broken := "\n".intercalate lines
    (∀ c : Canon, c.dialect? = some dialect →
      dialect.laidOut width style = c.name ∧ dialect.plain style = c.name) ∧
    (∀ steps, dialect.Met steps → (∀ c : Canon, c.dialect? ≠ some dialect) →
      dialect.plain style = "Dialect(" ++ ", ".intercalate texts ++ ")" ∧
      (columns (dialect.plain style) ≤ width →
        dialect.laidOut width style = dialect.plain style) ∧
      (width < columns (dialect.plain style) → dialect.laidOut width style = broken)) ∧
    '\n' ∉ (dialect.plain style).toList ∧
    linesOf broken = lines.map String.toList ∧ (linesOf broken).length = 20 ∧
    (∀ f, Field.all.count f = 1) ∧ Function.Injective Field.name ∧
    (∀ flags : Flags, flags.onFieldLines = broken → flags = dialect.flags) ∧
    undoLayout (dialect.laidOut width style) = dialect.plain style ∧
    ((∀ c ∈ (dialect.plain style).toList, c.toNat < 0x80) →
      columns (dialect.plain style) = (dialect.plain style).length) := by
  intro texts lines broken
  have split : linesOf broken = lines.map String.toList := dialect.flags.linesOf_onFieldLines
  refine ⟨?_, ?_, dialect.newline_notMem_plain style, split, ?_, ?_, Field.name_injective,
    fun _ same => Flags.onFieldLines_injective same, ?_, columns_ascii⟩
  · intro c canonical
    have named := Dialect.name?_of_canonical canonical
    exact ⟨Dialect.laidOut_named named width style, Dialect.plain_named named style⟩
  · intro steps met other
    have nameless := met.nameless other
    rw [Dialect.laidOut_nameless nameless, Dialect.plain_nameless nameless]
    exact ⟨rfl, fun within => if_pos within, fun beyond => if_neg (Nat.not_le_of_lt beyond)⟩
  · rw [split, List.length_map]
    exact dialect.flags.length_fieldLines
  · intro f
    exact List.count_eq_one_of_mem Field.nodup_all f.mem_all
  · cases named : dialect.name? with
    | some name =>
      rw [Dialect.laidOut_named named, ← Dialect.plain_named named style]
      exact dialect.undoLayout_plain style
    | none =>
      have oneLine := dialect.undoLayout_plain style
      rw [Dialect.plain_nameless named] at oneLine ⊢
      rw [Dialect.laidOut_nameless named]
      split
      · exact oneLine
      · exact dialect.flags.undoLayout_onFieldLines

/-- A separator of a wide character and a line break, at the last width that is too small and at
the first that is not. -/
theorem layouts_agree_at_the_boundary :
    let flags := Flags.bare.set .separator "漢\n"
    let dialect : Dialect := ⟨⟨13⟩, flags⟩
    dialect.Met [.make (.new flags) none] ∧ (∀ c : Canon, c.dialect? ≠ some dialect) ∧
      columns (dialect.plain .structural) = 552 ∧
      dialect.laidOut 551 .structural = flags.onFieldLines ∧
      dialect.laidOut 552 .structural = dialect.plain .structural ∧
      undoLayout (dialect.laidOut 551 .structural) = dialect.laidOut 552 .structural := by
  intro flags dialect
  have met : dialect.Met [.make (.new flags) none] := .inr (List.mem_singleton_self _)
  have other : ∀ c : Canon, c.dialect? ≠ some dialect := fun c => c.dialect?_ne (by decide)
  have width : columns (dialect.plain .structural) = 552 := by
    rw [Dialect.plain_nameless (met.nameless other), ← Flags.flat_body,
      Doc.columns_flat flags.textsApart_body]
    decide +kernel
  obtain ⟨_, narrow, _, _, _, _, _, _, undone, _⟩ := layouts_agree dialect .structural 551
  obtain ⟨_, wide, _⟩ := layouts_agree dialect .structural 552
  have oneLine := (wide _ met other).2.1 (Nat.le_of_eq width)
  have manyLines := (narrow _ met other).2.2 (by rw [width]; decide)
  exact ⟨met, other, width, manyLines, oneLine, by rw [undone, oneLine]⟩

end SyntaxDialects
