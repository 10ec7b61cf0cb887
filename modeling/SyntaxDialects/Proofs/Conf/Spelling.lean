import SyntaxDialects.Proofs.Conf.Growth
import SyntaxDialects.Proofs.Toml.Statements

/-!
The ways to write a configuration. Its overrides may be written under a header, as an inline table
or under dotted names, in any order and with any escapes in the strings; reading gives the
configuration back whichever is chosen.
-/
namespace SyntaxDialects.Conf
open Toml
open List (Forall₂)
open Overrides (Setting putAll)

structure WrittenString where
  value : String
  text : List Char
  spelled : SpelledString value text

inductive SpelledValue : (f : Field) → f.Value → List Char → Prop where
  | switch (s : Switch) (value : Bool) : SpelledValue (.allow s) value (wordOf value)
  | separator {value : String} {text : List Char} (spelled : SpelledString value text) :
    SpelledValue .separator value text

structure WrittenSetting where
  setting : Setting
  text : List Char
  spelled : SpelledValue setting.1 setting.2 text

namespace WrittenSetting

def name (written : WrittenSetting) : String :=
  written.setting.1.name

def entry (parents : List String) (written : WrittenSetting) : List Char :=
  assignmentText parents written.name written.text

end WrittenSetting

inductive Line where
  | base (name : WrittenString)
  | header
  | setting (written : WrittenSetting)
  | dotted (written : WrittenSetting)
  | inline (written : List WrittenSetting)

def Line.text : Line → List Char
  | base name => assignmentText [] "base" name.text
  | header => '[' :: (dottedName [] "overrides" ++ [']'])
  | setting written => written.entry []
  | dotted written => written.entry ["overrides"]
  | inline written => assignmentText [] "overrides" (braced (written.map (WrittenSetting.entry [])))

/-- The lines of a configuration in each of the three forms, with the settings in any order. -/
inductive Form (conf : Conf) : List Line → Prop where
  | header {base : WrittenString} {written : List WrittenSetting} (named : base.value = conf.base)
    (all : (written.map WrittenSetting.setting).Perm conf.overrides.settings) :
    Form conf (.base base :: .header :: written.map .setting)
  | inline {base : WrittenString} {written : List WrittenSetting} (named : base.value = conf.base)
    (all : (written.map WrittenSetting.setting).Perm conf.overrides.settings) :
    Form conf [.base base, .inline written]
  | dotted {base : WrittenString} {before after : List WrittenSetting}
    (named : base.value = conf.base)
    (all : ((before ++ after).map WrittenSetting.setting).Perm conf.overrides.settings) :
    Form conf (before.map .dotted ++ .base base :: after.map .dotted)

theorem bare_base : Bare "base" := by
  constructor <;> decide

theorem bare_overrides : Bare "overrides" := by
  constructor <;> decide

theorem bare_name (f : Field) : Bare f.name := by
  cases f with
  | allow s => cases s <;> constructor <;> decide
  | separator => constructor <;> decide

theorem readsAt_value (depth : Nat) {f : Field} {value : f.Value} {text : List Char}
    (spelled : SpelledValue f value text) :
    ReadsAt depth text fun node => f.valueIn node = some value := by
  cases spelled with
  | switch s value =>
    apply (readsAt_boolean depth value).imp
    rintro node ⟨span, rfl⟩
    rfl
  | separator spelled =>
    apply (readsAt_string depth spelled).imp
    rintro node ⟨span, rfl⟩
    rfl

def AssignsBase (base : String) (assignment : Assignment) : Prop :=
  assignment.Sets [] "base" fun node => ∃ span, node = .scalar (.string base) span

def AssignsTable (overrides : Overrides) (assignment : Assignment) : Prop :=
  assignment.Sets [] "overrides" fun node => ∃ table, node = .table table ∧ Lists table overrides

def OpensOverrides (header : Header) : Prop :=
  header.isElement = false ∧ header.path.parents.map Key.text = [] ∧
    header.path.last.text = "overrides"

def Line.Means : Line → Statement → Prop
  | base name, statement => ∃ assignment, statement = .assignment assignment ∧
      AssignsBase name.value assignment
  | header, statement => ∃ header, statement = .header header ∧ OpensOverrides header
  | setting written, statement => ∃ assignment, statement = .assignment assignment ∧
      SetsValue [] written.setting assignment
  | dotted written, statement => ∃ assignment, statement = .assignment assignment ∧
      SetsValue ["overrides"] written.setting assignment
  | inline written, statement => ∃ assignment, statement = .assignment assignment ∧
      AssignsTable (putAll (written.map WrittenSetting.setting) .none) assignment

def Line.Distinct : Line → Prop
  | inline written => (written.map fun entry => entry.setting.1).Nodup
  | _ => True

theorem assignAll_lists {written : List WrittenSetting}
    (distinct : (written.map fun entry => entry.setting.1).Nodup) {assignments : List Assignment}
    (sets : Forall₂ (fun entry => SetsValue [] entry.setting) written assignments)
    (origin : Origin) (notDotted : origin ≠ .dotted) (span : Span) :
    ∃ table, assignAll assignments (Table.empty origin span) = some table ∧
      Lists table (putAll (written.map WrittenSetting.setting) .none) := by
  have distinctFields : ((written.map WrittenSetting.setting).map Sigma.fst).Nodup := by
    rw [List.map_map]
    exact distinct
  have start : OpenLists (Table.empty origin span) .none := ⟨.empty origin span, notDotted⟩
  obtain ⟨table, filled, lists⟩ := assignAll_putAll
    (fun lists fresh sets => OpenLists.assign lists fresh sets) distinctFields
    (List.forall₂_map_left_iff.mpr sets) start fun setting _ => Overrides.get_none _
  exact ⟨table, filled, lists.toLists⟩

theorem readsLine {line : Line} (distinct : line.Distinct) : ReadsLine line.text line.Means := by
  have noParents : ∀ part ∈ ([] : List String), Bare part := List.forall_mem_nil Bare
  cases line with
  | base name =>
    exact readsLine_assignment noParents bare_base (by decide)
      (readsAt_string nestingLimit name.spelled)
  | header => exact readsLine_header noParents bare_overrides (by decide)
  | setting written =>
    exact readsLine_assignment noParents (bare_name written.setting.1) (by decide)
      (readsAt_value nestingLimit written.spelled)
  | dotted written =>
    have parents : ∀ part ∈ ["overrides"], Bare part := by
      intro part member
      rw [List.mem_singleton.mp member]
      exact bare_overrides
    exact readsLine_assignment parents (bare_name written.setting.1) (by decide)
      (readsAt_value nestingLimit written.spelled)
  | inline written =>
    have entries : ∀ entry ∈ written,
        ReadsEntry (nestingLimit - 1) (entry.entry []) (SetsValue [] entry.setting) :=
      fun entry _ => readsEntry_assignment (bare_name entry.setting.1)
        (readsAt_value (nestingLimit - 1) entry.spelled)
    have table := readsAt_braced entries fun assignments span sets =>
      assignAll_lists distinct sets .inline (by decide) span
    exact readsLine_assignment noParents bare_overrides (by decide) table

theorem distinct_of_all {written : List WrittenSetting} {overrides : Overrides}
    (all : (written.map WrittenSetting.setting).Perm overrides.settings) :
    (written.map fun entry => entry.setting.1).Nodup := by
  have distinct := (all.map Sigma.fst).nodup_iff.mpr overrides.nodup_fields_settings
  rw [List.map_map] at distinct
  exact distinct

theorem Form.distinct {conf : Conf} {lines : List Line} (form : conf.Form lines) :
    ∀ line ∈ lines, line.Distinct := by
  intro line member
  cases form with
  | header named all =>
    rcases List.mem_cons.mp member with rfl | member
    · trivial
    · rcases List.mem_cons.mp member with rfl | member
      · trivial
      · obtain ⟨written, _, rfl⟩ := List.mem_map.mp member
        trivial
  | inline named all =>
    rcases List.mem_pair.mp member with rfl | rfl
    · trivial
    · exact distinct_of_all all
  | dotted named all =>
    rcases List.mem_append.mp member with before | rest
    · obtain ⟨written, _, rfl⟩ := List.mem_map.mp before
      trivial
    · rcases List.mem_cons.mp rest with rfl | after
      · trivial
      · obtain ⟨written, _, rfl⟩ := List.mem_map.mp after
        trivial

section Documents

variable {base : String} {overrides : Overrides} {first : Assignment}

theorem assign_base {table : Table Node} (root : Root table none overrides)
    (notDotted : table.origin ≠ .dotted) (sets : AssignsBase base first) :
    assign table first = some (table.insert first.path.last first.value) ∧
      Root (table.insert first.path.last first.value) (some base) overrides := by
  have new : ∀ node, ¬ table.Holds first.path.last.text node := by
    rw [sets.last]
    exact root.noBase rfl
  obtain ⟨span, isText⟩ := sets.value
  refine ⟨assign_plain (List.map_eq_nil_iff.mp sets.parents) notDotted new, ?_⟩
  rw [isText]
  exact root.insert_base sets.last base span

theorem assign_base_first (sets : AssignsBase base first) (whole : Span) :
    ∃ document, assign (Table.empty .header whole) first = some document ∧
      Root document (some base) .none ∧ document.origin ≠ .dotted ∧
      ∀ node, ¬ document.Holds "overrides" node := by
  have notDotted : (Table.empty (ν := Node) .header whole).origin ≠ .dotted := by
    rintro ⟨⟩
  obtain ⟨assigned, root⟩ := assign_base (Root.empty .header whole) notDotted sets
  refine ⟨_, assigned, root, notDotted, ?_⟩
  intro node holds
  rcases Table.holds_insert.mp holds with ⟨same, _⟩ | ⟨_, before⟩
  · rw [sets.last] at same
    exact absurd same (by decide)
  · exact Table.not_holds_empty _ _ _ _ before

theorem assemble_header {written : List WrittenSetting} (sets : AssignsBase base first)
    {header : Header} (opens : OpensOverrides header) {settings : List Assignment}
    (setsAll : Forall₂ (fun entry => SetsValue [] entry.setting) written settings)
    (all : (written.map WrittenSetting.setting).Perm overrides.settings) (whole : Span) :
    ∃ document, assemble whole [first] [⟨header, settings⟩] = some document ∧
      Root document (some base) overrides := by
  obtain ⟨document, assigned, root, _, noOverrides⟩ := assign_base_first sets whole
  obtain ⟨notElement, parents, last⟩ := opens
  obtain ⟨filled, fills, lists⟩ :=
    assignAll_lists (distinct_of_all all) setsAll .header (by decide) header.span
  rw [Overrides.putAll_settings all] at lists
  rw [← last] at noOverrides
  have added : addSection document ⟨header, settings⟩ =
      some (document.insert header.path.last (.table filled)) :=
    addSection_new (List.map_eq_nil_iff.mp parents) notElement noOverrides fills
  refine ⟨_, ?_, root.insert_overrides last lists⟩
  simp [assemble, assignAll, assigned, added]

theorem assemble_inline (sets : AssignsBase base first) {second : Assignment}
    (setsTable : AssignsTable overrides second) (whole : Span) :
    ∃ document, assemble whole [first, second] [] = some document ∧
      Root document (some base) overrides := by
  obtain ⟨document, assigned, root, notDotted, noOverrides⟩ := assign_base_first sets whole
  obtain ⟨table, isTable, lists⟩ := setsTable.value
  rw [← setsTable.last] at noOverrides
  have next := assign_plain (List.map_eq_nil_iff.mp setsTable.parents) notDotted noOverrides
  rw [isTable] at next
  refine ⟨_, ?_, root.insert_overrides setsTable.last lists⟩
  simp [assemble, assignAll, assigned, next]

theorem assign_base_dotted {table : Table Node} (root : DottedRoot none table overrides)
    (sets : AssignsBase base first) :
    ∃ document, assign table first = some document ∧ DottedRoot (some base) document overrides := by
  obtain ⟨assigned, withBase⟩ := assign_base root.toRoot root.notDotted sets
  refine ⟨_, assigned, withBase, root.notDotted, ?_⟩
  intro child holds
  rcases Table.holds_insert.mp holds with ⟨same, _⟩ | ⟨_, before⟩
  · rw [sets.last] at same
    exact absurd same (by decide)
  · exact root.dotted before

theorem assemble_dotted {before after : List WrittenSetting} {front back : List Assignment}
    (setsFront : Forall₂ (fun entry => SetsValue ["overrides"] entry.setting) before front)
    (sets : AssignsBase base first)
    (setsBack : Forall₂ (fun entry => SetsValue ["overrides"] entry.setting) after back)
    (all : ((before ++ after).map WrittenSetting.setting).Perm overrides.settings) (whole : Span) :
    ∃ document, assemble whole (front ++ first :: back) [] = some document ∧
      Root document (some base) overrides := by
  have distinct := (all.map Sigma.fst).nodup_iff.mpr overrides.nodup_fields_settings
  rw [List.map_append, List.map_append, List.nodup_append] at distinct
  obtain ⟨distinctBefore, distinctAfter, apart⟩ := distinct
  have start : DottedRoot none (Table.empty .header whole) .none := by
    refine ⟨.empty .header whole, ?_, ?_⟩
    · rintro ⟨⟩
    · exact fun holds => absurd holds (Table.not_holds_empty _ _ _ _)
  obtain ⟨table, assignedFront, root⟩ := assignAll_putAll
    (fun root fresh sets => DottedRoot.assign root fresh sets) distinctBefore
    (List.forall₂_map_left_iff.mpr setsFront) start fun setting _ => Overrides.get_none _
  obtain ⟨withBase, assigned, root⟩ := assign_base_dotted root sets
  -- The settings behind the base are new to those in front of it, as no field is set twice.
  have fresh : ∀ setting ∈ after.map WrittenSetting.setting,
      (putAll (before.map WrittenSetting.setting) .none).get setting.1 = none := by
    intro setting member
    rw [Option.eq_none_iff_forall_ne_some]
    intro value isSet
    rcases (Overrides.get_putAll distinctBefore).mp isSet with earlier | ⟨_, impossible⟩
    · exact apart _ (List.mem_map_of_mem earlier) _ (List.mem_map_of_mem member) rfl
    · rw [Overrides.get_none] at impossible
      cases impossible
  obtain ⟨document, assignedBack, root⟩ := assignAll_putAll
    (fun root fresh sets => DottedRoot.assign root fresh sets) distinctAfter
    (List.forall₂_map_left_iff.mpr setsBack) root fresh
  rw [← Overrides.putAll_append, ← List.map_append, Overrides.putAll_settings all] at root
  refine ⟨document, ?_, root.toRoot⟩
  unfold assignAll at assignedFront assignedBack
  simp [assemble, assignAll, List.foldlM_append, assignedFront, assigned, assignedBack]

end Documents

theorem exists_settings {line : WrittenSetting → Line} {parents : List String}
    (means : ∀ entry statement, (line entry).Means statement →
      ∃ assignment, statement = .assignment assignment ∧ SetsValue parents entry.setting assignment)
    {written : List WrittenSetting} {statements : List Statement}
    (meanings : Forall₂ Line.Means (written.map line) statements) :
    ∃ assignments, statements = assignments.map .assignment ∧
      Forall₂ (fun entry => SetsValue parents entry.setting) written assignments :=
  exists_assignments ((List.forall₂_map_left_iff.mp meanings).imp means)

theorem document_of_form {conf : Conf} {lines : List Line} (form : conf.Form lines)
    {text : List Char} (on : OnLines (lines.map Line.text) text) :
    ∃ document, document? text = some document ∧
      Root document (some conf.base) conf.overrides := by
  obtain ⟨statements, meanings, assembled⟩ :=
    document?_onLines (fun line member => readsLine (form.distinct line member)) on
  rw [assembled]
  cases form with
  | header named all =>
    obtain ⟨_, _, ⟨first, rfl, sets⟩, rest, rfl⟩ := List.forall₂_cons_left_iff.mp meanings
    obtain ⟨_, _, ⟨header, rfl, opens⟩, others, rfl⟩ := List.forall₂_cons_left_iff.mp rest
    obtain ⟨settings, rfl, setsAll⟩ := exists_settings (fun _ _ => id) others
    rw [named] at sets
    simp only [sections, sections_assignments]
    exact assemble_header sets opens setsAll all _
  | inline named all =>
    obtain ⟨_, _, ⟨first, rfl, sets⟩, rest, rfl⟩ := List.forall₂_cons_left_iff.mp meanings
    obtain ⟨_, _, ⟨second, rfl, setsTable⟩, nothing, rfl⟩ := List.forall₂_cons_left_iff.mp rest
    obtain rfl := List.forall₂_nil_left_iff.mp nothing
    rw [named] at sets
    rw [Overrides.putAll_settings all] at setsTable
    exact assemble_inline sets setsTable _
  | dotted named all =>
    obtain ⟨_, _, rfl, front, rest⟩ := forall₂_append_left meanings
    obtain ⟨_, _, ⟨first, rfl, sets⟩, back, rfl⟩ := List.forall₂_cons_left_iff.mp rest
    obtain ⟨frontAssignments, rfl, setsFront⟩ := exists_settings (fun _ _ => id) front
    obtain ⟨backAssignments, rfl, setsBack⟩ := exists_settings (fun _ _ => id) back
    rw [named] at sets
    simp only [sections_append, sections, sections_assignments]
    exact assemble_dotted setsFront sets setsBack all _

theorem exists_writtenString (value : String) :
    ∃ written : WrittenString, written.value = value := by
  obtain ⟨text, spelled⟩ := exists_spelledString value
  exact ⟨⟨value, text, spelled⟩, rfl⟩

theorem exists_writtenSetting (setting : Setting) :
    ∃ written : WrittenSetting, written.setting = setting := by
  obtain ⟨f, value⟩ := setting
  cases f with
  | allow s => exact ⟨⟨⟨.allow s, value⟩, wordOf value, .switch s value⟩, rfl⟩
  | separator =>
    obtain ⟨text, spelled⟩ := exists_spelledString value
    exact ⟨⟨⟨.separator, value⟩, text, .separator spelled⟩, rfl⟩

theorem exists_writtenSettings (settings : List Setting) :
    ∃ written : List WrittenSetting, written.map WrittenSetting.setting = settings := by
  induction settings with
  | nil => exact ⟨[], rfl⟩
  | cons setting settings ih =>
    obtain ⟨first, rfl⟩ := exists_writtenSetting setting
    obtain ⟨others, rfl⟩ := ih
    exact ⟨first :: others, rfl⟩

theorem exists_onLines (lines : List (List Char)) : ∃ text : String, OnLines lines text.toList := by
  have chars : ∃ text, OnLines lines text := by
    induction lines with
    | nil => exact ⟨[], .nil⟩
    | cons line lines ih =>
      obtain ⟨text, more⟩ := ih
      exact ⟨_, .line (.feed text) more⟩
  obtain ⟨text, on⟩ := chars
  exact ⟨String.ofList text, by rwa [String.toList_ofList]⟩

/-- Every configuration can be written in each of the forms, with its settings in any order and
with its strings spelled in any way, and it is read back from every such text. -/
theorem spellings_read_back (conf : Conf) :
    (∀ settings, settings.Perm conf.overrides.settings →
      ∃ (base : WrittenString) (written : List WrittenSetting),
        base.value = conf.base ∧ written.map WrittenSetting.setting = settings) ∧
    (∀ lines : List Line, ∃ text : String, OnLines (lines.map Line.text) text.toList) ∧
    ∀ lines, conf.Form lines → ∀ text : String, OnLines (lines.map Line.text) text.toList →
      Conf.ofText text = .ok conf := by
  refine ⟨?_, fun lines => exists_onLines (lines.map Line.text), ?_⟩
  · intro settings _
    obtain ⟨base, named⟩ := exists_writtenString conf.base
    obtain ⟨written, same⟩ := exists_writtenSettings settings
    exact ⟨base, written, named, same⟩
  · intro lines form text on
    obtain ⟨document, parsed, root⟩ := document_of_form form on
    exact ofText_eq_ok.mpr ⟨document, parsed, root.shape, root.describedBy⟩

/-- A separator in escaped form under a dotted name in front of the base. -/
theorem spellings_read_back_of_dotted_name :
    Conf.ofText "overrides.toplevel_separator = \"\\u003B\"\nbase = \"Scala212\"\n" =
      .ok ⟨"Scala212", Overrides.none.withSeparator ";"⟩ := by
  have digit : ∀ {value : Nat}, value < 16 → IsHexDigit value value.digitChar.toUpper :=
    fun small => ⟨small, .inr rfl⟩
  have code : HexDigits 0 ['0', '0', '3', 'B'] (';').toNat :=
    .cons (digit (show 0 < 16 by decide)) (.cons (digit (show 0 < 16 by decide))
      (.cons (digit (show 3 < 16 by decide)) (.cons (digit (show 11 < 16 by decide)) (.nil _))))
  have contents : SpelledChars (";".toList) ['\\', 'u', '0', '0', '3', 'B'] :=
    .cons (.short rfl code) .nil
  have escaped : SpelledString ";" ['"', '\\', 'u', '0', '0', '3', 'B', '"'] := .quoted contents
  have plain : ("Scala212".toList.all fun c => !decide (NeedsEscape c)) = true := by decide
  have kept : SpelledString "Scala212" ('"' :: ("Scala212".toList ++ ['"'])) := by
    refine .quoted (spelledChars_kept ?_)
    intro c member
    simpa using List.all_eq_true.mp plain c member
  let base : WrittenString := ⟨"Scala212", _, kept⟩
  let separator : WrittenSetting := ⟨⟨.separator, ";"⟩, _, .separator escaped⟩
  let conf : Conf := ⟨"Scala212", Overrides.none.withSeparator ";"⟩
  have all : (([separator] ++ []).map WrittenSetting.setting).Perm conf.overrides.settings := by
    rw [show conf.overrides.settings = [⟨.separator, ";"⟩] by rfl]
    exact List.Perm.refl _
  have form : conf.Form [.dotted separator, .base base] := .dotted rfl all
  have on : OnLines [(Line.dotted separator).text, (Line.base base).text]
      ((Line.dotted separator).text ++ '\n' :: ((Line.base base).text ++ ['\n'])) :=
    .line (.feed _) (.line (.feed _) .nil)
  have text : assignmentText ["overrides"] "toplevel_separator"
        ['"', '\\', 'u', '0', '0', '3', 'B', '"'] ++ '\n' ::
          (assignmentText [] "base" ('"' :: ("Scala212".toList ++ ['"'])) ++ ['\n']) =
      "overrides.toplevel_separator = \"\\u003B\"\nbase = \"Scala212\"\n".toList := by
    decide
  exact (spellings_read_back conf).2.2 _ form _ (text ▸ on)

end SyntaxDialects.Conf
