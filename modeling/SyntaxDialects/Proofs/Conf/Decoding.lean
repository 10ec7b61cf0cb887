import SyntaxDialects.Conf
import SyntaxDialects.Proofs.Schema.Written
import SyntaxDialects.Proofs.Toml.Keyed

/-!
The configurations that documents describe. What a document must look like and what it then means
is said in terms of its tree alone, without an order in which anything is visited, and decoding
does exactly this.
-/
namespace SyntaxDialects
open Schema Toml

def Field.valueIn : (f : Field) → Node → Option f.Value
  | .allow _, .scalar (.boolean value) _ => some value
  | .separator, .scalar (.string value) _ => some value
  | _, _ => none

namespace Conf

def mismatch (node : Node) (expected : Expected) : Problem :=
  match found node with
  | .ok found => .invalidType found expected
  | .error problem => problem

/-- Nodes that describe override sets: tables of nothing but fields with values of their types,
and arrays that start with a value for every field in declaration order. -/
def OverridesShape : Node → Prop
  | .table table => ∀ entry ∈ table.entries,
      ∃ f : Field, entry.1.text = f.name ∧ (f.valueIn entry.2).isSome
  | .array items _ _ =>
      18 ≤ items.length ∧ ∀ pair ∈ Field.all.zip items, (pair.1.valueIn pair.2).isSome
  | .scalar _ _ => False

/-- What is written for a field: under its name, or at its place in declaration order. -/
inductive Writes : Node → (f : Field) → f.Value → Prop where
  | named {table : Table Node} {node : Node} {f : Field} {value : f.Value}
    (holds : table.Holds f.name node) (isValue : f.valueIn node = some value) :
    Writes (.table table) f value
  | placed {items : List Node} {ofTables : Bool} {span : Span} {node : Node} {f : Field}
    {value : f.Value} (place : (f, node) ∈ Field.all.zip items)
    (isValue : f.valueIn node = some value) : Writes (.array items ofTables span) f value

structure Shape (document : Table Node) : Prop where
  known : ∀ entry ∈ document.entries, entry.1.text = "base" ∨ entry.1.text = "overrides"
  base : ∃ value span, document.Holds "base" (.scalar (.string value) span)
  overrides : ∀ node, document.Holds "overrides" node → OverridesShape node

/-- The configuration has the base and exactly the overrides that are written. -/
structure DescribedBy (document : Table Node) (conf : Conf) : Prop where
  base : ∃ span, document.Holds "base" (.scalar (.string conf.base) span)
  overrides : ∀ f value, conf.overrides.get f = some value ↔
    ∃ node, document.Holds "overrides" node ∧ Writes node f value

theorem DescribedBy.unique {document : Table Node} (keyed : document.Keyed) {conf other : Conf}
    (described : DescribedBy document conf) (describedOther : DescribedBy document other) :
    conf = other := by
  obtain ⟨span, holds⟩ := described.base
  obtain ⟨otherSpan, holdsOther⟩ := describedOther.base
  have same := keyed.holds_unique holds holdsOther
  have base : conf.base = other.base := by
    injection same with scalar
    injection scalar
  have overrides : conf.overrides = other.overrides := by
    apply Overrides.ext_get
    intro f
    apply Option.ext
    intro value
    rw [described.overrides, describedOther.overrides]
  cases conf
  cases other
  cases base
  cases overrides
  rfl

theorem foundInteger_eq_ok {value : Option Int} {found : Found}
    (success : foundInteger value = .ok found) : ∃ value, found = .integer value := by
  unfold foundInteger at success
  split at success
  · split at success
    · cases success
      exact ⟨_, rfl⟩
    · cases success
  · cases success

theorem foundFloat_eq_ok {literal : Number.FloatLiteral} {found : Found}
    (success : foundFloat literal = .ok found) : ∃ value layout, found = .float value layout := by
  unfold foundFloat at success
  split at success
  · cases success
    exact ⟨_, _, rfl⟩
  · cases success

theorem readValue_written {f : Field} {node : Node} {read : Option f.Value} :
    readValue f (written node) = .ok read ↔
      ∃ value, f.valueIn node = some value ∧ read = some value := by
  cases node with
  | array items ofTables span => cases f <;> simp [written, found, readValue, Field.valueIn]
  | table table => cases f <;> simp [written, found, readValue, Field.valueIn]
  | scalar value span =>
    cases value with
    | string value => cases f <;> simp [written, found, readValue, Field.valueIn, eq_comm]
    | boolean value => cases f <;> simp [written, found, readValue, Field.valueIn, eq_comm]
    | moment => cases f <;> simp [written, found, readValue, Field.valueIn]
    | integer value =>
      cases result : foundInteger value with
      | error problem => cases f <;> simp [written, found, result, readValue, Field.valueIn]
      | ok number =>
        obtain ⟨number, rfl⟩ := foundInteger_eq_ok result
        cases f <;> simp [written, found, result, readValue, Field.valueIn]
    | float literal =>
      cases result : foundFloat literal with
      | error problem => cases f <;> simp [written, found, result, readValue, Field.valueIn]
      | ok number =>
        obtain ⟨number, layout, rfl⟩ := foundFloat_eq_ok result
        cases f <;> simp [written, found, result, readValue, Field.valueIn]

theorem readValue_written_isSome {f : Field} {node : Node} :
    (∃ read, readValue f (written node) = .ok read) ↔ (f.valueIn node).isSome := by
  rw [Option.isSome_iff_exists]
  constructor
  · rintro ⟨read, success⟩
    obtain ⟨value, isValue, _⟩ := readValue_written.mp success
    exact ⟨value, isValue⟩
  · rintro ⟨value, isValue⟩
    exact ⟨some value, readValue_written.mpr ⟨value, isValue, rfl⟩⟩

theorem written_eq_value {node : Node} {kind : Found} (isFound : found node = .ok kind) :
    written node = .value kind := by
  rw [written, isFound]

theorem written_eq_unreadable {node : Node} {problem : Problem}
    (overflow : found node = .error problem) : written node = .unreadable problem := by
  rw [written, overflow]

theorem readValue_written_of_none {f : Field} {node : Node} (refused : f.valueIn node = none) :
    readValue f (written node) = .error (mismatch node f.expected) := by
  have unread : ¬ ∃ read, readValue f (written node) = .ok read := by
    rw [readValue_written_isSome, refused]
    exact Bool.false_ne_true
  cases isFound : found node with
  | ok kind =>
    rw [written_eq_value isFound] at unread ⊢
    rw [mismatch, isFound]
    exact (readValue_value f kind).resolve_left unread
  | error problem => rw [written_eq_unreadable isFound, mismatch, isFound, readValue]

theorem readValue_written_eq_error {f : Field} {node : Node} {problem : Problem} :
    readValue f (written node) = .error problem ↔
      f.valueIn node = none ∧ problem = mismatch node f.expected := by
  cases isValue : f.valueIn node with
  | some value =>
    rw [readValue_written.mpr ⟨value, isValue, rfl⟩]
    simp
  | none =>
    rw [readValue_written_of_none isValue, Except.error.injEq, eq_comm]
    exact (and_iff_right rfl).symm

theorem readAt_written_eq_error {f : Field} {node : Node} {overrides : Overrides}
    {fault : DocumentFault} :
    readAt f (written node) (some node.span) overrides = .error fault ↔
      f.valueIn node = none ∧ fault = ⟨mismatch node f.expected, some node.span⟩ := by
  obtain ⟨problem, place⟩ := fault
  rw [readAt_eq_error, readValue_written_eq_error, and_assoc, Fault.mk.injEq, eq_comm (a := place)]

theorem mem_visited {table : Table Node} {entry : Key × Node} :
    entry ∈ visited table ↔ entry ∈ table.entries :=
  List.mem_mergeSort

theorem visited_of_pairwise {table : Table Node}
    (sorted : table.entries.Pairwise fun a b => ¬ b.1.text < a.1.text) :
    visited table = table.entries :=
  List.mergeSort_of_pairwise (by simpa using sorted)

theorem readable_entriesOf {table : Table Node} :
    (∀ entry ∈ entriesOf table, Readable entry) ↔ OverridesShape (.table table) := by
  unfold entriesOf OverridesShape
  rw [List.forall_mem_map]
  simp only [mem_visited, Readable, readValue_written_isSome, eq_comm]

theorem refuse_eq {α : Type} (node : Node) (expected : Expected) :
    (refuse node expected : Except DocumentFault α) =
      .error ⟨mismatch node expected, some node.span⟩ := by
  unfold refuse mismatch
  cases found node <;> rfl

theorem refuse_ne_ok {α : Type} (node : Node) (expected : Expected) (result : α) :
    refuse node expected ≠ .ok result := by
  rw [refuse_eq]
  simp

theorem overridesOfNode_scalar (value : Scalar) (span : Span) (result : Overrides) :
    overridesOfNode (.scalar value span) ≠ .ok result := by
  cases value <;> simp [overridesOfNode, refuse_ne_ok]

theorem baseOfNode_eq_ok {node : Node} {base : String} :
    baseOfNode node = .ok base ↔ ∃ span, node = .scalar (.string base) span := by
  unfold baseOfNode
  split
  · simp
  · rename_i other
    constructor
    · exact fun success => absurd success (refuse_ne_ok _ _ _)
    · rintro ⟨span, rfl⟩
      exact absurd rfl (other base span)

theorem overridesOfNode_ok_iff {node : Node} :
    (∃ result, overridesOfNode node = .ok result) ↔ OverridesShape node := by
  cases node with
  | table table => exact overridesOfEntries_ok_iff.trans readable_entriesOf
  | array items ofTables span =>
    refine overridesOfPositions_ok_iff.trans ?_
    rw [List.length_map, List.zip_map_right, List.forall_mem_map]
    exact and_congr_right fun _ => forall₂_congr fun pair _ => readValue_written_isSome
  | scalar value span =>
    constructor
    · rintro ⟨result, success⟩
      exact absurd success (overridesOfNode_scalar value span result)
    · exact False.elim

theorem overridesOfNode_get {node : Node} (keyed : node.Keyed) {result : Overrides}
    (success : overridesOfNode node = .ok result) (f : Field) (value : f.Value) :
    result.get f = some value ↔ Writes node f value := by
  cases node with
  | table table =>
    rcases overridesOfEntries_get success f with ⟨entry, member, named, read⟩ | ⟨absent, nothing⟩
    · obtain ⟨⟨key, item⟩, inside, rfl⟩ := List.mem_map.mp member
      obtain ⟨found, isFound, gives⟩ := readValue_written.mp read
      have holds : table.Holds f.name item := ⟨key, named.symm, mem_visited.mp inside⟩
      rw [gives]
      constructor
      · rintro ⟨⟩
        exact .named holds isFound
      · rintro (⟨other, isValue⟩ | _)
        rw [Table.Keyed.holds_unique keyed holds other, isValue] at isFound
        rw [isFound]
    · rw [nothing]
      constructor
      · exact fun impossible => nomatch impossible
      · rintro (⟨⟨key, named, inside⟩, isValue⟩ | _)
        have read := readValue_written.mpr ⟨value, isValue, rfl⟩
        have member : _ ∈ entriesOf table := List.mem_map_of_mem (mem_visited.mpr inside)
        exact absurd ⟨named.symm, read⟩ (absent _ member (some value))
  | array items ofTables span =>
    obtain ⟨written, place, read⟩ := overridesOfPositions_get success f
    rw [List.zip_map_right] at place
    obtain ⟨⟨g, item⟩, inside, same⟩ := List.mem_map.mp place
    cases same
    obtain ⟨found, isFound, gives⟩ := readValue_written.mp read
    rw [gives]
    constructor
    · rintro ⟨⟩
      exact .placed inside isFound
    · rintro (_ | ⟨other, isValue⟩)
      rw [Field.mem_zip_unique inside other, isValue] at isFound
      rw [isFound]
  | scalar value span => exact absurd success (overridesOfNode_scalar value span result)

inductive Visited : Draft → Key × Node → Draft → Prop where
  | base {draft : Draft} {key : Key} {node : Node} {base : String} (named : key.text = "base")
    (read : baseOfNode node = .ok base) :
    Visited draft (key, node) { draft with base := some base }
  | overrides {draft : Draft} {key : Key} {node : Node} {overrides : Overrides}
    (named : key.text = "overrides") (read : overridesOfNode node = .ok overrides) :
    Visited draft (key, node) { draft with overrides := overrides }

theorem visit_eq_ok {draft next : Draft} {entry : Key × Node} :
    visit draft entry = .ok next ↔ Visited draft entry next := by
  constructor
  · intro success
    obtain ⟨key, node⟩ := entry
    unfold visit at success
    split at success
    · rename_i named
      obtain ⟨base, read, result⟩ := Except.bind_eq_ok.mp success
      cases result
      exact .base named read
    · split at success
      · rename_i named
        obtain ⟨overrides, read, result⟩ := Except.bind_eq_ok.mp success
        cases result
        exact .overrides named read
      · cases success
  · rintro (⟨named, read⟩ | ⟨named, read⟩)
    · simp [visit, named, read, bind, Except.bind, pure, Except.pure]
    · simp [visit, named, read, bind, Except.bind, pure, Except.pure]

def Acceptable (entry : Key × Node) : Prop :=
  (entry.1.text = "base" ∧ ∃ base span, entry.2 = .scalar (.string base) span) ∨
    (entry.1.text = "overrides" ∧ OverridesShape entry.2)

theorem visit_ok_iff (draft : Draft) (entry : Key × Node) :
    (∃ next, visit draft entry = .ok next) ↔ Acceptable entry := by
  simp only [visit_eq_ok]
  constructor
  · rintro ⟨next, ⟨named, read⟩ | ⟨named, read⟩⟩
    · exact .inl ⟨named, _, baseOfNode_eq_ok.mp read⟩
    · exact .inr ⟨named, overridesOfNode_ok_iff.mp ⟨_, read⟩⟩
  · obtain ⟨key, node⟩ := entry
    rintro (⟨named, base, isText⟩ | ⟨named, shape⟩)
    · exact ⟨_, .base named (baseOfNode_eq_ok.mpr isText)⟩
    · obtain ⟨overrides, read⟩ := overridesOfNode_ok_iff.mpr shape
      exact ⟨_, .overrides named read⟩

def SetsBase (entry : Key × Node) (found : Option String) : Prop :=
  entry.1.text = "base" ∧ ∃ base span, entry.2 = .scalar (.string base) span ∧ found = some base

def SetsOverrides (entry : Key × Node) (found : Overrides) : Prop :=
  entry.1.text = "overrides" ∧ overridesOfNode entry.2 = .ok found

theorem visit_base {draft next : Draft} {entry : Key × Node}
    (success : visit draft entry = .ok next) :
    SetsBase entry next.base ∨ ((∀ found, ¬ SetsBase entry found) ∧ next.base = draft.base) := by
  rcases visit_eq_ok.mp success with ⟨named, read⟩ | ⟨named, read⟩
  · obtain ⟨span, isText⟩ := baseOfNode_eq_ok.mp read
    exact .inl ⟨named, _, span, isText, rfl⟩
  · refine .inr ⟨?_, rfl⟩
    rintro found ⟨isBase, _⟩
    exact absurd (named.symm.trans isBase) (by decide)

theorem visit_overrides {draft next : Draft} {entry : Key × Node}
    (success : visit draft entry = .ok next) :
    SetsOverrides entry next.overrides ∨
      ((∀ found, ¬ SetsOverrides entry found) ∧ next.overrides = draft.overrides) := by
  rcases visit_eq_ok.mp success with ⟨named, read⟩ | ⟨named, read⟩
  · refine .inr ⟨?_, rfl⟩
    rintro found ⟨isOverrides, _⟩
    exact absurd (named.symm.trans isOverrides) (by decide)
  · exact .inl ⟨named, read⟩

section Documents

variable {document : Table Node}

theorem holds_of_visited {entry : Key × Node} (member : entry ∈ visited document) {name : String}
    (named : entry.1.text = name) : document.Holds name entry.2 :=
  ⟨entry.1, named, mem_visited.mp member⟩

theorem draft_base {draft : Draft}
    (folded : (visited document).foldlM visit ⟨none, .none⟩ = .ok draft) :
    (∃ base span, document.Holds "base" (.scalar (.string base) span) ∧ draft.base = some base) ∨
      ((∀ base span, ¬ document.Holds "base" (.scalar (.string base) span)) ∧
        draft.base = none) := by
  rcases Except.foldlM_last Draft.base SetsBase visit_base folded with
    ⟨entry, member, named, base, span, isText, read⟩ | ⟨absent, nothing⟩
  · have holds := holds_of_visited member named
    rw [isText] at holds
    exact .inl ⟨base, span, holds, read⟩
  · refine .inr ⟨?_, nothing⟩
    rintro base span ⟨key, named, member⟩
    exact absent _ (mem_visited.mpr member) (some base) ⟨named, base, span, rfl, rfl⟩

theorem draft_overrides {draft : Draft}
    (folded : (visited document).foldlM visit ⟨none, .none⟩ = .ok draft) :
    (∃ node, document.Holds "overrides" node ∧ overridesOfNode node = .ok draft.overrides) ∨
      ((∀ node, document.Holds "overrides" node → ∀ result, overridesOfNode node ≠ .ok result) ∧
        draft.overrides = .none) := by
  rcases Except.foldlM_last Draft.overrides SetsOverrides visit_overrides folded with
    ⟨entry, member, named, read⟩ | ⟨absent, nothing⟩
  · exact .inl ⟨entry.2, holds_of_visited member named, read⟩
  · refine .inr ⟨?_, nothing⟩
    rintro node ⟨key, named, member⟩ result read
    exact absent _ (mem_visited.mpr member) result ⟨named, read⟩

theorem ofDocument_eq_ok {conf : Conf} :
    Conf.ofDocument document = .ok conf ↔
      (visited document).foldlM visit ⟨none, .none⟩ = .ok ⟨some conf.base, conf.overrides⟩ := by
  unfold Conf.ofDocument
  rw [Except.bind_eq_ok]
  constructor
  · rintro ⟨⟨base, overrides⟩, folded, finished⟩
    cases base with
    | none => cases finished
    | some base =>
      cases finished
      exact folded
  · exact fun folded => ⟨_, folded, rfl⟩

theorem visited_ok_iff :
    (∃ draft, (visited document).foldlM visit ⟨none, .none⟩ = .ok draft) ↔
      ∀ entry ∈ document.entries, Acceptable entry := by
  rw [Except.foldlM_ok_iff visit_ok_iff]
  simp only [mem_visited]

theorem ofDocument_shape {conf : Conf} (success : Conf.ofDocument document = .ok conf) :
    Shape document := by
  have folded := ofDocument_eq_ok.mp success
  have entries := visited_ok_iff.mp ⟨_, folded⟩
  refine ⟨?_, ?_, ?_⟩
  · intro entry member
    exact (entries entry member).imp And.left And.left
  · rcases draft_base folded with ⟨base, span, holds, _⟩ | ⟨_, nothing⟩
    · exact ⟨base, span, holds⟩
    · cases nothing
  · rintro node ⟨key, named, member⟩
    rcases entries _ member with ⟨isBase, _⟩ | ⟨_, shape⟩
    · exact absurd (named.symm.trans isBase) (by decide)
    · exact shape

theorem ofDocument_describedBy {conf : Conf} (keyed : document.Keyed)
    (success : Conf.ofDocument document = .ok conf) : DescribedBy document conf := by
  have folded := ofDocument_eq_ok.mp success
  refine ⟨?_, ?_⟩
  · rcases draft_base folded with ⟨base, span, holds, same⟩ | ⟨_, nothing⟩
    · cases same
      exact ⟨span, holds⟩
    · cases nothing
  · intro f value
    rcases draft_overrides folded with ⟨node, holds, read⟩ | ⟨absent, nothing⟩
    · rw [overridesOfNode_get (keyed.holds_keyed holds) read]
      constructor
      · exact fun writes => ⟨node, holds, writes⟩
      · rintro ⟨other, holdsOther, writes⟩
        rwa [keyed.holds_unique holds holdsOther]
    · have unset : conf.overrides.get f = none := by
        rw [show conf.overrides = .none from nothing, Overrides.get_none]
      rw [unset]
      constructor
      · exact fun impossible => nomatch impossible
      · rintro ⟨node, holds, _⟩
        obtain ⟨result, read⟩ :=
          overridesOfNode_ok_iff.mpr ((ofDocument_shape success).overrides node holds)
        exact absurd read (absent node holds result)

theorem ofDocument_ok_of_shape (keyed : document.Keyed) (shape : Shape document) :
    ∃ conf, Conf.ofDocument document = .ok conf := by
  obtain ⟨base, span, holdsBase⟩ := shape.base
  have entries : ∀ entry ∈ document.entries, Acceptable entry := by
    intro entry member
    rcases shape.known entry member with named | named
    · have holds : document.Holds "base" entry.2 := ⟨entry.1, named, member⟩
      exact .inl ⟨named, base, span, keyed.holds_unique holds holdsBase⟩
    · exact .inr ⟨named, shape.overrides entry.2 ⟨entry.1, named, member⟩⟩
  obtain ⟨⟨draftBase, overrides⟩, folded⟩ := visited_ok_iff.mpr entries
  rcases draft_base folded with ⟨base, _, _, same⟩ | ⟨absent, _⟩
  · rw [show draftBase = some base from same] at folded
    exact ⟨⟨base, overrides⟩, ofDocument_eq_ok.mpr folded⟩
  · exact absurd holdsBase (absent base span)

theorem ofDocument_of_describedBy (keyed : document.Keyed) {conf : Conf} (shape : Shape document)
    (described : DescribedBy document conf) : Conf.ofDocument document = .ok conf := by
  obtain ⟨result, success⟩ := ofDocument_ok_of_shape keyed shape
  rw [success, described.unique keyed (ofDocument_describedBy keyed success)]

end Documents

/-- The texts of configurations are the texts of documents of the right shape. -/
theorem ofText_eq_ok {text : String} {conf : Conf} :
    Conf.ofText text = .ok conf ↔ ∃ document, document? text.toList = some document ∧
      Shape document ∧ DescribedBy document conf := by
  unfold Conf.ofText
  cases parsed : document? text.toList with
  | none => simp
  | some document =>
    have keyed := document?_keyed parsed
    constructor
    · intro success
      dsimp only at success
      split at success
      · rename_i result decoded
        cases success
        exact ⟨document, rfl, ofDocument_shape decoded, ofDocument_describedBy keyed decoded⟩
      · cases success
    · rintro ⟨other, same, shape, described⟩
      cases same
      dsimp only
      rw [ofDocument_of_describedBy keyed shape described]

/-- Sorting is by well-founded recursion, so a text is read by evaluation only where nothing is to
be sorted. -/
theorem ofText_of_sorted {text : String} {conf : Conf}
    (reads : ∃ document ∈ document? text.toList,
      (document.entries.Pairwise fun a b => ¬ b.1.text < a.1.text) ∧
        (document.entries.foldlM visit ⟨none, .none⟩).map
          (fun draft => (draft.base, draft.overrides)) = .ok (some conf.base, conf.overrides)) :
    Conf.ofText text = .ok conf := by
  obtain ⟨document, parsed, sorted, drafts⟩ := reads
  have visits : document.entries.foldlM visit ⟨none, .none⟩ =
      .ok ⟨some conf.base, conf.overrides⟩ := by
    cases draft : document.entries.foldlM visit ⟨none, .none⟩ with
    | error fault =>
      rw [draft] at drafts
      cases drafts
    | ok found =>
      obtain ⟨base, overrides⟩ := found
      rw [draft] at drafts
      cases drafts
      rfl
  have accepted : ofDocument document = .ok conf := by
    rw [ofDocument_eq_ok, visited_of_pairwise sorted, visits]
  simp only [Conf.ofText, Option.mem_def.mp parsed, accepted]

/-- Decoding accepts exactly the documents of the right shape and gives the configuration that is
written there; overrides that are absent and an empty table of them are the same. -/
theorem decoding_follows_schema {document : Table Node} (keyed : document.Keyed) :
    ((∃ conf, Conf.ofDocument document = .ok conf) ↔ Shape document) ∧
    (∀ conf, Conf.ofDocument document = .ok conf → DescribedBy document conf) ∧
    ((∀ node, document.Holds "overrides" node → ∃ table, node = .table table ∧ table.entries = []) →
      ∀ conf, Conf.ofDocument document = .ok conf → conf = ⟨conf.base, Overrides.none⟩) := by
  refine ⟨⟨?_, ofDocument_ok_of_shape keyed⟩, fun _ => ofDocument_describedBy keyed, ?_⟩
  · rintro ⟨conf, success⟩
    exact ofDocument_shape success
  · intro empty conf success
    have described := ofDocument_describedBy keyed success
    have nothing : conf.overrides = Overrides.none := by
      apply Overrides.ext_get
      intro f
      rw [Overrides.get_none, Option.eq_none_iff_forall_ne_some]
      intro value isSet
      obtain ⟨node, holds, writes⟩ := (described.overrides f value).mp isSet
      obtain ⟨table, rfl, noEntries⟩ := empty node holds
      cases writes with
      | named holds isValue =>
        obtain ⟨key, _, member⟩ := holds
        rw [noEntries] at member
        cases member
    rw [← nothing]

/-- A document with a base and one override. -/
theorem decoding_follows_schema_of_one_override :
    let place : Span := ⟨0, 0⟩
    let overrides : Table Node :=
      ⟨[(⟨"allow_literal_types", place⟩, .scalar (.boolean true) place)], .header, place⟩
    let document : Table Node :=
      ⟨[(⟨"base", place⟩, .scalar (.string "Scala212") place),
        (⟨"overrides", place⟩, .table overrides)], .header, place⟩
    document.Keyed ∧ Shape document ∧ ∃ conf, Conf.ofDocument document = .ok conf ∧
      conf.base = "Scala212" ∧ conf.overrides.get (.allow .literalTypes) = some true ∧
      conf.overrides.get .separator = none := by
  intro place overrides document
  have overridesKeyed : overrides.Keyed := by
    refine .table (by decide) ?_
    intro entry member
    rw [List.mem_singleton.mp member]
    exact .scalar _ _
  have keyed : document.Keyed := by
    refine .table (by decide) ?_
    intro entry member
    rcases List.mem_pair.mp member with rfl | rfl
    · exact .scalar _ _
    · exact overridesKeyed
  have holdsBase : document.Holds "base" (.scalar (.string "Scala212") place) :=
    ⟨_, rfl, List.mem_cons_self ..⟩
  have holdsOverrides : document.Holds "overrides" (.table overrides) :=
    ⟨_, rfl, List.mem_cons_of_mem _ (List.mem_cons_self ..)⟩
  have shape : Shape document := by
    refine ⟨?_, ⟨_, _, holdsBase⟩, ?_⟩
    · intro entry member
      rcases List.mem_pair.mp member with rfl | rfl
      · exact .inl rfl
      · exact .inr rfl
    · intro node holds
      rw [keyed.holds_unique holds holdsOverrides]
      intro entry member
      rw [List.mem_singleton.mp member]
      exact ⟨.allow .literalTypes, rfl, rfl⟩
  obtain ⟨accepts, described, _⟩ := decoding_follows_schema keyed
  obtain ⟨conf, success⟩ := accepts.mpr shape
  obtain ⟨base, written⟩ := described conf success
  refine ⟨keyed, shape, conf, success, ?_, ?_, ?_⟩
  · obtain ⟨span, holds⟩ := base
    have same := keyed.holds_unique holds holdsBase
    injection same with scalar
    injection scalar
  · exact (written _ _).mpr ⟨_, holdsOverrides, .named ⟨_, rfl, List.mem_cons_self ..⟩ rfl⟩
  · rw [Option.eq_none_iff_forall_ne_some]
    intro value isSet
    obtain ⟨node, holds, writes⟩ := (written .separator value).mp isSet
    rw [keyed.holds_unique holds holdsOverrides] at writes
    cases writes with
    | named holds isValue =>
      obtain ⟨key, named, member⟩ := holds
      cases List.mem_singleton.mp member
      exact absurd named (by decide)

end Conf

end SyntaxDialects
