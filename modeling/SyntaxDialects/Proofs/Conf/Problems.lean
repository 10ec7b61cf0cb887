import SyntaxDialects.Proofs.Conf.Decoding
import SyntaxDialects.Proofs.Text.ByteOrder

/-!
Which problem of a document is reported. Every way in which a document can be wrong has a position:
a key of the document, and below the key of the overrides a key of their table or an index of their
array. Keys are ordered by their bytes and elements by their index; that an array ends too soon comes
after its elements, and that there is no base comes last. Decoding reports the first position that
offends.
-/
namespace SyntaxDialects.Conf
open Schema Toml Text

inductive Spot where
  | whole
  | setting (name : String)
  | element (index : Nat)
  | finish

inductive Spot.Before : Spot → Spot → Prop where
  | settings {a b : String} (less : bytes a < bytes b) : Before (setting a) (setting b)
  | elements {i j : Nat} (less : i < j) : Before (element i) (element j)
  | finish (i : Nat) : Before (element i) finish

inductive Position where
  | within (key : String) (spot : Spot)
  | finish

inductive Position.Before : Position → Position → Prop where
  | keys {a b : String} (s t : Spot) (less : bytes a < bytes b) : Before (within a s) (within b t)
  | spots {key : String} {s t : Spot} (before : s.Before t) : Before (within key s) (within key t)
  | finish (key : String) (spot : Spot) : Before (within key spot) finish

theorem Spot.Before.asymm : ∀ s t : Spot, s.Before t → ¬ t.Before s := by
  intro s t before after
  cases before with
  | settings less =>
    cases after with
    | settings more => exact List.lt_asymm less more
  | elements less =>
    cases after with
    | elements more => exact Nat.lt_asymm less more
  | finish i => cases after

theorem Position.Before.asymm : ∀ p q : Position, p.Before q → ¬ q.Before p := by
  intro p q before after
  cases before with
  | keys s t less =>
    cases after with
    | keys _ _ more => exact List.lt_asymm less more
    | spots _ => exact List.lt_irrefl _ less
  | spots before =>
    cases after with
    | keys _ _ more => exact List.lt_irrefl _ more
    | spots after => exact Spot.Before.asymm _ _ before after
  | finish key spot => cases after

/-- How a node is wrong as an override set, where and in what way. -/
inductive Refuses : Node → Spot → DocumentFault → Prop where
  | moment (span : Span) : Refuses (.scalar .moment span) .whole
    ⟨.unknownField momentField Field.names, some span⟩
  | scalar {value : Scalar} (notMoment : value ≠ .moment) (span : Span) :
    Refuses (.scalar value span) .whole ⟨mismatch (.scalar value span) .overrides, some span⟩
  | unknown {table : Table Node} {key : Key} {node : Node} (member : (key, node) ∈ table.entries)
    (unknown : ∀ f : Field, f.name ≠ key.text) :
    Refuses (.table table) (.setting key.text)
      ⟨.unknownField key.text Field.names, some key.span⟩
  | setting {table : Table Node} {key : Key} {node : Node} {f : Field}
    (member : (key, node) ∈ table.entries) (named : f.name = key.text)
    (refused : f.valueIn node = none) :
    Refuses (.table table) (.setting key.text) ⟨mismatch node f.expected, some node.span⟩
  | element {items : List Node} {ofTables : Bool} {span : Span} {i : Nat} {f : Field} {node : Node}
    (field : Field.all[i]? = some f) (item : items[i]? = some node)
    (refused : f.valueIn node = none) :
    Refuses (.array items ofTables span) (.element i) ⟨mismatch node f.expected, some node.span⟩
  | short {items : List Node} (few : items.length < 18) (ofTables : Bool) (span : Span) :
    Refuses (.array items ofTables span) .finish
      ⟨.invalidLength items.length (.tooShort 18), some span⟩

inductive EntryOffends : Key × Node → Position → DocumentFault → Prop where
  | unknown {key : Key} (notBase : key.text ≠ "base") (notOverrides : key.text ≠ "overrides")
    (node : Node) : EntryOffends (key, node) (.within key.text .whole)
      ⟨.unknownField key.text ["base", "overrides"], some key.span⟩
  | base {key : Key} {node : Node} (named : key.text = "base")
    (notText : ∀ value span, node ≠ .scalar (.string value) span) :
    EntryOffends (key, node) (.within key.text .whole) ⟨mismatch node .aString, some node.span⟩
  | overrides {key : Key} {node : Node} {spot : Spot} {fault : DocumentFault}
    (named : key.text = "overrides") (refuses : Refuses node spot fault) :
    EntryOffends (key, node) (.within key.text spot) fault

inductive Offends (document : Table Node) : Position → DocumentFault → Prop where
  | entry {entry : Key × Node} {position : Position} {fault : DocumentFault}
    (member : entry ∈ document.entries) (offends : EntryOffends entry position fault) :
    Offends document position fault
  | missing (absent : ∀ node, ¬ document.Holds "base" node) :
    Offends document .finish ⟨.missingField "base", none⟩

/-- Different names are visited in the order of their bytes. -/
theorem pairwise_visited {table : Table Node} (distinct : table.names.Nodup) :
    (visited table).Pairwise fun a b => bytes a.1.text < bytes b.1.text := by
  have sorted : (visited table).Pairwise fun a b => a.1.text ≤ b.1.text := by
    refine (List.pairwise_mergeSort ?_ ?_ table.entries).imp ?_
    · intro a b c ab bc
      simp only [Bool.not_eq_true', decide_eq_false_iff_not, String.not_lt] at ab bc ⊢
      exact String.le_trans ab bc
    · intro a b
      simp only [Bool.or_eq_true, Bool.not_eq_true', decide_eq_false_iff_not, String.not_lt]
      exact String.le_total a.1.text b.1.text
    · intro a b ab
      simpa only [Bool.not_eq_true', decide_eq_false_iff_not, String.not_lt] using ab
  have different : (visited table).Pairwise fun a b => a.1.text ≠ b.1.text := by
    have names : ((visited table).map fun entry => entry.1.text).Nodup :=
      (((List.mergeSort_perm table.entries _).map _).nodup_iff).mpr distinct
    exact List.pairwise_map.mp names
  -- Sorting alone would leave names that are equal side by side.
  refine (sorted.and different).imp ?_
  rintro a b ⟨notAfter, differ⟩
  refine bytes_lt_bytes ?_
  by_contra notBefore
  exact differ (String.le_antisymm notAfter (String.not_lt.mp notBefore))

def entryOf (entry : Key × Node) : Entry (Option Span) :=
  ⟨entry.1.text, some entry.1.span, written entry.2, some entry.2.span⟩

theorem refuses_of_readEntry {table : Table Node} {entry : Key × Node}
    (member : entry ∈ table.entries) {overrides : Overrides} {fault : DocumentFault}
    (failed : readEntry overrides (entryOf entry) = .error fault) :
    Refuses (.table table) (.setting entry.1.text) fault := by
  obtain ⟨key, node⟩ := entry
  rcases readEntry_eq_error.mp failed with ⟨f, named, unread⟩ | ⟨unknown, rfl⟩
  · obtain ⟨refused, rfl⟩ := readAt_written_eq_error.mp unread
    exact .setting member named refused
  · exact .unknown member unknown

theorem readEntry_of_refuses {table : Table Node} {spot : Spot} {fault : DocumentFault}
    (refuses : Refuses (.table table) spot fault) :
    ∃ entry ∈ table.entries, spot = .setting entry.1.text ∧
      readEntry .none (entryOf entry) = .error fault := by
  cases refuses with
  | unknown member unknown =>
    exact ⟨_, member, rfl, readEntry_eq_error.mpr (.inr ⟨unknown, rfl⟩)⟩
  | setting member named refused =>
    refine ⟨_, member, rfl, readEntry_eq_error.mpr (.inl ⟨_, named, ?_⟩)⟩
    exact readAt_written_eq_error.mpr ⟨refused, rfl⟩

theorem reports_table {table : Table Node} (distinct : table.names.Nodup) :
    Reports Spot.Before (Refuses (.table table)) (overridesOfNode (.table table)) := by
  have walk : overridesOfNode (.table table) = (visited table).foldlM
      (fun overrides entry => readEntry overrides (entryOf entry)) .none :=
    List.foldlM_map ..
  have reports : Reports Spot.Before
      (fun spot fault => ∃ entry ∈ visited table, spot = .setting entry.1.text ∧
        readEntry .none (entryOf entry) = .error fault)
      (overridesOfNode (.table table)) := by
    rw [walk]
    refine .foldlM Spot.Before.asymm ?_ ?_ _
    · exact fun entry _ overrides => .single (readEntry_eq_error_iff overrides (entryOf entry)) _
    · refine (pairwise_visited distinct).imp ?_
      rintro a b less _ _ x y ⟨rfl, _⟩ ⟨rfl, _⟩
      exact .settings less
  refine reports.congr fun spot fault => ?_
  constructor
  · rintro ⟨entry, member, rfl, failed⟩
    exact refuses_of_readEntry (mem_visited.mp member) failed
  · intro refuses
    obtain ⟨entry, member, here⟩ := readEntry_of_refuses refuses
    exact ⟨entry, mem_visited.mpr member, here⟩

theorem reports_array (items : List Node) (ofTables : Bool) (span : Span) :
    Reports Spot.Before (Refuses (.array items ofTables span))
      (overridesOfNode (.array items ofTables span)) := by
  let value (item : Node) : Written × Option Span := (written item, some item.span)
  have count : Field.all.length = 18 := rfl
  have elements : Reports Spot.Before
      (fun spot fault => ∃ i pair, (Field.all.zip (items.map value))[i]? = some pair ∧
        spot = .element i ∧ readPair .none pair = .error fault)
      ((Field.all.zip (items.map value)).foldlM readPair .none) := by
    refine .foldlM_indexed Spot.Before.asymm ?_ ?_ _
    · exact fun i pair _ overrides => .single (readPair_eq_error_iff overrides pair) _
    · rintro i j _ _ sooner _ _ _ _ x y ⟨rfl, _⟩ ⟨rfl, _⟩
      exact .elements sooner
  let short : DocumentFault := ⟨.invalidLength items.length (.tooShort 18), some span⟩
  have finish : ∀ overrides : Overrides, Reports Spot.Before
      (fun spot fault => spot = .finish ∧ ¬ 18 ≤ items.length ∧ short = fault)
      (if 18 ≤ items.length then .ok overrides else .error short) :=
    fun overrides => .single (fun fault => Except.ite_eq_error) _
  rw [overridesOfNode, overridesOfPositions_eq_foldlM, List.length_map, count]
  have both := elements.bind Spot.Before.asymm ?_ fun overrides _ => finish overrides
  · refine both.congr fun spot fault => ?_
    constructor
    · rintro (⟨i, ⟨f, read⟩, place, rfl, failed⟩ | ⟨rfl, few, rfl⟩)
      · obtain ⟨field, item⟩ := List.getElem?_zip_eq_some.mp place
        rw [List.getElem?_map, Option.map_eq_some_iff] at item
        obtain ⟨node, item, rfl⟩ := item
        obtain ⟨refused, rfl⟩ := readAt_written_eq_error.mp failed
        exact .element field item refused
      · exact .short (Nat.not_le.mp few) ofTables span
    · intro refuses
      cases refuses with
      | @element _ _ _ i f node field item refused =>
        have place : (Field.all.zip (items.map value))[i]? = some (f, value node) := by
          rw [List.getElem?_zip_eq_some, List.getElem?_map, item]
          exact ⟨field, rfl⟩
        exact .inl ⟨i, _, place, rfl, readAt_written_eq_error.mpr ⟨refused, rfl⟩⟩
      | short few => exact .inr ⟨rfl, Nat.not_le.mpr few, rfl⟩
  · rintro _ _ x y ⟨i, _, _, rfl, _⟩ ⟨rfl, _⟩
    exact .finish i

theorem reports_scalar (value : Scalar) (span : Span) :
    Reports Spot.Before (Refuses (.scalar value span)) (overridesOfNode (.scalar value span)) := by
  refine (Reports.single (fun fault => Iff.rfl) .whole).congr fun spot fault => ?_
  by_cases moment : value = .moment
  · subst moment
    constructor
    · rintro ⟨rfl, failed⟩
      cases failed
      exact .moment span
    · intro refuses
      cases refuses with
      | moment => exact ⟨rfl, rfl⟩
      | scalar notMoment => exact absurd rfl notMoment
  · have failed : overridesOfNode (.scalar value span) =
        .error ⟨mismatch (.scalar value span) .overrides, some span⟩ := by
      cases value with
      | moment => exact absurd rfl moment
      | _ => simp only [overridesOfNode, refuse_eq, Node.span]
    rw [failed]
    constructor
    · rintro ⟨rfl, same⟩
      cases same
      exact .scalar moment span
    · intro refuses
      cases refuses with
      | moment => exact absurd rfl moment
      | scalar => exact ⟨rfl, rfl⟩

theorem reports_overrides {node : Node} (keyed : node.Keyed) :
    Reports Spot.Before (Refuses node) (overridesOfNode node) := by
  cases keyed with
  | scalar value span => exact reports_scalar value span
  | array each => exact reports_array _ _ _
  | table distinct each => exact reports_table distinct

theorem baseOfNode_eq_error {node : Node} {fault : DocumentFault} :
    baseOfNode node = .error fault ↔ (∀ value span, node ≠ .scalar (.string value) span) ∧
      fault = ⟨mismatch node .aString, some node.span⟩ := by
  unfold baseOfNode
  split
  · simp
  · rename_i notText
    rw [refuse_eq, Except.error.injEq, eq_comm]
    exact (and_iff_right notText).symm

theorem EntryOffends.within {entry : Key × Node} {position : Position} {fault : DocumentFault}
    (offends : EntryOffends entry position fault) :
    ∃ spot, position = .within entry.1.text spot := by
  cases offends with
  | unknown notBase notOverrides node => exact ⟨_, rfl⟩
  | base named notText => exact ⟨_, rfl⟩
  | overrides named refuses => exact ⟨_, rfl⟩

theorem reports_base {key : Key} (named : key.text = "base") (node : Node) :
    Reports Position.Before (EntryOffends (key, node)) (baseOfNode node) := by
  refine (Reports.single (fun fault => Iff.rfl) (.within key.text .whole)).congr ?_
  intro position fault
  rw [baseOfNode_eq_error]
  constructor
  · rintro ⟨rfl, notText, rfl⟩
    exact .base named notText
  · intro offends
    cases offends with
    | unknown notBase => exact absurd named notBase
    | base _ notText => exact ⟨rfl, notText, rfl⟩
    | overrides other => exact absurd (named.symm.trans other) (by decide)

theorem reports_overridesEntry {key : Key} (named : key.text = "overrides") {node : Node}
    (keyed : node.Keyed) :
    Reports Position.Before (EntryOffends (key, node)) (overridesOfNode node) := by
  refine ((reports_overrides keyed).embed (Position.within key.text) ?_ ?_).congr ?_
  · intro s t
    constructor
    · intro before
      cases before with
      | keys _ _ less => exact absurd less (List.lt_irrefl _)
      | spots before => exact before
    · exact .spots
  · rintro s t ⟨⟩
    rfl
  · intro position fault
    constructor
    · rintro ⟨spot, rfl, refuses⟩
      exact .overrides named refuses
    · intro offends
      cases offends with
      | unknown _ notOverrides => exact absurd named notOverrides
      | base other => exact absurd (other.symm.trans named) (by decide)
      | overrides _ refuses => exact ⟨_, rfl, refuses⟩

theorem reports_visit {key : Key} {node : Node} (keyed : node.Keyed) (draft : Draft) :
    Reports Position.Before (EntryOffends (key, node)) (visit draft (key, node)) := by
  unfold visit
  split
  · rename_i named
    exact (reports_base named node).map _
  · rename_i notBase
    split
    · rename_i named
      exact (reports_overridesEntry named keyed).map _
    · rename_i notOverrides
      refine (Reports.single (fun fault => Iff.rfl) (.within key.text .whole)).congr ?_
      intro position fault
      constructor
      · rintro ⟨rfl, failed⟩
        cases failed
        exact .unknown notBase notOverrides node
      · intro offends
        cases offends with
        | unknown => exact ⟨rfl, rfl⟩
        | base named => exact absurd named notBase
        | overrides named => exact absurd named notOverrides

theorem reports_missing {document : Table Node} {draft : Draft}
    (folded : (visited document).foldlM visit ⟨none, .none⟩ = .ok draft) :
    Reports Position.Before (fun position fault => position = .finish ∧
        (∀ node, ¬ document.Holds "base" node) ∧ fault = ⟨.missingField "base", none⟩)
      (match draft.base with
        | some base => .ok ⟨base, draft.overrides⟩
        | none => .error ⟨.missingField "base", none⟩ : Except DocumentFault Conf) := by
  refine .single (fun fault => ?_) _
  rcases draft_base folded with ⟨base, span, holds, isBase⟩ | ⟨noText, nothing⟩
  · rw [isBase]
    constructor
    · exact fun impossible => nomatch impossible
    · rintro ⟨absent, _⟩
      exact absurd holds (absent _)
  · have absent : ∀ node, ¬ document.Holds "base" node := by
      rintro node ⟨key, named, member⟩
      rcases visited_ok_iff.mp ⟨_, folded⟩ _ member with ⟨_, base, span, rfl⟩ | ⟨other, _⟩
      · exact noText base span ⟨key, named, member⟩
      · exact absurd (named.symm.trans other) (by decide)
    rw [nothing, Except.error.injEq, eq_comm]
    exact (and_iff_right absent).symm

theorem reports_document {document : Table Node} (keyed : document.Keyed) :
    Reports Position.Before (Offends document) (ofDocument document) := by
  have entries : Reports Position.Before
      (fun position fault => ∃ entry ∈ visited document, EntryOffends entry position fault)
      ((visited document).foldlM visit ⟨none, .none⟩) := by
    refine .foldlM Position.Before.asymm ?_ ?_ _
    · intro entry member draft
      exact reports_visit (keyed.each _ (mem_visited.mp member)) draft
    · refine (pairwise_visited keyed.distinct).imp ?_
      intro a b less p q x y here later
      obtain ⟨s, rfl⟩ := here.within
      obtain ⟨t, rfl⟩ := later.within
      exact .keys s t less
  have all := entries.bind Position.Before.asymm ?_ fun draft folded => reports_missing folded
  · refine all.congr fun position fault => ?_
    constructor
    · rintro (⟨entry, member, offends⟩ | ⟨rfl, absent, rfl⟩)
      · exact .entry (mem_visited.mp member) offends
      · exact .missing absent
    · rintro (⟨member, offends⟩ | ⟨absent⟩)
      · exact .inl ⟨_, mem_visited.mpr member, offends⟩
      · exact .inr ⟨rfl, absent, rfl⟩
  · rintro p q x y ⟨entry, _, here⟩ ⟨rfl, _⟩
    obtain ⟨spot, rfl⟩ := here.within
    exact .finish _ spot

theorem mismatch_ne_missingField (node : Node) (expected : Expected) (name : String) :
    mismatch node expected ≠ .missingField name := by
  unfold mismatch
  cases isFound : found node with
  | ok kind => exact fun impossible => nomatch impossible
  | error problem =>
    rintro ⟨⟩
    cases node with
    | scalar value span =>
      cases value with
      | integer value =>
        cases value with
        | none => cases isFound
        | some value => cases (Except.ite_eq_error.mp isFound).2
      | float literal =>
        simp only [found, foundFloat] at isFound
        split at isFound <;> cases isFound
      | _ => cases isFound
    | _ => cases isFound

theorem EntryOffends.ne_missingField {entry : Key × Node} {position : Position}
    {fault : DocumentFault} (offends : EntryOffends entry position fault) (name : String) :
    fault.problem ≠ .missingField name := by
  cases offends with
  | unknown => exact fun impossible => nomatch impossible
  | base => exact mismatch_ne_missingField _ _ _
  | overrides _ refuses =>
    cases refuses with
    | scalar => exact mismatch_ne_missingField _ _ _
    | setting => exact mismatch_ne_missingField _ _ _
    | element => exact mismatch_ne_missingField _ _ _
    | _ => exact fun impossible => nomatch impossible

/-- That there is no base is reported if nothing else is wrong. -/
theorem ofDocument_eq_missing {document : Table Node} (keyed : document.Keyed) :
    (∃ place, ofDocument document = .error ⟨.missingField "base", place⟩) ↔
      (∀ node, ¬ document.Holds "base" node) ∧
        ∀ entry ∈ document.entries, ∀ position fault, ¬ EntryOffends entry position fault := by
  simp only [(reports_document keyed).fails]
  constructor
  · rintro ⟨place, position, here, others⟩
    cases here with
    | entry member offends => exact absurd rfl (offends.ne_missingField "base")
    | missing absent =>
      refine ⟨absent, fun entry member position fault offends => ?_⟩
      obtain ⟨spot, rfl⟩ := offends.within
      rcases others _ fault (.entry member offends) with impossible | impossible
      · cases impossible
      · cases impossible
  · rintro ⟨absent, fine⟩
    refine ⟨none, .finish, .missing absent, ?_⟩
    rintro position fault (⟨member, offends⟩ | _)
    · exact absurd offends (fine _ member _ _)
    · exact .inl rfl

end SyntaxDialects.Conf
