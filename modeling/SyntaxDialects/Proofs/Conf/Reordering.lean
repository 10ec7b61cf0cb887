import SyntaxDialects.Proofs.Conf.Problems

/-!
The order of keys does not matter. Two documents with the same keys and values, whatever the order
and layout of their text, describe the same configuration or have the same problem; and this problem
is the first one in the order of positions.
-/
namespace SyntaxDialects.Conf
open Schema Toml Text

/-- The nodes differ in the order of keys in tables and in layout. -/
inductive Reordered : Node → Node → Prop where
  | scalar (value : Scalar) (span span' : Span) :
    Reordered (.scalar value span) (.scalar value span')
  | array {items others : List Node} (long : items.length = others.length)
    (each : ∀ (i : Nat) (item twin : Node), items[i]? = some item → others[i]? = some twin →
      Reordered item twin) (ofTables ofTables' : Bool) (span span' : Span) :
    Reordered (.array items ofTables span) (.array others ofTables' span')
  | table {table other : Table Node} (names : table.names.Perm other.names)
    (each : ∀ entry ∈ table.entries, ∀ twin ∈ other.entries, entry.1.text = twin.1.text →
      Reordered entry.2 twin.2) : Reordered (.table table) (.table other)

namespace Reordered

variable {node twin : Node}

theorem symm (same : Reordered node twin) : Reordered twin node := by
  induction same with
  | scalar value span span' => exact .scalar value span' span
  | array long each ofTables ofTables' span span' ih =>
    exact .array long.symm (fun i item twin atTwin atItem => ih i twin item atItem atTwin) _ _ _ _
  | table names each ih =>
    exact .table names.symm fun twin inOther entry inTable named =>
      ih entry inTable twin inOther named.symm

theorem refl (keyed : node.Keyed) : Reordered node node := by
  induction keyed with
  | scalar value span => exact .scalar value span span
  | array each ih =>
    refine .array rfl (fun i item twin atItem atTwin => ?_) _ _ _ _
    cases atItem.symm.trans atTwin
    exact ih item (List.mem_of_getElem? atItem)
  | table distinct each ih =>
    refine .table (.refl _) fun entry member twin inTable named => ?_
    cases List.inj_on_of_nodup_map distinct member inTable named
    exact ih entry member

/-- Any order of the entries of a table is a reordering. -/
theorem of_perm {table other : Table Node} (keyed : table.Keyed)
    (perm : table.entries.Perm other.entries) : Reordered (.table table) (.table other) := by
  refine .table (perm.map _) fun entry member twin inOther named => ?_
  cases List.inj_on_of_nodup_map keyed.distinct member (perm.mem_iff.mpr inOther) named
  exact .refl (keyed.each entry member)

theorem found_eq (same : Reordered node twin) : found node = found twin := by
  cases same with
  | scalar value => cases value <;> rfl
  | array => rfl
  | table => rfl

theorem mismatch_eq (same : Reordered node twin) (expected : Expected) :
    mismatch node expected = mismatch twin expected := by
  rw [mismatch, mismatch, same.found_eq]

theorem valueIn_eq (same : Reordered node twin) (f : Field) : f.valueIn node = f.valueIn twin := by
  cases same with
  | scalar value => cases f <;> cases value <;> rfl
  | array => cases f <;> rfl
  | table => cases f <;> rfl

theorem element {items others : List Node} {ofTables ofTables' : Bool} {span span' : Span}
    (same : Reordered (.array items ofTables span) (.array others ofTables' span')) {i : Nat}
    (item : items[i]? = some node) : ∃ twin, others[i]? = some twin ∧ Reordered node twin := by
  cases same with
  | array long each =>
    obtain ⟨inside, _⟩ := List.getElem?_eq_some_iff.mp item
    have atOther := List.getElem?_eq_getElem (long ▸ inside : i < others.length)
    exact ⟨_, atOther, each i node _ item atOther⟩

section Tables

variable {table other : Table Node}

theorem entry (same : Reordered (.table table) (.table other)) {entry : Key × Node}
    (member : entry ∈ table.entries) :
    ∃ twin ∈ other.entries, twin.1.text = entry.1.text ∧ Reordered entry.2 twin.2 := by
  cases same with
  | table names each =>
    have named : entry.1.text ∈ other.names := names.mem_iff.mp (List.mem_map_of_mem member)
    obtain ⟨twin, inOther, isNamed⟩ := List.mem_map.mp named
    exact ⟨twin, inOther, isNamed, each entry member twin inOther isNamed.symm⟩

theorem holds (same : Reordered (.table table) (.table other)) {name : String}
    (holds : table.Holds name node) : ∃ twin, other.Holds name twin ∧ Reordered node twin := by
  obtain ⟨key, named, member⟩ := holds
  obtain ⟨⟨key', twin⟩, inOther, isNamed, sameValue⟩ := same.entry member
  exact ⟨twin, ⟨key', isNamed.trans named, inOther⟩, sameValue⟩

end Tables

theorem refuses (same : Reordered node twin) {spot : Spot} {fault : DocumentFault}
    (refuses : Refuses node spot fault) :
    ∃ other, other.problem = fault.problem ∧ Refuses twin spot other := by
  cases refuses with
  | moment span =>
    cases same with
    | scalar _ _ span' => exact ⟨⟨_, some span'⟩, rfl, .moment span'⟩
  | scalar notMoment span =>
    have sameProblem := same.mismatch_eq .overrides
    cases same with
    | scalar _ _ span' => exact ⟨⟨_, some span'⟩, sameProblem.symm, .scalar notMoment span'⟩
  | unknown member unknown =>
    cases twin with
    | table other =>
      obtain ⟨⟨key, _⟩, inOther, isNamed, _⟩ := same.entry member
      refine ⟨⟨.unknownField key.text Field.names, some key.span⟩, by rw [isNamed], ?_⟩
      rw [← isNamed] at unknown ⊢
      exact .unknown inOther unknown
    | _ => cases same
  | @setting _ _ _ f member named refused =>
    cases twin with
    | table other =>
      obtain ⟨⟨key, value⟩, inOther, isNamed, sameValue⟩ := same.entry member
      refine ⟨⟨mismatch value f.expected, some value.span⟩, (sameValue.mismatch_eq _).symm, ?_⟩
      rw [← isNamed]
      exact .setting inOther (named.trans isNamed.symm) (sameValue.valueIn_eq f ▸ refused)
    | _ => cases same
  | @element _ _ _ _ f _ field item refused =>
    cases twin with
    | array others ofTables span =>
      obtain ⟨value, atOther, sameValue⟩ := same.element item
      exact ⟨⟨mismatch value f.expected, some value.span⟩, (sameValue.mismatch_eq _).symm,
        .element field atOther (sameValue.valueIn_eq f ▸ refused)⟩
    | _ => cases same
  | short few ofTables span =>
    cases same with
    | array long each _ ofTables' _ span' =>
      refine ⟨⟨.invalidLength _ (.tooShort 18), some span'⟩, by rw [long], ?_⟩
      exact .short (long ▸ few) ofTables' span'

theorem entryOffends {entry twin : Key × Node} (isNamed : twin.1.text = entry.1.text)
    (same : Reordered entry.2 twin.2) {position : Position} {fault : DocumentFault}
    (offends : EntryOffends entry position fault) :
    ∃ other, other.problem = fault.problem ∧ EntryOffends twin position other := by
  obtain ⟨key, value⟩ := twin
  cases offends with
  | unknown notBase notOverrides =>
    refine ⟨⟨.unknownField key.text ["base", "overrides"], some key.span⟩, by rw [isNamed], ?_⟩
    rw [← isNamed] at notBase notOverrides ⊢
    exact .unknown notBase notOverrides value
  | base named notText =>
    refine ⟨⟨mismatch value .aString, some value.span⟩, (same.mismatch_eq _).symm, ?_⟩
    rw [← isNamed] at named ⊢
    refine .base named ?_
    rintro text span rfl
    cases same with
    | scalar _ span' => exact notText text span' rfl
  | overrides named refuses =>
    obtain ⟨other, sameProblem, also⟩ := same.refuses refuses
    refine ⟨other, sameProblem, ?_⟩
    rw [← isNamed] at named ⊢
    exact .overrides named also

section Documents

variable {document other : Table Node}

theorem offends (same : Reordered (.table document) (.table other)) {position : Position}
    {fault : DocumentFault} (offends : Offends document position fault) :
    ∃ otherFault, otherFault.problem = fault.problem ∧ Offends other position otherFault := by
  cases offends with
  | entry member offends =>
    obtain ⟨twin, inOther, isNamed, sameValue⟩ := same.entry member
    obtain ⟨otherFault, sameProblem, also⟩ := entryOffends isNamed sameValue offends
    exact ⟨otherFault, sameProblem, .entry inOther also⟩
  | missing absent =>
    refine ⟨_, rfl, .missing fun value holds => ?_⟩
    obtain ⟨twin, holdsTwin, _⟩ := same.symm.holds holds
    exact absent twin holdsTwin

theorem isFirst (same : Reordered (.table document) (.table other)) {position : Position}
    {fault : DocumentFault} (first : IsFirst Position.Before (Offends document) position fault) :
    ∃ otherFault, otherFault.problem = fault.problem ∧
      IsFirst Position.Before (Offends other) position otherFault := by
  obtain ⟨otherFault, sameProblem, also⟩ := same.offends first.here
  refine ⟨otherFault, sameProblem, also, fun another _ offends => ?_⟩
  obtain ⟨_, _, here⟩ := same.symm.offends offends
  exact first.others another _ here

theorem error (keyed : document.Keyed) (keyedOther : other.Keyed)
    (same : Reordered (.table document) (.table other)) {fault : DocumentFault}
    (failed : ofDocument document = .error fault) :
    ∃ otherFault, otherFault.problem = fault.problem ∧ ofDocument other = .error otherFault := by
  obtain ⟨position, first⟩ := ((reports_document keyed).fails fault).mp failed
  obtain ⟨otherFault, sameProblem, also⟩ := same.isFirst first
  exact ⟨otherFault, sameProblem, ((reports_document keyedOther).fails _).mpr ⟨position, also⟩⟩

theorem writes (same : Reordered node twin) {f : Field} {value : f.Value}
    (writes : Writes node f value) : Writes twin f value := by
  cases writes with
  | named holds isValue =>
    cases twin with
    | table other =>
      obtain ⟨_, holdsOther, sameValue⟩ := same.holds holds
      exact .named holdsOther (sameValue.valueIn_eq f ▸ isValue)
    | _ => cases same
  | placed place isValue =>
    cases twin with
    | array others ofTables span =>
      obtain ⟨i, atPlace⟩ := List.mem_iff_getElem?.mp place
      obtain ⟨field, item⟩ := List.getElem?_zip_eq_some.mp atPlace
      obtain ⟨value, atOther, sameValue⟩ := same.element item
      have placeOther : (f, value) ∈ Field.all.zip others :=
        List.mem_of_getElem? (List.getElem?_zip_eq_some.mpr ⟨field, atOther⟩)
      exact .placed placeOther (sameValue.valueIn_eq f ▸ isValue)
    | _ => cases same

theorem describedBy (same : Reordered (.table document) (.table other)) {conf : Conf}
    (described : DescribedBy document conf) : DescribedBy other conf := by
  refine ⟨?_, fun f value => (described.overrides f value).trans ⟨?_, ?_⟩⟩
  · obtain ⟨span, holds⟩ := described.base
    obtain ⟨twin, holdsOther, sameBase⟩ := same.holds holds
    cases sameBase with
    | scalar _ _ span' => exact ⟨span', holdsOther⟩
  · rintro ⟨node, holds, writes⟩
    obtain ⟨twin, holdsOther, sameNode⟩ := same.holds holds
    exact ⟨twin, holdsOther, sameNode.writes writes⟩
  · rintro ⟨twin, holds, writes⟩
    obtain ⟨node, holdsOther, sameNode⟩ := same.symm.holds holds
    exact ⟨node, holdsOther, sameNode.writes writes⟩

theorem ofDocument_eq (keyed : document.Keyed) (keyedOther : other.Keyed)
    (same : Reordered (.table document) (.table other)) :
    (ofDocument document).mapError Fault.problem = (ofDocument other).mapError Fault.problem := by
  -- A problem of either is one of the other, so both describe a configuration or neither does.
  cases decoded : ofDocument document with
  | error fault =>
    obtain ⟨otherFault, sameProblem, failed⟩ := same.error keyed keyedOther decoded
    rw [failed, Except.mapError, Except.mapError, sameProblem]
  | ok conf =>
    cases decodedOther : ofDocument other with
    | error fault =>
      obtain ⟨_, _, failed⟩ := same.symm.error keyedOther keyed decodedOther
      rw [decoded] at failed
      cases failed
    | ok otherConf =>
      have described := same.describedBy (ofDocument_describedBy keyed decoded)
      rw [described.unique keyedOther (ofDocument_describedBy keyedOther decodedOther)]

end Documents

end Reordered

/-- Decoding fails exactly on the documents that are not of the right shape, and with the problem of
the first position that offends, where keys go by their bytes and elements by their index. A missing
base is the problem if nothing else is wrong. So documents that differ in the order of keys describe
the same configuration or have the same problem. -/
theorem first_problem_reported {document : Table Node} (keyed : document.Keyed) :
    ((∃ fault, ofDocument document = .error fault) ↔ ¬ Shape document) ∧
    (∀ fault, ofDocument document = .error fault ↔
      ∃ position, IsFirst Position.Before (Offends document) position fault) ∧
    ((∃ place, ofDocument document = .error ⟨.missingField "base", place⟩) ↔
      (∀ node, ¬ document.Holds "base" node) ∧
        ∀ entry ∈ document.entries, ∀ position fault, ¬ EntryOffends entry position fault) ∧
    (∀ other : Table Node, other.Keyed → Reordered (.table document) (.table other) →
      (ofDocument document).mapError Fault.problem =
        (ofDocument other).mapError Fault.problem) := by
  refine ⟨?_, (reports_document keyed).fails, ofDocument_eq_missing keyed,
    fun other keyedOther same => same.ofDocument_eq keyed keyedOther⟩
  constructor
  · rintro ⟨fault, failed⟩ shape
    obtain ⟨conf, decoded⟩ := ofDocument_ok_of_shape keyed shape
    rw [failed] at decoded
    cases decoded
  · intro misshapen
    cases decoded : ofDocument document with
    | error fault => exact ⟨fault, rfl⟩
    | ok conf => exact absurd (ofDocument_shape decoded) misshapen

/-- A document with three faults, of which the one reported is neither first nor last in the text,
and the same document from last to first. -/
theorem first_problem_reported_of_three :
    let place : Span := ⟨0, 0⟩
    let overrides : Table Node :=
      ⟨[(⟨"allow_nothing", place⟩, .scalar (.boolean true) place),
        (⟨"allow_and_types", place⟩, .scalar (.string "no") place)], .header, place⟩
    let document : Table Node :=
      ⟨[(⟨"unknown", place⟩, .scalar (.boolean true) place), (⟨"overrides", place⟩, .table overrides),
        (⟨"base", place⟩, .scalar (.string "Dotty") place)], .header, place⟩
    let other : Table Node := { document with entries := document.entries.reverse }
    document.Keyed ∧ other.Keyed ∧ Reordered (.table document) (.table other) ∧
      (ofDocument other).mapError Fault.problem =
        .error (.invalidType (.text "no") .aBoolean) := by
  intro place overrides document other
  have overridesKeyed : overrides.Keyed := by
    refine .table (by decide) ?_
    intro entry member
    rcases List.mem_pair.mp member with rfl | rfl <;> exact .scalar _ _
  have keyed : document.Keyed := by
    refine .table (by decide) ?_
    simp only [document, List.forall_mem_cons]
    exact ⟨.scalar _ _, overridesKeyed, .scalar _ _, by simp⟩
  have perm : document.entries.Perm other.entries := (List.reverse_perm _).symm
  have keyedOther : other.Keyed :=
    .table (by decide) fun entry member => keyed.each entry (perm.mem_iff.mpr member)
  have same := Reordered.of_perm keyed perm
  obtain ⟨_, fails, _, order⟩ := first_problem_reported keyed
  refine ⟨keyed, keyedOther, same, ?_⟩
  have failed : ofDocument document =
      .error ⟨.invalidType (.text "no") .aBoolean, some place⟩ := by
    refine (fails _).mpr ⟨.within "overrides" (.setting "allow_and_types"), ?_, ?_⟩
    · have inOverrides : _ ∈ overrides.entries := List.mem_cons_of_mem _ (List.mem_cons_self ..)
      have inDocument : _ ∈ document.entries := List.mem_cons_of_mem _ (List.mem_cons_self ..)
      have refuses := Refuses.setting (f := .allow .andTypes) inOverrides rfl rfl
      exact .entry inDocument (.overrides rfl refuses)
    · rintro position fault (⟨member, offends⟩ | ⟨absent⟩)
      · simp only [document, List.mem_cons, List.not_mem_nil, or_false] at member
        rcases member with rfl | rfl | rfl
        · obtain ⟨spot, rfl⟩ := offends.within
          exact .inr (.keys _ _ (bytes_lt_bytes (by decide)))
        · cases offends with
          | unknown _ notOverrides => exact absurd rfl notOverrides
          | base named => exact absurd named (by decide)
          | overrides _ refuses =>
            obtain ⟨entry, inOverrides, rfl, _⟩ := readEntry_of_refuses refuses
            rcases List.mem_pair.mp inOverrides with rfl | rfl
            · exact .inr (.spots (.settings (bytes_lt_bytes (by decide))))
            · exact .inl rfl
        · cases offends with
          | unknown notBase => exact absurd rfl notBase
          | base _ notText => exact absurd rfl (notText _ _)
          | overrides named => exact absurd named (by decide)
      · have holds : document.Holds "base" (.scalar (.string "Dotty") place) :=
          ⟨⟨"base", place⟩, rfl, by simp [document]⟩
        exact absurd holds (absent _)
  rw [← order other keyedOther same, failed]
  rfl

end SyntaxDialects.Conf
