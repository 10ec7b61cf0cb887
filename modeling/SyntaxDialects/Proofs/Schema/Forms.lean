import SyntaxDialects.Datum
import SyntaxDialects.Proofs.Conf.Decoding

/-!
The forms of an override set. As data it is a record of its settings, in any order and perhaps with
nulls for other fields, or a sequence of all fields; in a document it is a table of its settings
or, if nothing is left out, an array. All of them are read as the same set, because an element of
a sequence or an array is read as it would be under the name of its field.
-/
namespace SyntaxDialects
open Schema Toml

def Field.given : (f : Field) → Datum → Option (Option f.Value)
  | _, .null => some none
  | .allow _, .boolean value => some (some value)
  | .separator, .text value => some (some value)
  | _, _ => none

theorem Field.readValue_datum {f : Field} {datum : Datum} {read : Option f.Value} :
    readValue f datum.written = .ok read ↔ f.given datum = some read := by
  cases f <;> cases datum <;> simp [Datum.written, Datum.found?, readValue, given]

theorem Field.readValue_refused {f : Field} {datum : Datum} (refused : f.given datum = none) :
    ∃ found, datum.found? = some found ∧
      readValue f datum.written = .error (.invalidType found f.expected) := by
  cases isFound : datum.found? with
  | none => cases datum <;> simp_all [Datum.found?, given]
  | some found =>
    have asFound : datum.written = .value found := by rw [Datum.written, isFound]
    refine ⟨found, rfl, ?_⟩
    rw [asFound]
    refine (readValue_value f found).resolve_left ?_
    rintro ⟨read, success⟩
    rw [← asFound, readValue_datum, refused] at success
    cases success

namespace Overrides

def datum (overrides : Overrides) : Field → Datum
  | .allow s => ((overrides.get (.allow s)).map Datum.boolean).getD .null
  | .separator => ((overrides.get .separator).map Datum.text).getD .null

theorem given_datum (overrides : Overrides) (f : Field) :
    f.given (overrides.datum f) = some (overrides.get f) := by
  cases f with
  | allow s => cases isSet : overrides.get (.allow s) <;> simp [datum, isSet, Field.given]
  | separator => cases isSet : overrides.get .separator <;> simp [datum, isSet, Field.given]

/-- Records of some fields with all that are set among them, and sequences of all fields. -/
inductive DatumForm (overrides : Overrides) : Datum → Prop where
  | record {fields : List Field} (distinct : fields.Nodup)
    (complete : ∀ f, overrides.get f ≠ none → f ∈ fields) :
    DatumForm overrides (.record (fields.map fun f => (f.name, overrides.datum f)))
  | sequence : DatumForm overrides (.sequence (Field.all.map overrides.datum))

/-- Tables of the settings and, if every field is set, arrays of their values and whatever else. -/
inductive NodeForm (overrides : Overrides) : Node → Prop where
  | table {table : Table Node}
    (names : table.names.Perm (overrides.settings.map fun setting => setting.1.name))
    (values : ∀ f node, table.Holds f.name node → f.valueIn node = overrides.get f) :
    NodeForm overrides (.table table)
  | array {items : List Node} {ofTables : Bool} {span : Span}
    (full : ∀ f, (overrides.get f).isSome) (long : 18 ≤ items.length)
    (values : ∀ pair ∈ Field.all.zip items, pair.1.valueIn pair.2 = overrides.get pair.1) :
    NodeForm overrides (.array items ofTables span)

end Overrides

namespace Datum

def keyed (pair : Field × Datum) : Except (Fault Unit) Overrides :=
  (record [(pair.1.name, pair.2)]).overrides

theorem keyed_eq_readPair (pair : Field × Datum) :
    keyed pair = readPair .none (pair.1, pair.2.written, ()) := by
  simp [keyed, overrides, overridesOfEntries, readEntry_named (f := pair.1), readPair]

theorem keyed_given {pair : Field × Datum} {value : Option pair.1.Value}
    (given : pair.1.given pair.2 = some value) :
    keyed pair = .ok (Overrides.none.put pair.1 value) := by
  rw [keyed_eq_readPair]
  exact readAt_eq_ok.mpr ⟨value, Field.readValue_datum.mpr given, rfl⟩

theorem keyed_refused {pair : Field × Datum} (refused : pair.1.given pair.2 = none) :
    ∃ found, pair.2.found? = some found ∧
      keyed pair = .error ⟨.invalidType found pair.1.expected, ()⟩ := by
  obtain ⟨found, isFound, failed⟩ := Field.readValue_refused refused
  refine ⟨found, isFound, ?_⟩
  rw [keyed_eq_readPair]
  exact readAt_eq_error.mpr ⟨failed, rfl⟩

/-- A sequence is read field by field as its elements are under the names of the fields, and then
it must have the right length. -/
theorem sequence_overrides_eq_ok {items : List Datum} {result : Overrides} :
    (sequence items).overrides = .ok result ↔ items.length = 18 ∧
      ∀ pair ∈ Field.all.zip items, ∃ single, keyed pair = .ok single ∧
        single.get pair.1 = result.get pair.1 := by
  have count : Field.all.length = 18 := rfl
  simp only [overrides, Except.bind_eq_ok, overridesOfPositions_map_eq_ok, ← keyed_eq_readPair,
    Except.ite_eq_ok, count]
  constructor
  · rintro ⟨read, ⟨long, shows⟩, short, rfl⟩
    exact ⟨Nat.le_antisymm short long, shows⟩
  · rintro ⟨exact, shows⟩
    exact ⟨result, ⟨Nat.le_of_eq exact.symm, shows⟩, Nat.le_of_eq exact, rfl⟩

theorem sequence_overrides_eq_error {items : List Datum} {fault : Fault Unit} :
    (sequence items).overrides = .error fault ↔
      FirstFailure keyed (Field.all.zip items) fault ∨
      ((∀ pair ∈ Field.all.zip items, ∃ single, keyed pair = .ok single) ∧
        (items.length < 18 ∧ fault = ⟨.invalidLength items.length (.tooShort 18), ()⟩ ∨
          18 < items.length ∧ fault = ⟨.invalidLength items.length .tooLong, ()⟩)) := by
  have count : Field.all.length = 18 := rfl
  simp only [overrides, Except.bind_eq_error, overridesOfPositions_map_eq_error, count,
    Except.ite_eq_error, Nat.not_le, exists_and_right, overridesOfPositions_map_ok_iff,
    ← keyed_eq_readPair]
  constructor
  · rintro ((first | ⟨all, short⟩) | ⟨⟨_, all⟩, long⟩)
    · exact .inl first
    · exact .inr ⟨all, .inl short⟩
    · exact .inr ⟨all, .inr ⟨long.1, long.2.symm⟩⟩
  · rintro (first | ⟨all, short | ⟨long, rfl⟩⟩)
    · exact .inl (.inl first)
    · exact .inl (.inr ⟨all, short⟩)
    · exact .inr ⟨⟨Nat.le_of_lt long, all⟩, long, rfl⟩

end Datum

namespace Conf

def keyed (pair : Field × Node) : Except DocumentFault Overrides :=
  let place := pair.2.span
  overridesOfNode (.table ⟨[(⟨pair.1.name, place⟩, pair.2)], .inline, place⟩)

theorem keyed_eq_readPair (pair : Field × Node) :
    keyed pair = readPair .none (pair.1, written pair.2, some pair.2.span) := by
  simp [keyed, overridesOfNode, entriesOf, visited, overridesOfEntries,
    readEntry_named (f := pair.1), readPair]

theorem keyed_value {pair : Field × Node} {value : pair.1.Value}
    (isValue : pair.1.valueIn pair.2 = some value) :
    keyed pair = .ok (Overrides.none.put pair.1 (some value)) := by
  rw [keyed_eq_readPair]
  exact readAt_eq_ok.mpr ⟨_, readValue_written.mpr ⟨value, isValue, rfl⟩, rfl⟩

theorem keyed_refused {pair : Field × Node} (refused : pair.1.valueIn pair.2 = none) :
    keyed pair = .error ⟨mismatch pair.2 pair.1.expected, some pair.2.span⟩ := by
  rw [keyed_eq_readPair]
  exact readAt_written_eq_error.mpr ⟨refused, rfl⟩

theorem array_overrides_eq_ok {items : List Node} {ofTables : Bool} {span : Span}
    {result : Overrides} :
    overridesOfNode (.array items ofTables span) = .ok result ↔ 18 ≤ items.length ∧
      ∀ pair ∈ Field.all.zip items, ∃ single, keyed pair = .ok single ∧
        single.get pair.1 = result.get pair.1 := by
  simp only [overridesOfNode, overridesOfPositions_map_eq_ok, ← keyed_eq_readPair]

theorem array_overrides_eq_error {items : List Node} {ofTables : Bool} {span : Span}
    {fault : DocumentFault} :
    overridesOfNode (.array items ofTables span) = .error fault ↔
      FirstFailure keyed (Field.all.zip items) fault ∨
      ((∀ pair ∈ Field.all.zip items, ∃ single, keyed pair = .ok single) ∧
        items.length < 18 ∧
        fault = ⟨.invalidLength items.length (.tooShort 18), some span⟩) := by
  simp only [overridesOfNode, overridesOfPositions_map_eq_error, ← keyed_eq_readPair]

end Conf

namespace Overrides

theorem DatumForm.overrides {overrides : Overrides} {datum : Datum}
    (form : overrides.DatumForm datum) : datum.overrides = .ok overrides := by
  cases form with
  | @record fields distinct complete =>
    apply overridesOfEntries_eq_ok
    · simp only [List.map_map, List.forall_mem_map]
      intro f _
      exact ⟨f, rfl, Field.readValue_datum.mpr (overrides.given_datum f)⟩
    · intro f isSet
      exact ⟨_, List.mem_map_of_mem (List.mem_map_of_mem (complete f isSet)), rfl⟩
  | sequence =>
    refine Datum.sequence_overrides_eq_ok.mpr ⟨rfl, ?_⟩
    rw [← List.map_prod_left_eq_zip, List.forall_mem_map]
    intro f _
    exact ⟨_, Datum.keyed_given (overrides.given_datum f), get_put_same _ _ _⟩

theorem NodeForm.overrides {overrides : Overrides} {node : Node}
    (form : overrides.NodeForm node) : Conf.overridesOfNode node = .ok overrides := by
  cases form with
  | @table table names values =>
    apply overridesOfEntries_eq_ok
    · simp only [Conf.entriesOf, List.forall_mem_map, Conf.mem_visited]
      intro entry member
      have named : entry.1.text ∈ table.names := List.mem_map_of_mem member
      obtain ⟨⟨f, value⟩, isSetting, isName⟩ := List.mem_map.mp (names.mem_iff.mp named)
      have isSet := mem_settings.mp isSetting
      have isValue := (values f entry.2 ⟨entry.1, isName.symm, member⟩).trans isSet
      exact ⟨f, isName, Conf.readValue_written.mpr ⟨value, isValue, isSet⟩⟩
    · intro f isSet
      obtain ⟨value, isSet⟩ := Option.ne_none_iff_exists'.mp isSet
      have named : f.name ∈ table.names :=
        names.mem_iff.mpr (List.mem_map.mpr ⟨⟨f, value⟩, mem_settings.mpr isSet, rfl⟩)
      obtain ⟨entry, member, isName⟩ := List.mem_map.mp named
      exact ⟨_, List.mem_map_of_mem (Conf.mem_visited.mpr member), isName.symm⟩
  | array full long values =>
    refine Conf.array_overrides_eq_ok.mpr ⟨long, ?_⟩
    intro pair member
    obtain ⟨value, isSet⟩ := Option.isSome_iff_exists.mp (full pair.1)
    have isValue := (values pair member).trans isSet
    exact ⟨_, Conf.keyed_value isValue, (get_put_same _ _ _).trans isSet.symm⟩

/-- All forms of an override set are read as it. Conversely a value is read at a position as it is
under the name of the field there: the first one of another type than its field's is reported, then
a wrong length, and otherwise each field has what was read for it. Arrays of documents may be longer
than sequences may. -/
theorem forms_agree :
    (∀ overrides datum, DatumForm overrides datum → datum.overrides = .ok overrides) ∧
    (∀ overrides node, NodeForm overrides node → Conf.overridesOfNode node = .ok overrides) ∧
    (∀ pair : Field × Datum,
      (∃ value, pair.1.given pair.2 = some value ∧
        Datum.keyed pair = .ok (Overrides.none.put pair.1 value)) ∨
      (pair.1.given pair.2 = none ∧ ∃ found, pair.2.found? = some found ∧
        Datum.keyed pair = .error ⟨.invalidType found pair.1.expected, ()⟩)) ∧
    (∀ pair : Field × Node,
      (∃ value, pair.1.valueIn pair.2 = some value ∧
        Conf.keyed pair = .ok (Overrides.none.put pair.1 (some value))) ∨
      (pair.1.valueIn pair.2 = none ∧
        Conf.keyed pair = .error ⟨Conf.mismatch pair.2 pair.1.expected, some pair.2.span⟩)) ∧
    (∀ items result, (Datum.sequence items).overrides = .ok result ↔ items.length = 18 ∧
      ∀ pair ∈ Field.all.zip items, ∃ single, Datum.keyed pair = .ok single ∧
        single.get pair.1 = result.get pair.1) ∧
    (∀ items fault, (Datum.sequence items).overrides = .error fault ↔
      FirstFailure Datum.keyed (Field.all.zip items) fault ∨
      ((∀ pair ∈ Field.all.zip items, ∃ single, Datum.keyed pair = .ok single) ∧
        (items.length < 18 ∧ fault = ⟨.invalidLength items.length (.tooShort 18), ()⟩ ∨
          18 < items.length ∧ fault = ⟨.invalidLength items.length .tooLong, ()⟩))) ∧
    (∀ items ofTables span result,
      Conf.overridesOfNode (.array items ofTables span) = .ok result ↔ 18 ≤ items.length ∧
        ∀ pair ∈ Field.all.zip items, ∃ single, Conf.keyed pair = .ok single ∧
          single.get pair.1 = result.get pair.1) ∧
    (∀ items ofTables span fault,
      Conf.overridesOfNode (.array items ofTables span) = .error fault ↔
        FirstFailure Conf.keyed (Field.all.zip items) fault ∨
        ((∀ pair ∈ Field.all.zip items, ∃ single, Conf.keyed pair = .ok single) ∧
          items.length < 18 ∧
          fault = ⟨.invalidLength items.length (.tooShort 18), some span⟩)) := by
  refine ⟨fun _ _ form => form.overrides, fun _ _ form => form.overrides, ?_, ?_,
    fun _ _ => Datum.sequence_overrides_eq_ok, fun _ _ => Datum.sequence_overrides_eq_error,
    fun _ _ _ _ => Conf.array_overrides_eq_ok, fun _ _ _ _ => Conf.array_overrides_eq_error⟩
  · intro pair
    cases given : pair.1.given pair.2 with
    | some value => exact .inl ⟨value, rfl, Datum.keyed_given given⟩
    | none => exact .inr ⟨rfl, Datum.keyed_refused given⟩
  · intro pair
    cases isValue : pair.1.valueIn pair.2 with
    | some value => exact .inl ⟨value, rfl, Conf.keyed_value isValue⟩
    | none => exact .inr ⟨rfl, Conf.keyed_refused isValue⟩

/-- Every switch granted and a separator, as a record from last to first and as an array with one
more element. -/
theorem forms_agree_on_reversed_record_and_long_array :
    let overrides := (switching Switch.all []).withSeparator ";"
    let place : Span := ⟨0, 0⟩
    let items := List.replicate 17 (Node.scalar (.boolean true) place) ++
      [.scalar (.string ";") place, .scalar .moment place]
    (Datum.record (Field.all.reverse.map fun f => (f.name, overrides.datum f))).overrides =
        .ok overrides ∧
      Conf.overridesOfNode (.array items false place) = .ok overrides := by
  intro overrides place items
  have full : ∀ f, (overrides.get f).isSome := by
    intro f
    cases f with
    | allow s => cases s <;> rfl
    | separator => rfl
  obtain ⟨datumForms, nodeForms, _⟩ := forms_agree
  refine ⟨datumForms _ _ (.record ?_ ?_), nodeForms _ _ (.array full (by decide) (by decide))⟩
  · exact List.nodup_reverse.mpr Field.nodup_all
  · exact fun f _ => List.mem_reverse.mpr f.mem_all

end Overrides

end SyntaxDialects
