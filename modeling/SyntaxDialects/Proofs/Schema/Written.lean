import SyntaxDialects.Proofs.Overrides
import SyntaxDialects.Proofs.Reports
import SyntaxDialects.Schema.Written

/-!
Reading override sets, by name and by position. A reading succeeds exactly if every value can be
read as the field it is meant for, and the set then holds what was read for each field and nothing
else. Otherwise it fails with the problem of the first value that cannot be read.
-/
namespace SyntaxDialects

def Field.expected : Field → Schema.Expected
  | .allow _ => .aBoolean
  | .separator => .aString

namespace Schema

variable {π : Type}

theorem readValue_value (f : Field) (found : Found) :
    (∃ read, readValue f (.value found) = .ok read) ∨
      readValue f (.value found) = .error (.invalidType found f.expected) := by
  cases f <;> cases found <;> simp [readValue, Field.expected]

theorem readAt_eq_ok {f : Field} {value : Written} {place : π} {overrides result : Overrides} :
    readAt f value place overrides = .ok result ↔
      ∃ read, readValue f value = .ok read ∧ result = overrides.put f read := by
  unfold readAt
  split
  · rename_i read success
    simp [success, eq_comm]
  · rename_i problem failure
    simp [failure]

theorem readAt_eq_error {f : Field} {value : Written} {place : π} {overrides : Overrides}
    {fault : Fault π} :
    readAt f value place overrides = .error fault ↔
      readValue f value = .error fault.problem ∧ place = fault.place := by
  obtain ⟨problem, position⟩ := fault
  unfold readAt
  split
  · rename_i read success
    simp [success]
  · rename_i other failure
    simp [failure]

/-- What is read for a field shows there and nowhere else. -/
theorem readValue_put {f g : Field} {value : Written} {read : Option g.Value}
    (success : readValue g value = .ok read) (overrides : Overrides) :
    (g = f ∧ readValue f value = .ok ((overrides.put g read).get f)) ∨
      (g ≠ f ∧ (overrides.put g read).get f = overrides.get f) := by
  by_cases same : g = f
  · subst same
    rw [Overrides.get_put_same]
    exact .inl ⟨rfl, success⟩
  · exact .inr ⟨same, Overrides.get_put_other _ _ same⟩

theorem readEntry_eq_ok {overrides result : Overrides} {entry : Entry π} :
    readEntry overrides entry = .ok result ↔
      ∃ f : Field, f.name = entry.name ∧
        ∃ read, readValue f entry.value = .ok read ∧ result = overrides.put f read := by
  unfold readEntry
  split
  · rename_i f found
    have named := Field.ofName?_eq_some.mp found
    rw [readAt_eq_ok]
    constructor
    · intro success
      exact ⟨f, named, success⟩
    · rintro ⟨g, other, success⟩
      obtain rfl := Field.name_injective (other.trans named.symm)
      exact success
  · rename_i missing
    constructor
    · intro impossible
      cases impossible
    · rintro ⟨f, named, _⟩
      rw [Field.ofName?_eq_some.mpr named] at missing
      cases missing

theorem readEntry_named {f : Field} {entry : Entry π} (named : f.name = entry.name)
    (overrides : Overrides) :
    readEntry overrides entry = readAt f entry.value entry.valuePlace overrides := by
  rw [readEntry, Field.ofName?_eq_some.mpr named]

theorem readEntry_eq_error {overrides : Overrides} {entry : Entry π} {fault : Fault π} :
    readEntry overrides entry = .error fault ↔
      (∃ f : Field, f.name = entry.name ∧
        readAt f entry.value entry.valuePlace overrides = .error fault) ∨
      ((∀ f : Field, f.name ≠ entry.name) ∧
        fault = ⟨.unknownField entry.name Field.names, entry.namePlace⟩) := by
  by_cases known : ∃ f : Field, f.name = entry.name
  · obtain ⟨f, named⟩ := known
    rw [readEntry_named named]
    constructor
    · exact fun failed => .inl ⟨f, named, failed⟩
    · rintro (⟨g, other, failed⟩ | ⟨unknown, _⟩)
      · obtain rfl := Field.name_injective (other.trans named.symm)
        exact failed
      · exact absurd named (unknown f)
  · have missing : Field.ofName? entry.name = none := by
      rw [Option.eq_none_iff_forall_ne_some]
      exact fun f found => known ⟨f, Field.ofName?_eq_some.mp found⟩
    rw [not_exists] at known
    simp [readEntry, missing, known, eq_comm]

theorem readEntry_eq_error_iff (overrides : Overrides) (entry : Entry π) (fault : Fault π) :
    readEntry overrides entry = .error fault ↔ readEntry .none entry = .error fault := by
  simp only [readEntry_eq_error, readAt_eq_error]

def Readable (entry : Entry π) : Prop :=
  ∃ f : Field, f.name = entry.name ∧ ∃ read, readValue f entry.value = .ok read

theorem overridesOfEntries_ok_iff {entries : List (Entry π)} :
    (∃ result, overridesOfEntries entries = .ok result) ↔ ∀ entry ∈ entries, Readable entry := by
  apply Except.foldlM_ok_iff
  intro overrides entry
  constructor
  · rintro ⟨next, success⟩
    obtain ⟨f, named, read, success, _⟩ := readEntry_eq_ok.mp success
    exact ⟨f, named, read, success⟩
  · rintro ⟨f, named, read, success⟩
    exact ⟨_, readEntry_eq_ok.mpr ⟨f, named, read, success, rfl⟩⟩

/-- Each field has what was read under its name, or else nothing. -/
theorem overridesOfEntries_get {entries : List (Entry π)} {result : Overrides}
    (success : overridesOfEntries entries = .ok result) (f : Field) :
    (∃ entry ∈ entries, f.name = entry.name ∧ readValue f entry.value = .ok (result.get f)) ∨
      ((∀ entry ∈ entries, ∀ read,
        ¬ (f.name = entry.name ∧ readValue f entry.value = .ok read)) ∧ result.get f = none) := by
  rw [← Overrides.get_none f]
  refine Except.foldlM_last (fun overrides => overrides.get f)
    (fun entry read => f.name = entry.name ∧ readValue f entry.value = .ok read) ?_ success
  intro overrides entry next first
  obtain ⟨g, named, read, success, rfl⟩ := readEntry_eq_ok.mp first
  rcases readValue_put (f := f) success overrides with ⟨rfl, shown⟩ | ⟨other, kept⟩
  · exact .inl ⟨named, shown⟩
  · refine .inr ⟨?_, kept⟩
    rintro value ⟨clash, _⟩
    exact other (Field.name_injective (named.trans clash.symm))

/-- Entries that agree with an override set and leave none of its values out are read as it. -/
theorem overridesOfEntries_eq_ok {entries : List (Entry π)} {overrides : Overrides}
    (agree : ∀ entry ∈ entries,
      ∃ f : Field, f.name = entry.name ∧ readValue f entry.value = .ok (overrides.get f))
    (complete : ∀ f, overrides.get f ≠ none → ∃ entry ∈ entries, f.name = entry.name) :
    overridesOfEntries entries = .ok overrides := by
  obtain ⟨result, success⟩ := overridesOfEntries_ok_iff.mpr fun entry member =>
    (agree entry member).imp fun f reads => ⟨reads.1, overrides.get f, reads.2⟩
  rw [success, Except.ok.injEq]
  apply Overrides.ext_get
  intro f
  rcases overridesOfEntries_get success f with ⟨entry, member, named, read⟩ | ⟨silent, nothing⟩
  · obtain ⟨g, named', agrees⟩ := agree entry member
    obtain rfl := Field.name_injective (named.trans named'.symm)
    rwa [read, Except.ok.injEq] at agrees
  · by_contra differs
    obtain ⟨entry, member, named⟩ := complete f fun unset => differs (nothing.trans unset.symm)
    obtain ⟨g, named', agrees⟩ := agree entry member
    obtain rfl := Field.name_injective (named.trans named'.symm)
    exact silent entry member _ ⟨named, agrees⟩

def readPair (overrides : Overrides) (pair : Field × Written × π) : Except (Fault π) Overrides :=
  readAt pair.1 pair.2.1 pair.2.2 overrides

theorem fillPositions_eq_foldlM (fields : List Field) (values : List (Written × π))
    (start : Overrides) :
    fillPositions fields values start = ((fields.zip values).foldlM readPair start >>=
      fun overrides => .ok (fields.drop values.length, overrides)) := by
  induction fields generalizing values start with
  | nil => simp [fillPositions, pure_bind]
  | cons f fields ih =>
    cases values with
    | nil => simp [fillPositions, pure_bind]
    | cons value values =>
      simp only [fillPositions, List.zip_cons_cons, List.foldlM_cons, ih, bind_assoc]
      rfl

theorem overridesOfPositions_eq_foldlM (values : List (Written × π)) (whole : π) :
    overridesOfPositions values whole = ((Field.all.zip values).foldlM readPair .none >>=
      fun overrides => if Field.all.length ≤ values.length then .ok overrides
        else .error ⟨.invalidLength values.length (.tooShort Field.all.length), whole⟩) := by
  simp only [overridesOfPositions, fillPositions_eq_foldlM, bind_assoc, List.isEmpty_iff,
    ← List.drop_eq_nil_iff]
  rfl

theorem overridesOfPositions_eq_ok {values : List (Written × π)} {whole : π}
    {result : Overrides} :
    overridesOfPositions values whole = .ok result ↔
      Field.all.length ≤ values.length ∧
        (Field.all.zip values).foldlM readPair .none = .ok result := by
  simp only [overridesOfPositions_eq_foldlM, Except.bind_eq_ok, Except.ite_eq_ok]
  constructor
  · rintro ⟨read, folded, long, rfl⟩
    exact ⟨long, folded⟩
  · rintro ⟨long, folded⟩
    exact ⟨result, folded, long, rfl⟩

theorem readPair_ok_iff (overrides : Overrides) (pair : Field × Written × π) :
    (∃ next, readPair overrides pair = .ok next) ↔
      ∃ read, readValue pair.1 pair.2.1 = .ok read := by
  simp only [readPair, readAt_eq_ok]
  constructor
  · rintro ⟨next, read, success, _⟩
    exact ⟨read, success⟩
  · rintro ⟨read, success⟩
    exact ⟨_, read, success, rfl⟩

/-- Whether and how a value fails to be read has nothing to do with the values before it. -/
theorem readPair_eq_error_iff (overrides : Overrides) (pair : Field × Written × π)
    (fault : Fault π) :
    readPair overrides pair = .error fault ↔ readPair .none pair = .error fault := by
  rw [readPair, readPair, readAt_eq_error, readAt_eq_error]

/-- A value that is read for a field shows as what it was read as. -/
theorem readPair_shows {pair : Field × Written × π} {read : Option pair.1.Value} :
    (∃ single, readPair .none pair = .ok single ∧ single.get pair.1 = read) ↔
      readValue pair.1 pair.2.1 = .ok read := by
  simp only [readPair, readAt_eq_ok]
  constructor
  · rintro ⟨_, ⟨shown, success, rfl⟩, rfl⟩
    rwa [Overrides.get_put_same]
  · exact fun success => ⟨_, ⟨read, success, rfl⟩, Overrides.get_put_same _ _ _⟩

theorem overridesOfPositions_ok_iff {values : List (Written × π)} {whole : π} :
    (∃ result, overridesOfPositions values whole = .ok result) ↔
      Field.all.length ≤ values.length ∧
        ∀ pair ∈ Field.all.zip values, ∃ read, readValue pair.1 pair.2.1 = .ok read := by
  simp only [overridesOfPositions_eq_ok, exists_and_left, Except.foldlM_ok_iff readPair_ok_iff]

theorem overridesOfPositions_get {values : List (Written × π)} {whole : π} {result : Overrides}
    (success : overridesOfPositions values whole = .ok result) (f : Field) :
    ∃ value, (f, value) ∈ Field.all.zip values ∧ readValue f value.1 = .ok (result.get f) := by
  obtain ⟨long, folded⟩ := overridesOfPositions_eq_ok.mp success
  have last := Except.foldlM_last (fun overrides => overrides.get f)
    (fun pair read => pair.1 = f ∧ readValue f pair.2.1 = .ok read) ?_ folded
  · rcases last with ⟨⟨_, value⟩, member, rfl, read⟩ | ⟨absent, _⟩
    · exact ⟨value, member, read⟩
    · obtain ⟨value, inside⟩ := Field.exists_mem_zip long f
      obtain ⟨read, isRead⟩ := (overridesOfPositions_ok_iff.mp ⟨_, success⟩).2 _ inside
      exact absurd ⟨rfl, isRead⟩ (absent _ inside read)
  · rintro overrides ⟨g, value, place⟩ next first
    obtain ⟨read, isRead, rfl⟩ := readAt_eq_ok.mp first
    rcases readValue_put (f := f) isRead overrides with shown | ⟨other, kept⟩
    · exact .inl shown
    · exact .inr ⟨fun _ same => other same.1, kept⟩

theorem overridesOfPositions_eq_ok_iff {values : List (Written × π)} {whole : π}
    {result : Overrides} :
    overridesOfPositions values whole = .ok result ↔ Field.all.length ≤ values.length ∧
      ∀ pair ∈ Field.all.zip values, readValue pair.1 pair.2.1 = .ok (result.get pair.1) := by
  constructor
  · intro success
    refine ⟨(overridesOfPositions_eq_ok.mp success).1, ?_⟩
    rintro ⟨f, value⟩ member
    obtain ⟨other, place, read⟩ := overridesOfPositions_get success f
    rwa [Field.mem_zip_unique member place]
  · rintro ⟨long, agree⟩
    obtain ⟨read, success⟩ : ∃ read, overridesOfPositions values whole = .ok read :=
      overridesOfPositions_ok_iff.mpr ⟨long, fun pair member => ⟨_, agree pair member⟩⟩
    rw [success, Except.ok.injEq]
    apply Overrides.ext_get
    intro f
    obtain ⟨value, place, shown⟩ := overridesOfPositions_get success f
    rwa [agree _ place, Except.ok.injEq, eq_comm] at shown

section Elements

variable {α : Type} {value : α → Written × π} {items : List α} {whole : π}

theorem forall_mem_zip_map {p : Field × Written × π → Prop} :
    (∀ pair ∈ Field.all.zip (items.map value), p pair) ↔
      ∀ pair ∈ Field.all.zip items, p (pair.1, value pair.2) := by
  rw [List.zip_map_right, List.forall_mem_map]
  rfl

/-- Elements are read by position as each is read alone, if there are enough of them. -/
theorem overridesOfPositions_map_eq_ok {result : Overrides} :
    overridesOfPositions (items.map value) whole = .ok result ↔ 18 ≤ items.length ∧
      ∀ pair ∈ Field.all.zip items, ∃ single,
        readPair .none (pair.1, value pair.2) = .ok single ∧
          single.get pair.1 = result.get pair.1 := by
  rw [overridesOfPositions_eq_ok_iff, List.length_map, forall_mem_zip_map]
  exact and_congr_right fun _ => forall₂_congr fun pair _ => readPair_shows.symm

theorem overridesOfPositions_map_ok_iff :
    (∃ result, overridesOfPositions (items.map value) whole = .ok result) ↔ 18 ≤ items.length ∧
      ∀ pair ∈ Field.all.zip items, ∃ single, readPair .none (pair.1, value pair.2) = .ok single := by
  simp only [readPair_ok_iff]
  rw [overridesOfPositions_ok_iff, List.length_map, forall_mem_zip_map]
  rfl

/-- The first element that cannot be read is reported, or else that elements are missing. -/
theorem overridesOfPositions_map_eq_error {fault : Fault π} :
    overridesOfPositions (items.map value) whole = .error fault ↔
      FirstFailure (fun pair => readPair .none (pair.1, value pair.2))
        (Field.all.zip items) fault ∨
      ((∀ pair ∈ Field.all.zip items, ∃ single,
          readPair .none (pair.1, value pair.2) = .ok single) ∧
        items.length < 18 ∧ fault = ⟨.invalidLength items.length (.tooShort 18), whole⟩) := by
  have count : Field.all.length = 18 := rfl
  rw [overridesOfPositions_eq_foldlM, Except.bind_eq_error, foldlM_eq_error readPair_eq_error_iff,
    List.length_map, count]
  refine or_congr ?_ ?_
  · rw [List.zip_map_right, firstFailure_map]
    rfl
  · have folds : (∃ result, (Field.all.zip (items.map value)).foldlM readPair .none = .ok result) ↔
        ∀ pair ∈ Field.all.zip items, ∃ single, readPair .none (pair.1, value pair.2) = .ok single := by
      simp only [readPair_ok_iff]
      rw [Except.foldlM_ok_iff readPair_ok_iff, forall_mem_zip_map]
    rw [← folds]
    simp only [Except.ite_eq_error, exists_and_right, Nat.not_le, eq_comm (b := fault)]

end Elements

end Schema

end SyntaxDialects
