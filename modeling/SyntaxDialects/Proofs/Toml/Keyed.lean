import SyntaxDialects.Proofs.Toml.Tables
import SyntaxDialects.Toml.Document

/-!
Names in a document are unique: no table in it, at whatever depth, has two entries of one name.
Putting a value under a key keeps this, whatever is put where, so every document that a text
assembles to has it.
-/
namespace SyntaxDialects.Toml

inductive Node.Keyed : Node → Prop where
  | scalar (value : Scalar) (span : Span) : Keyed (.scalar value span)
  | array {items : List Node} {ofTables : Bool} {span : Span}
    (each : ∀ item ∈ items, item.Keyed) : Keyed (.array items ofTables span)
  | table {table : Table Node} (distinct : table.names.Nodup)
    (each : ∀ entry ∈ table.entries, entry.2.Keyed) : Keyed (.table table)

abbrev Table.Keyed (table : Table Node) : Prop :=
  (Node.table table).Keyed

theorem Node.Keyed.items {items : List Node} {ofTables : Bool} {span : Span}
    (keyed : (Node.array items ofTables span).Keyed) : ∀ item ∈ items, item.Keyed := by
  cases keyed with
  | array each => exact each

namespace Table.Keyed

variable {table : Table Node}

theorem distinct (keyed : table.Keyed) : table.names.Nodup := by
  cases keyed with
  | table distinct each => exact distinct

theorem each (keyed : table.Keyed) : ∀ entry ∈ table.entries, entry.2.Keyed := by
  cases keyed with
  | table distinct each => exact each

theorem empty (origin : Origin) (span : Span) : (Table.empty origin span).Keyed :=
  .table List.nodup_nil (fun _ member => nomatch member)

theorem find? (keyed : table.Keyed) {name : String} {value : Node}
    (found : table.find? name = some value) : value.Keyed := by
  obtain ⟨key, _, member⟩ := Table.find?_holds found
  exact keyed.each _ member

theorem insert (keyed : table.Keyed) (key : Key) {value : Node} (valueKeyed : value.Keyed) :
    (table.insert key value).Keyed := by
  refine .table (Table.nodup_names_insert keyed.distinct key value) ?_
  intro entry member
  rcases List.mem_append.mp member with before | last
  · exact keyed.each entry (List.mem_filter.mp before).1
  · rw [List.mem_singleton.mp last]
    exact valueKeyed

theorem update (keyed : table.Keyed) (name : String) {value : Node} (valueKeyed : value.Keyed) :
    (table.update name value).Keyed := by
  have distinct : (table.update name value).names.Nodup := by
    rw [Table.names_update]
    exact keyed.distinct
  refine .table distinct ?_
  intro entry member
  obtain ⟨before, inside, rfl⟩ := List.mem_map.mp member
  split
  · exact valueKeyed
  · exact keyed.each before inside

theorem reopen (keyed : table.Keyed) (origin : Origin) (span : Span) :
    Table.Keyed ⟨table.entries, origin, span⟩ :=
  .table keyed.distinct keyed.each

end Table.Keyed

namespace Table

variable {table : Table Node} {name : String} {node other : Node}

theorem Keyed.holds_keyed (keyed : table.Keyed) (holds : table.Holds name node) : node.Keyed := by
  obtain ⟨key, _, member⟩ := holds
  exact keyed.each _ member

theorem Keyed.holds_unique (keyed : table.Keyed) (holds : table.Holds name node)
    (holdsOther : table.Holds name other) : node = other := by
  obtain ⟨key, rfl, member⟩ := holds
  obtain ⟨otherKey, same, otherMember⟩ := holdsOther
  have entries := List.inj_on_of_nodup_map keyed.distinct member otherMember same.symm
  exact congrArg Prod.snd entries

end Table

/-- A change of the table at the end of a path that keeps names unique keeps them so on the way. -/
theorem descend_keyed {dotted : Bool} {change : Table Node → Option (Table Node)}
    (keeps : ∀ {before after}, before.Keyed → change before = some after → after.Keyed)
    {path : List Key} {table result : Table Node} (keyed : table.Keyed)
    (descended : descend dotted change path table = some result) : result.Keyed := by
  -- Along the path: a child on the way is keyed as a part of its table, and a new one is empty.
  induction path generalizing table result with
  | nil => exact keeps keyed descended
  | cons key path ih =>
    unfold descend at descended
    split at descended
    · obtain ⟨child, inside, result⟩ := Option.bind_eq_some_iff.mp descended
      cases result
      exact keyed.insert key (ih (.empty _ _) inside)
    · rename_i child found
      split at descended
      · obtain ⟨child', inside, result⟩ := Option.bind_eq_some_iff.mp descended
        cases result
        exact keyed.update _ (ih (keyed.find? found) inside)
      · cases descended
    · rename_i items span found
      have itemsKeyed := (keyed.find? found).items
      split at descended
      · rename_i last isLast
        obtain ⟨last', inside, result⟩ := Option.bind_eq_some_iff.mp descended
        cases result
        have lastKeyed : last'.Keyed :=
          ih (itemsKeyed _ (List.mem_of_getLast? isLast)) inside
        refine keyed.update _ (.array ?_)
        intro item member
        rcases List.mem_append.mp member with before | isLast
        · exact itemsKeyed item (List.dropLast_subset _ before)
        · rw [List.mem_singleton.mp isLast]
          exact lastKeyed
      · cases descended
    · cases descended

theorem assign_keyed {table result : Table Node} {assignment : Assignment} (keyed : table.Keyed)
    (valueKeyed : assignment.value.Keyed) (assigned : assign table assignment = some result) :
    result.Keyed := by
  refine descend_keyed ?_ keyed assigned
  intro before after beforeKeyed changed
  split at changed
  · cases changed
  · split at changed
    · cases changed
    · cases changed
      exact beforeKeyed.insert _ valueKeyed

theorem assignAll_keyed {assignments : List Assignment} {table result : Table Node}
    (keyed : table.Keyed) (values : ∀ assignment ∈ assignments, assignment.value.Keyed)
    (assigned : assignAll assignments table = some result) : result.Keyed := by
  induction assignments generalizing table with
  | nil =>
    cases assigned
    exact keyed
  | cons assignment assignments ih =>
    obtain ⟨next, first, rest⟩ := Option.bind_eq_some_iff.mp assigned
    rw [List.forall_mem_cons] at values
    exact ih (assign_keyed keyed values.1 first) values.2 rest

def Section.Keyed (s : Section) : Prop :=
  ∀ assignment ∈ s.assignments, assignment.value.Keyed

theorem openSection_keyed {s : Section} {parent result : Table Node} (keyed : parent.Keyed)
    (values : s.Keyed) (opened : openSection s parent = some result) : result.Keyed := by
  have filled : ∀ {table : Table Node},
      assignAll s.assignments (Table.empty .header s.header.span) = some table → table.Keyed :=
    fun success => assignAll_keyed (.empty _ _) values success
  unfold openSection at opened
  dsimp only at opened
  split at opened
  · obtain ⟨table, success, result⟩ := Option.bind_eq_some_iff.mp opened
    cases result
    exact keyed.insert _ (filled success)
  · rename_i child _ found
    split at opened
    · obtain ⟨table, success, result⟩ := Option.bind_eq_some_iff.mp opened
      cases result
      have childKeyed : child.Keyed := keyed.find? found
      exact keyed.insert _ (assignAll_keyed (childKeyed.reopen _ _) values success)
    · cases opened
  · obtain ⟨table, success, result⟩ := Option.bind_eq_some_iff.mp opened
    cases result
    refine keyed.insert _ (.array ?_)
    intro item member
    rw [List.mem_singleton.mp member]
    exact filled success
  · rename_i items span _ found
    obtain ⟨table, success, result⟩ := Option.bind_eq_some_iff.mp opened
    cases result
    refine keyed.update _ (.array ?_)
    intro item member
    rcases List.mem_append.mp member with before | last
    · exact (keyed.find? found).items item before
    · rw [List.mem_singleton.mp last]
      exact filled success
  · cases opened

theorem assemble_keyed {whole : Span} {assignments : List Assignment} {others : List Section}
    {result : Table Node} (values : ∀ assignment ∈ assignments, assignment.value.Keyed)
    (sections : ∀ s ∈ others, s.Keyed)
    (assembled : assemble whole assignments others = some result) : result.Keyed := by
  obtain ⟨top, first, added⟩ := Option.bind_eq_some_iff.mp assembled
  have topKeyed : top.Keyed := assignAll_keyed (.empty _ _) values first
  clear first assembled
  induction others generalizing top with
  | nil =>
    cases added
    exact topKeyed
  | cons s others ih =>
    obtain ⟨next, opened, rest⟩ := Option.bind_eq_some_iff.mp added
    rw [List.forall_mem_cons] at sections
    have nextKeyed : next.Keyed :=
      descend_keyed (fun keyed changed => openSection_keyed keyed sections.1 changed) topKeyed
        opened
    exact ih sections.2 next rest nextKeyed

theorem readItems_forall {α : Type} {item : Reader α} {P : α → Prop}
    (each : ∀ {text rest value}, item text = some (value, rest) → P value) {closing : Char}
    {fuel : Nat} {text rest : List Char} {values : List α}
    (read : readItems item closing fuel text = some (values, rest)) :
    ∀ value ∈ values, P value := by
  induction fuel generalizing text values with
  | zero => cases read
  | succ fuel ih =>
    unfold readItems at read
    obtain ⟨visible, _, read⟩ := Option.bind_eq_some_iff.mp read
    split at read
    · cases read
    · split at read
      · cases read
        simp
      · obtain ⟨⟨first, afterFirst⟩, success, read⟩ := Option.bind_eq_some_iff.mp read
        obtain ⟨visible, _, read⟩ := Option.bind_eq_some_iff.mp read
        split at read
        · cases read
        · split at read
          · cases read
            simpa using each success
          · split at read
            · obtain ⟨⟨others, afterOthers⟩, more, read⟩ := Option.bind_eq_some_iff.mp read
              cases read
              rw [List.forall_mem_cons]
              exact ⟨each success, ih more⟩
            · cases read

theorem readAssignment_keyed {gap : List Char → Option (List Char)} {value : Reader Node}
    (each : ∀ {text rest node}, value text = some (node, rest) → node.Keyed)
    {text rest : List Char} {assignment : Assignment}
    (read : readAssignment gap value text = some (assignment, rest)) : assignment.value.Keyed := by
  obtain ⟨⟨path, afterPath⟩, _, read⟩ := Option.bind_eq_some_iff.mp read
  obtain ⟨atSign, _, read⟩ := Option.bind_eq_some_iff.mp read
  split at read
  · obtain ⟨atValue, _, read⟩ := Option.bind_eq_some_iff.mp read
    obtain ⟨⟨node, afterValue⟩, success, read⟩ := Option.bind_eq_some_iff.mp read
    cases read
    exact each success
  · cases read

theorem readScalarNode_keyed {text rest : List Char} {node : Node}
    (read : readScalarNode text = some (node, rest)) : node.Keyed := by
  obtain ⟨⟨scalar, after⟩, _, read⟩ := Option.bind_eq_some_iff.mp read
  cases read
  exact .scalar _ _

theorem readNode_keyed {depth : Nat} {text rest : List Char} {node : Node}
    (read : readNode depth text = some (node, rest)) : node.Keyed := by
  induction depth generalizing text rest node with
  | zero => exact readScalarNode_keyed read
  | succ depth ih =>
    unfold readNode at read
    split at read
    · obtain ⟨⟨items, after⟩, success, read⟩ := Option.bind_eq_some_iff.mp read
      cases read
      exact .array (readItems_forall (P := Node.Keyed) ih success)
    · obtain ⟨⟨assignments, after⟩, success, read⟩ := Option.bind_eq_some_iff.mp read
      obtain ⟨table, assigned, read⟩ := Option.bind_eq_some_iff.mp read
      cases read
      have values : ∀ assignment ∈ assignments, assignment.value.Keyed :=
        readItems_forall (readAssignment_keyed ih) success
      exact assignAll_keyed (.empty _ _) values assigned
    · exact readScalarNode_keyed read

def Statement.Keyed : Statement → Prop
  | .assignment given => given.value.Keyed
  | .header _ => True

theorem readStatement_keyed {text rest : List Char} {statement : Statement}
    (read : readStatement text = some (statement, rest)) : statement.Keyed := by
  unfold readStatement at read
  split at read
  · obtain ⟨⟨header, after⟩, _, read⟩ := Option.bind_eq_some_iff.mp read
    cases read
    trivial
  · obtain ⟨⟨header, after⟩, _, read⟩ := Option.bind_eq_some_iff.mp read
    cases read
    trivial
  · obtain ⟨⟨assignment, after⟩, success, read⟩ := Option.bind_eq_some_iff.mp read
    cases read
    exact readAssignment_keyed readNode_keyed success

theorem readStatements_keyed {fuel : Nat} {text : List Char} {statements : List Statement}
    (read : readStatements fuel text = some statements) :
    ∀ statement ∈ statements, statement.Keyed := by
  induction fuel generalizing text statements with
  | zero => cases read
  | succ fuel ih =>
    unfold readStatements at read
    obtain ⟨visible, _, read⟩ := Option.bind_eq_some_iff.mp read
    split at read
    · cases read
      simp
    · obtain ⟨⟨statement, after⟩, first, read⟩ := Option.bind_eq_some_iff.mp read
      obtain ⟨nextLine, _, read⟩ := Option.bind_eq_some_iff.mp read
      obtain ⟨others, more, read⟩ := Option.bind_eq_some_iff.mp read
      cases read
      rw [List.forall_mem_cons]
      exact ⟨readStatement_keyed first, ih more⟩

theorem sections_keyed {statements : List Statement}
    (each : ∀ statement ∈ statements, statement.Keyed) :
    (∀ assignment ∈ (sections statements).1, assignment.value.Keyed) ∧
      ∀ s ∈ (sections statements).2, s.Keyed := by
  induction statements with
  | nil => simp [sections]
  | cons statement statements ih =>
    rw [List.forall_mem_cons] at each
    obtain ⟨values, others⟩ := ih each.2
    cases statement with
    | assignment assignment =>
      refine ⟨?_, others⟩
      simp only [sections, List.forall_mem_cons]
      exact ⟨each.1, values⟩
    | header header =>
      refine ⟨by simp [sections], ?_⟩
      simp only [sections, List.forall_mem_cons]
      exact ⟨values, others⟩

theorem document?_keyed {text : List Char} {document : Table Node}
    (parsed : document? text = some document) : document.Keyed := by
  obtain ⟨statements, read, parsed⟩ := Option.bind_eq_some_iff.mp parsed
  obtain ⟨values, others⟩ := sections_keyed (readStatements_keyed read)
  exact assemble_keyed values others parsed

end SyntaxDialects.Toml
