import Mathlib.Data.List.Forall2
import SyntaxDialects.Proofs.Toml.Reading

/-!
Inline tables and lists of statements, read back from the texts of their parts. The parts are
items of any kind with a text each; what is read stands to the items as each of them is read.
-/
namespace SyntaxDialects.Toml
open List (Forall₂)

variable {σ : Type} {textOf : σ → List Char}

section InlineTables

variable {depth : Nat} {meaning : σ → Assignment → Prop}

def furtherEntries (texts : List (List Char)) (rest : List Char) : List Char :=
  texts.flatMap (fun next => ',' :: ' ' :: next) ++ ' ' :: '\x7d' :: rest

theorem furtherEntries_cons (text : List Char) (texts : List (List Char)) (rest : List Char) :
    furtherEntries (text :: texts) rest = ',' :: ' ' :: (text ++ furtherEntries texts rest) := by
  rw [furtherEntries, List.flatMap_cons, List.append_assoc]
  rfl

def braced : List (List Char) → List Char
  | [] => ['\x7b', '\x7d']
  | item :: items => '\x7b' :: ' ' :: (item ++ furtherEntries items [])

structure ReadsEntry (depth : Nat) (text : List Char) (meaning : Assignment → Prop) : Prop where
  bare : ∃ c tail, text = c :: tail ∧ isBareChar c = true
  read : ∀ {rest}, Delimited rest → ∃ assignment,
    readAssignment (skipFiller false) (readNode depth) (text ++ rest) = some (assignment, rest) ∧
      meaning assignment

variable {text : List Char} {sets : Assignment → Prop}

theorem ReadsEntry.start (entry : ReadsEntry depth text sets) (more : List Char) :
    ∃ c tail, c ≠ '\x7d' ∧ text ++ more = c :: tail ∧
      skipFiller false (' ' :: (text ++ more)) = some (c :: tail) := by
  obtain ⟨c, tail, cons, bare⟩ := entry.bare
  refine ⟨c, tail ++ more, ?_, by rw [cons, List.cons_append], ?_⟩
  · rintro rfl
    exact absurd bare (by decide)
  · rw [cons, List.cons_append, skipFiller_skipsBlank.skip (.of_bare bare)]

theorem readItems_last (entry : ReadsEntry depth text sets) (rest : List Char) (fuel : Nat) :
    ∃ assignment, readItems (readAssignment (skipFiller false) (readNode depth)) '\x7d' (fuel + 1)
        (' ' :: (text ++ ' ' :: '\x7d' :: rest)) = some ([assignment], rest) ∧
      sets assignment := by
  have closing : Visible '\x7d' := by decide
  obtain ⟨assignment, read, isSet⟩ := entry.read (delimited_blank_cons (by decide) closing rest)
  obtain ⟨c, tail, noBrace, cons, start⟩ := entry.start (' ' :: '\x7d' :: rest)
  rw [cons] at read
  refine ⟨assignment, ?_, isSet⟩
  simp only [readItems, start, noBrace, read, skipFiller_skipsBlank.skip closing,
    Option.bind_eq_bind, Option.bind_some, if_false, if_true]

theorem readItems_more (entry : ReadsEntry depth text sets) {rest after : List Char} {fuel : Nat}
    {others : List Assignment}
    (readOthers : readItems (readAssignment (skipFiller false) (readNode depth)) '\x7d' fuel
      (' ' :: rest) = some (others, after)) :
    ∃ assignment, readItems (readAssignment (skipFiller false) (readNode depth)) '\x7d' (fuel + 1)
        (' ' :: (text ++ ',' :: ' ' :: rest)) = some (assignment :: others, after) ∧
      sets assignment := by
  have comma : Visible ',' := by decide
  have delimited : Delimited (',' :: ' ' :: rest) := delimited_cons (by decide) (by decide) _
  obtain ⟨assignment, read, isSet⟩ := entry.read delimited
  obtain ⟨c, tail, noBrace, cons, start⟩ := entry.start (',' :: ' ' :: rest)
  rw [cons] at read
  refine ⟨assignment, ?_, isSet⟩
  have notClosing : ',' ≠ '\x7d' := by decide
  simp only [readItems, start, noBrace, read, skipFiller_visible comma, notClosing, readOthers,
    Option.bind_eq_bind, Option.bind_some, if_false, if_true]

theorem readItems_entries {item : σ} {items : List σ}
    (entries : ∀ entry ∈ item :: items, ReadsEntry depth (textOf entry) (meaning entry))
    (rest : List Char) {fuel : Nat} (enough : items.length < fuel) :
    ∃ assignments, readItems (readAssignment (skipFiller false) (readNode depth)) '\x7d' fuel
        (' ' :: (textOf item ++ furtherEntries (items.map textOf) rest)) =
          some (assignments, rest) ∧
      Forall₂ meaning (item :: items) assignments := by
  induction items generalizing item fuel with
  | nil =>
    obtain ⟨fuel, rfl⟩ := Nat.exists_eq_succ_of_ne_zero (Nat.ne_zero_of_lt enough)
    have entry := entries item (List.mem_cons_self ..)
    obtain ⟨assignment, read, isMeaning⟩ := readItems_last entry rest fuel
    exact ⟨[assignment], read, .cons isMeaning .nil⟩
  | cons next items ih =>
    obtain ⟨fuel, rfl⟩ := Nat.exists_eq_succ_of_ne_zero (Nat.ne_zero_of_lt enough)
    rw [List.forall_mem_cons] at entries
    obtain ⟨others, readOthers, meanings⟩ := ih entries.2 (Nat.lt_of_succ_lt_succ enough)
    obtain ⟨assignment, read, isMeaning⟩ := readItems_more entries.1 readOthers
    refine ⟨assignment :: others, ?_, .cons isMeaning meanings⟩
    rw [List.map_cons, furtherEntries_cons]
    exact read

theorem readNode_table {rest after : List Char} {assignments : List Assignment}
    {table : Table Node}
    (read : readItems (readAssignment (skipFiller false) (readNode depth)) '\x7d' (rest.length + 1)
      rest = some (assignments, after))
    (filled : assignAll assignments (Table.empty .inline (.between ('\x7b' :: rest) after)) =
      some table) :
    readNode (depth + 1) ('\x7b' :: rest) = some (.table table, after) := by
  simp only [readNode, read, filled, Option.bind_eq_bind, Option.bind_some]

theorem length_le_furtherEntries (texts : List (List Char)) (rest : List Char) :
    texts.length ≤ (furtherEntries texts rest).length := by
  induction texts with
  | nil => exact Nat.zero_le _
  | cons text texts ih =>
    rw [furtherEntries_cons, List.length_cons, List.length_cons, List.length_cons,
      List.length_append]
    omega

theorem readsAt_braced {items : List σ}
    (entries : ∀ entry ∈ items, ReadsEntry depth (textOf entry) (meaning entry))
    {contents : Table Node → Prop}
    (fills : ∀ assignments span, Forall₂ meaning items assignments →
      ∃ table, assignAll assignments (Table.empty .inline span) = some table ∧ contents table) :
    ReadsAt (depth + 1) (braced (items.map textOf)) fun node =>
      ∃ table, node = .table table ∧ contents table := by
  have closing : Visible '\x7d' := by decide
  cases items with
  | nil =>
    refine ⟨⟨'\x7b', _, rfl, by decide⟩, ?_⟩
    intro rest _
    have read : readItems (readAssignment (skipFiller false) (readNode depth)) '\x7d'
        (('\x7d' :: rest).length + 1) ('\x7d' :: rest) = some ([], rest) := by
      simp only [readItems, skipFiller_visible closing, Option.bind_eq_bind, Option.bind_some,
        if_true]
    obtain ⟨table, filled, isContents⟩ :=
      fills [] (.between ('\x7b' :: '\x7d' :: rest) rest) .nil
    exact ⟨.table table, readNode_table read filled, table, rfl, isContents⟩
  | cons item items =>
    refine ⟨⟨'\x7b', _, rfl, by decide⟩, ?_⟩
    intro rest _
    have text : braced ((item :: items).map textOf) ++ rest =
        '\x7b' :: ' ' :: (textOf item ++ furtherEntries (items.map textOf) rest) := by
      simp [braced, furtherEntries]
    have enough : items.length <
        (' ' :: (textOf item ++ furtherEntries (items.map textOf) rest)).length + 1 := by
      have further := length_le_furtherEntries (items.map textOf) rest
      rw [List.length_map] at further
      rw [List.length_cons, List.length_append]
      omega
    obtain ⟨assignments, read, meanings⟩ := readItems_entries entries rest enough
    obtain ⟨table, filled, isContents⟩ := fills assignments _ meanings
    rw [text]
    exact ⟨.table table, readNode_table read filled, table, rfl, isContents⟩

end InlineTables

section Lines

inductive EndsLine : List Char → List Char → Prop where
  | finish : EndsLine [] []
  | feed (next : List Char) : EndsLine ('\n' :: next) next
  | carriage (next : List Char) : EndsLine ('\r' :: '\n' :: next) next

/-- A text of these lines in turn, with blank lines anywhere. -/
inductive OnLines : List (List Char) → List Char → Prop where
  | nil : OnLines [] []
  | blank {lines : List (List Char)} {text : List Char} (more : OnLines lines text) :
    OnLines lines ('\n' :: text)
  | line {line : List Char} {lines : List (List Char)} {rest next : List Char}
    (ends : EndsLine rest next) (more : OnLines lines next) : OnLines (line :: lines) (line ++ rest)

theorem EndsLine.skipLineEnd {rest next : List Char} (ends : EndsLine rest next) :
    Toml.skipLineEnd false rest = some next := by
  cases ends <;> simp [Toml.skipLineEnd]

theorem EndsLine.delimited {rest next : List Char} (ends : EndsLine rest next) :
    Delimited rest := by
  cases ends with
  | finish => rfl
  | feed next => exact delimited_cons (by decide) (by decide) _
  | carriage next => exact delimited_cons (by decide) (by decide) _

theorem EndsLine.length_le {rest next : List Char} (ends : EndsLine rest next) :
    next.length ≤ rest.length := by
  cases ends with
  | finish => exact Nat.le_refl 0
  | feed next => exact Nat.le_succ _
  | carriage next => exact Nat.le_add_right _ 2

structure ReadsLine (text : List Char) (meaning : Statement → Prop) : Prop where
  visible : ∃ c tail, text = c :: tail ∧ Visible c
  read : ∀ {rest}, Delimited rest →
    ∃ statement, readStatement (text ++ rest) = some (statement, rest) ∧ meaning statement

theorem ReadsLine.ne_nil {text : List Char} {meaning : Statement → Prop}
    (line : ReadsLine text meaning) : text ≠ [] := by
  obtain ⟨c, tail, cons, _⟩ := line.visible
  rw [cons]
  exact List.cons_ne_nil _ _

theorem OnLines.length_le {lines : List (List Char)} {text : List Char} (on : OnLines lines text)
    (nonempty : ∀ line ∈ lines, line ≠ []) : lines.length ≤ text.length := by
  induction on with
  | nil => exact Nat.le_refl 0
  | blank _ ih => exact Nat.le_succ_of_le (ih nonempty)
  | line ends _ ih =>
    rw [List.forall_mem_cons] at nonempty
    have others := ih nonempty.2
    have shorter := ends.length_le
    have first := List.length_pos_of_ne_nil nonempty.1
    rw [List.length_cons, List.length_append]
    omega

theorem readStatements_onLines {items : List σ} {meaning : σ → Statement → Prop}
    (each : ∀ item ∈ items, ReadsLine (textOf item) (meaning item)) {text : List Char}
    (on : OnLines (items.map textOf) text) {fuel : Nat} (enough : items.length < fuel) :
    ∃ statements, readStatements fuel text = some statements ∧
      Forall₂ meaning items statements := by
  generalize texts : items.map textOf = lines at on
  -- Along the text: a blank line leaves the fuel as it is, a statement takes one from it.
  induction on generalizing items fuel with
  | nil =>
    obtain rfl := List.map_eq_nil_iff.mp texts
    obtain ⟨fuel, rfl⟩ := Nat.exists_eq_succ_of_ne_zero (Nat.ne_zero_of_lt enough)
    exact ⟨[], rfl, .nil⟩
  | blank _ ih =>
    obtain ⟨statements, read, meanings⟩ := ih each enough texts
    obtain ⟨fuel, rfl⟩ := Nat.exists_eq_succ_of_ne_zero (Nat.ne_zero_of_lt enough)
    refine ⟨statements, ?_, meanings⟩
    rw [← read, readStatements, readStatements, skipFiller]
  | line ends _ ih =>
    obtain ⟨item, items, rfl, rfl, rfl⟩ := List.map_eq_cons_iff.mp texts
    obtain ⟨fuel, rfl⟩ := Nat.exists_eq_succ_of_ne_zero (Nat.ne_zero_of_lt enough)
    rw [List.forall_mem_cons] at each
    obtain ⟨statements, readOthers, meanings⟩ := ih each.2 (Nat.lt_of_succ_lt_succ enough) rfl
    obtain ⟨statement, read, isMeaning⟩ := each.1.read ends.delimited
    obtain ⟨c, tail, cons, visible⟩ := each.1.visible
    refine ⟨statement :: statements, ?_, .cons isMeaning meanings⟩
    rw [cons, List.cons_append] at read ⊢
    simp only [readStatements, skipFiller_visible visible, read, ends.skipLineEnd, readOthers,
      Option.bind_eq_bind, Option.bind_some]

variable {parents : List String} {name : String}

theorem assignmentText_eq_cons (bareParents : ∀ part ∈ parents, Bare part) (bare : Bare name)
    (value : List Char) :
    ∃ c tail, assignmentText parents name value = c :: tail ∧ isBareChar c = true := by
  obtain ⟨c, tail, cons, bareChar⟩ := dottedName_eq_cons bareParents bare
  refine ⟨c, tail ++ ' ' :: '=' :: ' ' :: value, ?_, bareChar⟩
  rw [assignmentText, cons, List.cons_append]

theorem readStatement_assignment {c : Char} (bare : isBareChar c = true) {rest after : List Char}
    {assignment : Assignment}
    (read : readAssignment (fun text => some (skipBlanks text)) (readNode nestingLimit)
      (c :: rest) = some (assignment, after)) :
    readStatement (c :: rest) = some (.assignment assignment, after) := by
  have noBracket : c ≠ '[' := by
    rintro rfl
    exact absurd bare (by decide)
  unfold readStatement
  split
  · rename_i same
    exact absurd (List.cons.inj same).1 noBracket
  · rename_i same
    exact absurd (List.cons.inj same).1 noBracket
  · dsimp only
    rw [read, Option.bind_eq_bind, Option.bind_some]

theorem readsLine_assignment (bareParents : ∀ part ∈ parents, Bare part) (bare : Bare name)
    (short : parents.length < pathLimit) {value : List Char} {meaning : Node → Prop}
    (reads : ReadsAt nestingLimit value meaning) :
    ReadsLine (assignmentText parents name value) fun statement =>
      ∃ assignment, statement = .assignment assignment ∧ assignment.Sets parents name meaning := by
  obtain ⟨c, tail, cons, bareChar⟩ := assignmentText_eq_cons bareParents bare value
  refine ⟨⟨c, tail, cons, .of_bare bareChar⟩, ?_⟩
  intro rest delimited
  obtain ⟨assignment, read, sets⟩ :=
    readAssignment_text skipBlanks_skipsBlank bareParents bare short reads delimited
  rw [cons, List.cons_append] at read ⊢
  exact ⟨_, readStatement_assignment bareChar read, assignment, rfl, sets⟩

theorem readsEntry_assignment (bare : Bare name) {depth : Nat} {value : List Char}
    {meaning : Node → Prop} (reads : ReadsAt depth value meaning) :
    ReadsEntry depth (assignmentText [] name value) fun assignment =>
      assignment.Sets [] name meaning := by
  have noParents : ∀ part ∈ ([] : List String), Bare part := List.forall_mem_nil Bare
  refine ⟨assignmentText_eq_cons noParents bare value, ?_⟩
  intro rest delimited
  exact readAssignment_text skipFiller_skipsBlank noParents bare (by decide) reads delimited

theorem readsLine_header (bareParents : ∀ part ∈ parents, Bare part) (bare : Bare name)
    (short : parents.length < pathLimit) :
    ReadsLine ('[' :: (dottedName parents name ++ [']'])) fun statement =>
      ∃ header, statement = .header header ∧ header.isElement = false ∧
        header.path.parents.map Key.text = parents ∧ header.path.last.text = name := by
  refine ⟨⟨'[', _, rfl, by decide⟩, ?_⟩
  intro rest _
  have bracket : skipBlanks (']' :: rest) = ']' :: rest := skipBlanks_visible (by decide) rest
  have ends : EndsName (']' :: rest) := by
    refine ⟨rfl, ?_⟩
    rw [bracket, List.head?_cons]
    decide
  obtain ⟨path, read, parentTexts, text⟩ := readPath_dottedName bareParents bare ends short
  obtain ⟨c, tail, cons, bareChar⟩ := dottedName_eq_cons bareParents bare
  have noBracket : c ≠ '[' := by
    rintro rfl
    exact absurd bareChar (by decide)
  have name : skipBlanks (c :: (tail ++ ']' :: rest)) = c :: (tail ++ ']' :: rest) :=
    skipBlanks_visible (.of_bare bareChar) _
  rw [cons, List.cons_append] at read
  refine ⟨.header ⟨path, false, .between ('[' :: c :: (tail ++ ']' :: rest)) rest⟩, ?_, _, rfl, rfl,
    parentTexts, text⟩
  rw [cons]
  simp [readStatement, readHeader, noBracket, name, read, bracket]

theorem OnLines.skipMark {items : List σ} {meaning : σ → Statement → Prop}
    (each : ∀ item ∈ items, ReadsLine (textOf item) (meaning item)) {text : List Char}
    (on : OnLines (items.map textOf) text) : Toml.skipMark text = text := by
  generalize texts : items.map textOf = lines at on
  cases on with
  | nil => rfl
  | blank => rfl
  | line ends =>
    obtain ⟨item, items, rfl, rfl, _⟩ := List.map_eq_cons_iff.mp texts
    obtain ⟨c, tail, cons, visible⟩ := (each item (List.mem_cons_self ..)).visible
    rw [cons, List.cons_append]
    unfold Toml.skipMark
    split
    · rename_i same
      exact absurd (List.cons.inj same).1 (visible.ne (by decide))
    · rfl

theorem document?_onLines {items : List σ} {meaning : σ → Statement → Prop}
    (each : ∀ item ∈ items, ReadsLine (textOf item) (meaning item)) {text : List Char}
    (on : OnLines (items.map textOf) text) :
    ∃ statements, Forall₂ meaning items statements ∧ document? text =
      assemble (.between text []) (sections statements).1 (sections statements).2 := by
  have enough : items.length < text.length + 1 := by
    have lines := on.length_le (by
      rw [List.forall_mem_map]
      exact fun item member => (each item member).ne_nil)
    rw [List.length_map] at lines
    exact Nat.lt_succ_of_le lines
  obtain ⟨statements, read, meanings⟩ := readStatements_onLines each on enough
  refine ⟨statements, meanings, ?_⟩
  rw [document?, on.skipMark each, read, Option.bind_eq_bind, Option.bind_some]

theorem exists_assignments {items : List σ} {meaning : σ → Assignment → Prop}
    {statements : List Statement}
    (meanings : Forall₂ (fun item statement => ∃ assignment,
      statement = .assignment assignment ∧ meaning item assignment) items statements) :
    ∃ assignments, statements = assignments.map .assignment ∧
      Forall₂ meaning items assignments := by
  induction meanings with
  | nil => exact ⟨[], rfl, .nil⟩
  | cons first _ ih =>
    obtain ⟨assignment, rfl, isMeaning⟩ := first
    obtain ⟨assignments, rfl, meanings⟩ := ih
    exact ⟨assignment :: assignments, rfl, .cons isMeaning meanings⟩

theorem sections_append (assignments : List Assignment) (rest : List Statement) :
    sections (assignments.map .assignment ++ rest) =
      (assignments ++ (sections rest).1, (sections rest).2) := by
  induction assignments with
  | nil => rfl
  | cons assignment assignments ih =>
    rw [List.map_cons, List.cons_append, sections, ih, List.cons_append]

theorem sections_assignments (assignments : List Assignment) :
    sections (assignments.map .assignment) = (assignments, []) := by
  have split := sections_append assignments []
  rw [List.append_nil] at split
  rw [split, sections, List.append_nil]

theorem forall₂_append_left {τ : Type} {related : σ → τ → Prop} {first second : List σ}
    {all : List τ} (pairs : Forall₂ related (first ++ second) all) :
    ∃ before after, all = before ++ after ∧ Forall₂ related first before ∧
      Forall₂ related second after := by
  have front := List.forall₂_take first.length pairs
  have back := List.forall₂_drop first.length pairs
  rw [List.take_left] at front
  rw [List.drop_left] at back
  exact ⟨_, _, (List.take_append_drop first.length all).symm, front, back⟩

end Lines

end SyntaxDialects.Toml
