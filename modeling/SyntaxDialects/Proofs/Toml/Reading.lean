import SyntaxDialects.Proofs.Toml.Strings
import SyntaxDialects.Toml.Document

/-!
What readers make of names, scalars and assignments, whatever text follows. Spans aside, the
result depends on the words read alone, so it is told by what the keys and nodes say.
-/
namespace SyntaxDialects.Toml

section Names

structure Bare (name : String) : Prop where
  nonempty : name.toList ≠ []
  allBare : name.toList.all isBareChar = true

theorem Bare.chars {name : String} (bare : Bare name) : ∀ c ∈ name.toList, isBareChar c = true :=
  List.all_eq_true.mp bare.allBare

structure EndsName (rest : List Char) : Prop where
  noChar : rest.takeWhile isBareChar = []
  noDot : (skipBlanks rest).head? ≠ some '.'

theorem readLineString_bare {c : Char} (bare : isBareChar c = true) (rest : List Char) :
    readLineString (c :: rest) = none := by
  unfold readLineString
  split
  · rename_i same
    rw [(List.cons.inj same).1] at bare
    exact absurd bare (by decide)
  · rename_i same
    rw [(List.cons.inj same).1] at bare
    exact absurd bare (by decide)
  · rfl

theorem readKey_bare {name : String} (bare : Bare name) {rest : List Char}
    (stops : rest.takeWhile isBareChar = []) :
    ∃ key, readKey (name.toList ++ rest) = some (key, rest) ∧ key.text = name := by
  obtain ⟨c, tail, cons⟩ := List.exists_cons_of_ne_nil bare.nonempty
  have noString : readLineString (name.toList ++ rest) = none := by
    rw [cons, List.cons_append]
    exact readLineString_bare (bare.chars c (cons ▸ List.mem_cons_self ..)) _
  have take : (name.toList ++ rest).takeWhile isBareChar = name.toList := by
    rw [List.takeWhile_append_of_pos bare.chars, stops, List.append_nil]
  have drop : (name.toList ++ rest).dropWhile isBareChar = rest := by
    have whole : rest.takeWhile isBareChar ++ rest.dropWhile isBareChar = rest :=
      List.takeWhile_append_dropWhile
    rw [stops, List.nil_append] at whole
    rw [List.dropWhile_append_of_pos bare.chars, whole]
  have named : name.toList.isEmpty = false := by
    rw [cons]
    rfl
  refine ⟨⟨String.ofList name.toList, .between (name.toList ++ rest) rest⟩, ?_,
    String.ofList_toList⟩
  simp only [readKey, noString, take, drop, named, Bool.false_eq_true, if_false,
    Option.bind_eq_bind, Option.bind_some]

def dottedName (parents : List String) (name : String) : List Char :=
  parents.flatMap (fun part => part.toList ++ ['.']) ++ name.toList

structure Visible (c : Char) : Prop where
  notBlank : isBlank c = false
  others : c ∉ ['#', '\n', '\r', '\ufeff']

instance (c : Char) : Decidable (Visible c) :=
  decidable_of_iff (isBlank c = false ∧ c ∉ ['#', '\n', '\r', '\ufeff'])
    ⟨fun ⟨notBlank, others⟩ => ⟨notBlank, others⟩, fun ⟨notBlank, others⟩ => ⟨notBlank, others⟩⟩

theorem Visible.ne {c d : Char} (visible : Visible c) (other : d ∈ ['#', '\n', '\r', '\ufeff']) :
    c ≠ d := by
  rintro rfl
  exact visible.others other

theorem Visible.of_bare {c : Char} (bare : isBareChar c = true) : Visible c := by
  have other : ∀ {d : Char}, isBareChar d = false → c ≠ d := by
    rintro d notBare rfl
    rw [bare] at notBare
    cases notBare
  refine ⟨?_, ?_⟩
  · rw [Bool.eq_false_iff]
    intro blank
    rcases of_decide_eq_true blank with same | same
    · exact other (by decide) same
    · exact other (by decide) same
  · simp only [List.mem_cons, List.not_mem_nil, or_false, not_or]
    exact ⟨other (by decide), other (by decide), other (by decide), other (by decide)⟩

theorem dottedName_eq_cons {parents : List String} {name : String}
    (bareParents : ∀ part ∈ parents, Bare part) (bare : Bare name) :
    ∃ c tail, dottedName parents name = c :: tail ∧ isBareChar c = true := by
  have first : ∀ {part : String}, Bare part → ∃ c tail, part.toList = c :: tail ∧
      isBareChar c = true := by
    intro part bare
    obtain ⟨c, tail, cons⟩ := List.exists_cons_of_ne_nil bare.nonempty
    exact ⟨c, tail, cons, bare.chars c (cons ▸ List.mem_cons_self ..)⟩
  cases parents with
  | nil => exact first bare
  | cons part parents =>
    obtain ⟨c, tail, cons, bareChar⟩ := first (bareParents part (List.mem_cons_self ..))
    refine ⟨c, tail ++ '.' :: dottedName parents name, ?_, bareChar⟩
    simp [dottedName, cons]

theorem skipBlanks_visible {c : Char} (visible : Visible c) (rest : List Char) :
    skipBlanks (c :: rest) = c :: rest := by
  rw [skipBlanks, List.dropWhile_cons, visible.notBlank, if_neg (by decide)]

theorem skipFiller_visible {c : Char} (visible : Visible c) (rest : List Char) :
    skipFiller false (c :: rest) = some (c :: rest) := by
  unfold skipFiller
  split
  · rename_i same
    cases same
  · rename_i same
    exact absurd (List.cons.inj same).1 (visible.ne (by decide))
  · rename_i same
    exact absurd (List.cons.inj same).1 (visible.ne (by decide))
  · rename_i same
    cases same
    have notComment : c ≠ '#' := visible.ne (by decide)
    simp [notComment, visible.notBlank]

theorem readPath_dottedName {parents : List String} {name : String}
    (bareParents : ∀ part ∈ parents, Bare part) (bare : Bare name) {rest : List Char}
    (ends : EndsName rest) {limit : Nat} (short : parents.length < limit) :
    ∃ path, readPath limit (dottedName parents name ++ rest) = some (path, rest) ∧
      path.parents.map Key.text = parents ∧ path.last.text = name := by
  induction parents generalizing limit with
  | nil =>
    obtain ⟨limit, rfl⟩ := Nat.exists_eq_succ_of_ne_zero (Nat.ne_zero_of_lt short)
    obtain ⟨key, read, text⟩ := readKey_bare bare ends.noChar
    refine ⟨⟨[], key⟩, ?_, rfl, text⟩
    rw [dottedName, List.flatMap_nil, List.nil_append, readPath, read, Option.bind_eq_bind,
      Option.bind_some]
    dsimp only
    split
    · rename_i more dot
      exact absurd (congrArg List.head? dot) ends.noDot
    · rfl
  | cons part parents ih =>
    obtain ⟨limit, rfl⟩ := Nat.exists_eq_succ_of_ne_zero (Nat.ne_zero_of_lt short)
    rw [List.forall_mem_cons] at bareParents
    obtain ⟨path, readRest, parentTexts, text⟩ := ih bareParents.2 (Nat.lt_of_succ_lt_succ short)
    have atDot : ('.' :: (dottedName parents name ++ rest)).takeWhile isBareChar = [] := rfl
    obtain ⟨key, read, keyText⟩ := readKey_bare bareParents.1 atDot
    obtain ⟨c, tail, cons, bareChar⟩ := dottedName_eq_cons bareParents.2 bare
    have visible : skipBlanks (dottedName parents name ++ rest) =
        dottedName parents name ++ rest := by
      rw [cons, List.cons_append, skipBlanks_visible (.of_bare bareChar)]
    have split : dottedName (part :: parents) name ++ rest =
        part.toList ++ '.' :: (dottedName parents name ++ rest) := by
      simp [dottedName]
    refine ⟨⟨key :: path.parents, path.last⟩, ?_, ?_, text⟩
    · rw [split, readPath, read, Option.bind_eq_bind, Option.bind_some]
      have blanks : skipBlanks ('.' :: (dottedName parents name ++ rest)) =
          '.' :: (dottedName parents name ++ rest) := rfl
      simp only [blanks, visible, readRest, Option.bind_eq_bind, Option.bind_some]
    · rw [List.map_cons, keyText, parentTexts]

end Names

section Assignments

structure Assignment.Sets (assignment : Assignment) (parents : List String) (name : String)
    (meaning : Node → Prop) : Prop where
  parents : assignment.path.parents.map Key.text = parents
  last : assignment.path.last.text = name
  value : meaning assignment.value

def Delimited (rest : List Char) : Prop :=
  splitWords rest = ([], rest)

structure ReadsAt (depth : Nat) (text : List Char) (meaning : Node → Prop) : Prop where
  visible : ∃ c tail, text = c :: tail ∧ Visible c
  read : ∀ {rest}, Delimited rest →
    ∃ node, readNode depth (text ++ rest) = some (node, rest) ∧ meaning node

theorem ReadsAt.imp {depth : Nat} {text : List Char} {meaning weaker : Node → Prop}
    (reads : ReadsAt depth text meaning) (weakens : ∀ node, meaning node → weaker node) :
    ReadsAt depth text weaker := by
  refine ⟨reads.visible, ?_⟩
  intro rest delimited
  obtain ⟨node, read, isMeaning⟩ := reads.read delimited
  exact ⟨node, read, weakens node isMeaning⟩

structure SkipsBlank (gap : List Char → Option (List Char)) : Prop where
  skip : ∀ {c rest}, Visible c → gap (' ' :: c :: rest) = some (c :: rest)

theorem skipBlanks_skipsBlank : SkipsBlank fun text => some (skipBlanks text) :=
  ⟨fun visible => congrArg some (skipBlanks_visible visible _)⟩

theorem skipFiller_skipsBlank : SkipsBlank (skipFiller false) :=
  ⟨fun visible => skipFiller_visible visible _⟩

def assignmentText (parents : List String) (name : String) (value : List Char) : List Char :=
  dottedName parents name ++ ' ' :: '=' :: ' ' :: value

theorem readAssignment_text {gap : List Char → Option (List Char)} (skips : SkipsBlank gap)
    {parents : List String} {name : String} (bareParents : ∀ part ∈ parents, Bare part)
    (bare : Bare name) (short : parents.length < pathLimit) {depth : Nat} {value : List Char}
    {meaning : Node → Prop} (reads : ReadsAt depth value meaning) {rest : List Char}
    (delimited : Delimited rest) :
    ∃ assignment, readAssignment gap (readNode depth)
        (assignmentText parents name value ++ rest) = some (assignment, rest) ∧
      assignment.Sets parents name meaning := by
  have ends : EndsName (' ' :: '=' :: ' ' :: (value ++ rest)) := by
    refine ⟨rfl, ?_⟩
    have sign : (skipBlanks (' ' :: '=' :: ' ' :: (value ++ rest))).head? = some '=' := rfl
    rw [sign]
    decide
  obtain ⟨path, readName, parentTexts, text⟩ := readPath_dottedName bareParents bare ends short
  obtain ⟨node, readValue, isMeaning⟩ := reads.read delimited
  obtain ⟨c, tail, cons, visible⟩ := reads.visible
  refine ⟨⟨path, node⟩, ?_, parentTexts, text, isMeaning⟩
  have equals : Visible '=' := by decide
  have atValue : gap (' ' :: (value ++ rest)) = some (value ++ rest) := by
    rw [cons, List.cons_append, skips.skip visible]
  rw [assignmentText, List.append_assoc, readAssignment]
  simp only [List.cons_append, readName, skips.skip equals, atValue, readValue, Option.bind_eq_bind,
    Option.bind_some]

end Assignments

section Scalars

theorem delimited_cons {c : Char} (notWord : isWordChar c = false) (notBlank : isBlank c = false)
    (rest : List Char) : Delimited (c :: rest) := by
  simp [Delimited, splitWords, notWord, notBlank]

theorem delimited_blank_cons {c : Char} (notWord : isWordChar c = false) (visible : Visible c)
    (rest : List Char) : Delimited (' ' :: c :: rest) := by
  have blank : isWordChar ' ' = false := by decide
  simp [Delimited, splitWords, wordFollows, skipBlanks_visible visible, notWord, blank]

theorem splitWords_word {word rest : List Char} (chars : ∀ c ∈ word, isWordChar c = true)
    (delimited : Delimited rest) : splitWords (word ++ rest) = (word, rest) := by
  induction word with
  | nil => exact delimited
  | cons c word ih =>
    rw [List.forall_mem_cons] at chars
    rw [List.cons_append, splitWords, chars.1, Bool.true_or, if_pos rfl, ih chars.2]

theorem Delimited.head_ne_quote {rest : List Char} (delimited : Delimited rest) :
    rest.head? ≠ some '"' := by
  intro quote
  obtain ⟨tail, rfl⟩ := List.head?_eq_some_iff.mp quote
  have word : isWordChar '"' = true := by decide
  rw [Delimited, splitWords, word, Bool.true_or, if_pos rfl] at delimited
  exact absurd (congrArg Prod.fst delimited) (List.cons_ne_nil _ _)

theorem readNode_scalar {depth : Nat} {c : Char} (noArray : c ≠ '[') (noTable : c ≠ '\x7b')
    (rest : List Char) : readNode depth (c :: rest) = readScalarNode (c :: rest) := by
  cases depth with
  | zero => rfl
  | succ depth =>
    unfold readNode
    split
    · rename_i same
      exact absurd (List.cons.inj same).1 noArray
    · rename_i same
      exact absurd (List.cons.inj same).1 noTable
    · rfl

def wordOf (value : Bool) : List Char :=
  if value then "true".toList else "false".toList

theorem unquoted?_wordOf (value : Bool) : unquoted? (wordOf value) = some (.boolean value) := by
  cases value with
  | false => rfl
  | true => rfl

theorem readsAt_boolean (depth : Nat) (value : Bool) :
    ReadsAt depth (wordOf value) fun node => ∃ span, node = .scalar (.boolean value) span := by
  have chars : (wordOf value).all isWordChar = true := by
    cases value <;> decide
  have first : ∃ c tail, wordOf value = c :: tail ∧ isBareChar c = true := by
    cases value
    · exact ⟨'f', _, rfl, by decide⟩
    · exact ⟨'t', _, rfl, by decide⟩
  obtain ⟨c, tail, cons, bare⟩ := first
  refine ⟨⟨c, tail, cons, .of_bare bare⟩, ?_⟩
  intro rest delimited
  have words := splitWords_word (List.all_eq_true.mp chars) delimited
  have scalar := unquoted?_wordOf value
  rw [cons, List.cons_append] at words
  rw [cons] at scalar
  refine ⟨.scalar (.boolean value) (.between (wordOf value ++ rest) rest), ?_, _, rfl⟩
  have other : ∀ mark, isBareChar mark = false → c ≠ mark := by
    rintro mark notBare rfl
    rw [bare] at notBare
    cases notBare
  rw [cons, List.cons_append, readNode_scalar (other _ (by decide)) (other _ (by decide)),
    readScalarNode, readScalar]
  simp [other '"' (by decide), other '\'' (by decide), words, scalar]

theorem readsAt_string (depth : Nat) {value : String} {text : List Char}
    (spelled : SpelledString value text) :
    ReadsAt depth text fun node => ∃ span, node = .scalar (.string value) span := by
  have quote : ∃ tail, text = '"' :: tail := by
    cases spelled
    exact ⟨_, rfl⟩
  obtain ⟨tail, cons⟩ := quote
  refine ⟨⟨'"', tail, cons, by decide⟩, ?_⟩
  intro rest delimited
  have read := readString_spelled spelled delimited.head_ne_quote
  rw [cons, List.cons_append] at read
  refine ⟨.scalar (.string value) (.between (text ++ rest) rest), ?_, _, rfl⟩
  rw [cons, List.cons_append, readNode_scalar (by decide) (by decide), readScalarNode, readScalar]
  simp [read]

end Scalars

end SyntaxDialects.Toml
