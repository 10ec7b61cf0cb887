import Mathlib.Data.List.Nodup
import SyntaxDialects.Toml.Table

/-!
What is in a table, told by names: a table holds a node under a name if it has an entry of both.
Each way in which a table grows has one law of what it then holds.
-/
namespace SyntaxDialects.Toml

namespace Table

section Contents

variable {ν : Type}

def names (table : Table ν) : List String :=
  table.entries.map fun entry => entry.1.text

def Holds (table : Table ν) (name : String) (value : ν) : Prop :=
  ∃ key : Key, key.text = name ∧ (key, value) ∈ table.entries

theorem find?_holds {table : Table ν} {name : String} {value : ν}
    (found : table.find? name = some value) : table.Holds name value := by
  obtain ⟨⟨key, other⟩, first, rfl⟩ := Option.map_eq_some_iff.mp found
  have named : key.text = name := by simpa using List.find?_some first
  exact ⟨key, named, List.mem_of_find?_eq_some first⟩

theorem find?_eq_none {table : Table ν} {name : String} :
    table.find? name = none ↔ ∀ value, ¬ table.Holds name value := by
  constructor
  · rintro missing value ⟨key, named, member⟩
    rw [find?, Option.map_eq_none_iff, List.find?_eq_none] at missing
    exact absurd (beq_iff_eq.mpr named) (missing _ member)
  · intro absent
    cases found : table.find? name with
    | none => rfl
    | some value => exact absurd (find?_holds found) (absent value)

theorem not_holds_empty (origin : Origin) (span : Span) (name : String) (value : ν) :
    ¬ (Table.empty origin span).Holds name value := by
  rintro ⟨key, _, member⟩
  cases member

theorem holds_insert {table : Table ν} {key : Key} {value other : ν} {name : String} :
    (table.insert key value).Holds name other ↔
      (name = key.text ∧ other = value) ∨ (name ≠ key.text ∧ table.Holds name other) := by
  unfold Holds insert
  simp only [List.mem_append, List.mem_filter, List.mem_singleton, Prod.mk.injEq, bne_iff_ne]
  constructor
  · rintro ⟨found, rfl, ⟨member, different⟩ | ⟨rfl, rfl⟩⟩
    · exact .inr ⟨different, found, rfl, member⟩
    · exact .inl ⟨rfl, rfl⟩
  · rintro (⟨rfl, rfl⟩ | ⟨different, found, rfl, member⟩)
    · exact ⟨key, rfl, .inr ⟨rfl, rfl⟩⟩
    · exact ⟨found, rfl, .inl ⟨member, different⟩⟩

theorem holds_update {table : Table ν} {changed name : String} {value other : ν} :
    (table.update changed value).Holds name other ↔
      (name = changed ∧ other = value ∧ ∃ before, table.Holds changed before) ∨
        (name ≠ changed ∧ table.Holds name other) := by
  unfold Holds update
  simp only [List.mem_map]
  constructor
  · rintro ⟨key, rfl, ⟨found, before⟩, member, same⟩
    by_cases named : found.text = changed
    · rw [if_pos (beq_iff_eq.mpr named)] at same
      cases same
      exact .inl ⟨named, rfl, before, _, named, member⟩
    · rw [if_neg (by simpa using named)] at same
      cases same
      exact .inr ⟨named, _, rfl, member⟩
  · rintro (⟨rfl, rfl, before, key, rfl, member⟩ | ⟨different, key, rfl, member⟩)
    · exact ⟨key, rfl, _, member, if_pos (beq_iff_eq.mpr rfl)⟩
    · exact ⟨key, rfl, _, member, if_neg (by simpa using different)⟩

theorem names_update (table : Table ν) (name : String) (value : ν) :
    (table.update name value).names = table.names := by
  unfold names update
  rw [List.map_map]
  apply List.map_congr_left
  intro entry _
  rw [Function.comp_apply]
  split
  · rfl
  · rfl

theorem nodup_names_insert {table : Table ν} (distinct : table.names.Nodup) (key : Key)
    (value : ν) : (table.insert key value).names.Nodup := by
  have kept : (table.entries.filter fun entry => entry.1.text != key.text).Sublist table.entries :=
    List.filter_sublist
  unfold names insert
  rw [List.map_append, List.nodup_append]
  refine ⟨(kept.map _).nodup distinct, List.nodup_singleton _, ?_⟩
  intro name before other last
  obtain ⟨entry, member, rfl⟩ := List.mem_map.mp before
  obtain rfl : other = key.text := by simpa using last
  simpa using (List.mem_filter.mp member).2

end Contents

end Table

section Assignments

variable {table : Table Node} {assignment : Assignment}

theorem assign_plain (plain : assignment.path.parents = []) (growing : table.origin ≠ .dotted)
    (new : ∀ node, ¬ table.Holds assignment.path.last.text node) :
    assign table assignment = some (table.insert assignment.path.last assignment.value) := by
  have missing := Table.find?_eq_none.mpr new
  simp [assign, plain, descend, growing, missing]

theorem assign_dotted_first {key : Key} (parent : assignment.path.parents = [key])
    (new : ∀ node, ¬ table.Holds key.text node) :
    assign table assignment = some (table.insert key (.table
      ((Table.empty .dotted key.span).insert assignment.path.last assignment.value))) := by
  have missing := Table.find?_eq_none.mpr new
  have empty := Table.find?_eq_none.mpr
    (Table.not_holds_empty (ν := Node) .dotted key.span assignment.path.last.text)
  have origin : (Table.empty (ν := Node) .dotted key.span).origin = .dotted := rfl
  simp [assign, parent, descend, missing, empty, origin]

theorem assign_dotted_next {key : Key} (parent : assignment.path.parents = [key])
    {child : Table Node} (found : table.find? key.text = some (.table child))
    (dotted : child.origin = .dotted)
    (new : ∀ node, ¬ child.Holds assignment.path.last.text node) :
    assign table assignment = some (table.update key.text (.table
      (child.insert assignment.path.last assignment.value))) := by
  have missing := Table.find?_eq_none.mpr new
  simp [assign, parent, descend, found, Table.admits, dotted, missing]

theorem addSection_new {s : Section} {filled : Table Node} (plain : s.header.path.parents = [])
    (notElement : s.header.isElement = false)
    (new : ∀ node, ¬ table.Holds s.header.path.last.text node)
    (fills : assignAll s.assignments (Table.empty .header s.header.span) = some filled) :
    addSection table s = some (table.insert s.header.path.last (.table filled)) := by
  have missing := Table.find?_eq_none.mpr new
  simp [addSection, plain, descend, openSection, notElement, missing, fills]

end Assignments

end SyntaxDialects.Toml
