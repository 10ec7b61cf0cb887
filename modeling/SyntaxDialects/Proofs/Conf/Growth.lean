import SyntaxDialects.Proofs.Conf.Decoding
import SyntaxDialects.Proofs.Toml.Reading

/-!
How the tables of a configuration grow. Assignments of settings, plain or under a dotted name, make
a table of overrides, and that table with a base makes the document of a configuration. Each step
puts one value into the override set that the tables stand for.
-/
namespace SyntaxDialects.Conf
open Toml
open List (Forall₂)
open Overrides (Setting putAll)

structure Lists (table : Table Node) (overrides : Overrides) : Prop where
  sound : ∀ {name node}, table.Holds name node → ∃ (f : Field) (value : f.Value),
    name = f.name ∧ f.valueIn node = some value ∧ overrides.get f = some value
  complete : ∀ {f : Field} {value : f.Value}, overrides.get f = some value →
    ∃ node, table.Holds f.name node ∧ f.valueIn node = some value

namespace Lists

variable {table : Table Node} {overrides : Overrides}

theorem empty (origin : Origin) (span : Span) : Lists (Table.empty origin span) .none := by
  constructor
  · intro name node holds
    exact absurd holds (Table.not_holds_empty origin span name node)
  · intro f value isSet
    rw [Overrides.get_none] at isSet
    cases isSet

theorem new (lists : Lists table overrides) {f : Field} (fresh : overrides.get f = none)
    (node : Node) : ¬ table.Holds f.name node := by
  intro holds
  obtain ⟨g, value, named, _, isSet⟩ := lists.sound holds
  obtain rfl := Field.name_injective named
  rw [fresh] at isSet
  cases isSet

theorem insert (lists : Lists table overrides) {key : Key} {node : Node} {f : Field}
    {value : f.Value} (named : key.text = f.name) (isValue : f.valueIn node = some value) :
    Lists (table.insert key node) (overrides.put f (some value)) := by
  constructor
  · intro name other holds
    rcases Table.holds_insert.mp holds with ⟨rfl, rfl⟩ | ⟨different, before⟩
    · exact ⟨f, value, named, isValue, Overrides.get_put_same _ _ _⟩
    · obtain ⟨g, found, rfl, isFound, isSet⟩ := lists.sound before
      have other : f ≠ g := by
        rintro rfl
        exact different named.symm
      exact ⟨g, found, rfl, isFound, (Overrides.get_put_other _ _ other).trans isSet⟩
  · intro g found isSet
    by_cases same : f = g
    · subst same
      rw [Overrides.get_put_same] at isSet
      cases isSet
      exact ⟨node, Table.holds_insert.mpr (.inl ⟨named.symm, rfl⟩), isValue⟩
    · rw [Overrides.get_put_other _ _ same] at isSet
      obtain ⟨before, holds, isFound⟩ := lists.complete isSet
      have different : g.name ≠ key.text := by
        rw [named]
        exact fun clash => same (Field.name_injective clash.symm)
      exact ⟨before, Table.holds_insert.mpr (.inr ⟨different, holds⟩), isFound⟩

theorem shape (lists : Lists table overrides) : OverridesShape (.table table) := by
  intro entry member
  obtain ⟨f, value, named, isValue, _⟩ := lists.sound ⟨entry.1, rfl, member⟩
  exact ⟨f, named, Option.isSome_iff_exists.mpr ⟨value, isValue⟩⟩

theorem writes_iff (lists : Lists table overrides) {f : Field} {value : f.Value} :
    Writes (.table table) f value ↔ overrides.get f = some value := by
  constructor
  · rintro (⟨holds, isValue⟩ | _)
    obtain ⟨g, found, named, isFound, isSet⟩ := lists.sound holds
    obtain rfl := Field.name_injective named
    rw [isValue] at isFound
    cases isFound
    exact isSet
  · intro isSet
    obtain ⟨node, holds, isValue⟩ := lists.complete isSet
    exact .named holds isValue

end Lists

structure Root (table : Table Node) (base : Option String) (overrides : Overrides) : Prop where
  known : ∀ {name node}, table.Holds name node → name = "base" ∨ name = "overrides"
  noBase : base = none → ∀ node, ¬ table.Holds "base" node
  hasBase : ∀ text, base = some text → ∃ span, table.Holds "base" (.scalar (.string text) span)
  lists : ∀ {node}, table.Holds "overrides" node →
    ∃ child, node = .table child ∧ Lists child overrides
  absent : (∀ node, ¬ table.Holds "overrides" node) → overrides = .none

namespace Root

variable {table : Table Node} {base : Option String} {overrides : Overrides}

theorem empty (origin : Origin) (span : Span) : Root (Table.empty origin span) none .none := by
  have nothing : ∀ {name : String} {node : Node}, ¬ (Table.empty origin span).Holds name node :=
    Table.not_holds_empty origin span _ _
  constructor
  · exact fun holds => absurd holds nothing
  · exact fun _ _ => nothing
  · exact fun text impossible => nomatch impossible
  · exact fun holds => absurd holds nothing
  · exact fun _ => rfl

theorem insert_base (root : Root table none overrides) {key : Key} (named : key.text = "base")
    (text : String) (span : Span) :
    Root (table.insert key (.scalar (.string text) span)) (some text) overrides := by
  have other : "overrides" ≠ key.text := by
    rw [named]
    decide
  have kept : ∀ {node}, (table.insert key (.scalar (.string text) span)).Holds "overrides" node ↔
      table.Holds "overrides" node := by
    intro node
    rw [Table.holds_insert]
    simp [other]
  constructor
  · intro name node holds
    rcases Table.holds_insert.mp holds with ⟨same, _⟩ | ⟨_, before⟩
    · exact .inl (same.trans named)
    · exact root.known before
  · intro impossible
    cases impossible
  · rintro text ⟨⟩
    exact ⟨span, Table.holds_insert.mpr (.inl ⟨named.symm, rfl⟩)⟩
  · exact fun holds => root.lists (kept.mp holds)
  · exact fun nothing => root.absent fun node holds => nothing node (kept.mpr holds)

/-- However the overrides got into the table, it is enough that nothing else has changed. -/
theorem set_overrides {before : Overrides} (root : Root table base before) {child : Table Node}
    (lists : Lists child overrides) {result : Table Node}
    (here : ∀ {node}, result.Holds "overrides" node ↔ node = .table child)
    (others : ∀ {name node}, name ≠ "overrides" →
      (result.Holds name node ↔ table.Holds name node)) :
    Root result base overrides := by
  have other : "base" ≠ "overrides" := by decide
  constructor
  · intro name node holds
    by_cases same : name = "overrides"
    · exact .inr same
    · exact root.known ((others same).mp holds)
  · exact fun noBase node holds => root.noBase noBase node ((others other).mp holds)
  · intro text isText
    obtain ⟨span, holds⟩ := root.hasBase text isText
    exact ⟨span, (others other).mpr holds⟩
  · exact fun holds => ⟨child, here.mp holds, lists⟩
  · exact fun nothing => absurd (here.mpr rfl) (nothing (.table child))

theorem insert_overrides {before : Overrides} (root : Root table base before) {key : Key}
    (named : key.text = "overrides") {child : Table Node} (lists : Lists child overrides) :
    Root (table.insert key (.table child)) base overrides := by
  apply root.set_overrides lists
  · intro node
    rw [Table.holds_insert, named]
    simp
  · intro name node different
    rw [Table.holds_insert, named]
    simp [different]

theorem update_overrides {before : Overrides} (root : Root table base before) {node : Node}
    (present : table.Holds "overrides" node) {child : Table Node} (lists : Lists child overrides) :
    Root (table.update "overrides" (.table child)) base overrides := by
  apply root.set_overrides lists
  · intro other
    have held : ∃ before, table.Holds "overrides" before := ⟨node, present⟩
    rw [Table.holds_update]
    simp [held]
  · intro name other different
    rw [Table.holds_update]
    simp [different]

theorem shape {text : String} (root : Root table (some text) overrides) : Shape table := by
  constructor
  · exact fun entry member => root.known ⟨entry.1, rfl, member⟩
  · obtain ⟨span, holds⟩ := root.hasBase text rfl
    exact ⟨text, span, holds⟩
  · intro node holds
    obtain ⟨child, rfl, lists⟩ := root.lists holds
    exact lists.shape

theorem describedBy {text : String} (root : Root table (some text) overrides) :
    DescribedBy table ⟨text, overrides⟩ := by
  constructor
  · exact root.hasBase text rfl
  · intro f value
    constructor
    · intro isSet
      by_cases absent : ∀ node, ¬ table.Holds "overrides" node
      · rw [root.absent absent, Overrides.get_none] at isSet
        cases isSet
      · push Not at absent
        obtain ⟨node, holds⟩ := absent
        obtain ⟨child, rfl, lists⟩ := root.lists holds
        exact ⟨_, holds, lists.writes_iff.mpr isSet⟩
    · rintro ⟨node, holds, writes⟩
      obtain ⟨child, rfl, lists⟩ := root.lists holds
      exact lists.writes_iff.mp writes

end Root

def SetsValue (parents : List String) (setting : Setting) (assignment : Assignment) : Prop :=
  assignment.Sets parents setting.1.name fun node => setting.1.valueIn node = some setting.2

/-- If each assignment of a new setting leads from state to state, so do all of them together. -/
theorem assignAll_putAll {State : Table Node → Overrides → Prop} {parents : List String}
    (step : ∀ {table overrides setting assignment}, State table overrides →
      overrides.get setting.1 = none → SetsValue parents setting assignment →
      ∃ result, assign table assignment = some result ∧
        State result (overrides.put setting.1 (some setting.2)))
    {settings : List Setting} (distinct : (settings.map Sigma.fst).Nodup)
    {assignments : List Assignment} (sets : Forall₂ (SetsValue parents) settings assignments)
    {table : Table Node} {overrides : Overrides} (state : State table overrides)
    (fresh : ∀ setting ∈ settings, overrides.get setting.1 = none) :
    ∃ result, assignAll assignments table = some result ∧
      State result (putAll settings overrides) := by
  induction sets generalizing table overrides with
  | nil => exact ⟨table, rfl, state⟩
  | cons first _ ih =>
    rename_i setting assignment settings assignments _
    rw [List.map_cons, List.nodup_cons] at distinct
    rw [List.forall_mem_cons] at fresh
    obtain ⟨next, assigned, nextState⟩ := step state fresh.1 first
    have nextFresh : ∀ other ∈ settings,
        (overrides.put setting.1 (some setting.2)).get other.1 = none := by
      intro other member
      have different : setting.1 ≠ other.1 := by
        intro same
        exact distinct.1 (List.mem_map.mpr ⟨other, member, same.symm⟩)
      rw [Overrides.get_put_other _ _ different]
      exact fresh.2 other member
    obtain ⟨result, assignedAll, resultState⟩ := ih distinct.2 nextState nextFresh
    refine ⟨result, ?_, resultState⟩
    rw [assignAll, List.foldlM_cons, assigned, Option.bind_eq_bind, Option.bind_some]
    exact assignedAll

structure OpenLists (table : Table Node) (overrides : Overrides) : Prop extends
    Lists table overrides where
  notDotted : table.origin ≠ .dotted

theorem OpenLists.assign {table : Table Node} {overrides : Overrides}
    (lists : OpenLists table overrides) {setting : Setting} {assignment : Assignment}
    (fresh : overrides.get setting.1 = none) (sets : SetsValue [] setting assignment) :
    ∃ result, Toml.assign table assignment = some result ∧
      OpenLists result (overrides.put setting.1 (some setting.2)) := by
  have plain := List.map_eq_nil_iff.mp sets.parents
  have new : ∀ node, ¬ table.Holds assignment.path.last.text node := by
    rw [sets.last]
    exact lists.new fresh
  refine ⟨_, assign_plain plain lists.notDotted new, ?_, lists.notDotted⟩
  exact lists.insert sets.last sets.value

structure DottedRoot (base : Option String) (table : Table Node) (overrides : Overrides) : Prop
    extends Root table base overrides where
  notDotted : table.origin ≠ .dotted
  dotted : ∀ {child}, table.Holds "overrides" (.table child) → child.origin = .dotted

theorem DottedRoot.assign {base : Option String} {table : Table Node} {overrides : Overrides}
    (root : DottedRoot base table overrides) {setting : Setting} {assignment : Assignment}
    (fresh : overrides.get setting.1 = none) (sets : SetsValue ["overrides"] setting assignment) :
    ∃ result, Toml.assign table assignment = some result ∧
      DottedRoot base result (overrides.put setting.1 (some setting.2)) := by
  obtain ⟨key, rest, parent, named, noRest⟩ := List.map_eq_cons_iff.mp sets.parents
  obtain rfl := List.map_eq_nil_iff.mp noRest
  cases found : table.find? key.text with
  | none =>
    have new := Table.find?_eq_none.mp found
    have nothing : overrides = .none := root.absent (named ▸ new)
    have lists := (Lists.empty .dotted key.span).insert sets.last sets.value
    refine ⟨_, assign_dotted_first parent new, ?_, root.notDotted, ?_⟩
    · rw [nothing]
      exact root.insert_overrides named lists
    · intro child holds
      rcases Table.holds_insert.mp holds with ⟨_, same⟩ | ⟨different, _⟩
      · cases same
        rfl
      · exact absurd named.symm different
  | some node =>
    have holds := Table.find?_holds found
    rw [named] at holds
    obtain ⟨child, rfl, lists⟩ := root.lists holds
    have new : ∀ node, ¬ child.Holds assignment.path.last.text node := by
      rw [sets.last]
      exact lists.new fresh
    have childDotted := root.dotted holds
    refine ⟨_, assign_dotted_next parent found childDotted new, ?_, root.notDotted, ?_⟩
    · rw [named]
      exact root.update_overrides holds (lists.insert sets.last sets.value)
    · intro child holds
      rw [named] at holds
      rcases Table.holds_update.mp holds with ⟨_, same, _⟩ | ⟨different, _⟩
      · cases same
        exact childDotted
      · exact absurd rfl different

end SyntaxDialects.Conf
