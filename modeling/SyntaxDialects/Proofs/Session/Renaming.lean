import SyntaxDialects.Proofs.Session.Distinct
import SyntaxDialects.Proofs.Session.Moments

/-!
Sessions wherever identities start. An allocator that starts at another number gives the dialects
of a session other identities and changes nothing else: what is shown is the same under one
renaming, which keeps the canonical identities and the order of all others.
-/
namespace SyntaxDialects
open Text

namespace Except

variable {ε δ α β γ κ : Type}

theorem map_bind_map {first : Except ε α} {next : α → Except ε β} {other : γ → Except ε κ}
    {rename : α → γ} {change : β → κ}
    (same : ∀ value, first = .ok value → other (rename value) = (next value).map change) :
    (first.map rename >>= other) = (first >>= next).map change := by
  cases first with
  | error problem => rfl
  | ok value => exact same value rfl

theorem bind_map {first : Except ε α} {next : α → Except ε β} {other : α → Except ε κ}
    {change : β → κ} (same : ∀ value, first = .ok value → other value = (next value).map change) :
    (first >>= other) = (first >>= next).map change := by
  cases first with
  | error problem => rfl
  | ok value => exact same value rfl

theorem mapError_map {first : Except ε α} {rename : ε → δ} {change : α → β} :
    (first.map change).mapError rename = (first.mapError rename).map change := by
  cases first <;> rfl

end Except

/-! The renaming. -/

/-- Canonical identities stay; the others count from `other` instead of `start`. -/
def DialectId.moved (start other : Nat) (id : DialectId) : DialectId :=
  if id.index < Canon.all.length then id else ⟨other + (id.index - start)⟩

def DialectId.Since (start : Nat) (id : DialectId) : Prop :=
  id.index < Canon.all.length ∨ start ≤ id.index

def Dialect.moved (start other : Nat) (dialect : Dialect) : Dialect :=
  ⟨dialect.id.moved start other, dialect.flags⟩

def Alloc.moved (start other : Nat) (ids : Alloc) : Alloc :=
  ⟨other + (ids.next - start)⟩

def Event.moved (start other : Nat) : Event → Event
  | .catalogBuilt entries => .catalogBuilt entries
  | .resolved id base overridden => .resolved (id.moved start other) base overridden
  | .unquoted kind id base => .unquoted kind (id.moved start other) base

def Made.moved (start other : Nat) (made : Made) : Made :=
  ⟨made.dialect.moved start other, made.log.map (Event.moved start other)⟩

def Answer.moved (start other : Nat) : Answer → Answer
  | .made id name => .made (id.moved start other) name
  | .rendered dialect rendering => .rendered (dialect.moved start other) rendering
  | .info known => .info { known with id := known.id.moved start other }
  | .census counts => .census { counts with ids := counts.ids.map (DialectId.moved start other) }
  | answer => answer

def Shown.moved (start other : Nat) (shown : Shown) : Shown :=
  ⟨shown.result.map (Answer.moved start other), shown.log.map (Event.moved start other)⟩

def Store.moved (start other : Nat) (store : Store) : Store :=
  ⟨store.ids.moved start other,
    store.slots.map fun entry => (entry.1, entry.2.moved start other)⟩

section

variable {start other : Nat}

namespace DialectId

theorem moved_canonical {id : DialectId} (early : id.index < Canon.all.length) :
    id.moved start other = id := by
  rw [moved, if_pos early]

theorem moved_later {id : DialectId} (later : Canon.all.length ≤ start)
    (since : start ≤ id.index) : id.moved start other = ⟨other + (id.index - start)⟩ := by
  rw [moved, if_neg (by omega)]

variable (later : Canon.all.length ≤ start) (laterToo : Canon.all.length ≤ other)
include later laterToo

theorem moved_lt_iff {a b : DialectId} (aSince : a.Since start) (bSince : b.Since start) :
    (a.moved start other).index < (b.moved start other).index ↔ a.index < b.index := by
  rcases aSince with aEarly | aLater <;> rcases bSince with bEarly | bLater
  · rw [moved_canonical aEarly, moved_canonical bEarly]
  · rw [moved_canonical aEarly, moved_later later bLater]
    dsimp only
    omega
  · rw [moved_later later aLater, moved_canonical bEarly]
    dsimp only
    omega
  · rw [moved_later later aLater, moved_later later bLater]
    dsimp only
    omega

theorem compare_moved {a b : DialectId} (aSince : a.Since start) (bSince : b.Since start) :
    compare (a.moved start other).index (b.moved start other).index =
      compare a.index b.index := by
  rw [Nat.compare_eq_ite_lt, Nat.compare_eq_ite_lt]
  simp only [moved_lt_iff later laterToo aSince bSince, moved_lt_iff later laterToo bSince aSince]

theorem moved_inj {a b : DialectId} (aSince : a.Since start) (bSince : b.Since start) :
    a.moved start other = b.moved start other ↔ a = b := by
  constructor
  · intro same
    have order := compare_moved later laterToo aSince bSince
    rw [same, Nat.compare_eq_eq.mpr rfl, eq_comm, Nat.compare_eq_eq] at order
    cases a
    cases b
    exact congrArg DialectId.mk order
  · exact congrArg _

end DialectId

namespace Dialect

theorem moved_canonical (c : Canon) : c.dialect.moved start other = c.dialect := by
  rw [moved, DialectId.moved_canonical c.dialect_id_lt]

variable (later : Canon.all.length ≤ start) (laterToo : Canon.all.length ≤ other)
include later laterToo

theorem same_moved {a b : Dialect} (aSince : a.id.Since start) (bSince : b.id.Since start) :
    (a.moved start other).same (b.moved start other) = a.same b := by
  rw [Bool.eq_iff_iff, same, same, beq_iff_eq, beq_iff_eq]
  exact DialectId.moved_inj later laterToo aSince bSince

theorem name?_moved {dialect : Dialect} (since : dialect.id.Since start) :
    (dialect.moved start other).name? = dialect.name? := by
  rcases since with early | drawn
  · rw [moved, DialectId.moved_canonical early]
  · have drawnToo : Canon.all.length ≤ (dialect.moved start other).id.index := by
      rw [moved, DialectId.moved_later later drawn]
      exact Nat.le_trans laterToo (Nat.le_add_right _ _)
    rw [name?_eq_none drawnToo, name?_eq_none (Nat.le_trans later drawn)]

theorem plain_moved {dialect : Dialect} (since : dialect.id.Since start) (style : Style) :
    (dialect.moved start other).plain style = dialect.plain style := by
  cases style <;> rw [plain, plain, name?_moved later laterToo since] <;> rfl

theorem laidOut_moved {dialect : Dialect} (since : dialect.id.Since start) (width : Nat)
    (style : Style) :
    (dialect.moved start other).laidOut width style = dialect.laidOut width style := by
  have doc : (dialect.moved start other).doc style = dialect.doc style := by
    cases style <;> rw [Dialect.doc, Dialect.doc, name?_moved later laterToo since] <;> rfl
  rw [laidOut, laidOut, doc]

end Dialect

/-! What a store finds. -/

theorem Dialect.create_moved {ids : Alloc} (later : Canon.all.length ≤ start)
    (since : start ≤ ids.next) (flags : Flags) :
    Dialect.create (ids.moved start other) flags =
      ((Dialect.create ids flags).1.moved start other,
        (Dialect.create ids flags).2.moved start other) := by
  have number : (⟨ids.next⟩ : DialectId).moved start other = ⟨other + (ids.next - start)⟩ :=
    DialectId.moved_later later (show start ≤ DialectId.index ⟨ids.next⟩ from since)
  have next : other + (ids.next - start) + 1 = other + (ids.next + 1 - start) := by omega
  simp only [Dialect.create, Alloc.draw, Alloc.moved, Dialect.moved, number,
    next]

namespace Store

structure Since (start : Nat) (store : Store) : Prop where
  ids : start ≤ store.ids.next
  slots : ∀ {name dialect}, store.slot? name = some dialect → dialect.id.Since start

theorem since_start (start : Nat) : Since start ⟨⟨start⟩, []⟩ where
  ids := Nat.le_refl _
  slots held := by cases held

theorem slot?_moved (store : Store) (name : String) :
    (store.moved start other).slot? name =
      (store.slot? name).map (Dialect.moved start other) := by
  obtain ⟨ids, slots⟩ := store
  simp only [slot?, Store.moved]
  induction slots with
  | nil => rfl
  | cons entry slots ih =>
    rw [List.map_cons, List.lookup_cons, List.lookup_cons]
    split
    · rfl
    · exact ih

theorem find_moved (store : Store) (ref : Ref) :
    (store.moved start other).find ref = (store.find ref).map (Dialect.moved start other) := by
  cases ref with
  | slot name =>
    rw [find, find, slot?_moved]
    cases store.slot? name <;> rfl
  | canonical name =>
    change (Dialect.named name).mapError _ = ((Dialect.named name).mapError _).map _
    cases named : Dialect.named name with
    | error problem => rfl
    | ok dialect =>
      obtain ⟨c, _, rfl⟩ := Dialect.named_eq_ok.mp named
      exact congrArg Except.ok (Dialect.moved_canonical c).symm

theorem Since.find {store : Store} (since : store.Since start) {ref : Ref} {dialect : Dialect}
    (found : store.find ref = .ok dialect) : dialect.id.Since start := by
  cases ref with
  | slot name => exact since.slots (find_slot.mp found)
  | canonical name =>
    obtain ⟨c, _, rfl⟩ := Dialect.named_eq_ok.mp (find_canonical.mp found)
    exact .inl c.dialect_id_lt

theorem keep_moved (store : Store) (slot : Option String) (dialect : Dialect) :
    (store.moved start other).keep slot (dialect.moved start other) =
      (store.keep slot dialect).moved start other := by
  cases slot with
  | none => rfl
  | some name =>
    simp only [keep, Store.moved, List.map_cons, List.filter_map]
    rfl

theorem Since.made {store : Store} (since : store.Since start) {recipe : Recipe} {made : Made}
    {ids : Alloc} (outcome : Outcome store recipe made ids) : made.dialect.id.Since start := by
  rcases outcome.origin with ⟨_, _, ref, found⟩ | ⟨_, _, fresh⟩
  · exact since.find found
  · rw [fresh]
    exact .inr since.ids

theorem Since.step {store : Store} (since : store.Since start) (step : Step) :
    (store.step step).2.Since start where
  ids := Nat.le_trans since.ids (store.ids_step step)
  slots held := by
    rcases slot?_step held with before | gained
    · exact since.slots before
    · obtain ⟨recipe, slot, log, ids, _, outcome, _⟩ := gain_outcome gained
      exact since.made outcome

theorem Since.findAll {store : Store} (since : store.Since start) {refs : List Ref}
    {dialects : List Dialect} (found : refs.mapM store.find = .ok dialects) :
    ∀ dialect ∈ dialects, dialect.id.Since start := by
  intro dialect member
  obtain ⟨_, _, here⟩ := (Except.mem_of_mapM found).mp member
  exact since.find here

theorem findAll_moved (store : Store) (refs : List Ref) :
    refs.mapM (store.moved start other).find =
      (refs.mapM store.find).map (List.map (Dialect.moved start other)) := by
  induction refs with
  | nil => rfl
  | cons ref refs ih =>
    rw [List.mapM_cons, List.mapM_cons, find_moved, ih]
    apply Except.map_bind_map
    intro first _
    apply Except.map_bind_map
    intro rest _
    rfl

end Store

/-! What a step shows. -/

section

variable (later : Canon.all.length ≤ start) (laterToo : Canon.all.length ≤ other)
include later laterToo

theorem Unquote.derive_moved {ids : Alloc} {base : Dialect} (since : start ≤ ids.next)
    (baseSince : base.id.Since start) (kind : Unquote) (multiline : Bool) :
    kind.derive (base.moved start other) multiline (ids.moved start other) =
      (kind.derive base multiline ids).map
        (Prod.map (Made.moved start other) (Alloc.moved start other)) := by
  have display : (base.moved start other).display = base.display :=
    Dialect.plain_moved later laterToo baseSince .source
  have flags : (base.moved start other).flags = base.flags := rfl
  have drawn : Dialect.create (ids.moved start other) (kind.change multiline base.flags) = _ :=
    Dialect.create_moved later since _
  rw [derive, derive, display, flags]
  split
  · rfl
  · rw [Dialect.derive, flags, drawn]
    rfl

omit laterToo in
theorem Conf.realize_moved {ids : Alloc} (since : start ≤ ids.next) (conf : Conf) :
    conf.realize (ids.moved start other) =
      (conf.realize ids).map (Prod.map (Made.moved start other) (Alloc.moved start other)) := by
  apply Except.bind_map
  intro base _
  have drawn : Dialect.create (ids.moved start other) (conf.overrides.apply base.flags) = _ :=
    Dialect.create_moved later since _
  rw [Dialect.override, Dialect.derive, drawn]
  rfl

namespace Store

theorem make_moved {store : Store} (since : store.Since start) (recipe : Recipe) :
    (store.moved start other).make recipe =
      (store.make recipe).map (Prod.map (Made.moved start other) (Alloc.moved start other)) := by
  have ids : (store.moved start other).ids = store.ids.moved start other := rfl
  have drawn (flags : Flags) : Dialect.create (store.ids.moved start other) flags = _ :=
    Dialect.create_moved later since.ids flags
  cases recipe with
  | standard name =>
    apply Except.bind_map
    intro dialect named
    obtain ⟨c, _, rfl⟩ := Dialect.named_eq_ok.mp (Except.mapError_eq_ok.mp named)
    have same : c.dialect.moved start other = c.dialect := Dialect.moved_canonical c
    exact congrArg (fun dialect => Except.ok (Made.mk dialect [], store.ids.moved start other))
      same.symm
  | «alias» of =>
    simp only [make, find_moved]
    apply Except.map_bind_map
    intro dialect _
    rfl
  | new flags =>
    rw [make, make, ids, drawn]
    rfl
  | derive ref set =>
    simp only [make, find_moved]
    apply Except.map_bind_map
    intro base _
    apply Except.bind_map
    intro overrides _
    rw [Dialect.override, Dialect.derive, ids, drawn]
    rfl
  | vary ref change =>
    simp only [make, find_moved]
    apply Except.map_bind_map
    intro base _
    rw [Dialect.derive, ids, drawn]
    rfl
  | unquote kind ref multiline | mustUnquote kind ref multiline =>
    simp only [make, find_moved]
    apply Except.map_bind_map
    intro base found
    rw [← Except.mapError_map]
    exact congrArg _ (Unquote.derive_moved later laterToo since.ids (since.find found) kind multiline)
  | conf text =>
    apply Except.bind_map
    intro conf _
    rw [← Except.mapError_map]
    exact congrArg _ (conf.realize_moved later since.ids)
  | resolve base set =>
    apply Except.bind_map
    intro overrides _
    rw [← Except.mapError_map]
    exact congrArg (Except.mapError Failure.dialect)
      (Conf.realize_moved later since.ids ⟨base, overrides⟩)

end Store

theorem Comparison.of_moved {a b : Dialect} (aSince : a.id.Since start)
    (bSince : b.id.Since start) :
    Comparison.of (a.moved start other) (b.moved start other) = Comparison.of a b := by
  have same : (a.moved start other).same (b.moved start other) = a.same b :=
    Dialect.same_moved later laterToo aSince bSince
  have order : compare (a.moved start other).id.index (b.moved start other).id.index =
      compare a.id.index b.id.index := DialectId.compare_moved later laterToo aSince bSince
  have hashes : ((a.moved start other).hashInput == (b.moved start other).hashInput) =
      (a.hashInput == b.hashInput) := same
  rw [of, of, same, order, hashes]
  rfl

theorem Census.of_moved {dialects : List Dialect}
    (since : ∀ dialect ∈ dialects, dialect.id.Since start) :
    Census.of (dialects.map (Dialect.moved start other)) =
      { Census.of dialects with
        ids := (Census.of dialects).ids.map (DialectId.moved start other) } := by
  have members : distinct Dialect.same (dialects.map (Dialect.moved start other)) =
      (distinct Dialect.same dialects).map (Dialect.moved start other) :=
    distinct_map fun a aIn b bIn => Dialect.same_moved later laterToo (since a aIn) (since b bIn)
  have flags : (dialects.map (Dialect.moved start other)).map (·.flags) =
      dialects.map (·.flags) := List.map_map
  have sorted : (((distinct Dialect.same dialects).map (·.id)).mergeSort
        fun a b => a.index ≤ b.index).map (DialectId.moved start other) =
      (((distinct Dialect.same dialects).map (·.id)).map (DialectId.moved start other)).mergeSort
        fun a b => a.index ≤ b.index := by
    apply List.map_mergeSort
    intro a aIn b bIn
    obtain ⟨first, firstIn, rfl⟩ := List.mem_map.mp aIn
    obtain ⟨second, secondIn, rfl⟩ := List.mem_map.mp bIn
    have order : (second.id.moved start other).index < (first.id.moved start other).index ↔
        second.id.index < first.id.index :=
      DialectId.moved_lt_iff later laterToo (since second (mem_of_mem_distinct secondIn))
        (since first (mem_of_mem_distinct firstIn))
    rw [decide_eq_decide, ← Nat.not_lt, ← Nat.not_lt, order]
  rw [of, of, members, flags, sorted, List.length_map, List.map_map, List.map_map]
  rfl

theorem Info.of_moved {dialect : Dialect} (since : dialect.id.Since start) :
    Info.of (dialect.moved start other) =
      { Info.of dialect with id := dialect.id.moved start other } := by
  have name : (dialect.moved start other).name? = dialect.name? :=
    Dialect.name?_moved later laterToo since
  have catalogName : Catalog.standard.nameOf? (dialect.moved start other) =
      Catalog.standard.nameOf? dialect := name
  rw [of, of, Dialect.isStandard, Dialect.isStandard, name, catalogName]
  rfl

namespace Store

theorem look_moved {store : Store} (since : store.Since start) (what : Look) :
    (store.moved start other).look what = (store.look what).map (Answer.moved start other) := by
  cases what with
  | census refs =>
    rw [look, look, findAll_moved]
    apply Except.map_bind_map
    intro dialects found
    rw [Census.of_moved later laterToo (since.findAll found)]
    rfl
  | compare a b =>
    rw [look, look, find_moved, find_moved]
    apply Except.map_bind_map
    intro first here
    apply Except.map_bind_map
    intro second there
    rw [Comparison.of_moved later laterToo (since.find here) (since.find there)]
    rfl
  | info of =>
    rw [look, look, find_moved]
    apply Except.map_bind_map
    intro dialect found
    rw [Info.of_moved later laterToo (since.find found)]
    rfl
  | _ =>
    rw [look, look, find_moved]
    apply Except.map_bind_map
    intro dialect found
    rfl

theorem step_moved {store : Store} (since : store.Since start) (step : Step) :
    (store.moved start other).step step =
      ((store.step step).1.moved start other, (store.step step).2.moved start other) := by
  cases step with
  | look what =>
    rw [Store.step, look_moved later laterToo since]
    rfl
  | make recipe slot =>
    rw [Store.step, make_moved later laterToo since, Store.step]
    cases followed : store.make recipe with
    | error failure => rfl
    | ok result =>
      obtain ⟨made, ids⟩ := result
      have name : (made.dialect.moved start other).name? = made.dialect.name? :=
        Dialect.name?_moved later laterToo (since.made (make_eq_ok.mp followed))
      have kept : (Store.moved start other { store with ids := ids }).keep slot
          (made.dialect.moved start other) = _ := keep_moved _ slot made.dialect
      change (Shown.mk (.ok (.made _ (made.dialect.moved start other).name?)) _, _) = _
      rw [name]
      exact congrArg _ kept

theorem run_moved {store : Store} (since : store.Since start) (steps : List Step) :
    (store.moved start other).run steps =
      ((store.run steps).1.map (Shown.moved start other), (store.run steps).2.moved start other) := by
  induction steps generalizing store with
  | nil => rfl
  | cons first rest ih =>
    rw [run_cons, step_moved later laterToo since, ih (since.step first), run_cons, List.map_cons]

end Store

end

/-! Texts. -/

def Rendering.tellsId : Rendering → Bool
  | .debug | .debugOnLines => true
  | .display | .plain _ | .laidOut _ _ => false

structure Shown.TextsFollow (start other : Nat) (shown : Shown) : Prop where
  plain : ∀ dialect rendering, shown.result = .ok (.rendered dialect rendering) →
    rendering.tellsId = false →
    rendering.text (dialect.moved start other) = rendering.text dialect
  debug : ∀ dialect rendering, shown.result = .ok (.rendered dialect rendering) →
    rendering.tellsId = true → ∃ front back,
      rendering.text dialect = front ++ dialect.id.text ++ back ∧
        rendering.text (dialect.moved start other) =
          front ++ (dialect.id.moved start other).text ++ back
  logged : ∀ event ∈ shown.log,
    (event.moved start other).level = event.level ∧
    (event.moved start other).target = event.target ∧
    ∃ (id : DialectId) (front back : String), event.message = front ++ id.text ++ back ∧
      (event.moved start other).message = front ++ (id.moved start other).text ++ back

theorem Rendering.text_of_tellsId {rendering : Rendering} (tells : rendering.tellsId = true)
    (flags : Flags) : ∃ front back, ∀ id : DialectId,
      rendering.text ⟨id, flags⟩ = front ++ id.text ++ back := by
  cases rendering with
  | debug =>
    refine ⟨"Dialect" ++ " \x7b " ++ "id" ++ ": ",
      ", " ++ "flags" ++ ": " ++ flags.record.oneLine ++ " \x7d", fun id => ?_⟩
    simp only [text, Dialect.debug, Record.oneLine, List.map_cons, List.map_nil,
      String.intercalate_cons_cons, String.intercalate_singleton, String.append_assoc]
  | debugOnLines =>
    let margin := String.ofList (List.replicate (4 * 0) ' ')
    refine ⟨"Dialect" ++ " \x7b\n" ++ (margin ++ "    " ++ "id" ++ ": "),
      ",\n" ++ (margin ++ "    " ++ "flags" ++ ": " ++ flags.record.onLines 1 ++ ",\n" ++ margin ++
        "\x7d"), fun id => ?_⟩
    simp only [text, Dialect.debugOnLines, Record.onLines, List.map_cons, List.map_nil,
      String.join_cons, String.join_nil, String.append_empty, String.append_assoc, margin]
  | _ => cases tells

theorem Rendering.text_moved {rendering : Rendering} (silent : rendering.tellsId = false)
    (later : Canon.all.length ≤ start) (laterToo : Canon.all.length ≤ other) {dialect : Dialect}
    (since : dialect.id.Since start) :
    rendering.text (dialect.moved start other) = rendering.text dialect := by
  cases rendering with
  | display => exact Dialect.plain_moved later laterToo since .source
  | plain style => exact Dialect.plain_moved later laterToo since style
  | laidOut style width => exact Dialect.laidOut_moved later laterToo since width style
  | _ => cases silent

theorem Event.message_resolved (base : String) (overridden : Bool) : ∃ front back,
    ∀ id : DialectId, (resolved id base overridden).message = front ++ id.text ++ back := by
  let kind := if overridden then " (with overrides)" else " (without overrides)"
  refine ⟨"resolved dialect ", " from " ++ (base ++ kind), fun id => ?_⟩
  change "resolved dialect " ++ id.text ++ " from " ++ base ++ kind = _
  simp only [String.append_assoc]

theorem Event.message_unquoted (kind : Unquote) (base : String) : ∃ front back,
    ∀ id : DialectId, (unquoted kind id base).message = front ++ id.text ++ back := by
  refine ⟨"derived " ++ kind.name ++ " unquote dialect ", " from " ++ base, fun id => ?_⟩
  change "derived " ++ kind.name ++ " unquote dialect " ++ id.text ++ " from " ++ base = _
  simp only [String.append_assoc]

theorem Outcome.log_cases {store : Store} {recipe : Recipe} {made : Made} {ids : Alloc}
    (outcome : Outcome store recipe made ids) :
    made.log = [] ∨ (∃ base overridden, made.log = [.resolved made.dialect.id base overridden]) ∨
      ∃ kind base, made.log = [.unquoted kind made.dialect.id base] := by
  cases outcome <;> simp [Alloc.mint]

theorem Event.message_of_id {event : Event}
    (told : (∃ id base overridden, event = .resolved id base overridden) ∨
      ∃ kind id base, event = .unquoted kind id base) :
    ∃ (id : DialectId) (front back : String), event.message = front ++ id.text ++ back ∧
      (event.moved start other).message = front ++ (id.moved start other).text ++ back := by
  rcases told with ⟨id, base, overridden, rfl⟩ | ⟨kind, id, base, rfl⟩
  · obtain ⟨front, back, message⟩ := Event.message_resolved base overridden
    exact ⟨id, front, back, message id, message _⟩
  · obtain ⟨front, back, message⟩ := Event.message_unquoted kind base
    exact ⟨id, front, back, message id, message _⟩

namespace Store

theorem find_of_rendered {store : Store} {step : Step} {dialect : Dialect} {rendering : Rendering}
    (shown : (store.step step).1.result = .ok (.rendered dialect rendering)) :
    ∃ ref, store.find ref = .ok dialect := by
  cases step with
  | make recipe slot =>
    cases followed : store.make recipe <;> simp [Store.step, followed] at shown
  | look what =>
    change store.look what = .ok (.rendered dialect rendering) at shown
    cases what with
    | «show» ref =>
      obtain ⟨found, here, same⟩ := Except.bind_eq_ok.mp shown
      cases Except.pure_eq_ok.mp same
      exact ⟨ref, here⟩
    | compare a b =>
      obtain ⟨_, _, more⟩ := Except.bind_eq_ok.mp shown
      obtain ⟨_, _, same⟩ := Except.bind_eq_ok.mp more
      cases Except.pure_eq_ok.mp same
    | _ =>
      obtain ⟨_, _, same⟩ := Except.bind_eq_ok.mp shown
      cases Except.pure_eq_ok.mp same

theorem told_of_log {store : Store} {step : Step} {event : Event}
    (logged : event ∈ (store.step step).1.log) :
    (∃ id base overridden, event = .resolved id base overridden) ∨
      ∃ kind id base, event = .unquoted kind id base := by
  cases step with
  | look what => cases logged
  | make recipe slot =>
    cases followed : store.make recipe with
    | error failure => simp [Store.step, followed] at logged
    | ok result =>
      simp only [Store.step, followed] at logged
      rcases (make_eq_ok.mp followed).log_cases with
        silent | ⟨base, overridden, one⟩ | ⟨kind, base, one⟩
      · rw [silent] at logged
        cases logged
      · rw [one] at logged
        exact .inl ⟨_, _, _, List.mem_singleton.mp logged⟩
      · rw [one] at logged
        exact .inr ⟨_, _, _, List.mem_singleton.mp logged⟩

theorem Since.textsFollow {store : Store} (since : store.Since start)
    (later : Canon.all.length ≤ start) (laterToo : Canon.all.length ≤ other) (step : Step) :
    (store.step step).1.TextsFollow start other where
  plain dialect rendering shown silent := by
    obtain ⟨ref, found⟩ := find_of_rendered shown
    exact Rendering.text_moved silent later laterToo (since.find found)
  debug dialect rendering _ tells := by
    obtain ⟨front, back, text⟩ := Rendering.text_of_tellsId tells dialect.flags
    exact ⟨front, back, text _, text _⟩
  logged event logged := by
    refine ⟨by cases event <;> rfl, by cases event <;> rfl, ?_⟩
    exact Event.message_of_id (told_of_log logged)

theorem Since.run_textsFollow {store : Store} (since : store.Since start)
    (later : Canon.all.length ≤ start) (laterToo : Canon.all.length ≤ other) (steps : List Step) :
    ∀ shown ∈ (store.run steps).1, shown.TextsFollow start other := by
  induction steps generalizing store with
  | nil => exact nofun
  | cons first rest ih =>
    rw [run_cons, List.forall_mem_cons]
    exact ⟨since.textsFollow later laterToo first, ih (since.step first)⟩

end Store

end

/-- A session shows the same wherever its identities start, but for the identities: those drawn
count from the other start, in answers and in texts alike, and the canonical ones stay. -/
theorem answers_follow_renaming (steps : List Step) {start other : Nat} (later : 13 ≤ start)
    (laterToo : 13 ≤ other) :
    let shown := (Store.run ⟨⟨start⟩, []⟩ steps).1
    (∀ id : DialectId, id.index < 13 → id.moved start other = id) ∧
    (∀ k, DialectId.moved start other ⟨start + k⟩ = ⟨other + k⟩) ∧
    (Store.run ⟨⟨other⟩, []⟩ steps).1 = shown.map (Shown.moved start other) ∧
    ∀ one ∈ shown, one.TextsFollow start other := by
  intro shown
  have since := Store.since_start start
  have start? : Store.moved start other ⟨⟨start⟩, []⟩ = ⟨⟨other⟩, []⟩ := by
    rw [Store.moved, Alloc.moved, Nat.sub_self, Nat.add_zero]
    rfl
  have runs := Store.run_moved later laterToo since steps
  rw [start?] at runs
  refine ⟨fun _ => DialectId.moved_canonical, ?_, congrArg Prod.fst runs, ?_⟩
  · intro k
    rw [DialectId.moved_later later (Nat.le_add_right start k), Nat.add_sub_cancel_left]
  · exact since.run_textsFollow later laterToo steps

/-- A derivation, its debug text and a count with repetitions, from the first number and from a
later one. -/
theorem answers_follow_renaming_to_forty :
    let run := [
      Step.make (.unquote .term (.canonical "Dotty") true) (some "$q"),
      .look (.show (.slot "$q") .debug),
      .look (.census [.slot "$q", .canonical "Dotty", .slot "$q"])]
    let flags := Unquote.term.change true Canon.dotty.flags
    13 ≤ 40 ∧ (Store.run ⟨⟨40⟩, []⟩ run).1 = (session run).map (Shown.moved 13 40) ∧
      (session run)[1]?.map (·.result) = some (.ok (.rendered ⟨⟨13⟩, flags⟩ .debug)) ∧
      (Store.run ⟨⟨40⟩, []⟩ run).1[1]?.map (·.result) =
        some (.ok (.rendered ⟨⟨40⟩, flags⟩ .debug)) := by
  intro run flags
  have later : 13 ≤ 40 := by decide
  have first : (session run)[1]?.map (·.result) =
      some (.ok (.rendered ⟨⟨13⟩, flags⟩ .debug)) := rfl
  obtain ⟨_, _, same, _⟩ := answers_follow_renaming run (Nat.le_refl 13) later
  refine ⟨later, same, first, ?_⟩
  obtain ⟨shown, here, result⟩ := Option.map_eq_some_iff.mp first
  have shown? : (Store.run ⟨⟨13⟩, []⟩ run).1[1]? = some shown := here
  rw [same, List.getElem?_map, shown?, Option.map_some, Option.map_some, Shown.moved, result]
  rfl

end SyntaxDialects
