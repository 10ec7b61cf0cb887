import Mathlib.Data.List.Induction
import Mathlib.Data.List.Forall2
import SyntaxDialects.Proofs.Layers
import SyntaxDialects.Proofs.Session.Lineage
import SyntaxDialects.Proofs.Session.Unquoting

/-!
The log of a session. A dialect of a configuration and one for quotations leave one record each,
with the identity that the step shows; nothing else leaves any. So the log lists these derivations
in the order of the steps, under increasing identities.
-/
namespace SyntaxDialects

def Recipe.logged : Recipe → Bool
  | .conf _ | .resolve _ _ | .unquote _ _ _ | .mustUnquote _ _ _ => true
  | .standard _ | .alias _ | .new _ | .derive _ _ | .vary _ _ => false

def Recipe.conf? : Recipe → Option Conf
  | .conf text => (Conf.ofText text).toOption
  | .resolve base set => (Store.overridesOf set).toOption.map (Conf.mk base)
  | _ => none

theorem Recipe.creates_of_logged {recipe : Recipe} (logged : recipe.logged = true) :
    recipe.creates = true := by
  cases recipe with
  | standard | «alias» => cases logged
  | _ => rfl

namespace Event

def id? : Event → Option DialectId
  | catalogBuilt _ => none
  | resolved id _ _ | unquoted _ id _ => some id

def written (event : Event) : String × String × String :=
  (event.level, event.target, event.message)

inductive TellsOf (store : Store) (id : DialectId) : Recipe → Event → Prop
  | resolution {recipe : Recipe} {conf : Conf} {event : Event} (resolves : recipe.conf? = some conf)
    (about : event.id? = some id)
    (written : event.written = ("DEBUG", "parlance_dialects::conf",
      "resolved dialect " ++ id.text ++ " from " ++ conf.base ++
        (if conf.overrides = .none then " (without overrides)" else " (with overrides)"))) :
    TellsOf store id recipe event
  | quotation {recipe : Recipe} {kind : Unquote} {ref : Ref} {base : Dialect} {event : Event}
    (asks : recipe.unquotes? = some (kind, ref)) (found : store.find ref = .ok base)
    (about : event.id? = some id)
    (written : event.written = ("TRACE", "parlance_dialects::quasiquote",
      "derived " ++ kind.name ++ " unquote dialect " ++ id.text ++ " from " ++ base.display)) :
    TellsOf store id recipe event

theorem TellsOf.about {store : Store} {id : DialectId} {recipe : Recipe} {event : Event}
    (tells : event.TellsOf store id recipe) : event.id? = some id := by
  cases tells with
  | resolution _ about _ => exact about
  | quotation _ _ about _ => exact about

theorem tellsOf_resolved {store : Store} {recipe : Recipe} {conf : Conf}
    (resolves : recipe.conf? = some conf) (id : DialectId) :
    (resolved id conf.base (!conf.overrides.isEmpty)).TellsOf store id recipe := by
  have mark : (if (!conf.overrides.isEmpty) = true then " (with overrides)"
        else " (without overrides)") =
      if conf.overrides = .none then " (without overrides)" else " (with overrides)" := by
    cases empty : conf.overrides.isEmpty with
    | true => rw [if_pos (Overrides.isEmpty_eq_true.mp empty), Bool.not_true, if_neg nofun]
    | false =>
      have overridden : conf.overrides ≠ .none := by
        rw [Ne, ← Overrides.isEmpty_eq_true, empty]
        exact Bool.false_ne_true
      rw [if_neg overridden, Bool.not_false, if_pos rfl]
  refine .resolution resolves rfl ?_
  exact congrArg (fun mark => ("DEBUG", "parlance_dialects::conf",
    "resolved dialect " ++ id.text ++ " from " ++ conf.base ++ mark)) mark

end Event

theorem Outcome.log {store : Store} {recipe : Recipe} {made : Made} {ids : Alloc}
    (outcome : Outcome store recipe made ids) :
    (recipe.logged = true ∧ ∃ event : Event, made.log = [event] ∧
        event.TellsOf store made.dialect.id recipe) ∨
      (recipe.logged = false ∧ made.log = []) := by
  cases outcome with
  | standard | «alias» | new | derive | vary => exact .inr ⟨rfl, rfl⟩
  | unquote kind multiline found plain | mustUnquote kind multiline found plain =>
    exact .inl ⟨rfl, _, rfl, .quotation rfl found rfl rfl⟩
  | @conf text conf base read named =>
    have resolves : (Recipe.conf text).conf? = some conf := by
      rw [Recipe.conf?, read]
      rfl
    exact .inl ⟨rfl, _, rfl, Event.tellsOf_resolved resolves _⟩
  | @resolve name set overrides base read named =>
    have resolves : (Recipe.resolve name set).conf? = some ⟨name, overrides⟩ := by
      rw [Recipe.conf?, read]
      rfl
    exact .inl ⟨rfl, _, rfl, Event.tellsOf_resolved resolves _⟩

structure DerivedAt (steps : List Step) (i : Nat) (recipe : Recipe) (id : DialectId) : Prop where
  here : ∃ slot, steps[i]? = some (.make recipe slot)
  logged : recipe.logged = true
  shown : ∃ name log, (session steps)[i]? = some ⟨.ok (.made id name), log⟩

section Places

variable {steps : List Step} {i : Nat} {recipe : Recipe} {id : DialectId}

theorem DerivedAt.creation (derived : DerivedAt steps i recipe id) :
    ∃ step dialect, steps[i]? = some step ∧
      (Store.reached steps i).creation step = some dialect ∧ dialect.id = id := by
  obtain ⟨⟨slot, here⟩, logged, name, log, shown⟩ := derived
  rw [Store.session_get?, here, Option.map_some, Option.some.injEq] at shown
  rcases (Store.reached steps i).step_of_creation slot (Recipe.creates_of_logged logged) with
    ⟨dialect, created, result⟩ | ⟨_, failure, failed⟩
  · rw [shown] at result
    injection result with answer
    injection answer with same
    exact ⟨_, dialect, here, created, same.symm⟩
  · rw [shown] at failed
    cases failed

end Places

end SyntaxDialects
