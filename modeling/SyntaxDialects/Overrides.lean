import SyntaxDialects.Flags

/-!
Override sets. An override set gives values to some fields; applied to flags it replaces those
values and keeps the others.
-/
namespace SyntaxDialects
open Text

structure Overrides where
  switches : PerSwitch (Option Bool)
  separator : Option String
  deriving DecidableEq

namespace Overrides

def get (overrides : Overrides) : (f : Field) → Option f.Value
  | .allow s => overrides.switches.get s
  | .separator => overrides.separator

def ofFn (value : (f : Field) → Option f.Value) : Overrides :=
  ⟨.ofFn fun s => value (.allow s), value .separator⟩

@[simp] theorem get_ofFn (value : (f : Field) → Option f.Value) (f : Field) :
    (ofFn value).get f = value f := by
  cases f with
  | allow s => simp [get, ofFn]
  | separator => rfl

theorem ext_get {a b : Overrides} (agree : ∀ f, a.get f = b.get f) : a = b := by
  have switches : a.switches = b.switches := PerSwitch.ext_get fun s => agree (.allow s)
  have separator : a.separator = b.separator := agree .separator
  cases a
  cases b
  cases switches
  cases separator
  rfl

protected def none : Overrides :=
  ofFn fun _ => none

def isEmpty (overrides : Overrides) : Bool :=
  Field.all.all fun f => (overrides.get f).isNone

def apply (overrides : Overrides) (flags : Flags) : Flags :=
  .ofFn fun f => (overrides.get f).getD (flags.get f)

def put (overrides : Overrides) (f : Field) (value : Option f.Value) : Overrides :=
  ofFn fun g => if same : f = g then same ▸ value else overrides.get g

@[simp] theorem get_apply (overrides : Overrides) (flags : Flags) (f : Field) :
    (overrides.apply flags).get f = (overrides.get f).getD (flags.get f) := by
  simp [apply]

@[simp] theorem get_put_same (overrides : Overrides) (f : Field) (value : Option f.Value) :
    (overrides.put f value).get f = value := by
  simp [put]

theorem get_put_other (overrides : Overrides) {f g : Field} (value : Option f.Value)
    (other : f ≠ g) : (overrides.put f value).get g = overrides.get g := by
  simp [put, other]

def switching (granted revoked : List Switch) : Overrides :=
  ofFn fun
    | .allow s =>
      if s ∈ granted then some true else if s ∈ revoked then some false else none
    | .separator => none

def withSeparator (overrides : Overrides) (separator : String) : Overrides :=
  overrides.put .separator (some separator)

def settings (overrides : Overrides) : List ((f : Field) × f.Value) :=
  Field.all.filterMap fun f => (overrides.get f).map fun value => ⟨f, value⟩

def valueText (overrides : Overrides) (f : Field) : String :=
  match overrides.get f with
  | some value => "Some(" ++ f.valueText value ++ ")"
  | none => "None"

def record (overrides : Overrides) : Record :=
  ⟨"Overrides", Field.all.map fun f => (f.name, overrides.valueText f)⟩

end Overrides

end SyntaxDialects
