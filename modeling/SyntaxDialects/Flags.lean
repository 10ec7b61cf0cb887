import SyntaxDialects.Field
import SyntaxDialects.Text.Quoted
import SyntaxDialects.Text.Record

/-!
Flags: a value for every field. Two sets of flags are equal exactly when they agree on every
field, and `Flags.fields` lists each field's name beside the text of its value.
-/
namespace SyntaxDialects
open Text

def Field.valueText : (f : Field) → f.Value → String
  | .allow _, value => if value then "true" else "false"
  | .separator, value => quoted value

structure Flags where
  switches : PerSwitch Bool
  separator : String
  deriving DecidableEq

namespace Flags

def get (flags : Flags) : (f : Field) → f.Value
  | .allow s => flags.switches.get s
  | .separator => flags.separator

def ofFn (value : (f : Field) → f.Value) : Flags :=
  ⟨.ofFn fun s => value (.allow s), value .separator⟩

@[simp] theorem get_ofFn (value : (f : Field) → f.Value) (f : Field) :
    (ofFn value).get f = value f := by
  cases f with
  | allow s => simp [get, ofFn]
  | separator => rfl

theorem ext_get {a b : Flags} (agree : ∀ f, a.get f = b.get f) : a = b := by
  have switches : a.switches = b.switches := PerSwitch.ext_get fun s => agree (.allow s)
  have separator : a.separator = b.separator := agree .separator
  cases a
  cases b
  cases switches
  cases separator
  rfl

def bare : Flags :=
  ofFn fun | .allow _ => false | .separator => ""

def allows (flags : Flags) (what : Switch) : Bool :=
  flags.get (.allow what)

def allowsUnquotes (flags : Flags) : Bool :=
  flags.allows .patUnquotes || flags.allows .termUnquotes

def set (flags : Flags) (f : Field) (value : f.Value) : Flags :=
  ofFn fun g => if same : f = g then same ▸ value else flags.get g

@[simp] theorem get_set_same (flags : Flags) (f : Field) (value : f.Value) :
    (flags.set f value).get f = value := by
  simp [set]

theorem get_set_other (flags : Flags) {f g : Field} (value : f.Value) (other : f ≠ g) :
    (flags.set f value).get g = flags.get g := by
  simp [set, other]

def toggle (flags : Flags) (what : Switch) : Flags :=
  flags.set (.allow what) (!flags.allows what)

def toggled (flags : Flags) (switches : List Switch) (append : String) : Flags :=
  (switches.foldl toggle flags).set .separator (flags.separator ++ append)

def fields (flags : Flags) : List (String × String) :=
  Field.all.map fun f => (f.name, f.valueText (flags.get f))

def hashInput (flags : Flags) : List Bool × String :=
  (Switch.all.map flags.allows, flags.separator)

def record (flags : Flags) : Record :=
  ⟨"DialectFlags", flags.fields⟩

end Flags

end SyntaxDialects
