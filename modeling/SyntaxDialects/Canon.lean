import SyntaxDialects.Overrides

/-!
The canonical dialects. Each but the oldest is its parent with some fields overridden, so its
flags are the changes of its lineage applied in turn to flags that allow nothing.
-/
namespace SyntaxDialects

inductive Canon where
  | scala210
  | sbt0136
  | sbt0137
  | scala211
  | typelevel211
  | paradise211
  | paradiseTypelevel211
  | scala212
  | typelevel212
  | paradise212
  | paradiseTypelevel212
  | scala213
  | dotty
  deriving DecidableEq

namespace Canon

def all : List Canon := [
  scala210, sbt0136, sbt0137, scala211, typelevel211, paradise211, paradiseTypelevel211,
  scala212, typelevel212, paradise212, paradiseTypelevel212, scala213, dotty]

theorem mem_all (c : Canon) : c ∈ all := by
  cases c <;> decide

def name : Canon → String
  | scala210 => "Scala210"
  | sbt0136 => "Sbt0136"
  | sbt0137 => "Sbt0137"
  | scala211 => "Scala211"
  | typelevel211 => "Typelevel211"
  | paradise211 => "Paradise211"
  | paradiseTypelevel211 => "ParadiseTypelevel211"
  | scala212 => "Scala212"
  | typelevel212 => "Typelevel212"
  | paradise212 => "Paradise212"
  | paradiseTypelevel212 => "ParadiseTypelevel212"
  | scala213 => "Scala213"
  | dotty => "Dotty"

def constant : Canon → String
  | scala210 => "SCALA210"
  | sbt0136 => "SBT0136"
  | sbt0137 => "SBT0137"
  | scala211 => "SCALA211"
  | typelevel211 => "TYPELEVEL211"
  | paradise211 => "PARADISE211"
  | paradiseTypelevel211 => "PARADISE_TYPELEVEL211"
  | scala212 => "SCALA212"
  | typelevel212 => "TYPELEVEL212"
  | paradise212 => "PARADISE212"
  | paradiseTypelevel212 => "PARADISE_TYPELEVEL212"
  | scala213 => "SCALA213"
  | dotty => "DOTTY"

def ofConstant? (constant : String) : Option Canon :=
  all.find? fun c => c.constant == constant

def parent : Canon → Option Canon
  | scala210 => none
  | sbt0136 => some scala210
  | sbt0137 => some scala210
  | scala211 => some scala210
  | typelevel211 => some scala211
  | paradise211 => some scala211
  | paradiseTypelevel211 => some typelevel211
  | scala212 => some scala211
  | typelevel212 => some scala212
  | paradise212 => some scala212
  | paradiseTypelevel212 => some typelevel212
  | scala213 => some scala212
  | dotty => some scala211

/-- What the dialect changes of its parent's flags; the oldest changes flags that allow
nothing. -/
def change : Canon → Overrides
  | scala210 => .switching
      [.atForExtractorVarargs, .inlineIdents, .multilinePrograms, .viewBounds, .withTypes,
        .xmlLiterals] []
  | sbt0136 => (Overrides.switching [.toplevelTerms] []).withSeparator "\n"
  | sbt0137 => .switching [.toplevelTerms] []
  | scala211 => .switching [.spliceUnderscores] []
  | typelevel211 => .switching [.literalTypes] []
  | paradise211 => .switching [.inlineIdents, .inlineMods] []
  | paradiseTypelevel211 => .switching [.inlineIdents, .inlineMods] []
  | scala212 => .switching [.trailingCommas] [.literalTypes]
  | typelevel212 => .switching [.literalTypes] []
  | paradise212 => .switching [.inlineIdents, .inlineMods] []
  | paradiseTypelevel212 => .switching [.inlineIdents, .inlineMods] []
  | scala213 => .none
  | dotty => .switching
      [.andTypes, .colonForExtractorVarargs, .inlineMods, .literalTypes, .orTypes,
        .traitParameters]
      [.atForExtractorVarargs, .inlineIdents, .trailingCommas, .viewBounds, .withTypes,
        .xmlLiterals]

def ancestry : Nat → Canon → List Canon
  | 0, _ => []
  | count + 1, c => ((c.parent.map (ancestry count)).getD []) ++ [c]

def lineage (c : Canon) : List Canon :=
  ancestry all.length c

def flags (c : Canon) : Flags :=
  c.lineage.foldl (fun flags ancestor => ancestor.change.apply flags) Flags.bare

theorem flags_eq_change_apply_parent {c p : Canon} (child : c.parent = some p) :
    c.flags = c.change.apply p.flags := by
  cases c <;> cases child <;> rfl

theorem flags_oldest {c : Canon} (oldest : c.parent = none) :
    c.flags = c.change.apply Flags.bare := by
  cases c <;> cases oldest
  rfl

end Canon

end SyntaxDialects
