import SkillAtlas.Fault
import SkillAtlas.Line.Call
import SkillAtlas.Value.Mapping

/-!
# Analyzed units

A unit is a skill or a mob after its lines have been analyzed.
-/

namespace SkillAtlas

/-- How complex a unit is. -/
inductive Tier where
  | beginner
  | intermediate
  | advanced
  | expert
deriving DecidableEq, Repr, Inhabited

namespace Tier

def name : Tier → String
  | beginner => "beginner"
  | intermediate => "intermediate"
  | advanced => "advanced"
  | expert => "expert"

def all : List Tier :=
  [.beginner, .intermediate, .advanced, .expert]

/-- Harder tiers rank higher. -/
def rank : Tier → Nat
  | beginner => 0
  | intermediate => 1
  | advanced => 2
  | expert => 3

end Tier

structure AnalyzedUnit where
  name : String
  kind : ContextKind := .skillFile
  /-- how many lines the definition has, those that are no text included -/
  lineCount : Nat := 0
  /-- the lines that are texts -/
  lines : List String := []
  /-- the distinct actions -/
  actions : List String := []
  /-- the distinct selectors of targets -/
  targets : List String := []
  /-- the distinct guards -/
  guards : List String := []
  /-- the distinct events -/
  lifecycle : List String := []
  /-- each attribute with all its values -/
  attributes : List (String × List String) := []
  /-- the calls, repeats included -/
  calls : List Call := []
  tier : Tier := .beginner
  score : Value := .int 0
  category : String := "utility"
  /-- the fields of mobs that the definition has -/
  rawExtra : Entries := []
  cooldown : Value := .null
deriving Inhabited

namespace AnalyzedUnit

def callbacks (u : AnalyzedUnit) : List Call :=
  u.calls.filter Call.isCallback

def names (units : List AnalyzedUnit) : List String :=
  units.map name

/-- The last unit of a name. -/
def named? (units : List AnalyzedUnit) (n : String) : Option AnalyzedUnit :=
  units.reverse.find? (·.name == n)

/-- The first unit of a name when case is ignored. -/
def anyCase? (units : List AnalyzedUnit) (n : String) : Option AnalyzedUnit :=
  units.find? fun u => Text.lower u.name == Text.lower n

/-- The units that are not yet in a group. -/
def unclaimed (claimed : List String) (units : List AnalyzedUnit) : List AnalyzedUnit :=
  units.filter fun u => !claimed.contains u.name

end AnalyzedUnit

end SkillAtlas
