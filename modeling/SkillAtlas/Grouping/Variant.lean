import SkillAtlas.Grouping.Lifecycle

/-!
# Variant families

A mob whose name holds the marker of variants belongs to the mob from which it derives. The base of the
first variant that finds one gathers all other variants that may derive from it.
-/

namespace SkillAtlas.Searcher

open Naming (isVariant variantBases)

/-- The unit from which a variant derives: the first base by name that is another unit and not claimed. -/
def variantBase? (s : Searcher) (units : List AnalyzedUnit) (claimed : List String)
    (u : AnalyzedUnit) : Option AnalyzedUnit :=
  (variantBases s.vocabulary u.name).findSome? fun name =>
    (AnalyzedUnit.anyCase? units name).filter fun base =>
      base.name != u.name && !claimed.contains base.name

def derivesFrom (s : Searcher) (base other : AnalyzedUnit) : Bool :=
  isVariant s.vocabulary other.name &&
    (variantBases s.vocabulary other.name).any fun name => Text.lower name == Text.lower base.name

def variantProposal (s : Searcher) (base : AnalyzedUnit) (members : List AnalyzedUnit) :
    GroupProposal where
  kind := .mobVariants
  rationale :=
    s!"'{base.name}' with {members.length - 1} {s.vocabulary.variantMarker} variant(s)"
  suggestedName := Naming.readable base.name
  members := members
  confidence := s.settings.variantFamilyConfidence

/-- The family of a variant, if it has a base. -/
def variantFamily? (s : Searcher) (units : List AnalyzedUnit) (claimed : List String)
    (u : AnalyzedUnit) : Option Family :=
  (s.variantBase? units claimed u).map fun base =>
    .ofProposal (s.variantProposal base
      ((units.filter (s.derivesFrom base)).foldl (addMember claimed) [base, u]))

def variantFamiliesFrom (s : Searcher) (units : List AnalyzedUnit) (claimed : List String) :
    List AnalyzedUnit → List Encounter
  | [] => []
  | u :: rest =>
    if claimed.contains u.name || !isVariant s.vocabulary u.name then
      s.variantFamiliesFrom units claimed rest
    else match s.variantFamily? units claimed u with
      | none => .report (.baseMissing u.name) :: s.variantFamiliesFrom units claimed rest
      | some f =>
        .family f :: s.variantFamiliesFrom units (claimed ++ AnalyzedUnit.names f.members) rest

def variantFamilies (s : Searcher) (units : List AnalyzedUnit) (claimed : List String) : Detection :=
  let met := s.variantFamiliesFrom units claimed units
  { notes := Encounter.reports met, families := .ok (Encounter.families met) }

end SkillAtlas.Searcher
