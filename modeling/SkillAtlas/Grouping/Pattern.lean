import SkillAtlas.Fault
import SkillAtlas.Grouping.CommonStart
import SkillAtlas.Grouping.Variant

/-!
# Naming patterns

The families of names in a document, for display. They are read from all names, may overlap, and claim
nothing.
-/

namespace SkillAtlas

/-- A family of names. -/
structure NamingPattern where
  kind : GroupKind
  /-- the common start or the base -/
  anchor : String
  members : List String
  confidence : Value
deriving Inhabited

namespace Searcher

/-- The pattern of a variant with the first of its bases that is another unit. -/
def variantPattern? (s : Searcher) (units : List AnalyzedUnit) (name : String) : Option NamingPattern :=
  if !Naming.isVariant s.vocabulary name then none
  else
    ((Naming.variantBases s.vocabulary name).findSome? fun candidate =>
      (AnalyzedUnit.anyCase? units candidate).filter fun base => base.name != name).map fun base => {
        kind := .mobVariants
        anchor := base.name
        members := [base.name, name]
        confidence := s.settings.variantFamilyConfidence }

/-- The patterns of names that start alike. -/
def startPatterns (s : Searcher) (names : List String) : Except Fault (List NamingPattern) := do
  let families ← Naming.startFamiliesFor s.settings.namingPrefixMinLength names
  families.mapM fun (start, members) => do
    return {
      kind := .sharedPrefix
      anchor := start
      members
      confidence := ← s.startConfidence (.int members.length) }

/-- The bases that names of satellites name, each once. -/
def lifecycleBases (s : Searcher) (units : List AnalyzedUnit) : List AnalyzedUnit :=
  (units.filterMap fun u => do
    AnalyzedUnit.anyCase? units (← Naming.lifecycleBase? s.vocabulary u.name)).foldl (addMember []) []

def lifecyclePattern (s : Searcher) (units : List AnalyzedUnit) (base : AnalyzedUnit) :
    NamingPattern where
  kind := .lifecycleSuffixes
  anchor := base.name
  members := base.name :: AnalyzedUnit.names (satellites s.vocabulary units base.name)
  confidence := s.settings.lifecycleNamingConfidence

def suffixPattern (s : Searcher) (family : String × List String) : NamingPattern where
  kind := .lifecycleSuffixes
  anchor := family.1
  members := family.2
  confidence := s.settings.suffixPatternConfidence

/-- The patterns of skills: common starts, bases with satellites, and bases that curated suffixes tell
unless they are among those with satellites. -/
def skillPatterns (s : Searcher) (units : List AnalyzedUnit) : Except Fault (List NamingPattern) := do
  let names := AnalyzedUnit.names units
  let starts ← s.startPatterns names
  let bases := s.lifecycleBases units
  let told := (AnalyzedUnit.names bases).map Text.lower
  let others := (Naming.suffixFamilies s.vocabulary.namingSuffixes names).filter fun f =>
    !told.contains (Text.lower f.1)
  return starts ++ bases.map (s.lifecyclePattern units) ++ others.map s.suffixPattern

def namingPatterns (s : Searcher) (units : List AnalyzedUnit) (kind : ContextKind) :
    Except Fault (List NamingPattern) :=
  match kind with
  | .mob => .ok ((AnalyzedUnit.names units).filterMap (s.variantPattern? units))
  | .skillFile => s.skillPatterns units

end Searcher

end SkillAtlas
