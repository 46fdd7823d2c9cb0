import SkillAtlas.Grouping.Proposal

/-!
# Lifecycle families

A unit leads a family when it calls others through callbacks: the targets of these calls belong to it, and
so do the units that are named after it with a lifecycle suffix. After that, bases that call nothing are
joined with the satellites that bear their names.
-/

namespace SkillAtlas

/-- The satellites of a base by name, suffix by suffix, each once. -/
def satellites (v : Vocabulary) (units : List AnalyzedUnit) (base : String) : List AnalyzedUnit :=
  let candidates := v.lifecycleSuffixes.flatMap fun s => [base ++ "-" ++ s, base ++ "_" ++ s]
  (candidates.filterMap (AnalyzedUnit.anyCase? units)).foldl (addMember []) []

/-- Something that a search comes across: a family, or something to report. -/
inductive Encounter where
  | family (f : Family)
  | report (n : Note)

namespace Encounter

def families (es : List Encounter) : List Family :=
  es.filterMap fun
    | family f => some f
    | report _ => none

def reports (es : List Encounter) : List Note :=
  es.filterMap fun
    | family _ => none
    | report n => some n

end Encounter

namespace Searcher

/-- The targets of callbacks that join the unit that calls them. -/
def withTargets (units : List AnalyzedUnit) (claimed : List String) (u : AnalyzedUnit) :
    List AnalyzedUnit :=
  (u.callbacks.filterMap fun c => AnalyzedUnit.named? units c.name).foldl (addMember claimed) [u]

def drivenProposal (s : Searcher) (u : AnalyzedUnit) (members : List AnalyzedUnit) (explicit : Bool) :
    GroupProposal where
  kind := .lifecycleSuffixes
  rationale := s!"'{u.name}' drives {members.length - 1} lifecycle " ++
    (if explicit then "callback unit(s)" else "unit(s) by name")
  suggestedName := Naming.readable u.name
  members := members
  confidence := if explicit then s.settings.lifecycleExplicitConfidence
    else s.settings.lifecycleNamingConfidence

/-- The family that a unit with callbacks leads, if it finds a member besides itself. -/
def drivenFamily? (s : Searcher) (units : List AnalyzedUnit) (claimed : List String)
    (u : AnalyzedUnit) : Option Family :=
  let targets := withTargets units claimed u
  let members := (satellites s.vocabulary units u.name).foldl (addMember claimed) targets
  if members.length < 2 then none
  else some (.ofProposal (s.drivenProposal u members (1 < targets.length)))

/-- The families that units with callbacks lead, unit by unit. -/
def drivenFamilies (s : Searcher) (units : List AnalyzedUnit) (claimed : List String) :
    List AnalyzedUnit → List Encounter
  | [] => []
  | u :: rest =>
    if claimed.contains u.name || u.callbacks.isEmpty then s.drivenFamilies units claimed rest
    else match s.drivenFamily? units claimed u with
      | none => .report (.partnersClaimed u.name) :: s.drivenFamilies units claimed rest
      | some f =>
        .family f :: s.drivenFamilies units (claimed ++ AnalyzedUnit.names f.members) rest

def namedProposal (s : Searcher) (base : AnalyzedUnit) (members : List AnalyzedUnit) :
    GroupProposal where
  kind := .lifecycleSuffixes
  rationale := s!"'{base.name}' has {members.length - 1} lifecycle-suffixed sibling(s)"
  suggestedName := Naming.readable base.name
  members := members
  confidence := s.settings.lifecycleNamingConfidence

/-- The base that the name of a unit names, if it is another unit. -/
def lifecycleBaseOf? (s : Searcher) (units : List AnalyzedUnit) (u : AnalyzedUnit) :
    Option AnalyzedUnit := do
  let name ← Naming.lifecycleBase? s.vocabulary u.name
  (AnalyzedUnit.anyCase? units name).filter fun base => base.name != u.name

/-- The family of the base that the name of a unit names. -/
def namedFamily? (s : Searcher) (units : List AnalyzedUnit) (claimed : List String)
    (u : AnalyzedUnit) : Option Family := do
  let base ← (s.lifecycleBaseOf? units u).filter fun base => !claimed.contains base.name
  let members := base :: AnalyzedUnit.unclaimed claimed (satellites s.vocabulary units base.name)
  if members.length < 2 then none
  else some (.ofProposal (s.namedProposal base members))

/-- The families of bases and their satellites, satellite by satellite. -/
def namedFamilies (s : Searcher) (units : List AnalyzedUnit) (claimed : List String) :
    List AnalyzedUnit → List Family
  | [] => []
  | u :: rest =>
    match if claimed.contains u.name then none else s.namedFamily? units claimed u with
    | none => s.namedFamilies units claimed rest
    | some f => f :: s.namedFamilies units (claimed ++ AnalyzedUnit.names f.members) rest

def lifecycleFamilies (s : Searcher) (units : List AnalyzedUnit) (claimed : List String) : Detection :=
  let met := s.drivenFamilies units claimed units
  let driven := Encounter.families met
  {
    notes := Encounter.reports met
    families := .ok (driven ++ s.namedFamilies units (claimed ++ Family.claims driven) units) }

end Searcher

end SkillAtlas
