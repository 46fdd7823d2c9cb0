import SkillAtlas.Grouping.Proposal

/-!
# Groups by the start of names

When all units that are left share a long start, they are one group, unless the start is little more than
a namespace. Otherwise each start that two of them share may give a group. Units named after a base that a
curated suffix tells are a group too.
-/

namespace SkillAtlas.Searcher

/-- The proposal for all units that are left. -/
def documentProposal (s : Searcher) (start core : String) (members : List AnalyzedUnit) :
    GroupProposal where
  kind := .documentPrefix
  rationale := s!"All {members.length} units share the prefix '{start}'"
  suggestedName := Naming.readable core
  members := members
  confidence := s.settings.documentPrefixConfidence

/-- The start that all units share, without a separator at its end. -/
def documentStart (units : List AnalyzedUnit) : String :=
  Naming.trimSeparator (Naming.commonStartOf (AnalyzedUnit.names units))

/-- Searches for one group of all units that are left; a start has to be long enough also when a
namespace at its front is left out. -/
def documentStartFor (s : Searcher) (limit : Number) (remaining : List AnalyzedUnit) : Detection :=
  let start := documentStart remaining
  let core := String.ofList (Naming.withoutNamespace start.toList)
  if Naming.isShort limit start then { notes := [.shortStart start], families := .ok [] }
  else if Naming.isShort limit core then { notes := [.namespaceStart start], families := .ok [] }
  else { families := .ok [.ofProposal (s.documentProposal start core remaining)] }

/-- Searches for one group of all units that are left, of which there have to be two. -/
def documentPrefix (s : Searcher) (units : List AnalyzedUnit) (claimed : List String) : Detection :=
  let remaining := AnalyzedUnit.unclaimed claimed units
  if remaining.length < 2 then { families := .ok [] }
  else match s.settings.documentPrefixMinLength.number? with
    | none => { families := .error .wrongKind }
    | some limit => s.documentStartFor limit remaining

def startConfidence (s : Searcher) (count : Value) : Except Fault Value := do
  let steps ← s.settings.prefixStepConfidence.mul count
  let sum ← s.settings.prefixBaseConfidence.add steps
  s.settings.prefixMaxConfidence.minOf sum

def startProposal (s : Searcher) (start : String) (members : List AnalyzedUnit) :
    Except Fault GroupProposal := do
  return {
    kind := .sharedPrefix
    rationale := s!"{members.length} units share the prefix '{start}'"
    suggestedName := Naming.readable start
    members
    confidence := ← s.startConfidence (.int members.length) }

/-- The groups of families of names, each of the members that are still left. -/
def startGroups (s : Searcher) (remaining : List AnalyzedUnit) (claimed : List String) :
    List (String × List String) → List Family
  | [] => []
  | (start, names) :: rest =>
    let members := (names.filter fun n => !claimed.contains n).filterMap
      (AnalyzedUnit.named? remaining)
    if members.length < 2 then s.startGroups remaining claimed rest
    else
      ⟨members, s.startProposal start members⟩ ::
        s.startGroups remaining (claimed ++ AnalyzedUnit.names members) rest

def residualPrefixes (s : Searcher) (units : List AnalyzedUnit) (claimed : List String) : Detection :=
  let remaining := AnalyzedUnit.unclaimed claimed units
  {
    families := (Naming.startFamiliesFor s.settings.namingPrefixMinLength
      (AnalyzedUnit.names remaining)).map (s.startGroups remaining claimed) }

def suffixProposal (s : Searcher) (base : String) (members : List AnalyzedUnit) : GroupProposal where
  kind := .lifecycleSuffixes
  rationale := s!"'{base}' with {members.length - 1} suffixed unit(s)"
  suggestedName := Naming.readable base
  members := members
  confidence := s.settings.suffixPatternConfidence

/-- The groups of bases, each of the members that are still left. -/
def suffixGroups (s : Searcher) (remaining : List AnalyzedUnit) (claimed : List String) :
    List (String × List String) → List Family
  | [] => []
  | (base, names) :: rest =>
    let members := AnalyzedUnit.unclaimed claimed (remaining.filter fun u => names.contains u.name)
    if members.length < 2 then s.suffixGroups remaining claimed rest
    else
      .ofProposal (s.suffixProposal base members) ::
        s.suffixGroups remaining (claimed ++ AnalyzedUnit.names members) rest

def residualSuffixes (s : Searcher) (units : List AnalyzedUnit) (claimed : List String) : Detection :=
  let remaining := AnalyzedUnit.unclaimed claimed units
  let families := Naming.suffixFamilies s.vocabulary.namingSuffixes (AnalyzedUnit.names remaining)
  { families := .ok (s.suffixGroups remaining claimed families) }

end SkillAtlas.Searcher
