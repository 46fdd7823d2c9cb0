import SkillAtlas.Naming.Family
import SkillAtlas.Settings
import SkillAtlas.Units.Basic
import SkillAtlas.Journal

/-!
# Group proposals

A search finds families of units that no group has claimed yet. Each family claims its members, so that no
unit is handed out twice; a proposal puts the family into words.
-/

namespace SkillAtlas

/-- What makes units or names a group. -/
inductive GroupKind where
  | sharedPrefix
  | lifecycleSuffixes
  | mobVariants
  | callChain
  | documentPrefix
deriving DecidableEq, Repr, Inhabited

def GroupKind.name : GroupKind → String
  | sharedPrefix => "shared-prefix"
  | lifecycleSuffixes => "base-with-lifecycle-suffixes"
  | mobVariants => "mob-variant-family"
  | callChain => "call-chain"
  | documentPrefix => "whole-document-shared-prefix"

/-- A proposal to treat some units as one group. -/
structure GroupProposal where
  kind : GroupKind
  rationale : String
  suggestedName : String
  members : List AnalyzedUnit
  confidence : Value
deriving Inhabited

def GroupProposal.memberNames (p : GroupProposal) : List String :=
  AnalyzedUnit.names p.members

/-- A family of units, and the proposal to make of it. -/
structure Family where
  members : List AnalyzedUnit
  proposal : Except Fault GroupProposal

namespace Family

/-- A family whose proposal cannot fail. -/
def ofProposal (p : GroupProposal) : Family :=
  ⟨p.members, .ok p⟩

def claims (families : List Family) : List String :=
  families.flatMap fun f => AnalyzedUnit.names f.members

/-- The proposals for families, and the names that are claimed then. A family claims its members before
it is put into words. -/
def propose (claimed : List String) : List Family → Except Fault (List GroupProposal) × List String
  | [] => (.ok [], claimed)
  | f :: rest =>
    let claimed := claimed ++ AnalyzedUnit.names f.members
    match f.proposal with
    | .error e => (.error e, claimed)
    | .ok p =>
      let (groups, claimed) := propose claimed rest
      (groups.map (p :: ·), claimed)

end Family

structure Searcher where
  vocabulary : Vocabulary
  settings : DetectorSettings := {}

structure Detection where
  notes : List Note := []
  families : Except Fault (List Family)

namespace Detection

/-- The proposals for what was found, and the names that are claimed then. -/
def settle (d : Detection) (claimed : List String) : Except Fault (List GroupProposal) × List String :=
  match d.families with
  | .ok families => Family.propose claimed families
  | .error e => (.error e, claimed)

/-- Runs a search with its notes: the groups, and the names that are claimed then. -/
def run (d : Detection) (claimed : List String) : Journal (List GroupProposal × List String) := do
  Journal.noteAll d.notes
  let (groups, claimed) := d.settle claimed
  return (← groups, claimed)

end Detection

/-- A member joins a family unless it is claimed or already in it. -/
def addMember (claimed : List String) (members : List AnalyzedUnit) (u : AnalyzedUnit) :
    List AnalyzedUnit :=
  if claimed.contains u.name || (AnalyzedUnit.names members).contains u.name then members
  else members ++ [u]

end SkillAtlas
