import SkillAtlas.Graph.Route
import SkillAtlas.Grouping.Proposal

/-!
# Call chains

Each root of the call graph gathers the units that it reaches and that no earlier root reaches. A graph
without roots is gathered from the unit with the most calls.
-/

namespace SkillAtlas

/-- The first unit with the most calls, if it calls any. -/
def CallGraph.busiest? (g : CallGraph) : Option String :=
  let count n := (g.calls n).length
  let best := g.nodes.foldl (fun (best : Option String) n =>
    match best with
    | some b => if count b < count n then some n else some b
    | none => some n) none
  best.filter fun n => 0 < count n

/-- The units from which chains are gathered. -/
def CallGraph.chainStarts (g : CallGraph) : List String :=
  match g.roots with
  | [] => g.busiest?.toList
  | roots => roots

namespace Searcher

/-- The name for a group: the start that all members share if it is long enough, else the fallback
without its lifecycle suffix. -/
def groupName (s : Searcher) (names : List String) (fallback : String) : Except Fault String :=
  let start := Naming.trimSeparator (Naming.commonStartOf names)
  match s.settings.groupNameMinPrefix.number? with
  | none => .error .wrongKind
  | some limit =>
    if limit.atMost (.int start.length) then .ok (Naming.readable start)
    else .ok (Naming.readable (Naming.withoutLifecycleSuffix s.vocabulary fallback))

/-- The proposal for the units of a chain that are not claimed. -/
def chainProposal (s : Searcher) (root : String) (length : Nat) (members : List AnalyzedUnit) :
    Except Fault GroupProposal := do
  return {
    kind := .callChain
    rationale := s!"Call chain of {length} units starting at '{root}'"
    suggestedName := ← s.groupName (AnalyzedUnit.names members) root
    members
    confidence := s.settings.callChainConfidence }

/-- The chains from some units on; `visited` are the units of earlier chains. -/
def chainsFrom (s : Searcher) (units : List AnalyzedUnit) (g : CallGraph) (claimed visited : List String) :
    List String → List Family
  | [] => []
  | root :: rest =>
    if visited.contains root then s.chainsFrom units g claimed visited rest
    else
      let chain := root :: (g.transitiveCalls root).filter fun n => !visited.contains n
      let members := (chain.filter fun n => !claimed.contains n).filterMap (AnalyzedUnit.named? units)
      if members.length < 2 then s.chainsFrom units g claimed (visited ++ chain) rest
      else
        ⟨members, s.chainProposal root chain.length members⟩ ::
          s.chainsFrom units g (claimed ++ AnalyzedUnit.names members) (visited ++ chain) rest

def callChains (s : Searcher) (units : List AnalyzedUnit) (g : CallGraph) (claimed : List String) :
    Detection where
  families := .ok (s.chainsFrom units g claimed [] g.chainStarts)

end Searcher

end SkillAtlas
