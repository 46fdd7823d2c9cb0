import SkillAtlas.Graph.Cycle
import SkillAtlas.Grouping.Pattern
import SkillAtlas.Grouping.Synthesis
import SkillAtlas.Report.Finding
import SkillAtlas.Units.Basic

/-!
# Statistics and reports

Statistics say how often each action, selector, guard and attribute occurs; a report holds everything that
one analysis finds out about a document.
-/

namespace SkillAtlas

/-! ### Component statistics -/

structure Ranked where
  name : String
  count : Nat
deriving DecidableEq, Repr, Inhabited

structure Statistics where
  actions : List Ranked := []
  targets : List Ranked := []
  guards : List Ranked := []
  attributes : List Ranked := []
deriving DecidableEq, Repr, Inhabited

/-- The sum of the counts given for a name. -/
def totalOf (name : String) : List (String × Nat) → Nat
  | [] => 0
  | (n, k) :: rest => if n == name then k + totalOf name rest else totalOf name rest

/-- The names in the order in which they come first, each with the sum of its counts. -/
def totals (counts : List (String × Nat)) : List Ranked :=
  (counts.map Prod.fst).eraseDups.map fun n => ⟨n, totalOf n counts⟩

/-- The names with the most frequent first. -/
def ranked (counts : List (String × Nat)) : List Ranked :=
  (totals counts).mergeSort fun a b => b.count ≤ a.count

/-- Each occurrence of a name counts once. -/
def rankedNames (names : List String) : List Ranked :=
  ranked (names.map fun n => (n, 1))

/-- The statistics of units. A value of an attribute counts each time that it is given. -/
def statisticsOf (units : List AnalyzedUnit) : Statistics where
  actions := rankedNames (units.flatMap AnalyzedUnit.actions)
  targets := rankedNames (units.flatMap AnalyzedUnit.targets)
  guards := rankedNames (units.flatMap AnalyzedUnit.guards)
  attributes := ranked (units.flatMap fun u => u.attributes.map fun a => (a.1, a.2.length))

structure GraphSummary where
  nodes : Nat
  edges : Nat
  entryPoints : Nat
  leaves : Nat
  maxDepth : Nat
  cycles : Nat
  danglingEdges : Nat
deriving DecidableEq, Repr, Inhabited

def CallGraph.summary (g : CallGraph) : GraphSummary where
  nodes := g.nodes.length
  edges := g.edges.length
  entryPoints := g.entryPoints.length
  leaves := g.leaves.length
  maxDepth := g.maxDepth
  cycles := g.cycles.length
  danglingEdges := g.danglingEdges.length

structure Report where
  kind : ContextKind
  units : List AnalyzedUnit
  graph : CallGraph
  patterns : List NamingPattern
  grouping : Grouping
  missing : List MissingReference
  statistics : Statistics
  findings : List Finding
  totalLines : Nat
deriving Inhabited

namespace Report

def hasLifecycle (r : Report) : Bool :=
  r.units.any fun u => !u.lifecycle.isEmpty

def unit? (r : Report) (name : String) : Option AnalyzedUnit :=
  r.units.find? (·.name == name)

end Report

/-- Why an analysis that was carried out gave no report. -/
structure Failure where
  kind : String
  message : String
deriving DecidableEq, Repr, Inhabited

/-- What an analysis comes to: a report, or a failure that users are told of. -/
inductive Outcome where
  | report (r : Report)
  | failure (f : Failure)

end SkillAtlas
