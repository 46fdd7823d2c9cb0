import SkillAtlas.Report.Basic

/-!
# Reports as values

The keys and nesting of reports that other programs read. Confidences are rounded to four places.
-/

namespace SkillAtlas

namespace Value

/-- A mapping with texts as keys. -/
def record (fields : List (String × Value)) : Value :=
  .map (fields.map fun f => (.str f.1, f.2))

def strings (ss : List String) : Value :=
  .list (ss.map .str)

def count (n : Nat) : Value :=
  .int n

end Value

def Call.toValue (c : Call) : Value :=
  .record [("name", .str c.name), ("context", .str c.context)]

def AnalyzedUnit.toValue (u : AnalyzedUnit) : Value :=
  .record [
    ("name", .str u.name),
    ("sourceKind", .str u.kind.name),
    ("lineCount", .count u.lineCount),
    ("lines", .strings u.lines),
    ("actions", .strings u.actions),
    ("targetRefs", .strings u.targets),
    ("guardRefs", .strings u.guards),
    ("lifecycleRefs", .strings u.lifecycle),
    ("attributes", .record (u.attributes.map fun a => (a.1, .strings a.2))),
    ("subUnitCalls", .list (u.calls.map Call.toValue)),
    ("complexityTier", .str u.tier.name),
    ("complexityScore", u.score),
    ("suggestedCategory", .str u.category),
    ("rawExtra", .map u.rawExtra)]

def Edge.toValue (e : Edge) : Value :=
  .record [("from", .str e.source), ("to", .str e.target), ("context", .str e.context)]

namespace CallGraph

def nodeValue (g : CallGraph) (n : String) : Value :=
  .record [("calls", .strings (g.calls n)), ("calledBy", .strings (g.calledBy n))]

def toValue (g : CallGraph) : Value :=
  .record [
    ("nodes", .record (g.nodes.map fun n => (n, g.nodeValue n))),
    ("edges", .list (g.edges.map Edge.toValue))]

end CallGraph

def GraphSummary.toValue (s : GraphSummary) : Value :=
  .record [
    ("totalNodes", .count s.nodes),
    ("totalEdges", .count s.edges),
    ("entryPoints", .count s.entryPoints),
    ("leaves", .count s.leaves),
    ("maxDepth", .count s.maxDepth),
    ("cycles", .count s.cycles),
    ("danglingEdges", .count s.danglingEdges)]

def NamingPattern.toValue (p : NamingPattern) : Except Fault Value := do
  let confidence ← p.confidence.rounded 4
  return .record [
    ("kind", .str p.kind.name),
    ("anchor", .str p.anchor),
    ("memberNames", .strings p.members),
    ("confidence", confidence)]

def GroupProposal.toValue (p : GroupProposal) : Except Fault Value := do
  let confidence ← p.confidence.rounded 4
  return .record [
    ("kind", .str p.kind.name),
    ("rationale", .str p.rationale),
    ("suggestedName", .str p.suggestedName),
    ("members", .strings p.memberNames),
    ("confidence", confidence)]

def Grouping.toValue (g : Grouping) : Except Fault Value := do
  let groups ← g.groups.mapM GroupProposal.toValue
  return .record [
    ("groups", .list groups),
    ("standalone", .strings (AnalyzedUnit.names g.standalone)),
    ("totalGroups", .count g.groups.length),
    ("totalStandalone", .count g.standalone.length)]

def MissingReference.toValue (m : MissingReference) : Value :=
  .record [("calledName", .str m.called), ("callerName", .str m.caller), ("context", .str m.context)]

def rankedValue (components : List Ranked) : Value :=
  .list (components.map fun c => .record [("name", .str c.name), ("count", .count c.count)])

def Statistics.toValue (s : Statistics) : Value :=
  .record [
    ("actions", rankedValue s.actions),
    ("targetSelectors", rankedValue s.targets),
    ("guards", rankedValue s.guards),
    ("attributes", rankedValue s.attributes)]

namespace Finding

def about : Finding → Value
  | dangling ref => .record [
    ("caller", .str ref.caller), ("missing", .str ref.called), ("callContext", .str ref.context)]
  | emptyUnit name => .record [("unit", .str name)]
  | highComplexity name lines score => .record [
    ("unit", .str name), ("lineCount", .count lines), ("complexityScore", score)]

def toValue (f : Finding) : Value :=
  .record [
    ("severity", .str f.severity.name),
    ("kind", .str f.kindName),
    ("message", .str f.message),
    ("context", f.about)]

end Finding

def Report.fields (r : Report) : Except Fault (List (String × Value)) := do
  let patterns ← r.patterns.mapM NamingPattern.toValue
  let grouping ← r.grouping.toValue
  return [
    ("contextKind", .str r.kind.name),
    ("hasLifecycleRefs", .bool r.hasLifecycle),
    ("totalUnits", .count r.units.length),
    ("totalLines", .count r.totalLines),
    ("units", .list (r.units.map AnalyzedUnit.toValue)),
    ("dependencyGraph", r.graph.toValue),
    ("graphSummary", r.graph.summary.toValue),
    ("namingPatterns", .list patterns),
    ("groupProposals", grouping),
    ("missingReferences", .list (r.missing.map MissingReference.toValue)),
    ("componentStatistics", r.statistics.toValue),
    ("diagnostics", .list (r.findings.map Finding.toValue))]

def Outcome.toValue : Outcome → Except Fault Value
  | report r => do return .record (("success", .bool true) :: (← r.fields))
  | failure f => .ok (.record [
    ("success", .bool false), ("error", .str f.message), ("errorKind", .str f.kind)])

end SkillAtlas
