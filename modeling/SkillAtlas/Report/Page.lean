import SkillAtlas.Report.Basic

/-!
# Reports for reading

The lines in which a report is shown on a terminal.
-/

namespace SkillAtlas

/-- The line between the parts of a page. -/
def ruler : String :=
  "".pushn '=' 60

def groupLines (p : GroupProposal) : Except Fault (List String) := do
  let confidence ← p.confidence.twoPlaces
  return [s!"  {p.suggestedName} [{p.kind.name}, {confidence}]", s!"    {p.rationale}"] ++
    p.memberNames.map fun n => s!"    - {n}"

/-- At most so many items, and a line that tells of the others. -/
def shortened (most : Nat) (indent : String) (lines : List String) : List String :=
  lines.take most ++
    if lines.length > most then [s!"{indent}... and {lines.length - most} more"] else []

def groupingLines (g : Grouping) : Except Fault (List String) := do
  let groups ← g.groups.mapM groupLines
  let standalone := if g.standalone.isEmpty then []
    else s!"  Standalone ({g.standalone.length}):" ::
      shortened 10 "    " ((AnalyzedUnit.names g.standalone).map fun n => s!"    - {n}")
  return ["", s!"GROUPS ({g.groups.length})"] ++ groups.flatten ++ standalone

def documentLines (r : Report) : List String :=
  let tiers := rankedNames (r.units.map fun u => u.tier.name)
  ["", "DOCUMENT", s!"  Context: {r.kind.name}", s!"  Units: {r.units.length}",
    s!"  Lines: {r.totalLines}"] ++
  (if r.hasLifecycle then ["  Uses lifecycle triggers: yes"] else []) ++
  (if tiers.isEmpty then []
    else "  By complexity:" :: tiers.map fun t => s!"    {t.name}: {t.count}")

def dependencyLines (s : GraphSummary) : List String :=
  ["", "DEPENDENCIES", s!"  Edges: {s.edges}", s!"  Entry points: {s.entryPoints}",
    s!"  Max depth: {s.maxDepth}"] ++
  if s.cycles == 0 then [] else [s!"  Cycles: {s.cycles}"]

def findingLines (fs : List Finding) : List String :=
  if fs.isEmpty then []
  else ["", "DIAGNOSTICS"] ++
    shortened 20 "  " (fs.map fun f => s!"  [{f.severity.name}] {f.message}")

/-- The line on one kind of components, of which the first `top` are shown. -/
def componentLine (top : Int) (label : String) (components : List Ranked) : List String :=
  if components.isEmpty then []
  else
    let shown := (upTo top components).map fun c => s!"{c.name} ({c.count})"
    [s!"  {label}: {Value.commas shown}"]

/-- The lines on components; they are left out when there are no actions. -/
def componentLines (top : Int) (s : Statistics) : List String :=
  if s.actions.isEmpty then []
  else ["", "TOP COMPONENTS"] ++ componentLine top "Actions" s.actions ++
    componentLine top "Targets" s.targets ++ componentLine top "Guards" s.guards

def reportLines (r : Report) (top : Int) : Except Fault (List String) := do
  let grouping ← groupingLines r.grouping
  return [ruler, "SKILL ANALYSIS REPORT", ruler] ++ documentLines r ++
    dependencyLines r.graph.summary ++ grouping ++ findingLines r.findings ++
    componentLines top r.statistics ++ ["", ruler]

/-- The number of components of a kind that a report shows unless it is asked for another. -/
def usualTop : Int :=
  5

end SkillAtlas
