import SkillAtlas.Document.Load
import SkillAtlas.Report.Basic
import SkillAtlas.Units.Analysis
import SkillAtlas.Vocabulary.Packaged

/-!
# Analysis of a document

The stages one after the other: load the document, analyze its entries, build the call graph, group the
units, and collect findings. A text that is no document and a document without units are failures that
users are told of; any other fault ends the analysis.
-/

namespace SkillAtlas

/-- What analyses go by. -/
structure Engine where
  settings : Settings := {}
  vocabulary : Vocabulary := Vocabulary.packaged

/-- A request to analyze a text. -/
structure Request where
  text : String
  /-- the kind of the document, if it is asked for by name -/
  context : Option String := none
  /-- the names of units that are defined elsewhere -/
  outside : List String := []

/-- The kind that a request asks for; a name that there is not is a fault of the document. -/
def Request.kind? (r : Request) : Except Fault (Option ContextKind) :=
  match ContextKind.requested r.context with
  | .ok kind => .ok kind
  | .error (.unknownContext given) => .error (.structural (.unknownContext given))
  | .error f => .error f

/-- The failure that users are told of for a fault. -/
def Fault.failure? : Fault → Option Failure
  | structural f => some ⟨"structural", f.message⟩
  | noUnits kind => some ⟨"no-content", noUnitsMessage kind⟩
  | _ => none

namespace Engine

def begin (s : Stage) : Journal Unit :=
  Journal.note (.begun s)

def analyzer (e : Engine) (r : Request) : Analyzer :=
  ⟨e.vocabulary, e.settings.complexity, r.outside⟩

def searcher (e : Engine) : Searcher :=
  ⟨e.vocabulary, e.settings.detectors⟩

def load (e : Engine) (r : Request) : Journal Document := do
  let asked ← r.kind?
  begin .load
  let d ← Document.load e.vocabulary r.text asked
  Journal.note (.loaded d.entries.length d.kind d.totalLines)
  return d

def report (e : Engine) (d : Document) (units : List AnalyzedUnit) : Journal Report := do
  begin .graph
  let graph ← CallGraph.build units
  begin .group
  let grouping ← e.searcher.synthesize units graph d.kind
  let patterns ← e.searcher.namingPatterns units d.kind
  begin .diagnose
  let missing := missingReferences units
  let findings ← diagnose e.settings.diagnostics units missing
  return {
    kind := d.kind
    units
    graph
    patterns
    grouping
    missing
    statistics := statisticsOf units
    findings
    totalLines := d.totalLines }

def run (e : Engine) (r : Request) : Journal Report := do
  let d ← e.load r
  begin .analyze
  let units ← (e.analyzer r).analyzeAll d.entries
  e.report d units

/-- Carries out an analysis, with failures that users are told of as an outcome. -/
def analyze (e : Engine) (r : Request) : Journal Outcome :=
  let j := e.run r
  match j.outcome with
  | .ok report => ⟨j.notes, .ok (.report report)⟩
  | .error f => match f.failure? with
    | some failure => ⟨j.notes ++ [.failed failure.kind failure.message], .ok (.failure failure)⟩
    | none => ⟨j.notes, .error f⟩

end Engine

end SkillAtlas
