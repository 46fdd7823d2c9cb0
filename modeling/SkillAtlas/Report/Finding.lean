import SkillAtlas.Journal
import SkillAtlas.Settings
import SkillAtlas.Units.Basic

/-!
# Findings

What deserves attention in a set of units: calls of names that are not defined, units without lines, and
units that are very complex. Calls of units that are defined elsewhere miss nothing.
-/

namespace SkillAtlas

/-- A call of a name that is not defined. -/
structure MissingReference where
  called : String
  caller : String
  context : String
deriving DecidableEq, Repr, Inhabited

inductive Severity where
  | info
  | warning
deriving DecidableEq, Repr, Inhabited

def Severity.name : Severity → String
  | info => "info"
  | warning => "warning"

inductive Finding where
  | dangling (ref : MissingReference)
  | emptyUnit (name : String)
  | highComplexity (name : String) (lines : Nat) (score : Value)

/-- The label of a call's context for readers; the first that fits counts. -/
def describeContext (context : String) : String :=
  let small := Text.lower context
  let holds := Text.contains small
  if holds "cooldown" then "cooldown unit"
  else if holds "tick" then "tick callback unit"
  else if holds "start" then "start callback unit"
  else if holds "end" then "end callback unit"
  else if holds "hit" || small == "ohb" then "hit callback unit"
  else if holds "bounce" then "bounce callback unit"
  else if holds "damage" then "damage callback unit"
  else if holds "attack" then "attack callback unit"
  else if holds "interact" then "interact callback unit"
  else "unit"

namespace Finding

def severity : Finding → Severity
  | dangling _ => .warning
  | emptyUnit _ | highComplexity .. => .info

def kindName : Finding → String
  | dangling _ => "dangling-reference"
  | emptyUnit _ => "empty-unit"
  | highComplexity .. => "high-complexity"

def message : Finding → String
  | dangling ref =>
    s!"'{ref.caller}' references missing {describeContext ref.context} '{ref.called}'"
  | emptyUnit name => s!"'{name}' has no skill lines"
  | highComplexity name lines score =>
    s!"'{name}' is highly complex ({lines} lines, score {score.text})"

end Finding

/-- The calls of units whose names are not defined, in the order of units and calls. -/
def missingReferences (units : List AnalyzedUnit) : List MissingReference :=
  let known := AnalyzedUnit.names units
  units.flatMap fun u =>
    (u.calls.filter fun c => c.context != Call.outside && !known.contains c.name).map fun c =>
      ⟨c.name, u.name, c.context⟩

def emptyFindings (u : AnalyzedUnit) : List Finding :=
  if u.lineCount == 0 then [.emptyUnit u.name] else []

/-- The finding that a unit is very complex: an expert unit with more lines than the limit. Its message tells the
score. -/
def complexityFindings (s : DiagnosticsSettings) (u : AnalyzedUnit) : Except Fault (List Finding) := do
  if u.tier != .expert then return []
  if ← s.highComplexityMinLines.less (.int u.lineCount) then
    let _ ← u.score.told
    return [.highComplexity u.name u.lineCount u.score]
  return []

def unitFindings (s : DiagnosticsSettings) : List AnalyzedUnit → Except Fault (List Finding)
  | [] => .ok []
  | u :: rest => do
    return emptyFindings u ++ (← complexityFindings s u) ++ (← unitFindings s rest)

/-- All findings, missing references first. -/
def diagnose (s : DiagnosticsSettings) (units : List AnalyzedUnit) (missing : List MissingReference) :
    Journal (List Finding) := do
  let findings ← unitFindings s units
  if !missing.isEmpty then Journal.note (.dangling missing.length)
  return missing.map .dangling ++ findings

end SkillAtlas
