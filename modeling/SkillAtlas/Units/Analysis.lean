import SkillAtlas.Document.Entry
import SkillAtlas.Line.Parts
import SkillAtlas.Units.Score

/-!
# From entries to units

The parts of all lines of an entry are collected, the entry's own conditions and cooldown are added, and
the unit is scored by what was found.
-/

namespace SkillAtlas

structure Analyzer where
  vocabulary : Vocabulary
  complexity : ComplexitySettings := {}
  /-- the names of units that are defined elsewhere -/
  outside : List String := []

def textLines (lines : List Value) : List String :=
  lines.filterMap fun v => match v with
    | .str s => some s
    | _ => none

/-- The first word of every condition that is a text. -/
def conditionNames (conditions : List Value) : List String :=
  (textLines conditions).filterMap fun c =>
    (Line.firstWord? (Text.trimChars c.toList)).map String.ofList

/-- The first words of the conditions that a value holds; an empty value holds none. -/
def conditionNamesOf (v : Value) : Except Fault (List String) :=
  if v.isTruthy then v.elements.map conditionNames else .ok []

/-- The context of the call that a unit makes when it is still cooling down. -/
def cooldownContext : String :=
  "oncooldownskill"

/-- The calls that an entry makes besides those in its lines. -/
def Entry.ownCalls (e : Entry) : List Call :=
  match e.onCooldownSkill with
  | some name => if name.isEmpty then [] else [⟨name, cooldownContext⟩]
  | none => []

/-- The attributes that an entry has besides those in its lines. -/
def Entry.ownAttributes (e : Entry) : Except Fault (List (String × String)) :=
  match e.cooldown with
  | .null => .ok []
  | v => do return [("cooldown", ← v.told)]

/-- The parts that an entry has besides those in its lines. -/
def Entry.ownParts (e : Entry) (attributes : List (String × String)) : LineParts where
  guards := conditionNames e.conditions ++ conditionNames e.targetConditions ++
    conditionNames e.triggerConditions
  attributes
  calls := e.ownCalls

namespace Analyzer

/-- The parts of an entry that has attributes of its own. -/
def partsOf (a : Analyzer) (e : Entry) (attributes : List (String × String)) : LineParts :=
  Line.partsOfAll a.vocabulary a.outside (textLines e.lines) ++ e.ownParts attributes

def unitOf (a : Analyzer) (e : Entry) : Except Fault AnalyzedUnit := do
  let p := a.partsOf e (← e.ownAttributes)
  let actions := p.actions.eraseDups
  let guards := p.guards.eraseDups
  let lifecycle := p.lifecycle.eraseDups
  let score ← complexityScore a.vocabulary a.complexity e.lines.length actions p.calls.length
    guards.length lifecycle.length
  let tier ← tierOf a.complexity score
  return {
    name := e.name
    kind := e.kind
    lineCount := e.lines.length
    lines := textLines e.lines
    actions
    targets := p.targets.eraseDups
    guards
    lifecycle
    attributes := groupedByKey p.attributes
    calls := p.calls
    tier
    score
    category := suggestCategory a.vocabulary e.name actions
    rawExtra := e.rawExtra
    cooldown := e.cooldown }

def unitNote (u : AnalyzedUnit) : Note :=
  .unitAnalyzed u.name u.lineCount u.actions.length u.calls.length u.tier.name u.category

def analyze (a : Analyzer) (e : Entry) : Journal AnalyzedUnit := do
  let u ← a.unitOf e
  Journal.note (unitNote u)
  return u

def analyzeEach (a : Analyzer) : List Entry → Journal (List AnalyzedUnit)
  | [] => return []
  | e :: rest => do
    let u ← a.analyze e
    return u :: (← a.analyzeEach rest)

def analyzeAll (a : Analyzer) (entries : List Entry) : Journal (List AnalyzedUnit) := do
  let units ← a.analyzeEach entries
  Journal.note (.unitsAnalyzed units.length)
  return units

end Analyzer

end SkillAtlas
