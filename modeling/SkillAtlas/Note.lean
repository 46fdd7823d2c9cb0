import SkillAtlas.Fault
import SkillAtlas.Value.Arithmetic

/-!
# Notes on the way

What an analysis reports while it runs. A note says what happened; its level, the part of the library
that reports it, and its wording are functions of the note.
-/

namespace SkillAtlas

/-- How much a reader has to ask for to see a note. -/
inductive Level where
  | debug
  | info
  | warning
deriving DecidableEq, Repr

def Level.name : Level → String
  | debug => "DEBUG"
  | info => "INFO"
  | warning => "WARNING"

/-- Higher ranks are shown to more readers. -/
def Level.rank : Level → Nat
  | debug => 0
  | info => 1
  | warning => 2

/-- The stages of an analysis. -/
inductive Stage where
  | load
  | analyze
  | graph
  | group
  | diagnose
deriving DecidableEq, Repr

/-- The stages in the order in which they are run. -/
def Stage.all : List Stage :=
  [.load, .analyze, .graph, .group, .diagnose]

def Stage.name : Stage → String
  | load => "load"
  | analyze => "analyze"
  | graph => "graph"
  | group => "group"
  | diagnose => "diagnose"

/-- The place of a stage among all stages, from 1. -/
def Stage.index (s : Stage) : Nat :=
  Stage.all.idxOf s + 1

inductive Search where
  | lifecycle
  | variants
  | documentPrefix
  | callChains
  | residualNaming
deriving DecidableEq, Repr

def Search.name : Search → String
  | lifecycle => "Lifecycle"
  | variants => "Variant"
  | documentPrefix => "Document prefix"
  | callChains => "Call chain"
  | residualNaming => "Residual naming"

/-- Something that is reported on the way. -/
inductive Note where
  | begun (stage : Stage)
  | classified (context : ContextKind) (mobs skills : Nat)
  | emptyEntry (name : String)
  | noMapping (name kind : String)
  | noMobFields (name : String)
  | mobAdded (name : String) (lines : Nat)
  | noSkillLines (name : String)
  | noSkillsList (name : String)
  | skillAdded (name : String) (lines : Nat)
  | extracted (count : Nat) (context : ContextKind)
  | loaded (count : Nat) (context : ContextKind) (lines : Nat)
  | unitAnalyzed (name : String) (lines : Int) (actions calls : Nat) (tier category : String)
  | unitsAnalyzed (count : Nat)
  | graphBuilt (nodes edges : Nat)
  | partnersClaimed (name : String)
  | baseMissing (name : String)
  | shortStart (start : String)
  | namespaceStart (start : String)
  | searched (search : Search) (groups : Nat)
  | grouped (groups standalone : Nat)
  | dangling (count : Nat)
  | failed (kind message : String)
  | overridden (keys : List Value)
  | vocabularyLoaded (path : String) (actions selectors events : Nat)
  | recordsLoaded (count : Nat) (path : String)
  | duplicatesFound (count : Nat) (name : Value) (threshold : Value)
  | settingsIgnored (path reason : String)

namespace Note

def level? : Note → Option Level
  | begun _ => none
  | loaded .. | unitsAnalyzed _ | graphBuilt .. | grouped .. => some .info
  | dangling _ | failed .. | settingsIgnored .. => some .warning
  | _ => some .debug

/-- The part of the library that a note comes from. -/
def source : Note → String
  | graphBuilt .. => "mythic_analyzer.analysis.graph"
  | overridden _ | vocabularyLoaded .. => "mythic_analyzer.analysis.vocabulary"
  | recordsLoaded .. => "mythic_analyzer.templates.records"
  | duplicatesFound .. => "mythic_analyzer.templates.similarity"
  | settingsIgnored .. => "mythic_analyzer.config"
  | _ => "mythic_analyzer.analysis.pipeline"

open Text (quoted)

def text : Note → String
  | begun stage => stage.name
  | classified context mobs skills =>
    s!"Classified document as {context.name} (mob entries={mobs}, skill entries={skills})"
  | emptyEntry name => "Skipping " ++ quoted name ++ ": empty entry"
  | noMapping name kind => "Skipping " ++ quoted name ++ s!": not a mapping ({kind})"
  | noMobFields name => "Skipping " ++ quoted name ++ ": no mob fields"
  | mobAdded name lines => "Added mob " ++ quoted name ++ s!" with {lines} skill lines"
  | noSkillLines name => "Skipping " ++ quoted name ++ ": skill-like entry without skill lines"
  | noSkillsList name => "Skipping " ++ quoted name ++ ": no Skills list"
  | skillAdded name lines => "Added skill " ++ quoted name ++ s!" with {lines} lines"
  | extracted count context => s!"Extracted {count} {context.name} entries"
  | loaded count context lines => s!"Loaded {count} {context.name} entries ({lines} lines)"
  | unitAnalyzed name lines actions calls tier category =>
    "Unit " ++ quoted name ++
      s!": {lines} lines, {actions} actions, {calls} calls, tier={tier}, category={category}"
  | unitsAnalyzed count => s!"Analyzed {count} units"
  | graphBuilt nodes edges => s!"Built dependency graph: {nodes} nodes, {edges} edges"
  | partnersClaimed name => "Lifecycle candidate " ++ quoted name ++ " has no unclaimed partners"
  | baseMissing name => "Variant " ++ quoted name ++ " has no base mob"
  | shortStart start => "Document prefix " ++ quoted start ++ " too short"
  | namespaceStart start => "Document prefix " ++ quoted start ++ " looks like a namespace"
  | searched search groups => s!"{search.name} detector: {groups} group(s)"
  | grouped groups standalone => s!"Grouping: {groups} group(s), {standalone} standalone unit(s)"
  | dangling count => s!"{count} dangling reference(s)"
  | failed kind message => s!"Analysis failed ({kind}): {message}"
  | overridden keys => "Applied vocabulary overrides: " ++ (Value.list keys).shown
  | vocabularyLoaded path actions selectors events =>
    s!"Loaded vocabulary from {path}: {actions} actions, {selectors} selectors, {events} events"
  | recordsLoaded count path => s!"Loaded {count} template record(s) from {path}"
  | duplicatesFound count name threshold =>
    s!"{count} possible duplicate(s) of " ++ name.shown ++ " above " ++
      (threshold.twoPlaces.toOption.getD "")
  | settingsIgnored path reason => s!"Ignoring unreadable config {path}: {reason}"

/-- The values that a note shows can be told. -/
def isTold : Note → Bool
  | overridden keys => Value.areTold keys
  | duplicatesFound _ name _ => name.isTold
  | _ => true

/-- The line in which a note is shown, if it is a message of at least the given level. A note that cannot be
told is passed over. -/
def line? (least : Level) (n : Note) : Option String := do
  let level ← n.level?
  if level.rank < least.rank || !n.isTold then none
  else some s!"{level.name} {n.source}: {n.text}"

end Note

end SkillAtlas
