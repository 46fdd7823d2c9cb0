import SkillAtlas.Files.Store
import SkillAtlas.Journal

/-!
# What a command does

A command prints lines, reports notes, and may write files. It ends with an exit code, with help, with a
refusal of its arguments, or with a fault; what it has printed until then is kept.
-/

namespace SkillAtlas.Command

/-- How a command ends. -/
inductive Ending where
  | done (code : Nat)
  | help (code : Nat)
  | usage
  | fault (f : Fault)

/-- The files, and the lines that a command has printed. -/
structure Console where
  files : Files
  output : List String := []
  errors : List String := []

/-- A step of a command. -/
abbrev Action := ExceptT Ending (StateM Console)

namespace Action

variable {α : Type}

def print (line : String) : Action Unit :=
  modify fun c => { c with output := c.output ++ [line] }

/-- Prints a line on the channel for errors. -/
def warn (line : String) : Action Unit :=
  modify fun c => { c with errors := c.errors ++ [line] }

/-- Ends the command with a message. -/
def refuse (message : String) : Action α := do
  warn ("Error: " ++ message)
  throw (.done 1)

def files : Action Files :=
  return (← get).files

def changeFiles (f : Files → Files) : Action Unit :=
  modify fun c => { c with files := f c.files }

def ofResult (r : Except Fault α) : Action α :=
  match r with
  | .ok a => pure a
  | .error f => throw (.fault f)

/-- A computation with its notes, of which those of at least the given level are shown. -/
def ofJournal (least : Level) (j : Journal α) : Action (Except Fault α) := do
  for line in j.notes.filterMap (Note.line? least) do
    warn line
  return j.outcome

/-- A computation with its notes; a fault ends the command. -/
def run (least : Level) (j : Journal α) : Action α := do
  ofResult (← ofJournal least j)

/-- A computation with its notes; a fault in settings is told to the user. -/
def runSettings (least : Level) (j : Journal α) : Action α := do
  match ← ofJournal least j with
  | .error (.settings f) => refuse f.message
  | r => ofResult r

end Action

/-- A text with every line ended. -/
def ended (lines : List String) : String :=
  String.join (lines.map (· ++ "\n"))

end SkillAtlas.Command
