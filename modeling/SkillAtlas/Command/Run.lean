import SkillAtlas.Analysis
import SkillAtlas.Command.Arguments
import SkillAtlas.Command.Console
import SkillAtlas.Report.Layout
import SkillAtlas.Template.Load
import SkillAtlas.Template.Similarity
import SkillAtlas.UserSettings
import SkillAtlas.Value.Json

/-!
# Carrying out commands

Each command reads its files and the settings of the user, and prints what it finds as text or as JSON.
Files that are not there, failed analyses and faults in settings end it with exit code 1.
-/

namespace SkillAtlas.Command

/-- What a command runs in. -/
structure Setup where
  configHome : Path
  /-- notes of this level and above are shown -/
  least : Level := .warning

namespace Setup

open SkillAtlas.Command.Action

def settingsFile (s : Setup) : Path :=
  UserSettings.fileIn s.configHome

/-- Makes the folder of the user's settings and gives the files. -/
def openSettings (s : Setup) : Action Files := do
  changeFiles fun f => f.makeFolder (UserSettings.folderIn s.configHome)
  files

def inForce (s : Setup) : Action (Settings × Vocabulary) := do
  let f ← s.openSettings
  runSettings s.least (UserSettings.inForce f s.settingsFile)

def readText (name : String) : Action String := do
  let f ← files
  let path := Path.ofText name
  if !f.isFile path then refuse ("File not found: " ++ name)
  ofResult (f.read path)

/-- The names in a list of names, one to a line; lines after `#` are remarks. -/
def listedNames (text : String) : List String :=
  ((Text.linesOf text).map Text.trim).filter fun n => !n.isEmpty && !n.startsWith "#"

def outsideNames (a : AnalysisArguments) : Action (List String) := do
  match a.outsideFile with
  | none | some "" => return a.outside
  | some name => return a.outside ++ listedNames (← readText name)

def printJson (v : Value) : Action Unit := do
  print (← ofResult (Json.write v))

def analysis (s : Setup) (a : AnalysisArguments) : Action Report := do
  let text ← readText a.file
  let (settings, vocabulary) ← s.inForce
  let outside ← outsideNames a
  let engine : Engine := { settings, vocabulary }
  match ← run s.least (engine.analyze { text, context := a.context, outside }) with
  | .report r => return r
  | .failure f =>
    if a.json then
      printJson (← ofResult (Outcome.failure f).toValue)
      throw (.done 1)
    else refuse f.message

def analyze (s : Setup) (a : AnalysisArguments) (top : Int) : Action Unit := do
  let r ← s.analysis a
  if a.json then printJson (← ofResult (Outcome.report r).toValue)
  else print ("\n".intercalate (← ofResult (reportLines r top)))

/-- The text of a grouping, without the empty line before it. -/
def groupingText (lines : List String) : String :=
  .ofList (("\n".intercalate lines).toList.dropWhile (· == '\n'))

def groups (s : Setup) (a : AnalysisArguments) (records : Bool) : Action Unit := do
  let r ← s.analysis a
  if records then
    printJson (.list ((TemplateRecord.ofGrouping r.grouping).map TemplateRecord.toValue))
  else if a.json then printJson (← ofResult r.grouping.toValue)
  else print (groupingText (← ofResult (groupingLines r.grouping)))

def records (s : Setup) (name : String) : Action (List TemplateRecord) := do
  runSettings s.least (TemplateRecord.load (← files) (Path.ofText name))

def similarity (s : Setup) (first second : String) (json : Bool) : Action Unit := do
  let (settings, _) ← s.inForce
  match ← s.records first, ← s.records second with
  | a :: _, b :: _ =>
    let likeness ← ofResult (settings.similarity.likeness a b)
    let found ← ofResult (differences a b)
    if json then
      printJson (.record [
        ("first", a.name), ("second", b.name),
        ("similarity", ← ofResult ((Value.float likeness).rounded 4)),
        ("differences", .strings found)])
    else
      print s!"{a.name.text} vs {b.name.text}: {Decimal.percent likeness} similar"
      for d in found do
        print s!"  - {d}"
  | _, _ => refuse "Both files must contain at least one template record"

def matchLines (candidate : TemplateRecord) (found : List DuplicateMatch) : List String :=
  if found.isEmpty then [s!"{candidate.name.text}: no likely duplicates"]
  else
    s!"{candidate.name.text}: {found.length} possible duplicate(s)" :: found.flatMap fun m =>
      s!"  {m.record.name.text} ({Decimal.percent m.likeness})" ::
        m.differences.map fun d => s!"    - {d}"

def matchesValue (candidate : TemplateRecord) (found : List DuplicateMatch) : Except Fault Value := do
  return .record [
    ("name", candidate.name), ("duplicates", .list (← found.mapM DuplicateMatch.toValue))]

/-- Prints the duplicates of all records of a file among those of other files. -/
def duplicates (s : Setup) (candidate : String) (existing : List String) (threshold limit : Value)
    (json : Bool) : Action Unit := do
  let (settings, _) ← s.inForce
  let candidates ← s.records candidate
  let known ← existing.mapM s.records
  let results ← candidates.mapM fun c => do
    return (c, ← run s.least (DuplicateMatch.find settings.similarity c known.flatten threshold limit))
  if json then
    printJson (.list (← ofResult (results.mapM fun r => matchesValue r.1 r.2)))
  else
    for line in results.flatMap fun r => matchLines r.1 r.2 do
      print line

def showSettings (s : Setup) : Action Unit := do
  let f ← s.openSettings
  let es ← run s.least (UserSettings.load f s.settingsFile)
  print s!"# {s.settingsFile.text}"
  if es.isEmpty then print "(no user configuration)" else printJson (.map es)

/-- Stores a setting. A key without parts is refused before the folder of the settings is made; settings that
cannot be written leave an empty file. -/
def setSetting (s : Setup) (key value : String) : Action Unit := do
  let _ ← runSettings s.least (UserSettings.partsOf key)
  let f ← s.openSettings
  let es ← runSettings s.least (UserSettings.withLinked f s.settingsFile key value)
  changeFiles fun f => UserSettings.saveLinked f s.settingsFile es
  let _ ← ofResult (UserSettings.storedText es)
  print s!"Set {key} in {s.settingsFile.text}"

def carryOut (s : Setup) : Command → Action Unit
  | .analyze a top => s.analyze a top
  | .groups a records => s.groups a records
  | .similarity first second json => s.similarity first second json
  | .duplicates candidate existing threshold limit json =>
    s.duplicates candidate existing threshold limit json
  | .showSettings => s.showSettings
  | .setSetting key value => s.setSetting key value

end Setup

/-- The least level of notes that are shown. -/
def levelFor (verbosity : Nat) : Level :=
  match verbosity with
  | 0 => .warning
  | 1 => .info
  | _ => .debug

/-- What carrying out a command line comes to: how it ends, the lines it printed, and the files then. -/
def respond (configHome : Path) (files : Files) (args : List String) : Ending × Console :=
  match parse args with
  | .error .help => (.help 0, { files })
  | .error .usage => (.usage, { files })
  | .ok i => match i.command with
    | none => (.help 1, { files })
    | some c =>
      let steps := Setup.carryOut ⟨configHome, levelFor i.verbosity⟩ c
      let (r, console) := StateT.run (ExceptT.run steps) { files }
      match r with
      | .ok () => (.done 0, console)
      | .error e => (e, console)

end SkillAtlas.Command
