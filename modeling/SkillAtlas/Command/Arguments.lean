import SkillAtlas.Command.Grammar
import SkillAtlas.Decimal.Numeral
import SkillAtlas.Report.Page
import SkillAtlas.Value.Basic

/-!
# The commands

What can be asked for on the command line, and the grammar in which it is asked for.
-/

namespace SkillAtlas

structure AnalysisArguments where
  file : String
  context : Option String := none
  /-- names of units that are defined elsewhere -/
  outside : List String := []
  /-- a file with more such names -/
  outsideFile : Option String := none
  json : Bool := false
deriving DecidableEq, Repr, Inhabited

inductive Command where
  | analyze (arguments : AnalysisArguments) (top : Int)
  | groups (arguments : AnalysisArguments) (records : Bool)
  | similarity (first second : String) (json : Bool)
  | duplicates (candidate : String) (existing : List String) (threshold limit : Value) (json : Bool)
  | showSettings
  | setSetting (key value : String)

/-- A command line that has been read. -/
structure Invocation where
  verbosity : Nat := 0
  command : Option Command := none

namespace Command

def filesRead : Command → List String
  | .analyze a _ | .groups a _ => a.file :: a.outsideFile.toList
  | .similarity first second _ => [first, second]
  | .duplicates candidate existing .. => candidate :: existing
  | .showSettings | .setSetting .. => []

def showsProgress : Command → Bool
  | .analyze a _ | .groups a _ => !a.json
  | _ => false

def helpOption : OptionRule :=
  ⟨"help", ["-h", "--help"], .help⟩

def flag (name : String) : OptionRule :=
  ⟨name, ["--" ++ name], .nothing⟩

def isWhole (s : String) : Bool :=
  (Decimal.readInt? 10 s.toList).isSome

def isNumber (s : String) : Bool :=
  (Decimal.readFloat? s.toList).isSome

def analysisOptions : List OptionRule :=
  [helpOption, ⟨"context", ["--context"], .one fun s => s == "mob" || s == "skillFile"⟩,
    ⟨"external", ["--external", "-e"], .many⟩, ⟨"external-file", ["--external-file"], .one fun _ => true⟩,
    flag "json"]

def analysisGrammar (own : OptionRule) : Grammar :=
  .mk (analysisOptions ++ [own]) [⟨"file", false⟩] []

def similarityGrammar : Grammar :=
  .mk [helpOption, flag "json"] [⟨"first", false⟩, ⟨"second", false⟩] []

def duplicatesGrammar : Grammar :=
  .mk [helpOption, ⟨"threshold", ["--threshold"], .one isNumber⟩, ⟨"limit", ["--limit"], .one isWhole⟩,
    flag "json"] [⟨"candidate", false⟩, ⟨"existing", true⟩] []

def settingsGrammar : Grammar :=
  .mk [helpOption] [] [
    ("show", .mk [helpOption] [] []),
    ("set", .mk [helpOption] [⟨"key", false⟩, ⟨"value", false⟩] [])]

def grammar : Grammar :=
  .mk [helpOption, ⟨"verbose", ["--verbose", "-v"], .nothing⟩] [] [
    ("analyze", analysisGrammar ⟨"top", ["--top"], .one isWhole⟩),
    ("groups", analysisGrammar (flag "records")),
    ("similarity", similarityGrammar),
    ("duplicates", duplicatesGrammar),
    ("config", settingsGrammar)]

/-- The words of the last setting of a key. -/
def wordsFor (ss : List Setting) (key : String) : Option (List String) :=
  (ss.reverse.find? fun s => s.key == key).map Setting.words

/-- The word of the last setting of a key. -/
def wordFor (ss : List Setting) (key : String) : Option String :=
  (wordsFor ss key).bind List.head?

def isSet (ss : List Setting) (key : String) : Bool :=
  (wordsFor ss key).isSome

def placed (ss : List Setting) (key : String) : String :=
  (wordFor ss key).getD ""

def analysisArguments (ss : List Setting) : AnalysisArguments where
  file := placed ss "file"
  context := wordFor ss "context"
  outside := (wordsFor ss "external").getD []
  outsideFile := wordFor ss "external-file"
  json := isSet ss "json"

/-- The number that a word stands for, or null for no word. -/
def numberFor (read : List Char → Option Value) (word : Option String) : Value :=
  (word.bind fun s => read s.toList).getD .null

def settingsCommand (ss : List Setting) (name : Option String) : Command :=
  if name == some "set" then .setSetting (placed ss "key") (placed ss "value") else .showSettings

def ofSettings (ss : List Setting) : List String → Option Command
  | [] => none
  | name :: rest =>
    match name with
    | "analyze" =>
      let top := (wordFor ss "top").bind fun s => Decimal.readInt? 10 s.toList
      some (.analyze (analysisArguments ss) (top.getD usualTop))
    | "groups" => some (.groups (analysisArguments ss) (isSet ss "records"))
    | "similarity" => some (.similarity (placed ss "first") (placed ss "second") (isSet ss "json"))
    | "duplicates" =>
      some (.duplicates (placed ss "candidate") ((wordsFor ss "existing").getD [])
        (numberFor (fun cs => (Decimal.readFloat? cs).map .float) (wordFor ss "threshold"))
        (numberFor (fun cs => (Decimal.readInt? 10 cs).map .int) (wordFor ss "limit"))
        (isSet ss "json"))
    | "config" => some (settingsCommand ss rest.head?)
    | _ => none

def parse (args : List String) : Except Refusal Invocation := do
  let ss ← grammar.settings args
  let names := (ss.filter fun s => s.key == commandKey).flatMap Setting.words
  return {
    verbosity := ss.countP fun s => s.key == "verbose"
    command := ofSettings ss names }

end Command

end SkillAtlas

/-! ### Help -/

namespace SkillAtlas.Command

def usageLine : String :=
  "usage: [-h] [-v] analyze | groups | similarity | duplicates | config ..."

def helpLines : List String :=
  [
    usageLine,
    "",
    "Structural analysis of skill and mob files.",
    "",
    "  analyze FILE [--top N]      analyze a skill or mob file",
    "  groups FILE [--records]     show the grouping proposals for a file",
    "    --context KIND            take the file as one of mobs (mob) or skills (skillFile)",
    "    -e, --external NAME ...   units that are defined in other files",
    "    --external-file FILE      a file that lists such units, one to a line",
    "    --json                    print JSON",
    "  similarity FILE FILE        compare the first template records of two files",
    "    --json                    print JSON",
    "  duplicates FILE FILE ...    find records like those of the first file",
    "    --threshold X             the least likeness, of which duplicates have more",
    "    --limit N                 the most matches for a record",
    "    --json                    print JSON",
    "  config [show]               print the stored settings",
    "  config set KEY VALUE        store a setting under a key with points",
    "",
    "  -h, --help                  show this help",
    "  -v, --verbose               report progress; twice, report every decision"]

end SkillAtlas.Command
