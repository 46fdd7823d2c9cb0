import SkillAtlas.Files.Stream
import SkillAtlas.Settings
import SkillAtlas.Vocabulary.Packaged
import SkillAtlas.Yaml.Read
import SkillAtlas.Yaml.Write

/-!
# The settings of a user

A user keeps settings in one file: a mapping in which `analyzer` overrides the settings of analyses and
`vocabulary` is laid over the packaged vocabulary. Keys with points lead into nested mappings.
-/

namespace SkillAtlas.UserSettings

/-- The folder of the settings in a folder of configurations. -/
def folderIn (configHome : Path) : Path :=
  configHome.join ["mythic-analyzer"]

def fileIn (configHome : Path) : Path :=
  (folderIn configHome).join ["config.yaml"]

/-- What is reported of a path that is a folder in place of a file. -/
def folderReason (path : Path) : String :=
  "[Errno 21] Is a directory: " ++ Text.quoted path.text

/-- The entries of a value that was read; a value that is no mapping has none. -/
def entriesOf (path : Path) (r : Except Fault Linked) : Journal LinkedEntries :=
  match r with
  | .ok l => return (l.settled 0).entries
  | .error .malformed => do
    Journal.note (.settingsIgnored path.text malformedNote)
    return []
  | .error f => Journal.fail f

/-- The stored settings with the mappings that they share. A file that is not there or cannot be read counts
as empty. -/
def loadLinked (files : Files) (path : Path) : Journal LinkedEntries :=
  if !files.isThere path then return []
  else if !files.isFile path then do
    Journal.note (.settingsIgnored path.text (folderReason path))
    return []
  else do
    let source ← files.source path
    entriesOf path (Yaml.linkedFrom source)

def load (files : Files) (path : Path) : Journal Entries := do
  return Linked.entryValues (← loadLinked files path)

/-- The text in which settings are stored. -/
def storedText (es : LinkedEntries) : Except Fault String :=
  Yaml.writeLinked (.map none es)

/-- Stores settings with the mappings that they share. The file is emptied before they are written, and stays
empty if they cannot be. -/
def saveLinked (files : Files) (path : Path) (es : LinkedEntries) : Files :=
  files.write path ((storedText es).toOption.getD "")

/-- The parts of a key with points; empty parts are left out. -/
def keyParts (key : String) : List String :=
  ((Text.partsBy (· == '.') key.toList).map String.ofList).filter fun part => part != ""

/-- The parts of a key, of which there has to be one. -/
def partsOf (key : String) : Except Fault (List String) :=
  match keyParts key with
  | [] => .error (.settings .emptyKey)
  | parts => .ok parts

/-- The entries with a value under nested keys. What stands in the way and is no mapping is replaced. -/
def setAt (v : Value) : List String → Entries → Entries
  | [], es => es
  | [k], es => Entries.put (.str k) v es
  | k :: rest, es =>
    let inner := match Entries.named? es k with
      | some (.map inner) => inner
      | _ => []
    Entries.put (.str k) (.map (setAt v rest inner)) es

/-- The entries with a value under nested keys, as `setAt`, in one place. -/
def setLinkedAt (l : Linked) : List String → LinkedEntries → LinkedEntries
  | [], es => es
  | [k], es => LinkedEntries.put (.str k) l es
  | k :: rest, es =>
    let (mark, inner) := ((LinkedEntries.named? es k).bind Linked.mapping?).getD (none, [])
    LinkedEntries.put (.str k) (.map mark (setLinkedAt l rest inner)) es

/-- The mark of the innermost shared mapping that nested keys lead through, and the keys that are left there. -/
def shared? : List String → LinkedEntries → Option (Nat × List String)
  | [], _ | [_], _ => none
  | k :: rest, es =>
    ((LinkedEntries.named? es k).bind Linked.mapping?).bind fun (mark, inner) =>
      (shared? rest inner).or (mark.map fun n => (n, rest))

/-- The entries with a value under nested keys, which is then seen in all places of a shared mapping. -/
def setLinked (l : Linked) (parts : List String) (es : LinkedEntries) : LinkedEntries :=
  match shared? parts es with
  | none => setLinkedAt l parts es
  | some (n, rest) => Linked.amendEntries n (setLinkedAt l rest) es

/-- The value under nested keys. -/
def getAt? : List String → Value → Option Value
  | [], v => some v
  | k :: rest, v => match v with
    | .map es => (Entries.named? es k).bind (getAt? rest)
    | _ => none

/-- The value that a user writes: that of a document, or the text itself if it is none. -/
def linkedOf (text : String) : Except Fault Linked :=
  match Yaml.readLinked text with
  | .error .malformed => .ok (.plain (.str text))
  | r => r.map (Linked.settled 1)

def valueOf (text : String) : Except Fault Value :=
  (linkedOf text).map Linked.value

/-- The stored settings with a value under a key, with the mappings that they share. -/
def withLinked (files : Files) (path : Path) (key text : String) : Journal LinkedEntries := do
  let parts ← partsOf key
  let es ← loadLinked files path
  let l ← linkedOf text
  return setLinked l parts es

/-- Stores a value under a key. -/
def set (files : Files) (path : Path) (key text : String) : Journal Files := do
  let es ← withLinked files path key text
  let _ ← storedText es
  return saveLinked files path es

/-- A section of the stored settings, which has to be a mapping if it is there. -/
def sectionOf (es : Entries) (name : String) : Except Fault Value :=
  match Entries.named? es name with
  | none | some .null => .ok .null
  | some (.map given) => .ok (.map given)
  | some _ => .error (.settings (.sectionNotMapping name))

/-- The settings of analyses and the vocabulary that stored settings give. -/
def apply (es : Entries) : Journal (Settings × Vocabulary) := do
  let analyzer ← sectionOf es "analyzer"
  let overrides ← sectionOf es "vocabulary"
  let vocabulary ← Vocabulary.withOverrides overrides
  return (← Settings.ofValue analyzer, vocabulary)

/-- The settings of analyses and the vocabulary of a user. -/
def inForce (files : Files) (path : Path) : Journal (Settings × Vocabulary) := do
  apply (← load files path)

end SkillAtlas.UserSettings
