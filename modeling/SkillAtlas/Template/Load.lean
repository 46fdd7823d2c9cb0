import SkillAtlas.Files.Stream
import SkillAtlas.Journal
import SkillAtlas.Template.Record
import SkillAtlas.Value.Shape
import SkillAtlas.Vocabulary.Read
import SkillAtlas.Yaml.Read

/-!
# Records read from files

A file holds one record, a list of records, or a mapping with a list of templates. Each record has to have
the shape of one.
-/

namespace SkillAtlas.TemplateRecord

/-- The shape of the value of a record. -/
def shape : Shape :=
  .record ["name"] [
    ("name", .text), ("category", .oneOf [.text, .nothing]), ("difficulty", .oneOf [.text, .nothing]),
    ("cooldown", .oneOf [.number, .text, .nothing]), ("skill_lines", .texts),
    ("sections", .listOf (.record [] [("name", .text), ("lines", .texts)]))]

/-- The values of records in the value of a file. -/
def recordValues? : Value → Option (List Value)
  | .map es => match Entries.named? es "templates" with
    | some (.list items) => some items
    | _ => some [.map es]
  | .list items => some items
  | _ => none

/-- The record that a value gives, if it has the shape of one. -/
def checked (path : String) (index : Nat) (v : Value) : Except Fault TemplateRecord :=
  match shape.violation? v with
  | .error f => .error f
  | .ok (some violation) => .error (.settings (.invalidRecord path index violation))
  | .ok none => ofValue v

/-- The records that values give, the first at a place from 0. -/
def allChecked (path : String) (index : Nat) : List Value → Except Fault (List TemplateRecord)
  | [] => .ok []
  | v :: rest => do return (← checked path index v) :: (← allChecked path (index + 1) rest)

def fileValue (files : Files) (path : Path) : Except Fault Value :=
  if !files.isThere path then .error (.settings (.noTemplateFile path.text))
  else do
    match Yaml.readFrom (← files.source path) with
    | .error .malformed => .error (.settings (.unreadableTemplate path.text))
    | r => r

def load (files : Files) (path : Path) : Journal (List TemplateRecord) := do
  let v ← fileValue files path
  match recordValues? v with
  | none => Journal.fail (.settings (.notTemplates path.text))
  | some values =>
    let records ← allChecked path.text 0 values
    Journal.note (.recordsLoaded records.length path.text)
    return records

end SkillAtlas.TemplateRecord

/-! ### The shapes of values from outside, each under a name and a title -/

namespace SkillAtlas

structure Schema where
  name : String
  title : String
  shape : Shape

namespace Schema

def all : List Schema :=
  [⟨"vocabulary", "Skill-line vocabulary", Vocabulary.shape⟩,
    ⟨"template_record", "Template record", TemplateRecord.shape⟩]

def find (name : String) : Except Fault Schema :=
  match all.find? fun s => s.name == name with
  | some s => .ok s
  | none => .error .noFile

end Schema

end SkillAtlas
