import SkillAtlas.Document.SkillLine
import SkillAtlas.Journal
import SkillAtlas.Value.Mapping

/-!
# Entries of a document

A document maps names to definitions. The kind of a document is decided by counting which definitions
have fields of mobs and which have skill lines; an entry is a definition that qualifies for that kind.
-/

namespace SkillAtlas

/-- A definition that is to be analyzed. -/
structure Entry where
  name : String
  kind : ContextKind
  lines : List Value := []
  conditions : List Value := []
  targetConditions : List Value := []
  triggerConditions : List Value := []
  cooldown : Value := .null
  onCooldownSkill : Option String := none
  rawExtra : Entries := []
deriving Inhabited

/-- The lines that a value gives: a list gives its items, and a lone text one line. -/
def linesOf? : Value → Option (List Value)
  | .list items => some items
  | .str s => some [.str s]
  | _ => none

/-- The items of a list; any other value has none. -/
def listItems : Value → List Value
  | .list items => items
  | _ => []

def skillsKey : String :=
  "Skills"

/-- The keys of skill definitions that have no lines. -/
def skillOnlyKeys : List String :=
  ["Conditions", "Cooldown", "TriggerConditions", "TargetConditions"]

namespace Vocabulary

/-- The field of mobs that a key is; an empty spelling is no field. -/
def mobField? (v : Vocabulary) (key : Value) : Except Fault (Option String) := do
  return (← v.canonicalMobField? key).filter fun f => !f.isEmpty

/-- The definition has a field that only mobs have. Keys are looked at up to the first such field. -/
def definesMob (v : Vocabulary) : Entries → Except Fault Bool
  | [] => .ok false
  | e :: rest => do
    if (← v.mobField? e.1).isSome then return true else definesMob v rest

/-- The definition has a list of lines, and the first of them looks like a skill line. -/
def definesSkill (v : Vocabulary) (data : Entries) : Except Fault Bool := do
  match ← Entries.anyCase data skillsKey with
  | .list (first :: _) => return isSkillLine v first
  | _ => return false

/-- The fields of mobs with one more, unless the key is none or its field has a value already. -/
def addMobField (v : Vocabulary) (extra : Entries) (e : Value × Value) : Except Fault Entries := do
  match ← v.mobField? e.1 with
  | some f => return if (Entries.named? extra f).isSome then extra else extra ++ [(.str f, e.2)]
  | none => return extra

/-- The fields of mobs in a definition, each in its canonical spelling with its first value. -/
def mobFieldsOf (v : Vocabulary) (data : Entries) : Except Fault Entries :=
  data.foldlM v.addMobField []

end Vocabulary

/-- The definitions of a document that are mappings. -/
def definitions (doc : Entries) : List Entries :=
  doc.filterMap fun e => match e.2 with
    | .map data => some data
    | _ => none

/-- How many definitions have fields of mobs, and how many start with a skill line. -/
structure Tally where
  mobs : Nat := 0
  skills : Nat := 0
deriving DecidableEq, Repr

def Tally.count (v : Vocabulary) (t : Tally) (data : Entries) : Except Fault Tally := do
  let mob ← v.definesMob data
  let skill ← v.definesSkill data
  return { mobs := t.mobs + mob.toNat, skills := t.skills + skill.toNat }

def tally (v : Vocabulary) (doc : Entries) : Except Fault Tally :=
  (definitions doc).foldlM (Tally.count v) {}

/-- The kind of a document: one of mobs when more than twice as many definitions have fields of mobs as
start with a skill line. -/
def Tally.kind (t : Tally) : ContextKind :=
  if t.mobs > t.skills * 2 then .mob else .skillFile

def classify (v : Vocabulary) (doc : Entries) : Journal ContextKind := do
  let t ← tally v doc
  Journal.note (.classified t.kind t.mobs t.skills)
  return t.kind

/-- The entry of a mob, with what is reported of it. It keeps every field of mobs, and its lines as one more
field. -/
def mobEntry (v : Vocabulary) (name : String) (data : Entries) : Except Fault (Option Entry × Note) := do
  let extra ← v.mobFieldsOf data
  if extra.isEmpty then return (none, .noMobFields name)
  else
    let lines := (linesOf? (← Entries.anyCase data skillsKey)).getD []
    let entry := {
      name
      kind := .mob
      lines
      rawExtra := if lines.isEmpty then extra else Entries.put (.str skillsKey) (.list lines) extra }
    return (some entry, .mobAdded name lines.length)

/-- The text of a value, if it counts as one that is there. -/
def givenText? (v : Value) : Except Fault (Option String) :=
  if v.isTruthy then v.told.map some else .ok none

/-- The entry of a skill with lines. -/
def skillWith (name : String) (data : Entries) (lines : List Value) : Except Fault Entry := do
  let onCooldown ← Entries.anyCase data "OnCooldownSkill"
  return {
    name
    kind := .skillFile
    lines
    conditions := listItems (← Entries.anyCase data "Conditions")
    targetConditions := listItems (← Entries.anyCase data "TargetConditions")
    triggerConditions := listItems (← Entries.anyCase data "TriggerConditions")
    cooldown := ← Entries.anyCase data "Cooldown"
    onCooldownSkill := ← givenText? onCooldown }

/-- The entry of a skill, with what is reported of it. -/
def skillEntry (name : String) (data : Entries) : Except Fault (Option Entry × Note) := do
  match linesOf? (← Entries.anyCase data skillsKey) with
  | none | some [] =>
    if ← skillOnlyKeys.anyM (Entries.hasAnyCase data) then return (none, .noSkillLines name)
    else return (none, .noSkillsList name)
  | some lines => return (some (← skillWith name data lines), .skillAdded name lines.length)

def entryOf (v : Vocabulary) (context : ContextKind) (name : String) (data : Entries) :
    Except Fault (Option Entry × Note) :=
  match context with
  | .mob => mobEntry v name data
  | .skillFile => skillEntry name data

/-- The entry that a key of a document gives, with what is reported of the key. The name of an entry is the
text of its key. -/
def readEntry (v : Vocabulary) (context : ContextKind) (e : Value × Value) :
    Except Fault (Option Entry × Note) := do
  let name ← e.1.told
  match e.2 with
  | .null => return (none, .emptyEntry name)
  | .map data => entryOf v context name data
  | other => return (none, .noMapping name other.kindName)

def extractEach (v : Vocabulary) (context : ContextKind) : Entries → Journal (List Entry)
  | [] => return []
  | e :: rest => do
    let (entry, note) ← readEntry v context e
    Journal.note note
    return entry.toList ++ (← extractEach v context rest)

def extract (v : Vocabulary) (context : ContextKind) (doc : Entries) : Journal (List Entry) := do
  let entries ← extractEach v context doc
  Journal.note (.extracted entries.length context)
  return entries

end SkillAtlas
