import SkillAtlas.Grouping.Proposal
import SkillAtlas.Report.Basic
import SkillAtlas.Report.Layout

/-!
# Template records

The form in which an accepted group is stored: a name with a category, a difficulty and a cooldown, and
skill lines, directly or in named sections. Records come from files, so their fields may be of any kind.
-/

namespace SkillAtlas

structure TemplateSection where
  name : Value
  lines : List Value
deriving Inhabited

/-- A stored template. -/
structure TemplateRecord where
  name : Value
  category : Value := .null
  difficulty : Value := .null
  cooldown : Value := .null
  skillLines : List Value := []
  sections : List TemplateSection := []
deriving Inhabited

namespace TemplateRecord

/-- The number of sections; a record without any counts as one. -/
def sectionCount (r : TemplateRecord) : Nat :=
  if r.sections.isEmpty then 1 else r.sections.length

/-- The record's own lines and then those of its sections. -/
def allLines (r : TemplateRecord) : List Value :=
  r.skillLines ++ r.sections.flatMap TemplateSection.lines

/-- The items of an iterable field; a field that is not there has none. -/
def itemsOf (es : Entries) (key : String) : Except Fault (List Value) :=
  match Entries.named? es key with
  | some v => v.elements
  | none => .ok []

def fieldOf (es : Entries) (key : String) : Value :=
  (Entries.named? es key).getD .null

/-- The section that a value gives, at a place from 0. -/
def sectionOf (index : Nat) (v : Value) : Except Fault TemplateSection :=
  match v with
  | .map es => do
    let name := (Entries.named? es "name").getD (.str s!"Section {index + 1}")
    return ⟨name, ← itemsOf es "lines"⟩
  | _ => .error .noMember

def sectionsFrom (index : Nat) : List Value → Except Fault (List TemplateSection)
  | [] => .ok []
  | v :: rest => do return (← sectionOf index v) :: (← sectionsFrom (index + 1) rest)

/-- The record that a value gives. It has to be a mapping with a name. -/
def ofValue (v : Value) : Except Fault TemplateRecord :=
  match v with
  | .map es =>
    match Entries.named? es "name" with
    | none => .error .missingKey
    | some name => do
      return {
        name
        category := fieldOf es "category"
        difficulty := fieldOf es "difficulty"
        cooldown := fieldOf es "cooldown"
        skillLines := ← itemsOf es "skill_lines"
        sections := ← sectionsFrom 0 (← itemsOf es "sections") }
  | _ => .error .wrongKind

def sectionValue (s : TemplateSection) : Value :=
  .record [("name", s.name), ("lines", .list s.lines)]

/-- The form of a cooldown, which is left out when there is none. -/
def cooldownFields : Value → List (String × Value)
  | .null => []
  | v => [("cooldown", v)]

def toValue (r : TemplateRecord) : Value :=
  .record ([
    ("name", r.name),
    ("category", r.category),
    ("difficulty", r.difficulty),
    ("skill_lines", .list r.skillLines),
    ("sections", .list (r.sections.map sectionValue))] ++ cooldownFields r.cooldown)

def ofUnit (u : AnalyzedUnit) : TemplateRecord where
  name := .str (Naming.readable u.name)
  category := .str u.category
  difficulty := .str u.tier.name
  cooldown := u.cooldown
  skillLines := u.lines.map .str

def harder (a b : Tier) : Tier :=
  if a.rank < b.rank then b else a

def hardest? : List AnalyzedUnit → Option Tier
  | [] => none
  | u :: rest => some (rest.foldl (fun t v => harder t v.tier) u.tier)

/-- The category of most units; of several, the one that comes first. -/
def commonCategory? (units : List AnalyzedUnit) : Option String :=
  (rankedNames (units.map AnalyzedUnit.category)).head?.map Ranked.name

def firstCooldown (units : List AnalyzedUnit) : Value :=
  ((units.map AnalyzedUnit.cooldown).find? fun c => match c with
    | .null => false
    | _ => true).getD .null

def orNull : Option String → Value
  | some s => .str s
  | none => .null

/-- The record of a group: one section for each member. -/
def ofGroup (p : GroupProposal) : TemplateRecord where
  name := .str p.suggestedName
  category := orNull (commonCategory? p.members)
  difficulty := orNull ((hardest? p.members).map Tier.name)
  cooldown := firstCooldown p.members
  sections := p.members.map fun u => ⟨.str u.name, u.lines.map .str⟩

/-- The records of groups and of the units that stand alone. -/
def ofGrouping (g : Grouping) : List TemplateRecord :=
  g.groups.map ofGroup ++ g.standalone.map ofUnit

end TemplateRecord

end SkillAtlas
