import SkillAtlas.Document.Entry
import SkillAtlas.Yaml.Read

/-!
# Documents read from text

A text is read as a mapping of named definitions, its kind is decided or given, and the entries of that
kind are selected. A document without entries is refused.
-/

namespace SkillAtlas

/-- The names by which users ask for a kind of document. -/
def ContextKind.ofName? (s : String) : Option ContextKind :=
  let name := Text.lower (Text.trim s)
  if name == "mob" then some .mob
  else if ["skillfile", "skill", "skill-file"].contains name then some .skillFile
  else none

/-- The kind that a user asks for by name; no name asks for none. -/
def ContextKind.requested (name : Option String) : Except Fault (Option ContextKind) :=
  match name with
  | none => .ok none
  | some s => match ofName? s with
    | some c => .ok (some c)
    | none => .error (.unknownContext s)

def ContextKind.ofValue : Value → Except Fault (Option ContextKind)
  | .null => requested none
  | .str s => requested (some s)
  | _ => .error .noMember

/-- A document after its entries have been selected. -/
structure Document where
  kind : ContextKind
  entries : List Entry
  totalLines : Nat

namespace Document

/-- The mapping of named definitions that a text holds. -/
def read (text : String) : Except Fault Entries :=
  match Yaml.read text with
  | .error .malformed => .error (.structural .unreadable)
  | .error f => .error f
  | .ok .null | .ok (.map []) => .error (.structural .empty)
  | .ok (.map es) => .ok es
  | .ok v => .error (.structural (.notMapping v.kindName))

/-- The kind of a document: the one that is asked for, else the one that its definitions show. -/
def kindFor (v : Vocabulary) (doc : Entries) : Option ContextKind → Journal ContextKind
  | some c => pure c
  | none => classify v doc

def select (v : Vocabulary) (text : String) (doc : Entries) (asked : Option ContextKind) :
    Journal Document := do
  let kind ← kindFor v doc asked
  let entries ← extract v kind doc
  if entries.isEmpty then Journal.fail (.noUnits kind)
  else return { kind, entries, totalLines := (Text.linesOf text).length }

def load (v : Vocabulary) (text : String) (asked : Option ContextKind) : Journal Document := do
  let doc ← Document.read text
  select v text doc asked

/-- Reads a document from a text, with the kind asked for by name. The text is read before the name. -/
def loadNamed (v : Vocabulary) (text : String) (name : Option String) : Journal Document := do
  let doc ← Document.read text
  let asked ← ContextKind.requested name
  select v text doc asked

end Document

end SkillAtlas
