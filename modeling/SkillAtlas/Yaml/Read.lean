import SkillAtlas.Fault
import SkillAtlas.Value.Linked
import SkillAtlas.Yaml.Node
import SkillAtlas.Yaml.Scalar

/-!
# The value of a document

Values are made level by level from the root: a fault of a node counts before all faults of nodes that
lie deeper, and on one level the faults count in the order of the document. A collection that cannot be
opened counts with its items. Keys `<<` put the entries of other mappings in front of a mapping's own.
-/

namespace SkillAtlas.Yaml

/-- What a node gives: its value, and the faults of making it. -/
inductive Part where
  | mk (tag : Tag) (text : Option String) (raw flat : Option (List (Part × Part))) (items : Option (List Part))
      (linked : Linked) (fault : Option Fault) (levels : List (List Fault))

namespace Part

def tag : Part → Tag
  | mk t .. => t

/-- The text that stands for the node where a single value is asked for. -/
def text : Part → Option String
  | mk _ s .. => s

/-- The entries of a mapping as they are written. -/
def raw : Part → Option (List (Part × Part))
  | mk _ _ r .. => r

/-- The entries of a mapping with those of other mappings in front; `none` if it asks for entries of what
is no mapping. -/
def flat : Part → Option (List (Part × Part))
  | mk _ _ _ f .. => f

/-- The items of a sequence. -/
def items : Part → Option (List Part)
  | mk _ _ _ _ i .. => i

/-- The value, with the numbers of its mappings as marks. It has no meaning when there is a fault. -/
def linked : Part → Linked
  | mk _ _ _ _ _ l .. => l

def value (p : Part) : Value :=
  p.linked.value

/-- The fault of reaching the node. -/
def fault : Part → Option Fault
  | mk _ _ _ _ _ _ f _ => f

/-- The faults of opening the node, and then of the nodes below it, level by level. -/
def levels : Part → List (List Fault)
  | mk _ _ _ _ _ _ _ l => l

/-- The faults of opening a collection and of what is in it. -/
def levelsOf (opening : List Fault) (children : List Part) : List (List Fault) :=
  Depth.above opening (children.map levels)

/-- A part that stands for a single value, or for a collection whose tag does not fit. -/
def single (tag : Tag) (text : Option String) (raw flat : Option (List (Part × Part)))
    (items : Option (List Part)) (r : Except Fault Value) : Part :=
  match r with
  | .ok v => mk tag text raw flat items (.plain v) none []
  | .error f => mk tag text raw flat items (.plain .null) (some f) []

def ofText (tag : Tag) (s : String) : Part :=
  match scalarOf? tag s with
  | some r => single tag (some s) none none none r
  | none => mk tag (some s) none none none (.plain .null) none [[.malformed]]

/-- The faults of reaching the key and the value of an entry; a collection is no key. -/
def entryFaults (e : Part × Part) : List Fault :=
  e.1.fault.toList ++ (if e.1.value.isKey then [] else [.malformed]) ++ e.2.fault.toList

/-- The one entry of a mapping with one entry. -/
def onlyEntry (p : Part) : Except Fault (Part × Part) :=
  match p.raw with
  | some [e] => .ok e
  | _ => .error .malformed

/-- The faults of opening an item of a sequence of single entries, unless the item is a mapping that the sequence
stands in. -/
def pairFaults (p : Part) : List Fault :=
  match p.onlyEntry, p.linked.again? with
  | .ok (k, v), _ => k.fault.toList ++ v.fault.toList
  | .error _, some _ => []
  | .error f, none => [f]

/-- A list with its number as mark if it holds itself. -/
def listOf (number : Nat) (items : List Linked) : Linked :=
  .list (if (Linked.itemMarks items).contains number then some number else none) items

/-- The list of single entries, or of one that stands inside itself. -/
def pairsOf (number : Nat) (items : List Part) (entries : List (Part × Part)) : Linked :=
  match items.filterMap (·.linked.again?) with
  | [] => listOf number (entries.map fun e => .tuple [e.1.linked, e.2.linked])
  | mark :: _ => .again mark true

/-- The part of a sequence with a number. -/
def ofItems (number : Nat) (tag : Tag) (items : List Part) : Part :=
  match tag with
  | .seq =>
    mk tag none none none (some items) (listOf number (items.map linked)) none
      (levelsOf (items.filterMap fault) items)
  | .omap | .pairs =>
    let entries := items.filterMap fun p => p.onlyEntry.toOption
    mk tag none none none (some items) (pairsOf number items entries) none
      (levelsOf (items.flatMap pairFaults) (entries.flatMap fun e => [e.1, e.2]))
  | .map | .set => mk tag none none none (some items) (.plain .null) none [[.malformed]]
  | _ => single tag none none none (some items) (.error .malformed)

/-- The entries that a value of the key `<<` stands for: those of one mapping, or of several, an earlier
one winning over a later one. -/
def mergedEntries (p : Part) : Option (List (Part × Part)) :=
  match p.raw, p.items with
  | some _, _ => p.flat
  | none, some items => do
    let each ← items.mapM fun q => if q.raw.isSome then q.flat else none
    return each.reverse.flatten
  | none, none => none

/-- The entries of a mapping with those of other mappings in front. -/
def flatten (entries : List (Part × Part)) : Option (List (Part × Part)) := do
  let merged ← (entries.filter fun e => e.1.tag == .merge).mapM fun e => e.2.mergedEntries
  let own := (entries.filter fun e => e.1.tag != .merge).map fun e =>
    if e.1.tag == .default then (ofText .str (e.1.text.getD "="), e.2) else e
  return merged.flatten ++ own

/-- The text of the entry whose key is `=`. -/
def defaultText (entries : List (Part × Part)) : Option String :=
  (entries.find? fun e => e.1.tag == .default).bind fun e => e.2.text

/-- A mapping with a number. It holds itself if a key `<<` asks for entries of a mapping that it stands in. -/
def mapOf (number : Nat) (entries : List (Part × Part)) (es : LinkedEntries) : Linked :=
  let merged := (entries.filter fun e => e.1.tag == .merge).flatMap fun e => e.2.linked.opens
  match merged.filter (· != number) with
  | [] => .map number (LinkedEntries.ofList es)
  | mark :: _ => .again mark false

/-- The part of a mapping with a number. -/
def ofEntries (number : Nat) (tag : Tag) (entries : List (Part × Part)) : Part :=
  let flat := flatten entries
  let text := defaultText entries
  let collection (make : LinkedEntries → Linked) : Part :=
    match flat with
    | none => mk tag text (some entries) none none (.plain .null) none [[.malformed]]
    | some es =>
      mk tag text (some entries) flat none (make (es.map fun e => (e.1.value, e.2.linked))) none
        (levelsOf (es.flatMap entryFaults) (es.flatMap fun e => [e.1, e.2]))
  match tag with
  | .map => collection (mapOf number entries)
  | .set => collection fun es => .plain (.set ((LinkedEntries.ofList es).map Prod.fst))
  | .seq | .omap | .pairs => mk tag text (some entries) flat none (.plain .null) none [[.malformed]]
  | _ => single tag text (some entries) flat none <|
    match text, tag with
    | none, _ => .error .malformed
    | some _, .timestamp => .error .wrongKind
    | some s, _ => (scalarOf? tag s).getD (.error .malformed)

/-- The part of a collection at a place inside it where it is not unrolled any more. -/
def ofAgain (number : Nat) (isList : Bool) : Part :=
  let entries := if isList then none else some []
  let items := if isList then some [] else none
  mk (if isList then .seq else .map) none entries entries items (.again number isList) none []

end Part

mutual
def Node.part : Node → Part
  | .scalar tag s => .ofText tag s
  | .sequence number tag items => .ofItems number tag (partsOf items)
  | .mapping number tag pairs => .ofEntries number tag (partsOfPairs pairs)
  | .again number isList => .ofAgain number isList

def partsOf : List Node → List Part
  | [] => []
  | n :: rest => n.part :: partsOf rest

def partsOfPairs : List (Node × Node) → List (Part × Part)
  | [] => []
  | (k, v) :: rest => (k.part, v.part) :: partsOfPairs rest
end

/-- The value of a node with marks on its mappings, or its first fault. -/
def Node.linked (n : Node) : Except Fault Linked :=
  match Depth.first? (n.part.fault.toList :: n.part.levels) with
  | none => .ok n.part.linked
  | some f => .error f

/-- The value of the only document of a text with marks on its mappings; nothing for a text without one. -/
def linkedFrom (source : Source) : Except Fault Linked := do
  match ← nodeOf? source with
  | none => return .plain .null
  | some n => n.linked

/-- The value of the only document of a text; nothing for a text without one. -/
def readFrom (source : Source) : Except Fault Value :=
  (linkedFrom source).map Linked.value

/-! ### Texts in one piece -/

def readLinked (s : String) : Except Fault Linked :=
  linkedFrom (.ofText s)

def read (s : String) : Except Fault Value :=
  readFrom (.ofText s)

end SkillAtlas.Yaml
