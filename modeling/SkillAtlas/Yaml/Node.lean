import SkillAtlas.Yaml.Tag
import SkillAtlas.Yaml.TokenStream

/-!
# The nodes of a document

A node is a text, a sequence or a mapping, with its tag. An alias is replaced by the node that it names. Inside
the collection that it names it stands for that collection again, which is then unrolled some times. Collections are
numbered, so that those that aliases stand for are known to be one.
-/

namespace SkillAtlas.Yaml

inductive Node where
  | scalar (tag : Tag) (text : String)
  | sequence (number : Nat) (tag : Tag) (items : List Node)
  | mapping (number : Nat) (tag : Tag) (pairs : List (Node × Node))
  /-- the collection with the number, at a place inside it -/
  | again (number : Nat) (isList : Bool)

/-- The node of an item that is not there. -/
def Node.absent : Node :=
  .scalar .null ""

/-- What has been read of a document, and what is still to be read. -/
structure Reading where
  tokens : List Token
  anchors : List (String × Node)
  handles : List (String × String)
  /-- how many collections have been begun -/
  collections : Nat := 0

/-- A step of reading nodes, which may ask for a token behind those that can be had. -/
abbrev Reader := StateT Reading Scan

namespace Reader

def peek : Reader Token := do
  match (← get).tokens with
  | t :: _ => return t
  | [] =>
    Scan.beyond
    return .streamEnd

def skip : Reader Unit :=
  modify fun r => { r with tokens := r.tokens.tail }

/-- The text is no document. -/
def fail {α : Type} : Reader α :=
  throw .malformed

/-- Passes over the next token if it is the given one, told by `p`. -/
def skipIf (p : Token → Bool) : Reader Bool := do
  if p (← peek) then
    skip
    return true
  else return false

/-- The number of a collection that begins here. -/
def number : Reader Nat := do
  let n := (← get).collections
  modify fun r => { r with collections := n + 1 }
  return n

/-- Gives a name to a node; no name is given twice. -/
def name (anchor : Option String) (n : Node) : Reader Unit := do
  match anchor with
  | none => return ()
  | some a =>
    if (← get).anchors.any (·.1 == a) then fail
    else modify fun r => { r with anchors := (a, n) :: r.anchors }

/-- Gives the node of a name its final form. -/
def complete (anchor : Option String) (n : Node) : Reader Unit :=
  match anchor with
  | none => return ()
  | some a => modify fun r => { r with anchors := r.anchors.map fun p => if p.1 == a then (a, n) else p }

/-- The full name of a tag. -/
def tagName (handle : Option String) (suffix : String) : Reader String := do
  match handle with
  | none => return suffix
  | some h => match (← get).handles.lookup h with
    | some leading => return leading ++ suffix
    | none => fail

def anchor? : Reader (Option String) := do
  match ← peek with
  | .anchor a => skip; return some a
  | _ => return none

def tag? : Reader (Option (Option String × String)) := do
  match ← peek with
  | .tag handle suffix => skip; return some (handle, suffix)
  | _ => return none

/-- The full name of a tag that is given. -/
def tagName? (tag : Option (Option String × String)) : Reader (Option String) := do
  match tag with
  | none => return none
  | some (handle, suffix) => return some (← tagName handle suffix)

/-- The anchor and the tag in front of a node, in either order. -/
def properties : Reader (Option String × Option String) := do
  match ← peek with
  | .anchor _ => do
    let a ← anchor?
    return (a, ← tagName? (← tag?))
  | _ => do
    let t ← tag?
    let a ← anchor?
    return (a, ← tagName? t)

end Reader

/-- The tag of a text. The tag `!` asks for the tag that its form gives. -/
def scalarTag (given : Option String) (text : String) (plain : Bool) : Tag :=
  match given with
  | none => if plain then .ofPlain text else .str
  | some "!" => .ofPlain text
  | some name => .ofName name

/-- The tag of a collection. -/
def collectionTag (given : Option String) (usual : Tag) : Tag :=
  match given with
  | none | some "!" => usual
  | some name => .ofName name

/-- The token ends or goes on with a block mapping. -/
def Token.endsPair : Token → Bool
  | key | value | blockEnd => true
  | _ => false

/-- The token ends an item of a block sequence. -/
def Token.endsItem : Token → Bool
  | blockEntry | blockEnd => true
  | _ => false

/-- The token ends an item of a flow sequence. -/
def Token.endsFlowItem : Token → Bool
  | value | flowEntry | flowSequenceEnd => true
  | _ => false

/-- The token ends a part of an entry of a flow mapping. -/
def Token.endsFlowPair : Token → Bool
  | value | flowEntry | flowMappingEnd => true
  | _ => false

def Token.isValue : Token → Bool
  | value => true
  | _ => false

def Token.isKey : Token → Bool
  | key => true
  | _ => false

open Reader

mutual
/-- Reads a node. In blocks it may be a block collection, and where a key or a colon stands in front,
a sequence without an indentation of its own. -/
def readNode : Nat → (block indentless : Bool) → Reader Node
  | 0, _, _ => fail
  | fuel + 1, block, indentless => do
    if let .alias a ← peek then
      skip
      match (← get).anchors.lookup a with
      | some n => return n
      | none => fail
    else
      let (anchor, tag) ← properties
      let collection (isList : Bool) (whole : Nat → Tag → Reader Node) : Reader Node := do
        let i ← number
        name anchor (.again i isList)
        let n ← whole i (collectionTag tag (if isList then .seq else .map))
        complete anchor n
        return n
      let sequence (items : Reader (List Node)) :=
        collection true fun i t => do return .sequence i t (← items)
      let mapping (pairs : Reader (List (Node × Node))) :=
        collection false fun i t => do return .mapping i t (← pairs)
      match ← peek, block, indentless with
      | .blockEntry, _, true => sequence (readIndentless fuel)
      | .scalar text plain, _, _ =>
        skip
        let n := Node.scalar (scalarTag tag text plain) text
        name anchor n
        return n
      | .flowSequenceStart, _, _ => skip; sequence (readFlowItems fuel true)
      | .flowMappingStart, _, _ => skip; mapping (readFlowPairs fuel true)
      | .blockSequenceStart, true, _ => skip; sequence (readItems fuel)
      | .blockMappingStart, true, _ => skip; mapping (readPairs fuel)
      | _, _, _ =>
        if anchor.isSome || tag.isSome then
          let n := Node.scalar (scalarTag tag "" true) ""
          name anchor n
          return n
        else fail

/-- Reads the items of a block sequence. -/
def readItems : Nat → Reader (List Node)
  | 0 => fail
  | fuel + 1 => do
    match ← peek with
    | .blockEntry =>
      skip
      let n ← if (← peek).endsItem then pure .absent else readNode fuel true false
      return n :: (← readItems fuel)
    | .blockEnd => skip; return []
    | _ => fail

/-- Reads the items of a sequence without an indentation of its own. -/
def readIndentless : Nat → Reader (List Node)
  | 0 => fail
  | fuel + 1 => do
    match ← peek with
    | .blockEntry =>
      skip
      let t ← peek
      let n ← if t.endsItem || t.endsPair then pure .absent else readNode fuel true false
      return n :: (← readIndentless fuel)
    | _ => return []

/-- Reads the entries of a block mapping. -/
def readPairs : Nat → Reader (List (Node × Node))
  | 0 => fail
  | fuel + 1 => do
    match ← peek with
    | .key =>
      skip
      let k ← if (← peek).endsPair then pure .absent else readNode fuel true true
      let v ← readPairValue fuel
      return (k, v) :: (← readPairs fuel)
    | .blockEnd => skip; return []
    | _ => fail

/-- Reads the value of an entry of a block mapping. -/
def readPairValue : Nat → Reader Node
  | 0 => fail
  | fuel + 1 => do
    if ← skipIf Token.isValue then
      if (← peek).endsPair then return .absent else readNode fuel true true
    else return .absent

/-- Reads the items of a flow sequence; an entry with a colon is a mapping of its own. -/
def readFlowItems : Nat → (first : Bool) → Reader (List Node)
  | 0, _ => fail
  | fuel + 1, first => do
    match ← peek with
    | .flowSequenceEnd => skip; return []
    | t =>
      if !first then
        match t with
        | .flowEntry => skip
        | _ => fail
      match ← peek with
      | .key =>
        skip
        let i ← number
        let k ← if (← peek).endsFlowItem then pure .absent else readNode fuel false false
        let v ← readFlowValue fuel Token.endsFlowItem
        return .mapping i .map [(k, v)] :: (← readFlowItems fuel false)
      | .flowSequenceEnd => skip; return []
      | _ =>
        let n ← readNode fuel false false
        return n :: (← readFlowItems fuel false)

/-- Reads the value of an entry of a flow collection, which may be missing. -/
def readFlowValue : Nat → (Token → Bool) → Reader Node
  | 0, _ => fail
  | fuel + 1, ends => do
    if ← skipIf Token.isValue then
      let t ← peek
      if ends t && !t.isValue then return .absent else readNode fuel false false
    else return .absent

/-- Reads the entries of a flow mapping; a key may stand alone. -/
def readFlowPairs : Nat → (first : Bool) → Reader (List (Node × Node))
  | 0, _ => fail
  | fuel + 1, first => do
    match ← peek with
    | .flowMappingEnd => skip; return []
    | t =>
      if !first then
        match t with
        | .flowEntry => skip
        | _ => fail
      match ← peek with
      | .key =>
        skip
        let k ← if (← peek).endsFlowPair then pure .absent else readNode fuel false false
        let v ← readFlowValue fuel Token.endsFlowPair
        return (k, v) :: (← readFlowPairs fuel false)
      | .flowMappingEnd => skip; return []
      | _ =>
        let k ← readNode fuel false false
        return (k, .absent) :: (← readFlowPairs fuel false)
end

/-- The handles that every document knows. -/
def usualHandles : List (String × String) :=
  [("!", "!"), ("!!", formatTags)]

/-- Reads the directives in front of a document; the version is given at most once. -/
def readDirectives : Nat → (versioned : Bool) → Reader Unit
  | 0, _ => return ()
  | fuel + 1, versioned => do
    match ← peek with
    | .directive d =>
      skip
      match d with
      | .version major => if versioned || major != 1 then fail else readDirectives fuel true
      | .handle h leading =>
        if ((← get).handles.lookup h).isSome then fail
        else
          modify fun r => { r with handles := (h, leading) :: r.handles }
          readDirectives fuel versioned
      | .other => readDirectives fuel versioned
    | _ => return ()

/-- Reads the directives in front of a document and makes its handles known. -/
def readHandles (fuel : Nat) : Reader Unit := do
  modify fun r => { r with handles := [] }
  readDirectives fuel false
  modify fun r => { r with handles := r.handles ++ usualHandles }

/-- Passes over the marks of ended documents. -/
def skipDocumentEnds : Nat → Reader Unit
  | 0 => return ()
  | fuel + 1 => do
    if let .documentEnd ← peek then
      skip
      skipDocumentEnds fuel

/-- Reads the first document of a text, if there is one. -/
def readDocument (fuel : Nat) : Reader (Option Node) := do
  let content : Reader Node := do
    match ← peek with
    | .directive _ | .documentStart | .documentEnd | .streamEnd => return .absent
    | _ => readNode fuel true false
  match ← peek with
  | .streamEnd => return none
  | .directive _ | .documentStart =>
    readHandles fuel
    match ← peek with
    | .documentStart =>
      skip
      some <$> content <* skipDocumentEnds fuel
    | _ => fail
  | _ => some <$> readNode fuel true false <* skipDocumentEnds fuel

/-- Reads the only document of a text, if there is one. The directives of a second one are read before it is
refused. -/
def readOnlyDocument (fuel : Nat) : Reader (Option Node) := do
  let n ← readDocument fuel
  match ← peek with
  | .streamEnd => return n
  | _ =>
    readHandles fuel
    fail

/-- The node that a text writes, in which collections may stand inside themselves. -/
def rolledNodeOf? (source : Source) : Except Fault (Option Node) :=
  let tokens := tokensOf source
  let reading : Reading := { tokens := tokens.ready, anchors := [], handles := usualHandles }
  (readOnlyDocument (4 * tokens.ready.length + 8)).run' reading tokens.stop

/-! ### Collections inside themselves -/

namespace Node

mutual
/-- The collections of a node by their numbers. -/
def collections : Node → List (Nat × Node)
  | scalar _ _ | again _ _ => []
  | sequence i t items => (i, sequence i t items) :: collectionsOf items
  | mapping i t pairs => (i, mapping i t pairs) :: collectionsOfPairs pairs

def collectionsOf : List Node → List (Nat × Node)
  | [] => []
  | n :: rest => n.collections ++ collectionsOf rest

def collectionsOfPairs : List (Node × Node) → List (Nat × Node)
  | [] => []
  | (k, v) :: rest => k.collections ++ v.collections ++ collectionsOfPairs rest
end

mutual
/-- The node with collections in the places where they stand again. -/
def unfold (known : List (Nat × Node)) : Node → Node
  | scalar t s => scalar t s
  | sequence i t items => sequence i t (unfoldItems known items)
  | mapping i t pairs => mapping i t (unfoldPairs known pairs)
  | again i isList => (known.lookup i).getD (again i isList)

def unfoldItems (known : List (Nat × Node)) : List Node → List Node
  | [] => []
  | n :: rest => n.unfold known :: unfoldItems known rest

def unfoldPairs (known : List (Nat × Node)) : List (Node × Node) → List (Node × Node)
  | [] => []
  | (k, v) :: rest => (k.unfold known, v.unfold known) :: unfoldPairs known rest
end

/-- How many times collections stand in themselves. -/
def unrolling : Nat := 6

/-- The node with each collection unrolled in itself. -/
def unrolled (n : Node) : Node :=
  (List.range unrolling).foldl (fun m _ => m.unfold n.collections) n

end Node

/-- The node that a text writes. -/
def nodeOf? (source : Source) : Except Fault (Option Node) :=
  (rolledNodeOf? source).map (Option.map Node.unrolled)

end SkillAtlas.Yaml
