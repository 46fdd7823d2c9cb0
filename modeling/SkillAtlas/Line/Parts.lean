import SkillAtlas.Line.Attribute
import SkillAtlas.Line.Call
import SkillAtlas.Vocabulary.Basic

/-!
# The parts of skill lines

What a line holds: its action, calls, targets, guards, events and attributes. The parts of several lines
are those of each line, one after the other.
-/

namespace SkillAtlas

/-- The parts that lines hold, in the order in which they are found. -/
structure LineParts where
  actions : List String := []
  targets : List String := []
  guards : List String := []
  lifecycle : List String := []
  attributes : List (String × String) := []
  calls : List Call := []
deriving DecidableEq, Repr, Inhabited

namespace LineParts

/-- The parts of some lines and then of others. -/
protected def append (p q : LineParts) : LineParts where
  actions := p.actions ++ q.actions
  targets := p.targets ++ q.targets
  guards := p.guards ++ q.guards
  lifecycle := p.lifecycle ++ q.lifecycle
  attributes := p.attributes ++ q.attributes
  calls := p.calls ++ q.calls

instance : Append LineParts :=
  ⟨LineParts.append⟩

end LineParts

/-- Pairs grouped by key, keys and values in the order in which they come. -/
def groupedByKey (pairs : List (String × String)) : List (String × List String) :=
  (pairs.map Prod.fst).eraseDups.map fun k =>
    (k, (pairs.filter fun p => p.1 == k).map Prod.snd)

namespace Line

open Text (isWord lowerChars)

/-- Finds a selector of targets without its `@`. Its arguments are passed over. -/
def target : Finder (List Char) := fun _ cs =>
  match cs with
  | '@' :: rest => do
    let word ← run? isWord rest
    let arguments := match rest.drop word.length with
      | '{' :: inner =>
        let held := inner.takeWhile (· != '}')
        if held.length < inner.length then held.length + 2 else 0
      | _ => 0
    return (word, 1 + word.length + arguments)
  | _ => none

/-- Finds a guard: `?` or `?!` with a word. -/
def guard : Finder (List Char) := fun _ cs =>
  match cs with
  | '?' :: '!' :: rest => (run? isWord rest).map fun word => ('?' :: '!' :: word, 2 + word.length)
  | '?' :: rest => (run? isWord rest).map fun word => ('?' :: word, 1 + word.length)
  | _ => none

def event : Finder (List Char) := fun _ cs =>
  match cs with
  | '~' :: 'o' :: 'n' :: rest =>
    (run? isWord rest).map fun word => ('~' :: 'o' :: 'n' :: word, 3 + word.length)
  | _ => none

def actionOf (v : Vocabulary) (small : List Char) : List String :=
  match firstWord? small with
  | some word => if v.isAction (.ofList word) then [.ofList word] else []
  | none => []

/-- The parts of a line. Calls of the units in `outside` are told from other calls by name. -/
def parts (v : Vocabulary) (outside : List String) (line : String) : LineParts :=
  let cs := Text.trimChars line.toList
  let small := lowerChars cs
  {
    actions := actionOf v small
    targets := (findAll target cs).map fun word => .ofList ('@' :: lowerChars word)
    guards := (findAll guard cs).map fun g => .ofList (lowerChars g)
    lifecycle := ((findAll event small).map String.ofList).filter v.isLifecycleEvent
    attributes := attributesOf cs
    calls := directCalls outside cs ++ callbackCalls v.callbackAttributes cs }

def partsOfAll (v : Vocabulary) (outside : List String) (lines : List String) : LineParts :=
  lines.foldl (fun p line => p ++ parts v outside line) {}

end Line

end SkillAtlas
