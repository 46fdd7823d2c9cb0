import SkillAtlas.Line.Scan
import SkillAtlas.Text.CaseMap
import SkillAtlas.Text.Casing

/-!
# Calls in a line

A line calls another unit by `skill{s=Name}`, where other arguments may stand before the name, or through
an attribute whose value names the unit that answers an event. Letters match in either case, and the name
is taken as it is written.
-/

namespace SkillAtlas

structure Call where
  name : String
  context : String := "direct"
deriving DecidableEq, Repr, Inhabited

namespace Call

/-- The context of a call by name. -/
def direct : String :=
  "direct"

/-- The context of a call by name of a unit that is defined elsewhere. -/
def outside : String :=
  "external"

/-- The call answers an event: it is no call by name. -/
def isCallback (c : Call) : Bool :=
  c.context != direct && c.context != outside

end Call

namespace Line

open Text (isBlank dropAlike?)

/-- The value after a key and `=`, and the number of characters of all three. -/
def valueOf? (key : List Char) (cs : List Char) : Option (List Char × Nat) := do
  let rest ← dropAlike? (key ++ ['=']) cs
  let value ← run? isNameChar rest
  return (value, key.length + 1 + value.length)

/-- The first `s=` after a separator, before the arguments end. -/
def laterArgument? : List Char → Option (List Char × Nat)
  | [] => none
  | c :: rest =>
    if c == '}' then none
    else
      let here := if c == ';' || isBlank c then valueOf? ['s'] rest else none
      match here with
      | some (value, n) => some (value, n + 1)
      | none => (laterArgument? rest).map fun (value, n) => (value, n + 1)

def callMarker : List Char :=
  "skill\x7b".toList

/-- Finds a call by name. An argument after a separator is preferred to one at the front. -/
def directCall : Finder (List Char) := fun _ cs => do
  let rest ← dropAlike? callMarker cs
  let (name, n) ← (laterArgument? rest).or (valueOf? ['s'] rest)
  return (name, callMarker.length + n)

/-- The first of some attributes that stands here with a value. -/
def firstAttribute? (attributes : List (List Char)) (cs : List Char) :
    Option ((List Char × List Char) × Nat) :=
  attributes.findSome? fun a => (valueOf? a cs).map fun (name, n) => ((cs.take a.length, name), n)

/-- Attributes with longer ones first, so that the longest that fits is found. -/
def longestFirst (attributes : List String) : List (List Char) :=
  (attributes.map String.toList).mergeSort fun a b => b.length ≤ a.length

def callback (attributes : List (List Char)) : Finder (List Char × List Char) := fun before cs =>
  if atWordStart before then firstAttribute? attributes cs else none

/-- The calls by name in a line. -/
def directCalls (outside : List String) (cs : List Char) : List Call :=
  (findAll directCall cs).map fun name =>
    let name := String.ofList name
    ⟨name, if outside.contains name then Call.outside else Call.direct⟩

/-- The calls through attributes in a line. -/
def callbackCalls (attributes : List String) (cs : List Char) : List Call :=
  (findAll (callback (longestFirst attributes)) cs).map fun (answered, name) =>
    ⟨.ofList name, .ofList (Text.lowerChars answered)⟩

end Line

end SkillAtlas
