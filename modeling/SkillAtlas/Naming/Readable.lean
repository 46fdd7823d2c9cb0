import SkillAtlas.Text.Basic
import SkillAtlas.Text.Casing

/-!
# Readable names

A unit's name is turned into a display name: dashes and underscores become spaces, capitals start words,
and every word has a capital and then small letters. A name in capitals throughout is cut at its
underscores alone.
-/

namespace SkillAtlas.Naming

open Text (lowerChars upperChars isBlank)

/-- A character that separates the parts of a name. -/
def isSeparator (c : Char) : Bool :=
  c == '-' || c == '_'

def isCapital (c : Char) : Bool :=
  'A' ≤ c && c ≤ 'Z'

def trimSeparatorChars : List Char → List Char
  | [] => []
  | c :: rest => if isSeparator c && Text.atEnd rest then rest else c :: trimSeparatorChars rest

def trimSeparator (s : String) : String :=
  .ofList (trimSeparatorChars s.toList)

/-- A word of a name in capitals: its first letter stays, the others become small. -/
def smallTail : List Char → List Char
  | [] => []
  | c :: rest => c :: lowerChars rest

/-- A word with a capital and then small letters. -/
def titled : List Char → List Char
  | [] => []
  | c :: rest => upperChars [c] ++ lowerChars rest

/-- The display form of a name in capitals. -/
def readableCapitals (cs : List Char) : List Char :=
  Text.trimChars (Text.joinWith [' '] ((Text.partsBy (· == '_') cs).map smallTail))

/-- A space before every capital, and spaces for separators. -/
def spaced (cs : List Char) : List Char :=
  cs.flatMap fun c => if isCapital c then [' ', c] else if isSeparator c then [' '] else [c]

def readableWords (cs : List Char) : List Char :=
  Text.joinWith [' '] ((Text.wordsOf (spaced cs)).map titled)

/-- The display form of a name. -/
def readableChars (cs : List Char) : List Char :=
  if cs == upperChars cs then readableCapitals cs else readableWords cs

def readable (name : String) : String :=
  .ofList (readableChars name.toList)

end SkillAtlas.Naming
