import SkillAtlas.Naming.Readable
import SkillAtlas.Text.CaseMap
import SkillAtlas.Text.Word
import SkillAtlas.Vocabulary.Basic

/-!
# Starts and ends of names

A satellite is named after its base with a separator and a lifecycle suffix; a variant holds the marker of
variants. From such a name the names of possible bases are read. Letters match in either case.
-/

namespace SkillAtlas.Naming

open Text (dropAlike? isDigit)

def isOneOf (suffixes : List (List Char)) (cs : List Char) : Bool :=
  suffixes.any fun s => (dropAlike? s cs).any Text.atEnd

/-- The shortest start of a name after which a separator and a suffix end it. The start is on one line. -/
def satelliteBase? (suffixes : List (List Char)) : List Char → Option (List Char)
  | [] => none
  | c :: rest =>
    if c == '\n' then none
    else
      let ends := match rest with
        | s :: tail => isSeparator s && isOneOf suffixes tail
        | [] => false
      if ends then some [c] else (satelliteBase? suffixes rest).map (c :: ·)

/-- A separator at the front may be passed over. -/
def withoutSeparator (cs : List Char) : List (List Char) :=
  match cs with
  | c :: rest => if isSeparator c then [rest, cs] else [cs]
  | [] => [[]]

/-- What comes after the marker, which may have a separator before it. -/
def afterMarker? (marker cs : List Char) : Option (List Char) :=
  (withoutSeparator cs).findSome? (dropAlike? marker)

/-- What comes after a number at the end of a name, which may have a separator before it. -/
def afterNumber? (cs : List Char) : Option (List Char) :=
  (withoutSeparator cs).findSome? fun body =>
    let rest := body.dropWhile isDigit
    if rest.length < body.length && Text.atEnd rest then some rest else none

/-- What comes after the marker and perhaps a number at the end of a name. -/
def afterLastMarker? (marker cs : List Char) : Option (List Char) :=
  (withoutSeparator cs).findSome? fun body => do
    let rest ← dropAlike? marker body
    (afterNumber? rest).or (if Text.atEnd rest then some rest else none)

/-- Cuts out what `after` passes over at the first place where it applies. -/
def cutFirst (after : List Char → Option (List Char)) : List Char → List Char
  | [] => []
  | c :: rest => match after (c :: rest) with
    | some tail => tail
    | none => c :: cutFirst after rest

/-- The name without a marker at its front and the separator after it. -/
def withoutFirstMarker (marker cs : List Char) : List Char :=
  match dropAlike? marker cs with
  | some (c :: rest) => if isSeparator c then rest else c :: rest
  | some [] => []
  | none => cs

/-- The names of the mobs from which a variant may derive, the most specific first. -/
def variantBases (v : Vocabulary) (name : String) : List String :=
  let marker := v.variantMarker.toList
  let cs := name.toList
  let cuts := [cutFirst (afterLastMarker? marker) cs, withoutFirstMarker marker cs,
    cutFirst (afterMarker? marker) cs]
  ((cuts.filter fun cut => !cut.isEmpty && cut != cs).eraseDups).map String.ofList

def isVariant (v : Vocabulary) (name : String) : Bool :=
  Text.contains (Text.lower name) (Text.lower v.variantMarker)

/-- The suffixes of satellites; a vocabulary without any has the empty one. -/
def satelliteSuffixes (v : Vocabulary) : List (List Char) :=
  if v.lifecycleSuffixes.isEmpty then [[]] else v.lifecycleSuffixes.map String.toList

def lifecycleBase? (v : Vocabulary) (name : String) : Option String :=
  (satelliteBase? (satelliteSuffixes v) name.toList).map String.ofList

/-- The base that the name of a satellite names; any other name stays. -/
def withoutLifecycleSuffix (v : Vocabulary) (name : String) : String :=
  (lifecycleBase? v name).getD name

/-- Drops two to four capitals with a separator at the front of a name. -/
def withoutNamespace (cs : List Char) : List Char :=
  let token := cs.takeWhile isCapital
  match cs.drop token.length with
  | c :: rest => if 2 ≤ token.length && token.length ≤ 4 && isSeparator c then rest else cs
  | [] => cs

end SkillAtlas.Naming
