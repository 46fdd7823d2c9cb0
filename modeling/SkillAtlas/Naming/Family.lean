import SkillAtlas.Line.Parts
import SkillAtlas.Naming.Affix
import SkillAtlas.Value.Arithmetic

/-!
# Families of names

Names that start alike form a family for each start that two of them share. Names that a curated suffix
ends form a family with the base before the suffix and with all that is named after the base.
-/

namespace SkillAtlas.Naming

def commonStartOf (names : List String) : String :=
  .ofList (Text.commonStartOfAll (names.map String.toList))

/-- What two names start with, without a separator at its end. -/
def sharedStart (a b : String) : String :=
  .ofList (trimSeparatorChars (Text.commonStart a.toList b.toList))

def isShort (limit : Number) (s : String) : Bool :=
  (Number.int s.length).less limit

/-- The start that two names share, with both names, if it is long enough. -/
def sharedPair (limit : Number) (a b : String) : List (String × String) :=
  let start := sharedStart a b
  if isShort limit start then [] else [(start, a), (start, b)]

/-- All starts that two of the names share, each with the two names. -/
def sharedPairs (limit : Number) : List String → List (String × String)
  | [] => []
  | a :: rest => rest.flatMap (sharedPair limit a) ++ sharedPairs limit rest

/-- The families of names that start alike. -/
def startFamilies (limit : Number) (names : List String) : List (String × List String) :=
  (groupedByKey (sharedPairs limit names)).map fun (start, members) => (start, members.eraseDups)

/-- The families of names that start alike, for a limit from the settings. The limit is looked at only if
there are two names to compare. -/
def startFamiliesFor (limit : Value) (names : List String) : Except Fault (List (String × List String)) :=
  match names with
  | [] | [_] => .ok []
  | names => match limit.number? with
    | some n => .ok (startFamilies n names)
    | none => .error .wrongKind

/-- The base of a name that ends with a suffix. -/
def suffixBase? (suffix name : String) : Option String :=
  let small := Text.lowerChars suffix.toList
  let cs := name.toList
  if suffix.isEmpty || !small.isSuffixOf (Text.lowerChars cs) then none
  else
    let base := cs.take (cs.length - suffix.length)
    if base.isEmpty then none else some (.ofList base)

/-- The name is the base, or the base with a separator and more, when case is ignored. -/
def isNamedAfter (base name : String) : Bool :=
  let small := Text.lowerChars base.toList
  let cs := Text.lowerChars name.toList
  cs == small || (small ++ ['-']).isPrefixOf cs || (small ++ ['_']).isPrefixOf cs

/-- Adds the family of a base, unless the base has one or only one name belongs to it. -/
def addSuffixFamily (names : List String) (families : List (String × List String)) (base : String) :
    List (String × List String) :=
  if families.any fun f => Text.lower f.1 == Text.lower base then families
  else
    let related := names.filter (isNamedAfter base)
    if related.length < 2 then families else families ++ [(base, related)]

/-- The families of bases that curated suffixes tell. -/
def suffixFamilies (suffixes names : List String) : List (String × List String) :=
  (suffixes.flatMap fun s => names.filterMap (suffixBase? s)).foldl (addSuffixFamily names) []

end SkillAtlas.Naming
