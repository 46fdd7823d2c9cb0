import SkillAtlas.Yaml.Timestamp

/-!
# Tags, and the tags of texts without quotes

The tag of a node says how its value is made. A plain text without a tag gets one by its form: a
number, a truth value, a date, nothing, or else a text.
-/

namespace SkillAtlas.Yaml

inductive Tag where
  | null
  | bool
  | int
  | float
  | str
  | binary
  | timestamp
  | seq
  | map
  | set
  | omap
  | pairs
  /-- the key `<<`, which stands for entries of other mappings -/
  | merge
  /-- the key `=` -/
  | default
  | unknown
deriving DecidableEq

/-- What all tags of the format start with. -/
def formatTags : String :=
  "tag:yaml.org,2002:"

/-- The tag that a full name stands for. -/
def Tag.ofName (name : String) : Tag :=
  match [("null", null), ("bool", bool), ("int", int), ("float", float), ("str", str), ("binary", binary),
      ("timestamp", timestamp), ("seq", seq), ("map", map), ("set", set), ("omap", omap), ("pairs", pairs),
      ("merge", merge), ("value", default)].find? fun p => formatTags ++ p.1 == name with
  | some (_, t) => t
  | none => unknown

/-- An ASCII digit or an underscore. -/
def isDigitOrUnderscore (c : Char) : Bool :=
  c.isDigit || c == '_'

def unsigned : List Char → List Char
  | '+' :: rest | '-' :: rest => rest
  | cs => cs

/-- Drops a run of digits and underscores that starts with a digit; the first digit must satisfy `p`. -/
def afterDigits? (p : Char → Bool) : List Char → Option (List Char)
  | c :: rest => if c.isDigit && p c then some (rest.dropWhile isDigitOrUnderscore) else none
  | [] => none

/-- Reads groups to base sixty, each after a colon: the number of groups and the rest. -/
def sixtyGroups : Nat → List Char → Nat × List Char
  | 0, cs => (0, cs)
  | fuel + 1, cs =>
    match cs with
    | ':' :: rest =>
      let run := rest.takeWhile Char.isDigit
      if run.length == 1 || (run.length == 2 && run.head?.any (· ≤ '5')) then
        let (n, tail) := sixtyGroups fuel (rest.drop run.length)
        (n + 1, tail)
      else (0, cs)
    | _ => (0, cs)

/-- One or more characters, all with a property. -/
def isRunOf (p : Char → Bool) (cs : List Char) : Bool :=
  !cs.isEmpty && cs.all p

def isInt (cs : List Char) : Bool :=
  let u := unsigned cs
  match u with
  | '0' :: 'b' :: rest => isRunOf (fun c => c == '0' || c == '1' || c == '_') rest
  | '0' :: 'x' :: rest => isRunOf (fun c => c.isDigit || ('a' ≤ c && c ≤ 'f') || ('A' ≤ c && c ≤ 'F') || c == '_') rest
  | '0' :: rest => rest.all fun c => ('0' ≤ c && c ≤ '7') || c == '_'
  | _ => match afterDigits? (· != '0') u with
    | none => false
    | some rest => (sixtyGroups rest.length rest).2.isEmpty

/-- An exponent with its sign, or nothing. -/
def isExponent : List Char → Bool
  | [] => true
  | e :: sign :: digits =>
    (e == 'e' || e == 'E') && (sign == '+' || sign == '-') && isRunOf Char.isDigit digits
  | _ => false

def isFloat (cs : List Char) : Bool :=
  let u := unsigned cs
  let special := [".inf", ".Inf", ".INF"].any (·.toList == u) || [".nan", ".NaN", ".NAN"].any (·.toList == cs)
  let leadingPoint := match cs with
    | '.' :: rest => (afterDigits? (fun _ => true) rest).any isExponent
    | _ => false
  let leadingDigit := match afterDigits? (fun _ => true) u with
    | some ('.' :: rest) => isExponent (rest.dropWhile isDigitOrUnderscore)
    | some rest => match sixtyGroups rest.length rest with
      | (_ + 1, '.' :: tail) => tail.all isDigitOrUnderscore
      | _ => false
    | none => false
  special || leadingPoint || leadingDigit

/-- The texts of truth values. -/
def boolWords : List String :=
  ["yes", "Yes", "YES", "no", "No", "NO", "true", "True", "TRUE", "false", "False", "FALSE", "on", "On", "ON",
    "off", "Off", "OFF"]

/-- The texts for nothing. -/
def nullWords : List String :=
  ["", "~", "null", "Null", "NULL"]

/-- A line feed at the end of a text does not count for its form. -/
def dropFinalLineFeed (cs : List Char) : List Char :=
  if cs.getLast? == some '\n' then cs.dropLast else cs

/-- The tag of a plain text. -/
def Tag.ofPlain (s : String) : Tag :=
  let cs := if s == "\n" then ['\n'] else dropFinalLineFeed s.toList
  let word := String.ofList cs
  if nullWords.contains word then null
  else if boolWords.contains word then bool
  else if isFloat cs then float
  else if isInt cs then int
  else if isTimestamp cs then timestamp
  else if word == "<<" then merge
  else if word == "=" then default
  else if ["!", "&", "*"].contains word then unknown
  else str

end SkillAtlas.Yaml
