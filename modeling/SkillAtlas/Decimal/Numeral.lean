import SkillAtlas.Decimal.Binary
import SkillAtlas.Text.Basic
import SkillAtlas.Text.Casing
import SkillAtlas.Text.Word

/-!
# Reading numerals

Numerals may have blanks around them, a sign, digits of any script, and single underscores between
digits. Whole numbers are read to a base, with the usual marks `0x`, `0o` and `0b` allowed in front.
-/

namespace SkillAtlas.Decimal

/-- Digits of every script as ASCII digits, and blanks as spaces. -/
def asciiForm (c : Char) : Char :=
  match Text.digitValue? c with
  | some d => Char.ofNat ('0'.toNat + d)
  | none => if Text.isBlank c then ' ' else c

/-- Splits off a sign; the answer tells whether it is negative. -/
def splitSign : List Char → Bool × List Char
  | '-' :: rest => (true, rest)
  | '+' :: rest => (false, rest)
  | cs => (false, cs)

/-- The value of a digit or letter in a base. -/
def digitIn? (base : Nat) (c : Char) : Option Nat :=
  let n :=
    if c.isDigit then some (c.toNat - '0'.toNat)
    else if 'a' ≤ c && c ≤ 'z' then some (c.toNat - 'a'.toNat + 10)
    else if 'A' ≤ c && c ≤ 'Z' then some (c.toNat - 'A'.toNat + 10)
    else none
  n.filter (· < base)

/-- The digits of a numeral without the single underscores between them. -/
def joinDigits? (isDigit : Char → Bool) : List Char → Option (List Char)
  | [] => none
  | [c] => if isDigit c then some [c] else none
  | c :: '_' :: rest => if isDigit c then (joinDigits? isDigit rest).map (c :: ·) else none
  | c :: rest => if isDigit c then (joinDigits? isDigit rest).map (c :: ·) else none

/-- The letter that marks a base after a zero. -/
def baseLetter? : Nat → Option Char
  | 16 => some 'x'
  | 8 => some 'o'
  | 2 => some 'b'
  | _ => none

/-- Drops the mark of the base, and an underscore after it. -/
def dropBaseMark (base : Nat) (cs : List Char) : List Char :=
  match cs with
  | '0' :: m :: rest =>
    if baseLetter? base == some m.toLower then
      match rest with
      | '_' :: rest => rest
      | rest => rest
    else cs
  | _ => cs

-- Irreducible, lest ten to this power be worked out where two terms are compared.
/-- The most digits that a numeral to base ten may have, and the most that are written of a number. -/
@[irreducible] def digitLimit : Nat := 4300

def readInt? (base : Nat) (cs : List Char) : Option Int := do
  let (negative, body) := splitSign (Text.trimChars (cs.map asciiForm))
  let digits ← joinDigits? (fun c => (digitIn? base c).isSome) (dropBaseMark base body)
  if base == 10 && digits.length > digitLimit then none
  else
    let n : Nat := digits.foldl (fun n c => n * base + (digitIn? base c).getD 0) 0
    return if negative then -n else n

/-- Drops single underscores between digits; any other underscore is an error. -/
def dropUnderscores? (before : Bool) : List Char → Option (List Char)
  | [] => some []
  | '_' :: rest =>
    if before && rest.head?.any Char.isDigit then dropUnderscores? false rest else none
  | c :: rest => (dropUnderscores? c.isDigit rest).map (c :: ·)

/-- The exponent at the end of a numeral. -/
def readExponent? : List Char → Option Int
  | [] => some 0
  | e :: rest => do
    guard (e == 'e' || e == 'E')
    let (negative, digits) := splitSign rest
    guard (!digits.isEmpty && digits.all Char.isDigit)
    let n : Nat := digits.foldl (fun n c => n * 10 + (c.toNat - '0'.toNat)) 0
    return if negative then -n else n

/-- Reads a number with or without a point and an exponent, an infinity, or the word for no number. -/
def readFloat? (cs : List Char) : Option Float := do
  let cs ← dropUnderscores? false (Text.trimChars (cs.map asciiForm))
  let (negative, body) := splitSign cs
  let word := String.ofList (body.map Char.toLower)
  if word == "inf" || word == "infinity" then return ofMagnitude negative (2047 * twoTo 52)
  else if word == "nan" then return 0 / 0
  else
    let (whole, rest) := body.span Char.isDigit
    let (places, rest) := match rest with
      | '.' :: rest => rest.span Char.isDigit
      | _ => ([], rest)
    let digits := whole ++ places
    guard !digits.isEmpty
    let e ← readExponent? rest
    let n : Nat := digits.foldl (fun n c => n * 10 + (c.toNat - '0'.toNat)) 0
    return ofScaled negative n (e - places.length)

end SkillAtlas.Decimal
