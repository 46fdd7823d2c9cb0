import SkillAtlas.Decimal.Numeral
import SkillAtlas.Value.Arithmetic
import SkillAtlas.Yaml.Tag

/-!
# The values of texts

A text becomes a value as its tag says. A text that was given a tag by hand may not fit; each tag has
its own fault for that.
-/

namespace SkillAtlas.Yaml

open Decimal (readInt? readFloat? splitSign)

/-- Adds up groups to base sixty, the last one counting ones. -/
def sixtyInt (parts : List Int) : Int :=
  parts.foldl (fun n p => n * 60 + p) 0

/-- Adds up groups to base sixty from the last to the first. Powers of sixty that no float comes near to are a
fault. -/
def sixtyFloat (parts : List Float) : Except Fault Float := do
  let (sum, _) ← parts.reverse.foldlM
    (fun (sum, base) p => do return (sum + p * (← (Number.int base).toFloat), base * 60)) (0.0, 1)
  return sum

/-- The number that a text with an integer's tag writes, without its sign. -/
def magnitude? (cs : List Char) : Except Fault Int :=
  let read (base : Nat) (cs : List Char) : Except Fault Int :=
    match readInt? base cs with
    | some n => .ok n
    | none => .error .badValue
  match cs with
  | [] => .error .outOfRange
  | ['0'] => .ok 0
  | '0' :: 'b' :: rest => read 2 rest
  | '0' :: 'x' :: rest => read 16 rest
  | '0' :: _ => read 8 cs
  | _ =>
    if cs.contains ':' then (Text.partsBy (· == ':') cs).mapM (read 10) |>.map sixtyInt
    else read 10 cs

/-- The value of a text with an integer's tag. -/
def intOf (s : String) : Except Fault Value := do
  let cs := s.toList.filter (· != '_')
  let (negative, body) := splitSign cs
  let n ← magnitude? body
  return .int (if negative then -n else n)

/-- The value of a text with a float's tag. -/
def floatOf (s : String) : Except Fault Value := do
  let cs := Text.lowerChars (s.toList.filter (· != '_'))
  if cs.isEmpty then .error .outOfRange
  else
    let read (cs : List Char) : Except Fault Float :=
      match readFloat? cs with
      | some x => .ok x
      | none => .error .badValue
    let (negative, body) := splitSign cs
    let x ← match String.ofList body with
      | ".inf" => .ok (1.0 / 0.0)
      | ".nan" => return .float (0.0 / 0.0)
      | _ =>
        if body.contains ':' then do sixtyFloat (← (Text.partsBy (· == ':') body).mapM read)
        else read body
    return .float (if negative then -x else x)

/-- The six bits of a character of base 64. -/
def sixBits? (c : Char) : Option Nat :=
  if 'A' ≤ c && c ≤ 'Z' then some (c.toNat - 'A'.toNat)
  else if 'a' ≤ c && c ≤ 'z' then some (c.toNat - 'a'.toNat + 26)
  else if c.isDigit then some (c.toNat - '0'.toNat + 52)
  else if c == '+' then some 62
  else if c == '/' then some 63
  else none

/-- Reads base 64, passing over other characters. `count` is the number of characters of the current
group of four, `left` the bits of it that make no byte yet, and `pads` the padding seen. -/
def base64From (count left pads : Nat) : List Char → Option (List UInt8)
  | [] => if count == 0 then some [] else none
  | c :: rest =>
    if c == '=' then
      if count ≥ 2 then
        if count + pads + 1 ≥ 4 then some [] else base64From count left (pads + 1) rest
      else base64From count left pads rest
    else match sixBits? c with
      | none => base64From count left pads rest
      | some b =>
        let byte (n : Nat) (count left : Nat) :=
          (base64From count left 0 rest).map (UInt8.ofNat n :: ·)
        match count with
        | 0 => base64From 1 b 0 rest
        | 1 => byte (left * 4 + b / 16) 2 (b % 16)
        | 2 => byte (left * 16 + b / 4) 3 (b % 4)
        | _ => byte (left * 64 + b) 0 0

def boolOf? (s : String) : Option Bool :=
  let word := Text.lower s
  if ["yes", "true", "on"].contains word then some true
  else if ["no", "false", "off"].contains word then some false
  else none

/-- The value of a text with a tag of single values; `none` for the tags of collections. -/
def scalarOf? (tag : Tag) (s : String) : Option (Except Fault Value) :=
  match tag with
  | .null => some (.ok .null)
  | .bool => some (match boolOf? s with
    | some b => .ok (.bool b)
    | none => .error .missingKey)
  | .int => some (intOf s)
  | .float => some (floatOf s)
  | .str => some (.ok (.str s))
  | .binary => some (
    if s.toList.all (·.toNat < 128) then
      match base64From 0 0 0 s.toList with
      | some bs => .ok (.bytes bs)
      | none => .error .malformed
    else .error .malformed)
  | .timestamp => some (match Timestamp.read? (dropFinalLineFeed s.toList) with
    | none => .error .noMember
    | some t => match t.value? with
      | some v => .ok v
      | none => .error .badValue)
  | .merge | .default | .unknown => some (.error .malformed)
  | .seq | .map | .set | .omap | .pairs => none

end SkillAtlas.Yaml
