import SkillAtlas.Yaml.PlainText
import SkillAtlas.Yaml.Property

/-!
# Texts between quotes

Between single quotes only a doubled quote is special. Between double quotes a backslash starts an
escape, and one before a line end joins the lines.
-/

namespace SkillAtlas.Yaml

/-- The characters that short escapes stand for. -/
def shortEscape? : Char → Option Char
  | '0' => some '\x00'
  | 'a' => some '\x07'
  | 'b' => some '\x08'
  | 't' | '\t' => some '\t'
  | 'n' => some '\n'
  | 'v' => some '\x0b'
  | 'f' => some '\x0c'
  | 'r' => some '\r'
  | 'e' => some '\x1b'
  | ' ' => some ' '
  | '"' => some '"'
  | '\\' => some '\\'
  | '/' => some '/'
  | 'N' => some '\x85'
  | '_' => some '\xa0'
  | 'L' => some '\u2028'
  | 'P' => some '\u2029'
  | _ => none

/-- The number of digits of an escape by code point. -/
def escapeWidth? : Char → Option Nat
  | 'x' => some 2
  | 'u' => some 4
  | 'U' => some 8
  | _ => none

/-- The character with a code point. There is none from `0x110000` on, and a half of a UTF-16 pair that
stands alone, which is no character either, reads as the replacement character. -/
def charOf (n : Nat) : Except Fault Char :=
  if 0xD800 ≤ n && n < 0xE000 then .ok '\uFFFD'
  else if n < 0x110000 then .ok (Char.ofNat n)
  else if n < 0x80000000 then .error .badValue
  else .error .tooLarge

/-- The second half of a UTF-16 pair, written as an escape at the cursor, completes the first. -/
def pairedChar? (first : Nat) (c : Cursor) : Option Char := do
  guard (0xD800 ≤ first && first < 0xDC00 && c.rest.take 2 == ['\\', 'u'])
  let second ← hexNumber? 4 (c.after 2)
  guard (0xDC00 ≤ second && second < 0xE000)
  return Char.ofNat (0x10000 + (first - 0xD800) * 0x400 + (second - 0xDC00))

/-- The character that an escape by code point stands for, with the digits at the cursor. -/
def scanCode (width : Nat) (c : Cursor) : Scan (List Char × Cursor) := do
  let n ← hexNumber width c
  match pairedChar? n (c.after width) with
  | some ch => return ([ch], ← c.advance (width + 6))
  | none =>
    let ch ← charOf n
    return ([ch], ← c.advance width)

/-- Line ends inside a quoted text, with the blanks before each. -/
def quotedBreaks : Nat → Cursor → Scan (List Char × Cursor)
  | 0, c => return ([], c)
  | fuel + 1, c => do
    if ← c.atSeparator then Scan.malformed
    else
      let c ← c.skip fun ch => ch == ' ' || ch == '\t'
      match ← c.lineBreak? with
      | none => return ([], c)
      | some (b, c) =>
        let (rest, c) ← quotedBreaks fuel c
        return (b :: rest, c)

/-- The escape at the cursor, which stands on the character after the backslash. -/
def scanEscape (c : Cursor) : Scan (List Char × Cursor) := do
  match c.head with
  | none => Scan.malformed
  | some ch =>
    match shortEscape? ch, escapeWidth? ch with
    | some e, _ => return ([e], ← c.advance 1)
    | none, some width => scanCode width (← c.advance 1)
    | none, none =>
      match ← c.lineBreak? with
      | some (_, c) => quotedBreaks (c.rest.length + 1) c
      | none => Scan.malformed

/-- Blanks inside a quoted text, and the line ends after them. -/
def quotedGap (c : Cursor) : Scan (List Char × Cursor) := do
  let (blanks, c) ← c.span fun ch => ch == ' ' || ch == '\t'
  match c.head, ← c.lineBreak? with
  | none, _ => Scan.malformed
  | _, some (first, c) =>
    let (others, c) ← quotedBreaks (c.rest.length + 1) c
    return (foldedBreaks first others, c)
  | _, none => return (blanks, c)

/-- The quoted text at the cursor, after its opening quote; `text` is what was read before, last
character first. -/
def scanQuotedFrom (double : Bool) : Nat → List Char → Cursor → Scan (String × Cursor)
  | 0, _, _ => Scan.malformed
  | fuel + 1, text, c => do
    match c.head with
    | none => Scan.malformed
    | some ch =>
      if ch == ' ' || ch == '\t' || isBreak ch then
        let (gap, c) ← quotedGap c
        scanQuotedFrom double fuel (gap.reverse ++ text) c
      else if double && ch == '\\' then
        let (escaped, c) ← scanEscape (← c.advance 1)
        scanQuotedFrom double fuel (escaped.reverse ++ text) c
      else
        let doubled ← if !double && ch == '\'' then (· == some '\'') <$> c.peek 1 else pure false
        if doubled then scanQuotedFrom double fuel ('\'' :: text) (← c.advance 2)
        else
          let c ← c.advance 1
          if ch == (if double then '"' else '\'') then return (.ofList text.reverse, c)
          else scanQuotedFrom double fuel (ch :: text) c

def scanQuoted (double : Bool) (c : Cursor) : Scan (String × Cursor) := do
  scanQuotedFrom double (c.rest.length + 1) [] (← c.advance 1)

end SkillAtlas.Yaml
