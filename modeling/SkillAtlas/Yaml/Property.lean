import SkillAtlas.Yaml.Cursor

/-!
# Tokens, and how anchors, tags and directives are read

The tokens of a document are the marks, properties and texts that it is made of, in their order. Where
indentation opens or closes a block, and where a key of a mapping starts, a token says so.
-/

namespace SkillAtlas.Yaml

/-! ### Tokens -/

/-- A line of instructions in front of a document. -/
inductive Directive where
  | version (major : Nat)
  | handle (name : String) (leading : String)
  | other

inductive Token where
  | streamEnd
  | directive (d : Directive)
  | documentStart
  | documentEnd
  | blockSequenceStart
  | blockMappingStart
  | blockEnd
  | flowSequenceStart
  | flowSequenceEnd
  | flowMappingStart
  | flowMappingEnd
  | blockEntry
  | flowEntry
  | key
  | value
  | alias (name : String)
  | anchor (name : String)
  /-- a tag, with the handle in front of it unless it is written in full -/
  | tag (handle : Option String) (suffix : String)
  | scalar (text : String) (plain : Bool)

/-- A character of a name: an ASCII letter or digit, `-` or `_`. -/
def isNameChar (c : Char) : Bool :=
  c.isAlphanum || c == '-' || c == '_'

/-- A character of a tag that is not escaped. -/
def isTagChar (c : Char) : Bool :=
  c.isAlphanum || "-;/?:@&=+$,_.!~*'()[]".toList.contains c

def hexValue? (c : Char) : Option Nat :=
  if c.isDigit then some (c.toNat - '0'.toNat)
  else if 'a' ≤ c && c ≤ 'f' then some (c.toNat - 'a'.toNat + 10)
  else if 'A' ≤ c && c ≤ 'F' then some (c.toNat - 'A'.toNat + 10)
  else none

/-- The number that exactly `width` digits to base sixteen at the cursor write, as far as the text can be had. -/
def hexNumber? (width : Nat) (c : Cursor) : Option Nat :=
  let digits := c.rest.take width
  if digits.length == width then
    digits.foldlM (fun n d => (hexValue? d).map (n * 16 + ·)) 0
  else none

/-- As `hexNumber?`. Without such a number, the first character that is no digit is asked for. -/
def hexNumber (width : Nat) (c : Cursor) : Scan Nat := do
  match hexNumber? width c with
  | some n => return n
  | none =>
    let _ ← c.peek (c.rest.takeWhile fun d => (hexValue? d).isSome).length
    Scan.malformed

/-- The name after the mark of an anchor or an alias. -/
def scanName (c : Cursor) : Scan (String × Cursor) := do
  let (name, c) ← (← c.advance 1).span isNameChar
  if name.isEmpty then Scan.malformed
  else if endsToken c.head || c.head.any ("?:,]\x7d%@`".toList.contains ·) then return (.ofList name, c)
  else Scan.malformed

/-- A handle: one exclamation mark, or a name between two. -/
def scanHandle (c : Cursor) : Scan (String × Cursor) := do
  if !c.at? '!' then Scan.malformed
  else if (← c.peek 1) == some ' ' then return ("!", ← c.advance 1)
  else
    let name := (c.rest.drop 1).takeWhile isNameChar
    if (← c.peek (name.length + 1)) == some '!' then
      return (.ofList ('!' :: name ++ ['!']), ← c.advance (name.length + 2))
    else Scan.malformed

/-- Bytes written as escapes in a tag. -/
def scanEscapedBytes : Nat → Cursor → Scan (List UInt8 × Cursor)
  | 0, c => return ([], c)
  | fuel + 1, c => do
    if c.at? '%' then
      let c ← c.advance 1
      let n ← hexNumber 2 c
      let (rest, c) ← scanEscapedBytes fuel (← c.advance 2)
      return (.ofNat n :: rest, c)
    else return ([], c)

def scanTagChars : Nat → Cursor → Scan (List Char × Cursor)
  | 0, c => return ([], c)
  | fuel + 1, c => do
    match c.head with
    | none => return ([], c)
    | some ch =>
      if ch == '%' then
        let (bytes, c) ← scanEscapedBytes (c.rest.length + 1) c
        match String.fromUTF8? ⟨bytes.toArray⟩ with
        | none => Scan.malformed
        | some s =>
          let (rest, c) ← scanTagChars fuel c
          return (s.toList ++ rest, c)
      else if isTagChar ch then
        let (rest, c) ← scanTagChars fuel (← c.advance 1)
        return (ch :: rest, c)
      else return ([], c)

/-- The text of a tag, which is never empty. -/
def scanTagText (c : Cursor) : Scan (String × Cursor) := do
  let (cs, c) ← scanTagChars (c.rest.length + 1) c
  if cs.isEmpty then Scan.malformed else return (.ofList cs, c)

/-- A tag in full, between angle brackets. -/
def scanFullTag (c : Cursor) : Scan (Token × Cursor) := do
  let (suffix, c) ← scanTagText (← c.advance 2)
  if c.at? '>' then return (.tag none suffix, ← c.advance 1) else Scan.malformed

/-- A tag with a handle; one exclamation mark alone may stand for it. -/
def scanShortTag (c : Cursor) : Scan (Token × Cursor) := do
  let word := (c.rest.drop 1).takeWhile fun ch => ch != '!' && !endsWord (some ch)
  if (← c.peek (word.length + 1)) == some '!' then
    let (handle, c) ← scanHandle c
    let (suffix, c) ← scanTagText c
    return (.tag (some handle) suffix, c)
  else
    let (suffix, c) ← scanTagText (← c.advance 1)
    return (.tag (some "!") suffix, c)

/-- The tag at the cursor: in full, bare, or with a handle. -/
def scanTag (c : Cursor) : Scan (Token × Cursor) := do
  let first ← c.peek 1
  let (token, c) ←
    if first == some '<' then scanFullTag c
    else if endsToken first then do pure (Token.tag none "!", ← c.advance 1)
    else scanShortTag c
  if endsWord c.head then return (token, c) else Scan.malformed

/-- The digits of a version number. -/
def scanVersionNumber (c : Cursor) : Scan (Nat × Cursor) := do
  let (digits, c) ← c.span Char.isDigit
  if digits.isEmpty then Scan.malformed
  else if digits.length > Decimal.digitLimit then throw .badValue
  else return (digits.foldl (fun n d => n * 10 + (d.toNat - '0'.toNat)) 0, c)

/-- The version that a directive names. -/
def scanVersion (c : Cursor) : Scan (Directive × Cursor) := do
  let (major, c) ← scanVersionNumber (← c.skip (· == ' '))
  if !c.at? '.' then Scan.malformed
  else
    let (_, c) ← scanVersionNumber (← c.advance 1)
    if endsWord c.head then return (.version major, c) else Scan.malformed

/-- The handle that a directive names, and what it stands for. -/
def scanHandleDirective (c : Cursor) : Scan (Directive × Cursor) := do
  let (handle, c) ← scanHandle (← c.skip (· == ' '))
  if !c.at? ' ' then Scan.malformed
  else
    let (leading, c) ← scanTagText (← c.skip (· == ' '))
    if endsWord c.head then return (.handle handle leading, c) else Scan.malformed

/-- The directive at the cursor, to the end of its line. -/
def scanDirective (c : Cursor) : Scan (Token × Cursor) := do
  let (name, c) ← (← c.advance 1).span isNameChar
  if name.isEmpty || !endsWord c.head then Scan.malformed
  else
    let (d, c) ← match String.ofList name with
      | "YAML" => scanVersion c
      | "TAG" => scanHandleDirective c
      | _ => do pure (Directive.other, ← c.skip (!isBreak ·))
    return (.directive d, ← c.restOfLine)

end SkillAtlas.Yaml
