import SkillAtlas.Yaml.Cursor

/-!
# Texts in blocks

A block text holds the lines that are indented below its header. The literal form keeps line ends, the
folded form turns single ones between lines of the same indentation into spaces, and the header says
what becomes of the line ends after the last line.
-/

namespace SkillAtlas.Yaml

/-- What becomes of the line ends after a block text. -/
inductive Chomping where
  | strip
  | clip
  | keep
deriving DecidableEq

/-- The marks `-` and `+` of a header. -/
def chompingOf? : Option Char → Option Chomping
  | some '-' => some .strip
  | some '+' => some .keep
  | _ => none

/-- A digit of a header, which gives the indentation. -/
def indentOf? : Option Char → Option Nat
  | some c => if c.isDigit then some (c.toNat - '0'.toNat) else none
  | none => none

/-- The digit of a header, if there is one; it is not zero. -/
def scanIncrement (c : Cursor) : Scan (Option Nat × Cursor) := do
  match indentOf? c.head with
  | none => return (none, c)
  | some 0 => Scan.malformed
  | some n => return (some n, ← c.advance 1)

/-- The mark of a header, if there is one. -/
def scanChomping (c : Cursor) : Scan (Option Chomping × Cursor) := do
  match chompingOf? c.head with
  | none => return (none, c)
  | some chomping => return (some chomping, ← c.advance 1)

/-- The header after its first mark: line ends and indentation, if they are given, in either order, and no more
on the line. -/
def scanBlockHeader (c : Cursor) : Scan (Chomping × Option Nat × Cursor) := do
  let (before, c) ← scanChomping c
  let (increment, c) ← scanIncrement c
  let (chomping, c) ← if before.isNone && increment.isSome then scanChomping c else pure (before, c)
  if endsWord c.head then return (chomping.getD .clip, increment, ← c.restOfLine) else Scan.malformed

/-- Empty lines before the first line: their line ends, and the widest indentation among them. -/
def blockIndentation : Nat → List Char → Nat → Cursor → Scan (List Char × Nat × Cursor)
  | 0, breaks, widest, c => return (breaks, widest, c)
  | fuel + 1, breaks, widest, c => do
    if c.at? ' ' then
      let c ← c.advance 1
      blockIndentation fuel breaks (max widest c.column) c
    else match ← c.lineBreak? with
      | some (b, c) => blockIndentation fuel (breaks ++ [b]) widest c
      | none => return (breaks, widest, c)

/-- Skips spaces up to a column. -/
def skipToColumn (column : Nat) : Nat → Cursor → Scan Cursor
  | 0, c => return c
  | fuel + 1, c => do
    if c.column < column && c.at? ' ' then skipToColumn column fuel (← c.advance 1) else return c

/-- Empty lines between lines of a block with the given indentation. -/
def blockBreaks (indent : Nat) : Nat → List Char → Cursor → Scan (List Char × Cursor)
  | 0, breaks, c => return (breaks, c)
  | fuel + 1, breaks, c => do
    let c ← skipToColumn indent indent c
    match ← c.lineBreak? with
    | some (b, c) => blockBreaks indent fuel (breaks ++ [b]) c
    | none => return (breaks, c)

/-- Empty lines between lines of a block. -/
def blockGap (indent : Nat) (c : Cursor) : Scan (List Char × Cursor) :=
  blockBreaks indent (c.rest.length + 1) [] c

/-- The line starts with a blank, so it is not folded. -/
def startsBlank (c : Cursor) : Bool :=
  c.at? ' ' || c.at? '\t'

/-- A line to its end, which is missing in the last line of a text. -/
def scanLine (c : Cursor) : Scan (List Char × Option Char × Cursor) := do
  let (line, c) ← c.span (!isBreak ·)
  match ← c.lineBreak? with
  | some (b, c) => return (line, some b, c)
  | none => return (line, none, c)

/-- The lines of a block text: `text` is what was read before and `breaks` the empty lines after it. The
answer holds the last line end and the empty lines after the block. -/
def blockLines (folded : Bool) (indent : Nat) :
    Nat → List Char → List Char → Cursor → Scan (List Char × Option Char × List Char × Cursor)
  | 0, text, breaks, c => return (text, none, breaks, c)
  | fuel + 1, text, breaks, c => do
    let (line, ending, after) ← scanLine c
    let text := text ++ breaks ++ line
    let (breaks, after) ← blockGap indent after
    if after.column == indent && after.head.isSome then
      let joint :=
        if folded && ending == some '\n' && !startsBlank c && !startsBlank after then
          if breaks.isEmpty then [' '] else []
        else ending.toList
      blockLines folded indent fuel (text ++ joint) breaks after
    else return (text, ending, breaks, after)

/-- The empty lines before the first line of a block, and its indentation, which is given or that of the widest
line. -/
def scanBlockIndent (least : Nat) (increment : Option Nat) (c : Cursor) : Scan (List Char × Nat × Cursor) := do
  match increment with
  | none =>
    let (breaks, widest, c) ← blockIndentation (c.rest.length + 1) [] 0 c
    return (breaks, max least widest, c)
  | some n =>
    let indent := least + n - 1
    let (breaks, c) ← blockGap indent c
    return (breaks, indent, c)

/-- The block text at the cursor, inside a block with the given indentation. -/
def scanBlockText (folded : Bool) (outer : Int) (c : Cursor) : Scan (String × Cursor) := do
  let (chomping, increment, c) ← scanBlockHeader (← c.advance 1)
  let (breaks, indent, c) ← scanBlockIndent (max (outer + 1) 1).toNat increment c
  let (text, ending, breaks, c) ←
    if c.column == indent && c.head.isSome then blockLines folded indent (c.rest.length + 1) [] breaks c
    else pure ([], none, breaks, c)
  let ends := match chomping with
    | .strip => []
    | .clip => ending.toList
    | .keep => ending.toList ++ breaks
  return (.ofList (text ++ ends), c)

end SkillAtlas.Yaml
