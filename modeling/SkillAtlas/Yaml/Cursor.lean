import SkillAtlas.Fault

/-!
# Positions in a text

A text may come in pieces, of which only the first can be had. Reading asks for no more characters than it
looks at, so it ends as it ends for the whole text, unless it asks for a character behind the pieces that can be
had. Then it fails by what is wrong with the next piece.

A cursor holds the text that is still to be read, with the line, the column and the index of its first
character. Line ends count as such in all their forms, and a byte order mark takes no column. Whoever moves a
cursor on asks for the character behind.
-/

namespace SkillAtlas.Yaml

/-! ### Texts as far as they can be had -/

/-- A character that a document may hold. -/
def isAllowed (c : Char) : Bool :=
  let n := c.toNat
  c == '\t' || c == '\n' || c == '\r' || (0x20 ≤ n && n ≤ 0x7E) || n == 0x85 || (0xA0 ≤ n && n ≤ 0xD7FF) ||
    (0xE000 ≤ n && n ≤ 0xFFFD) || 0x10000 ≤ n

structure Source where
  chars : List Char
  /-- why there are no characters behind these; nothing at the end of a text -/
  beyond : Option Fault := none

/-- A text in one piece. -/
def Source.ofText (s : String) : Source :=
  if s.toList.all isAllowed then ⟨s.toList, none⟩ else ⟨[], some .malformed⟩

/-- A step of reading, which may ask for what lies behind all that can be had. -/
abbrev Scan := ReaderT (Option Fault) (Except Fault)

namespace Scan

def malformed {α : Type} : Scan α :=
  throw .malformed

/-- Asks for what lies behind all that can be had. -/
def beyond : Scan Unit := do
  match ← read with
  | none => return ()
  | some f => throw f

end Scan

/-! ### Line ends and blanks -/

def isBreak (c : Char) : Bool :=
  c == '\r' || c == '\n' || c == '\x85' || c == '\u2028' || c == '\u2029'

/-- The character ends a run of text: a space, a line end, or the end of the text. -/
def endsWord : Option Char → Bool
  | none => true
  | some c => c == ' ' || isBreak c

/-- As `endsWord`, with tabs. -/
def endsToken : Option Char → Bool
  | some '\t' => true
  | o => endsWord o

/-! ### Cursors -/

/-- A place in a text. -/
structure Cursor where
  rest : List Char
  index : Nat
  line : Nat
  column : Nat

namespace Cursor

def start (cs : List Char) : Cursor :=
  ⟨cs, 0, 0, 0⟩

def head (c : Cursor) : Option Char :=
  c.rest.head?

def at? (c : Cursor) (ch : Char) : Bool :=
  c.rest.head? == some ch

/-- The character some places on; none at the end of the text. -/
def peek (c : Cursor) (n : Nat) : Scan (Option Char) :=
  match c.rest[n]? with
  | some ch => return some ch
  | none => do
    Scan.beyond
    return none

def next (c : Cursor) : Cursor :=
  match c.rest with
  | [] => c
  | ch :: rest =>
    if isBreak ch && !(ch == '\r' && rest.head? == some '\n') then ⟨rest, c.index + 1, c.line + 1, 0⟩
    else ⟨rest, c.index + 1, c.line, if ch == '\uFEFF' then c.column else c.column + 1⟩

/-- The place after some characters. -/
def after (c : Cursor) : Nat → Cursor
  | 0 => c
  | n + 1 => c.next.after n

/-- Moves on, to where there is a character or the text ends. -/
def advance (c : Cursor) (n : Nat) : Scan Cursor := do
  let c := c.after n
  if c.rest.isEmpty then Scan.beyond
  return c

/-- The run of characters with a property, and the place after it. -/
def span (p : Char → Bool) (c : Cursor) : Scan (List Char × Cursor) := do
  let run := c.rest.takeWhile p
  return (run, ← c.advance run.length)

/-- The place after a run of characters with a property. -/
def skip (p : Char → Bool) (c : Cursor) : Scan Cursor := do
  return (← c.span p).2

/-- Reads one line end, if there is one. The usual forms give a line feed, the two Unicode separators
give themselves. -/
def lineBreak? (c : Cursor) : Scan (Option (Char × Cursor)) := do
  match c.rest with
  | '\r' :: '\n' :: _ => return some ('\n', ← c.advance 2)
  | ch :: _ =>
    if ch == '\u2028' || ch == '\u2029' then return some (ch, ← c.advance 1)
    else if isBreak ch then return some ('\n', ← c.advance 1)
    else return none
  | [] => return none

/-- The cursor stands before one of the marks that separate documents. -/
def atSeparator (c : Cursor) : Scan Bool := do
  let _ ← c.peek 2
  if c.rest.take 3 == ['-', '-', '-'] || c.rest.take 3 == ['.', '.', '.'] then
    return endsToken (← c.peek 3)
  else return false

/-- Passes over a comment, if there is one. -/
def skipComment (c : Cursor) : Scan Cursor :=
  if c.at? '#' then c.skip (!isBreak ·) else return c

/-- After the blanks and the comment at the end of a line, the line must end. -/
def restOfLine (c : Cursor) : Scan Cursor := do
  let c ← (← c.skip (· == ' ')).skipComment
  match c.head, ← c.lineBreak? with
  | none, _ => return c
  | some _, some (_, c) => return c
  | some _, none => Scan.malformed

end Cursor

end SkillAtlas.Yaml
