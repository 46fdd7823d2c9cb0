import SkillAtlas.Yaml.Cursor

/-!
# Texts without quotes

A plain text ends before a comment, before a colon that a blank follows, before the marks of flow
collections inside them, and where the indentation falls back. A line break inside it is one space, and
each further empty line is one line feed.
-/

namespace SkillAtlas.Yaml

def isFlowMark (c : Char) : Bool :=
  c == ',' || c == '[' || c == ']' || c == '\x7b' || c == '\x7d'

/-- The next characters of a plain text on one line. -/
def plainRun (inFlow : Bool) : List Char → List Char
  | [] => []
  | c :: rest =>
    if endsToken (some c) then []
    else if c == ':' && (endsToken rest.head? || (inFlow && rest.head?.any isFlowMark)) then []
    else if inFlow && (isFlowMark c || c == '?') then []
    else c :: plainRun inFlow rest

/-- The next characters of a plain text, up to the end of the run or a comment. At a colon the character behind
it is asked for. -/
def scanRun (inFlow : Bool) (c : Cursor) : Scan (List Char) := do
  if c.at? '#' then return []
  else
    let run := plainRun inFlow c.rest
    let last ← c.peek run.length
    if last == some ':' then
      let _ ← c.peek (run.length + 1)
    return run

/-- Spaces and line ends inside a plain text: the line ends, and whether a document mark stopped it. -/
def plainBreaks : Nat → List Char → Cursor → Scan (List Char × Bool × Cursor)
  | 0, breaks, c => return (breaks, false, c)
  | fuel + 1, breaks, c => do
    if c.at? ' ' then plainBreaks fuel breaks (← c.advance 1)
    else match ← c.lineBreak? with
      | some (b, c) =>
        if ← c.atSeparator then return (breaks, true, c) else plainBreaks fuel (breaks ++ [b]) c
      | none => return (breaks, false, c)

/-- The text that line ends inside a text stand for: one alone is a space. -/
def foldedBreaks (first : Char) (others : List Char) : List Char :=
  if first != '\n' then first :: others else if others.isEmpty then [' '] else others

/-- What stands for the blanks after a run, whether a line ended, and the place after them. -/
def plainGap (c : Cursor) : Scan (List Char × Bool × Cursor) := do
  let (spaces, c) ← c.span (· == ' ')
  match ← c.lineBreak? with
  | none => return (spaces, false, c)
  | some (first, c) =>
    if ← c.atSeparator then return ([], true, c)
    else
      let (others, stopped, c) ← plainBreaks (c.rest.length + 1) [] c
      return (if stopped then [] else foldedBreaks first others, true, c)

/-- The plain text at the cursor: `text` and `gap` are what was read before. The answer also tells
whether a line ended after the last run. -/
def scanPlainFrom (inFlow : Bool) (indent : Int) :
    Nat → List Char → List Char → Bool → Cursor → Scan (List Char × Bool × Cursor)
  | 0, text, _, ended, c => return (text, ended, c)
  | fuel + 1, text, gap, ended, c => do
    let run ← scanRun inFlow c
    if run.isEmpty then return (text, ended, c)
    else
      let text := text ++ gap ++ run
      let (gap, ended, c) ← plainGap (← c.advance run.length)
      if gap.isEmpty || c.at? '#' || (!inFlow && (c.column : Int) < indent) then return (text, ended, c)
      else scanPlainFrom inFlow indent fuel text gap ended c

/-- The plain text at the cursor; `indent` is the least column of its further lines. -/
def scanPlain (inFlow : Bool) (indent : Int) (c : Cursor) : Scan (String × Bool × Cursor) := do
  let (text, ended, c) ← scanPlainFrom inFlow indent (c.rest.length + 1) [] [] false c
  return (.ofList text, ended, c)

end SkillAtlas.Yaml
