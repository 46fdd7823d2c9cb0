import SkillAtlas.Yaml.BlockText
import SkillAtlas.Yaml.QuotedText

/-!
# The tokens of a text

Tokens are read from left to right. Columns open and close blocks: a token `blockEnd` closes each block
whose column lies behind the current one. A text that a colon follows turns out to be a key only at the
colon, so places where a key may have started are remembered, and the token `key` is put in there
afterwards. Such a place lapses at the end of its line and after 1024 characters.

A token can be had once no key can be put in before it. So where the text fails, some of the tokens in front can
be had and others cannot.
-/

namespace SkillAtlas.Yaml

/-- A place where a key may have started. -/
structure KeyPlace where
  /-- the number of tokens before it -/
  position : Nat
  /-- a block mapping cannot go on unless this is a key -/
  required : Bool
  index : Nat
  line : Nat
  column : Nat

/-- The state of reading tokens. -/
structure Scanner where
  cursor : Cursor
  tokens : Array Token
  /-- the column of the current block, -1 outside all blocks -/
  indent : Int
  /-- the columns of the blocks around it, innermost first -/
  indents : List Int
  /-- the number of open flow collections -/
  flowLevel : Nat
  /-- a key may start here -/
  keyAllowed : Bool
  /-- the places where keys may have started, by flow level -/
  places : List (Nat × KeyPlace)

namespace Scanner

/-- The state before the first token. -/
def start (cs : List Char) : Scanner :=
  ⟨.start cs, #[], -1, [], 0, true, []⟩

def inFlow (s : Scanner) : Bool :=
  s.flowLevel != 0

def push (s : Scanner) (t : Token) : Scanner :=
  { s with tokens := s.tokens.push t }

def putAt (s : Scanner) (position : Nat) (t : Token) : Scanner :=
  { s with tokens := s.tokens.insertIdxIfInBounds position t }

def dropLapsed (s : Scanner) : Except Fault Scanner :=
  let lapsed (k : KeyPlace) := k.line != s.cursor.line || s.cursor.index > k.index + 1024
  if s.places.any fun p => lapsed p.2 && p.2.required then .error .malformed
  else .ok { s with places := s.places.filter fun p => !lapsed p.2 }

/-- Forgets the place of the current flow level, which must not be required. -/
def forgetPlace (s : Scanner) : Scan Scanner :=
  if s.places.any fun p => p.1 == s.flowLevel && p.2.required then Scan.malformed
  else return { s with places := s.places.filter fun p => p.1 != s.flowLevel }

/-- Remembers the current place, if a key may start here. -/
def rememberPlace (s : Scanner) : Scan Scanner := do
  if s.keyAllowed then
    let s ← s.forgetPlace
    let c := s.cursor
    let required := !s.inFlow && s.indent == c.column
    return { s with places := (s.flowLevel, ⟨s.tokens.size, required, c.index, c.line, c.column⟩) :: s.places }
  else return s

/-- Closes the blocks whose columns lie behind `column`. -/
def closeBlocks (column : Int) : List Int → Scanner → Scanner
  | [], s => s
  | outer :: rest, s =>
    if s.indent > column then
      closeBlocks column rest { s.push .blockEnd with indent := outer, indents := rest }
    else s

/-- Closes the blocks whose columns lie behind `column`; flow collections do not look at columns. -/
def unwind (s : Scanner) (column : Int) : Scanner :=
  if s.inFlow then s else closeBlocks column s.indents s

/-- Opens a block at a column, if the current block lies before it. -/
def openBlock (s : Scanner) (column : Nat) (position : Nat) (t : Token) : Scanner :=
  if s.indent < column then
    { s.putAt position t with indent := column, indents := s.indent :: s.indents }
  else s

/-- Skips blanks, comments and line ends. -/
def skipBlanks : Nat → Scanner → Scan Scanner
  | 0, s => return s
  | fuel + 1, s => do
    let c ← (← s.cursor.skip (· == ' ')).skipComment
    match ← c.lineBreak? with
    | some (_, c) => skipBlanks fuel { s with cursor := c, keyAllowed := s.keyAllowed || !s.inFlow }
    | none => return { s with cursor := c }

def advance (s : Scanner) (n : Nat) : Scan Scanner := do
  return { s with cursor := ← s.cursor.advance n }

/-- A mark or directive that stands outside all blocks. -/
def leaveBlocks (s : Scanner) : Scan Scanner := do
  let s ← (s.unwind (-1)).forgetPlace
  return { s with keyAllowed := false }

/-- The token of a document mark. -/
def documentMark (s : Scanner) (t : Token) : Scan Scanner := do
  ((← s.leaveBlocks).push t).advance 3

def openFlow (s : Scanner) (t : Token) : Scan Scanner := do
  let s ← ((← s.rememberPlace).push t).advance 1
  return { s with flowLevel := s.flowLevel + 1, keyAllowed := true }

def closeFlow (s : Scanner) (t : Token) : Scan Scanner := do
  let s ← ((← s.forgetPlace).push t).advance 1
  if s.inFlow then return { s with flowLevel := s.flowLevel - 1, keyAllowed := false } else Scan.malformed

/-- The comma between items of a flow collection. -/
def flowEntry (s : Scanner) : Scan Scanner := do
  let s ← ((← s.forgetPlace).push .flowEntry).advance 1
  return { s with keyAllowed := true }

/-- An entry may start a block here; in flow collections this is not looked at. -/
def opensEntry (s : Scanner) (t : Token) : Scan Scanner :=
  if s.inFlow then return s
  else if s.keyAllowed then return s.openBlock s.cursor.column s.tokens.size t
  else Scan.malformed

/-- The dash before an item of a block sequence. -/
def blockEntry (s : Scanner) : Scan Scanner := do
  let s ← (← s.opensEntry .blockSequenceStart).forgetPlace
  let s ← (s.push .blockEntry).advance 1
  return { s with keyAllowed := true }

/-- The question mark before a key. -/
def explicitKey (s : Scanner) : Scan Scanner := do
  let s ← (← s.opensEntry .blockMappingStart).forgetPlace
  let s ← (s.push .key).advance 1
  return { s with keyAllowed := !s.inFlow }

/-- The colon after a key. -/
def keyValue (s : Scanner) : Scan Scanner := do
  match s.places.find? fun p => p.1 == s.flowLevel with
  | some (_, k) =>
    let s := { s with places := s.places.filter fun p => p.1 != s.flowLevel }
    let s := s.putAt k.position .key
    let s := if s.inFlow then s else s.openBlock k.column k.position .blockMappingStart
    let s ← (s.push .value).advance 1
    return { s with keyAllowed := false }
  | none =>
    let s ← (← s.opensEntry .blockMappingStart).forgetPlace
    let s ← (s.push .value).advance 1
    return { s with keyAllowed := !s.inFlow }

/-- A token that may start a key, read by `scan`. -/
def content (s : Scanner) (scan : Cursor → Scan (Token × Cursor)) : Scan Scanner := do
  let s ← s.rememberPlace
  let (t, c) ← scan s.cursor
  return { s.push t with cursor := c, keyAllowed := false }

/-- The name of an anchor or an alias. -/
def namedContent (s : Scanner) (token : String → Token) : Scan Scanner :=
  s.content fun c => do
    let (name, c) ← scanName c
    return (token name, c)

def quotedContent (s : Scanner) (double : Bool) : Scan Scanner :=
  s.content fun c => do
    let (text, c) ← scanQuoted double c
    return (.scalar text false, c)

def directive (s : Scanner) : Scan Scanner := do
  let s ← s.leaveBlocks
  let (t, c) ← scanDirective s.cursor
  return { s.push t with cursor := c }

/-- A plain text. After a line end a key may start again. -/
def plainContent (s : Scanner) : Scan Scanner := do
  let s ← s.rememberPlace
  let (text, ended, c) ← scanPlain s.inFlow (s.indent + 1) s.cursor
  return { s.push (.scalar text true) with cursor := c, keyAllowed := ended }

def blockContent (s : Scanner) (folded : Bool) : Scan Scanner := do
  let s ← s.forgetPlace
  let (text, c) ← scanBlockText folded s.indent s.cursor
  return { s.push (.scalar text false) with cursor := c, keyAllowed := true }

/-- A plain text may start with the character `ch` at the cursor. Behind a character that has a meaning of its
own the next one is asked for. -/
def startsPlain (s : Scanner) (ch : Char) : Scan Bool := do
  if endsToken (some ch) || "?:,[]\x7b\x7d#&*!|>'\"%@`-".toList.contains ch then
    let blankNext := endsToken (← s.cursor.peek 1)
    return !blankNext && (ch == '-' || (!s.inFlow && (ch == '?' || ch == ':')))
  else return true

/-- A document mark stands at the cursor, on the character `ch`. -/
def atMark (s : Scanner) (ch : Char) : Scan Bool :=
  if s.cursor.column == 0 && (ch == '-' || ch == '.') then s.cursor.atSeparator else return false

/-- The character `ch` at the cursor stands in front of an entry, a key or a value. A blank must follow it, save
that keys and values in flow collections do without. -/
def atIndicator (s : Scanner) (ch : Char) : Scan Bool := do
  if ch == '-' || (!s.inFlow && (ch == '?' || ch == ':')) then return endsToken (← s.cursor.peek 1)
  else return ch == '?' || ch == ':'

/-- Reads the token that starts with the character `ch` at the cursor. -/
def token (s : Scanner) (ch : Char) : Scan Scanner := do
  if ch == '%' && s.cursor.column == 0 then s.directive
  else if ← s.atMark ch then s.documentMark (if ch == '-' then .documentStart else .documentEnd)
  else if ch == '[' then s.openFlow .flowSequenceStart
  else if ch == '\x7b' then s.openFlow .flowMappingStart
  else if ch == ']' then s.closeFlow .flowSequenceEnd
  else if ch == '\x7d' then s.closeFlow .flowMappingEnd
  else if ch == ',' then s.flowEntry
  else if ← s.atIndicator ch then
    if ch == '-' then s.blockEntry else if ch == '?' then s.explicitKey else s.keyValue
  else if ch == '*' then s.namedContent .alias
  else if ch == '&' then s.namedContent .anchor
  else if ch == '!' then s.content scanTag
  else if ch == '|' && !s.inFlow then s.blockContent false
  else if ch == '>' && !s.inFlow then s.blockContent true
  else if ch == '\'' || ch == '"' then s.quotedContent (ch == '"')
  else if ← s.startsPlain ch then s.plainContent
  else Scan.malformed

/-- The end of the text, where all blocks end. -/
def finish (s : Scanner) : Scan Scanner := do
  return (← (s.unwind (-1)).forgetPlace).push .streamEnd

/-- Reads the next token, and tells whether it is the end of the text. -/
def step (s : Scanner) : Scan (Scanner × Bool) := do
  let s ← (← s.skipBlanks (s.cursor.rest.length + 1)).dropLapsed
  let s := s.unwind s.cursor.column
  match s.cursor.head with
  | none => return (← s.finish, true)
  | some ch => return (← s.token ch, false)

end Scanner

/-- The tokens of a text as far as they can be had. -/
structure Tokens where
  ready : List Token
  /-- why there are no tokens behind these; nothing behind the end of the text -/
  stop : Option Fault := none

namespace Scanner

/-- The tokens that can be had before the next one, which fails. Places where keys may have started keep those
behind them back. -/
def stopped (s : Scanner) (f : Fault) : Tokens :=
  match s.dropLapsed with
  | .error g => ⟨[], some g⟩
  | .ok s =>
    let first := s.places.foldl (fun n p => min n p.2.position) s.tokens.size
    ⟨s.tokens.toList.take first, some f⟩

/-- Reads tokens to the end of the text. -/
def run (beyond : Option Fault) : Nat → Scanner → Tokens
  | 0, s => s.stopped .malformed
  | fuel + 1, s => match s.step beyond with
    | .error f => s.stopped f
    | .ok (s, true) => ⟨s.tokens.toList, none⟩
    | .ok (s, false) => run beyond fuel s

/-- The state before the first token. A byte order mark is passed over. -/
def begin (cs : List Char) : Scan Scanner :=
  (start cs).advance (if cs.head? == some '\uFEFF' then 1 else 0)

end Scanner

/-- The tokens of a text. -/
def tokensOf (source : Source) : Tokens :=
  match Scanner.begin source.chars source.beyond with
  | .error f => ⟨[], some f⟩
  | .ok s => s.run source.beyond (source.chars.length + 2)

end SkillAtlas.Yaml
