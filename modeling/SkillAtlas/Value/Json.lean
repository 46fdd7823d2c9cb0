import SkillAtlas.Fault

/-!
# JSON documents

A value is written with one item to a line, two spaces to a level, and every character outside ASCII as
an escape of its UTF-16 units. Dates, bytes and sets have no form in such a document, and neither have numbers
with more digits than are ever written and values that hold themselves.
-/

namespace SkillAtlas.Json

open Text (hexDigits)

/-- The escape of one UTF-16 unit. -/
def unitEscape (n : Nat) : List Char :=
  '\\' :: 'u' :: hexDigits 4 n

def escapedChar (c : Char) : List Char :=
  if c == '"' || c == '\\' then ['\\', c]
  else if c == '\n' then ['\\', 'n']
  else if c == '\r' then ['\\', 'r']
  else if c == '\t' then ['\\', 't']
  else if c == '\x0c' then ['\\', 'f']
  else if c == '\x08' then ['\\', 'b']
  else if ' ' ≤ c && c ≤ '~' then [c]
  else if c.toNat < 0x10000 then unitEscape c.toNat
  else
    let n := c.toNat - 0x10000
    unitEscape (0xD800 + n / 0x400) ++ unitEscape (0xDC00 + n % 0x400)

/-- A text between double quotes. -/
def text (s : String) : String :=
  .ofList ('"' :: s.toList.flatMap escapedChar ++ ['"'])

/-- The form of values that are no containers. -/
def atom : Value → Except Fault String
  | .null => .ok "null"
  | .bool b => .ok (if b then "true" else "false")
  | .int n => (Value.int n).told
  | .float x => .ok (Decimal.json.write x)
  | .str s => .ok (text s)
  | .again _ => .error .badValue
  | _ => .error .wrongKind

/-- The form of a key; numbers, truth values and nothing become texts. -/
def key : Value → Except Fault String
  | .str s => .ok (text s)
  | v => (atom v).map text

/-- A line break and the spaces of a level. -/
def newLine (level : Nat) : String :=
  "".pushn ' ' (2 * level) |> ("\n" ++ ·)

/-- Items between brackets, one to a line. -/
def block (opening closing : String) (level : Nat) (items : List String) : String :=
  if items.isEmpty then opening ++ closing
  else opening ++ newLine (level + 1) ++ ("," ++ newLine (level + 1)).intercalate items ++
    newLine level ++ closing

mutual
/-- The JSON form of a value at a level. -/
def writeAt (level : Nat) : Value → Except Fault String
  | .list items | .tuple items => do return block "[" "]" level (← writeItems (level + 1) items)
  | .map entries => do return block "\x7b" "\x7d" level (← writeEntries (level + 1) entries)
  | v => atom v

def writeItems (level : Nat) : List Value → Except Fault (List String)
  | [] => .ok []
  | v :: rest => do return (← writeAt level v) :: (← writeItems level rest)

def writeEntries (level : Nat) : List (Value × Value) → Except Fault (List String)
  | [] => .ok []
  | (k, v) :: rest => do
    return ((← key k) ++ ": " ++ (← writeAt level v)) :: (← writeEntries level rest)
end

def write (v : Value) : Except Fault String :=
  writeAt 0 v

end SkillAtlas.Json
