import SkillAtlas.Text.Quoted
import SkillAtlas.Value.Linked

/-!
# Writing documents

A value is written so that reading it back gives the value, with tuples as lists. Texts stand between
double quotes; the entries of mappings have lines of their own, and all other containers stand on one line.
A shared mapping is written in the first of its places, with an anchor, and as an alias in the others, those inside
it included.
-/

namespace SkillAtlas.Yaml

open Text (hexDigits)

/-- One character of a text between double quotes. -/
def writtenChar (c : Char) : List Char :=
  if c == '"' || c == '\\' then ['\\', c]
  else if ' ' ≤ c && c ≤ '~' then [c]
  else if c.toNat < 0x100 then '\\' :: 'x' :: hexDigits 2 c.toNat
  else if c.toNat < 0x10000 then '\\' :: 'u' :: hexDigits 4 c.toNat
  else '\\' :: 'U' :: hexDigits 8 c.toNat

def writtenText (s : String) : String :=
  .ofList ('"' :: s.toList.flatMap writtenChar ++ ['"'])

/-- Floats are written without an exponent. -/
def floatLayout : Decimal.Layout :=
  ⟨-400, 400, 2, ".nan", ".inf"⟩

def digit64 (n : Nat) : Char :=
  if n < 26 then Char.ofNat (n + 65)
  else if n < 52 then Char.ofNat (n + 71)
  else if n < 62 then Char.ofNat (n - 4)
  else if n == 62 then '+' else '/'

/-- The digits of up to three bytes, filled with equals signs. -/
def group64 (a : UInt8) (b c : Option UInt8) : List Char :=
  let n := a.toNat * 0x10000 + (b.getD 0).toNat * 0x100 + (c.getD 0).toNat
  [digit64 (n / 0x40000), digit64 (n / 0x1000 % 64),
    if b.isSome then digit64 (n / 64 % 64) else '=', if c.isSome then digit64 (n % 64) else '=']

/-- Bytes in digits of six bits. -/
def base64 : List UInt8 → List Char
  | [] => []
  | [a] => group64 a none none
  | [a, b] => group64 a (some b) none
  | a :: b :: c :: rest => group64 a (some b) (some c) ++ base64 rest

mutual
/-- A value on one line. -/
def inline : Value → String
  | .null => "null"
  | .bool b => if b then "true" else "false"
  | .int n => toString n
  | .float x => floatLayout.write x
  | .str s => writtenText s
  | .bytes bs => "!!binary \"" ++ .ofList (base64 bs) ++ "\""
  | .date d => d.text
  | .moment m => m.text
  | .list items | .tuple items => "[" ++ ", ".intercalate (inlineItems items) ++ "]"
  | .set items => "!!set \x7b" ++ ", ".intercalate (inlineKeys items) ++ "\x7d"
  | .map entries => "\x7b" ++ ", ".intercalate (inlineEntries entries) ++ "\x7d"
  | .again isList => if isList then "[]" else "\x7b\x7d"

def inlineItems : List Value → List String
  | [] => []
  | v :: rest => inline v :: inlineItems rest

def inlineKeys : List Value → List String
  | [] => []
  | v :: rest => ("? " ++ inline v) :: inlineKeys rest

def inlineEntries : List (Value × Value) → List String
  | [] => []
  | (k, v) :: rest => ("? " ++ inline k ++ " : " ++ inline v) :: inlineEntries rest
end

/-- The alias of what is among that written before. -/
def alias? (written : List Nat) (mark : Option Nat) : Option String :=
  (mark.filter written.contains).map fun n => s!"*{n}"

/-- What stands in front of what is shared. -/
def anchorWords (mark : Option Nat) : List String :=
  mark.toList.map fun n => s!"&{n}"

mutual
/-- A value on one line, after the mappings that were written before. -/
def inlineLinked (written : List Nat) : Linked → String
  | .plain v => inline v
  | .tuple items => "[" ++ ", ".intercalate (inlineLinkedItems written items) ++ "]"
  | .list mark items =>
    match alias? written mark with
    | some a => a
    | none => " ".intercalate (anchorWords mark ++
        ["[" ++ ", ".intercalate (inlineLinkedItems (written ++ mark.toList) items) ++ "]"])
  | .map mark es =>
    match alias? written mark with
    | some a => a
    | none => " ".intercalate (anchorWords mark ++
        ["\x7b" ++ ", ".intercalate (inlineLinkedEntries (written ++ mark.toList) es) ++ "\x7d"])
  | .again mark _ => s!"*{mark}"

def inlineLinkedItems (written : List Nat) : List Linked → List String
  | [] => []
  | l :: rest => inlineLinked written l :: inlineLinkedItems (written ++ l.marks) rest

def inlineLinkedEntries (written : List Nat) : LinkedEntries → List String
  | [] => []
  | (k, l) :: rest =>
    ("? " ++ inline k ++ " : " ++ inlineLinked written l) :: inlineLinkedEntries (written ++ l.marks) rest
end

/-- A key at the front of a line. A long text and any other value have a mark before them. -/
def keyLines (indent : String) (k : Value) : List String × String :=
  match k with
  | .str s =>
    if s.length < 60 then ([], indent ++ writtenText s ++ ":")
    else ([indent ++ "? " ++ writtenText s], indent ++ ":")
  | k => ([indent ++ "? " ++ inline k], indent ++ ":")

mutual
/-- The lines of the entries of a mapping, after the mappings that were written before. -/
def entryLines (indent : String) (written : List Nat) : LinkedEntries → List String
  | [] => []
  | (k, l) :: rest =>
    let (before, start) := keyLines indent k
    before ++ valueLines indent start written l ++ entryLines indent (written ++ l.marks) rest

/-- The lines of a value after the start of its first line. -/
def valueLines (indent start : String) (written : List Nat) : Linked → List String
  | .map mark (e :: rest) =>
    match alias? written mark with
    | some a => [start ++ " " ++ a]
    | none => " ".intercalate (start :: anchorWords mark) ::
        entryLines (indent ++ "  ") (written ++ mark.toList) (e :: rest)
  | l => [start ++ " " ++ inlineLinked written l]
end

/-- The text of a document with one value, which has to be told. -/
def writeLinked (l : Linked) : Except Fault String :=
  if !l.value.isTold then .error .badValue
  else match l with
    | .map none (e :: rest) => .ok ("\n".intercalate (entryLines "" [] (e :: rest)) ++ "\n")
    | l => .ok (inlineLinked [] l ++ "\n")

/-- The text of a document with one value, nothing of which is shared. -/
def write (v : Value) : Except Fault String :=
  writeLinked (.ofValue v)

end SkillAtlas.Yaml
