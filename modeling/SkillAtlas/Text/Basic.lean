/-!
# Sets of characters, and cutting texts

The classes of characters that the matchers of this library use are given by tables of closed ranges.
Trimming, words, lines, and the parts that two texts share are stated on lists of characters; the versions
on `String` only unwrap and wrap.
-/

namespace SkillAtlas.Text

/-! ### Sets of characters as ranges of code points -/

/-- A set of characters, listed as closed ranges of code points. -/
structure CharSet where
  ranges : Array (Nat × Nat)

def CharSet.contains (s : CharSet) (c : Char) : Bool :=
  s.ranges.any fun r => r.1 ≤ c.toNat && c.toNat ≤ r.2

theorem CharSet.contains_iff {s : CharSet} {c : Char} :
    s.contains c = true ↔ ∃ r ∈ s.ranges, r.1 ≤ c.toNat ∧ c.toNat ≤ r.2 := by
  simp only [contains, Array.any_eq_true', Bool.and_eq_true, decide_eq_true_eq]

/-- Blank characters: spaces of every width, tabs, line and paragraph ends, and the four ASCII separators. -/
def blank : CharSet :=
  ⟨#[
    (0x9, 0xD), (0x1C, 0x20), (0x85, 0x85), (0xA0, 0xA0), (0x1680, 0x1680), (0x2000, 0x200A),
    (0x2028, 0x2029), (0x202F, 0x202F), (0x205F, 0x205F), (0x3000, 0x3000)]⟩

def isBlank (c : Char) : Bool :=
  blank.contains c

/-- Drops blanks from both ends. -/
def trimChars (cs : List Char) : List Char :=
  ((cs.dropWhile isBlank).reverse.dropWhile isBlank).reverse

def trim (s : String) : String :=
  .ofList (trimChars s.toList)

/-- The runs of non-blank characters; `word` holds the current run, last character first. -/
def wordsFrom (word : List Char) : List Char → List (List Char)
  | [] => if word.isEmpty then [] else [word.reverse]
  | c :: rest =>
    if isBlank c then
      if word.isEmpty then wordsFrom [] rest else word.reverse :: wordsFrom [] rest
    else wordsFrom (c :: word) rest

/-- The runs of non-blank characters. -/
def wordsOf (cs : List Char) : List (List Char) :=
  wordsFrom [] cs

/-- The parts between the characters that `sep` picks; `n` separators give `n + 1` parts. -/
def partsBy (sep : Char → Bool) : List Char → List (List Char)
  | [] => [[]]
  | c :: rest =>
    if sep c then [] :: partsBy sep rest
    else match partsBy sep rest with
      | [] => [[c]]
      | part :: parts => (c :: part) :: parts

def joinWith (sep : List Char) (parts : List (List Char)) : List Char :=
  sep.intercalate parts

def endsLine (c : Char) : Bool :=
  c == '\n' || c == '\r' || c == '\x0b' || c == '\x0c' || c == '\x1c' || c == '\x1d' || c == '\x1e' ||
    c == '\x85' || c == '\u2028' || c == '\u2029'

/-- The lines of a text; `line` holds the current one, last character first. A carriage return and the
line feed after it end one line, and a text that ends with a line end has no empty last line. -/
def linesFrom (line : List Char) : List Char → List (List Char)
  | [] => if line.isEmpty then [] else [line.reverse]
  | '\r' :: '\n' :: rest => line.reverse :: linesFrom [] rest
  | c :: rest => if endsLine c then line.reverse :: linesFrom [] rest else linesFrom (c :: line) rest

def linesOf (s : String) : List String :=
  (linesFrom [] s.toList).map String.ofList

/-- Line ends of all three usual forms, written as line feeds. -/
def withPlainLineEnds : List Char → List Char
  | [] => []
  | '\r' :: '\n' :: rest => '\n' :: withPlainLineEnds rest
  | c :: rest => (if c == '\r' then '\n' else c) :: withPlainLineEnds rest

/-- The longest text that both start with. -/
def commonStart : List Char → List Char → List Char
  | a :: as, b :: bs => if a == b then a :: commonStart as bs else []
  | _, _ => []

/-- The longest text that all start with; empty for no texts. -/
def commonStartOfAll : List (List Char) → List Char
  | [] => []
  | a :: rest => rest.foldl commonStart a

/-- The pattern occurs somewhere in the text. -/
def occursIn (p : List Char) : List Char → Bool
  | [] => p.isEmpty
  | c :: rest => p.isPrefixOf (c :: rest) || occursIn p rest

def contains (text p : String) : Bool :=
  occursIn p.toList text.toList

/-- What may stand after a name at the end of a text: nothing, or one line feed. -/
def atEnd (cs : List Char) : Bool :=
  match cs with
  | [] => true
  | ['\n'] => true
  | _ => false

end SkillAtlas.Text
