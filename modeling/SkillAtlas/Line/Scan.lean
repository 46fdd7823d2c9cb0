import SkillAtlas.Text.Basic
import SkillAtlas.Text.Word

/-!
# Finding things in a line

A finder looks at one place of a line: it sees the character before the place and the text after it, and
says what stands there and over how many characters. `findAll` asks it at every place from left to right,
and goes on after the end of what it found.
-/

namespace SkillAtlas.Line

open Text (isBlank isWord)

/-- Looks for something at one place of a line. -/
abbrev Finder (α : Type) := Option Char → List Char → Option (α × Nat)

variable {α : Type}

/-- What is found from a place on; the first `skip` characters belong to what was found before. -/
def findFrom (find : Finder α) (before : Option Char) (skip : Nat) : List Char → List α
  | [] => []
  | c :: rest =>
    match skip with
    | k + 1 => findFrom find (some c) k rest
    | 0 => match find before (c :: rest) with
      | some (a, n) => a :: findFrom find (some c) (n - 1) rest
      | none => findFrom find (some c) 0 rest

def findAll (find : Finder α) (cs : List Char) : List α :=
  findFrom find none 0 cs

/-- A word begins here: no character of a word stands before the place. -/
def atWordStart (before : Option Char) : Bool :=
  !before.any isWord

/-- A character of the name of a unit that is called. -/
def isNameChar (c : Char) : Bool :=
  c != ';' && c != '}' && !isBlank c

/-- The longest run of characters of a class, if there is one. -/
def run? (p : Char → Bool) (cs : List Char) : Option (List Char) :=
  match cs.takeWhile p with
  | [] => none
  | run => some run

/-- The first word of a text, after at most one dash and after blanks. -/
def firstWord? (cs : List Char) : Option (List Char) :=
  let body := match cs with
    | '-' :: rest => rest
    | cs => cs
  run? isWord (body.dropWhile isBlank)

end SkillAtlas.Line
