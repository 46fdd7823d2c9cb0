import SkillAtlas.Text.Basic
import SkillAtlas.Text.Word
import SkillAtlas.Vocabulary.Basic

/-!
# Texts that look like skill lines

A text counts as a skill line when it aims at a target, starts with a known action, has the form of a
mechanic with arguments, or holds one of the keywords. List markers before it are passed over.
-/

namespace SkillAtlas

open Text (isBlank isWord)

/-- Some `@` has a word after it. -/
def hasTargeter : List Char → Bool
  | [] => false
  | [_] => false
  | a :: b :: rest => (a == '@' && isWord b) || hasTargeter (b :: rest)

def leadingWord (cs : List Char) : List Char × List Char :=
  (cs.takeWhile isWord, cs.dropWhile isWord)

/-- A word ends before arguments, before a blank and at the end of the text. -/
def endsWord : List Char → Bool
  | [] => true
  | c :: _ => c == '{' || isBlank c

def startsWithAction (v : Vocabulary) (cs : List Char) : Bool :=
  let (word, rest) := leadingWord cs
  !word.isEmpty && endsWord rest && v.isAction (.ofList word)

def startsWithCall (cs : List Char) : Bool :=
  let (word, rest) := leadingWord cs
  !word.isEmpty && match rest with
    | '{' :: arguments => arguments.contains '}'
    | _ => false

/-- What comes after the list markers at the front of a trimmed text. -/
def afterMarkers : List Char → List Char
  | '-' :: ' ' :: rest => afterMarkers (rest.dropWhile isBlank)
  | cs => cs
termination_by cs => cs.length
decreasing_by
  have := (List.dropWhile_suffix isBlank (l := rest)).length_le
  simp only [List.length_cons]
  omega

def looksLikeSkillLine (v : Vocabulary) (line : String) : Bool :=
  let cs := afterMarkers (Text.trimChars line.toList)
  let small := Text.lowerChars cs
  hasTargeter cs || startsWithAction v small || startsWithCall cs ||
    v.skillLineKeywords.any fun k => Text.occursIn k.toList small

/-- Only texts can look like skill lines. -/
def isSkillLine (v : Vocabulary) : Value → Bool
  | .str s => looksLikeSkillLine v s
  | _ => false

end SkillAtlas
