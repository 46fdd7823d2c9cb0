import SkillAtlas.Line.Scan
import SkillAtlas.Text.CaseMap
import SkillAtlas.Text.Word

/-!
# Attributes in a line

The attributes that reports collect, with their short forms. A long form may start any word, a short form
only an argument. Which form comes first in the table decides which values come first under one key.
-/

namespace SkillAtlas.Line

open Text (isBlank isDigit isWord dropAlike?)

/-- Where an attribute may start. -/
inductive Start where
  /-- at the start of a word -/
  | word
  /-- at the start of an argument: at the front of the line, after `;` or after `{` -/
  | argument
deriving DecidableEq, Repr

/-- What stands between an attribute and its value. -/
inductive Link where
  | equals
  | blanks
deriving DecidableEq, Repr

inductive Form where
  | number
  | digits
  | word
deriving DecidableEq, Repr

structure AttributeRule where
  start : Start
  spelling : String
  link : Link
  form : Form
  /-- the attribute under which the value is collected -/
  key : String

/-- The forms of the attributes. -/
def attributeRules : List AttributeRule :=
  [
    ⟨.word, "amount", .equals, .number, "amount"⟩,
    ⟨.argument, "a", .equals, .number, "damage"⟩,
    ⟨.word, "damage", .equals, .number, "damage"⟩,
    ⟨.word, "delay", .blanks, .digits, "delay"⟩,
    ⟨.argument, "d", .equals, .digits, "duration"⟩,
    ⟨.word, "duration", .equals, .digits, "duration"⟩,
    ⟨.word, "velocity", .equals, .number, "velocity"⟩,
    ⟨.argument, "v", .equals, .number, "velocity"⟩,
    ⟨.word, "repeat", .equals, .digits, "repeat"⟩,
    ⟨.argument, "r", .equals, .number, "radius"⟩,
    ⟨.word, "radius", .equals, .number, "radius"⟩,
    ⟨.word, "level", .equals, .digits, "level"⟩,
    ⟨.word, "lvl", .equals, .digits, "level"⟩,
    ⟨.argument, "l", .equals, .digits, "level"⟩,
    ⟨.word, "type", .equals, .word, "type"⟩,
    ⟨.argument, "t", .equals, .word, "type"⟩,
    ⟨.word, "interval", .equals, .digits, "interval"⟩,
    ⟨.argument, "i", .equals, .digits, "interval"⟩,
    ⟨.word, "ticks", .equals, .digits, "ticks"⟩,
    ⟨.word, "cooldown", .equals, .number, "cooldown"⟩]

/-- Passes over what stands between an attribute and its value. -/
def Link.drop? (l : Link) (cs : List Char) : Option (List Char) :=
  match l, cs with
  | equals, '=' :: rest => some rest
  | blanks, c :: rest => if isBlank c then some (rest.dropWhile isBlank) else none
  | _, _ => none

/-- The value at the front of a text. -/
def Form.read? (f : Form) (cs : List Char) : Option (List Char) :=
  match f with
  | word => run? isWord cs
  | digits => run? isDigit cs
  | number => (run? isDigit cs).map fun whole =>
    match cs.drop whole.length with
    | '.' :: rest => match run? isDigit rest with
      | some fraction => whole ++ '.' :: fraction
      | none => whole
    | _ => whole

/-- The value of an attribute that stands here, and what comes after it. -/
def AttributeRule.valueAt? (r : AttributeRule) (cs : List Char) : Option (List Char × List Char) := do
  let rest ← dropAlike? r.spelling.toList cs
  let rest ← r.link.drop? rest
  let value ← r.form.read? rest
  return (value, rest.drop value.length)

/-- The value of a short form after blanks, and what comes after it. -/
def AttributeRule.afterBlanks? (r : AttributeRule) (cs : List Char) : Option (List Char × List Char) :=
  r.valueAt? (cs.dropWhile isBlank)

def AttributeRule.find (r : AttributeRule) : Finder (List Char) := fun before cs => do
  let (value, rest) ← match r.start with
    | .word => if atWordStart before then r.valueAt? cs else none
    | .argument =>
      let front := if before.isNone then r.afterBlanks? cs else none
      front.or <| match cs with
        | c :: inner => if c == ';' || c == '{' then r.afterBlanks? inner else none
        | [] => none
  return (value, cs.length - rest.length)

/-- The attributes in a line with their values, rule by rule. -/
def attributesOf (cs : List Char) : List (String × String) :=
  attributeRules.flatMap fun r => (findAll r.find cs).map fun value => (r.key, .ofList value)

end SkillAtlas.Line
