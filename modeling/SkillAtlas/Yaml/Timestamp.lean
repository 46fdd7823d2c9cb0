import SkillAtlas.Value.Basic

/-!
# Dates and moments in documents

A date is written with dashes. A time after it has a `T` or blanks in front, seconds with or without a
fraction, and `Z` or a distance in hours and minutes behind, if any.
-/

namespace SkillAtlas.Yaml

def asciiNumber (ds : List Char) : Nat :=
  ds.foldl (fun n d => n * 10 + (d.toNat - '0'.toNat)) 0

/-- Reads between `least` and `most` digits, as many as there are. -/
def digits? (least most : Nat) (cs : List Char) : Option (Nat × List Char) :=
  let run := (cs.take most).takeWhile Char.isDigit
  if run.length < least then none else some (asciiNumber run, cs.drop run.length)

def mark? (c : Char) : List Char → Option (List Char)
  | d :: rest => if d == c then some rest else none
  | [] => none

/-- A distance from universal time, in minutes, at the end of the text. -/
def offset? (cs : List Char) : Option (Option Int) :=
  match cs with
  | [] => some none
  | _ =>
    match cs.dropWhile fun c => c == ' ' || c == '\t' with
    | ['Z'] => some (some 0)
    | sign :: rest => do
      guard (sign == '+' || sign == '-')
      let (hours, rest) ← digits? 1 2 rest
      let (minutes, rest) ← match rest with
        | ':' :: rest => digits? 2 2 rest
        | _ => some (0, rest)
      guard rest.isEmpty
      let o : Int := hours * 60 + minutes
      return some (if sign == '-' then -o else o)
    | [] => none

/-- Microseconds from the digits of a fraction, cut off after six. -/
def microOf (ds : List Char) : Nat :=
  asciiNumber ((ds ++ List.replicate 6 '0').take 6)

/-- A date, or a moment, as the fields that the text gives; they may be out of range. -/
inductive Timestamp where
  | day (d : Date)
  | instant (m : Moment)

/-- Reads the time of a moment, with what stands in front of it. -/
def moment? (date : Date) (cs : List Char) : Option Moment := do
  let cs ← match cs with
    | 'T' :: rest | 't' :: rest => some rest
    | _ =>
      let rest := cs.dropWhile fun c => c == ' ' || c == '\t'
      if rest.length < cs.length then some rest else none
  let (hour, cs) ← digits? 1 2 cs
  let (minute, cs) ← (mark? ':' cs).bind (digits? 2 2)
  let (second, cs) ← (mark? ':' cs).bind (digits? 2 2)
  let (fraction, cs) := match cs with
    | '.' :: rest => (rest.takeWhile Char.isDigit, rest.dropWhile Char.isDigit)
    | _ => ([], cs)
  let offset ← offset? cs
  return ⟨date, hour, minute, second, microOf fraction, offset⟩

/-- Reads a date or a moment. -/
def Timestamp.read? (cs : List Char) : Option Timestamp := do
  let (year, cs) ← digits? 4 4 cs
  let (month, cs) ← (mark? '-' cs).bind (digits? 1 2)
  let (dayOfMonth, cs) ← (mark? '-' cs).bind (digits? 1 2)
  let date : Date := ⟨year, month, dayOfMonth⟩
  match cs with
  | [] => return .day date
  | _ => return .instant (← moment? date cs)

/-- A plain text is taken for a date only if month and day have two digits. -/
def isTimestamp (cs : List Char) : Bool :=
  match Timestamp.read? cs with
  | none => false
  | some (.day _) => cs.length == 10
  | some (.instant _) => true

/-- The value of a timestamp, which must exist in the calendar. -/
def Timestamp.value? : Timestamp → Option Value
  | day d => if d.isValid then some (.date d) else none
  | instant m => if m.isValid then some (.moment m) else none

end SkillAtlas.Yaml
