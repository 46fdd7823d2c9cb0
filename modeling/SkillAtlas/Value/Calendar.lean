import SkillAtlas.Decimal.Layout

/-!
# Dates and moments

A document may hold a date or a moment of time, with or without its distance from universal time.
Moments with a distance are compared by the instant they name, the others by what the clock shows.
-/

namespace SkillAtlas

/-- A day of the calendar. -/
structure Date where
  year : Nat
  month : Nat
  day : Nat
deriving DecidableEq, Repr

/-- A year with a 29th of February. -/
def isLeap (year : Nat) : Bool :=
  year % 4 == 0 && (year % 100 != 0 || year % 400 == 0)

/-- The number of days of a month. -/
def daysIn (year month : Nat) : Nat :=
  if month == 2 then (if isLeap year then 29 else 28)
  else if [4, 6, 9, 11].contains month then 30 else 31

/-- The date exists; years run from 1 to 9999. -/
def Date.isValid (d : Date) : Bool :=
  1 ≤ d.year && d.year ≤ 9999 && 1 ≤ d.month && d.month ≤ 12 && 1 ≤ d.day && d.day ≤ daysIn d.year d.month

/-- The number of days of the first months of a year. -/
def daysOfMonths (year : Nat) : Nat → Nat
  | 0 => 0
  | m + 1 => daysOfMonths year m + daysIn year (m + 1)

/-- The number of days from the first day of year 1. -/
def Date.ordinal (d : Date) : Nat :=
  let y := d.year - 1
  y * 365 + y / 4 - y / 100 + y / 400 + daysOfMonths d.year (d.month - 1) + (d.day - 1)

/-- A moment of time; `offset` is the distance from universal time in minutes, east positive. -/
structure Moment where
  date : Date
  hour : Nat
  minute : Nat
  second : Nat
  micro : Nat
  offset : Option Int
deriving DecidableEq, Repr

/-- Every field is in its range and the distance is less than a day. -/
def Moment.isValid (m : Moment) : Bool :=
  m.date.isValid && m.hour < 24 && m.minute < 60 && m.second < 60 && m.micro < 1000000 &&
    match m.offset with
    | none => true
    | some o => o.natAbs < 24 * 60

/-- Microseconds from the start of year 1, of universal time when the distance is known. -/
def Moment.instant (m : Moment) : Int :=
  let minutes : Int := (m.date.ordinal * 24 + m.hour) * 60 + m.minute - m.offset.getD 0
  (minutes * 60 + m.second) * 1000000 + m.micro

/-- Two moments are the same when both know their distance or neither does, and the instants agree. -/
def Moment.same (a b : Moment) : Bool :=
  a.offset.isSome == b.offset.isSome && a.instant == b.instant

open Decimal (padded)

def Date.text (d : Date) : String :=
  padded 4 d.year ++ "-" ++ padded 2 d.month ++ "-" ++ padded 2 d.day

/-- The distance from universal time as hours and minutes. -/
def offsetText (o : Int) : String :=
  (if o < 0 then "-" else "+") ++ padded 2 (o.natAbs / 60) ++ ":" ++ padded 2 (o.natAbs % 60)

/-- The moment with `sep` between date and time. -/
def Moment.textWith (sep : String) (m : Moment) : String :=
  m.date.text ++ sep ++ padded 2 m.hour ++ ":" ++ padded 2 m.minute ++ ":" ++ padded 2 m.second ++
    (if m.micro == 0 then "" else "." ++ padded 6 m.micro) ++ (m.offset.map offsetText).getD ""

/-- The moment with a space between date and time. -/
def Moment.text (m : Moment) : String :=
  m.textWith " "

/-- The moment with a `T` between date and time. -/
def Moment.iso (m : Moment) : String :=
  m.textWith "T"

/-- The date as it is shown inside a container. -/
def Date.quoted (d : Date) : String :=
  "datetime.date(" ++ ", ".intercalate ([d.year, d.month, d.day].map toString) ++ ")"

/-- The distance from universal time as it is shown inside a container. -/
def offsetQuoted (o : Int) : String :=
  if o == 0 then "datetime.timezone.utc"
  else
    let seconds := (o % 1440).toNat * 60
    let parts := (if o < 0 then ["days=-1"] else []) ++ (if seconds == 0 then [] else [s!"seconds={seconds}"])
    "datetime.timezone(datetime.timedelta(" ++ ", ".intercalate parts ++ "))"

/-- The moment as it is shown inside a container; seconds and microseconds that are zero at the end are
left out. -/
def Moment.quoted (m : Moment) : String :=
  let fields := [m.date.year, m.date.month, m.date.day, m.hour, m.minute] ++
    (if m.micro != 0 then [m.second, m.micro] else if m.second != 0 then [m.second] else [])
  let zone := match m.offset with
    | none => []
    | some o => ["tzinfo=" ++ offsetQuoted o]
  "datetime.datetime(" ++ ", ".intercalate (fields.map toString ++ zone) ++ ")"

end SkillAtlas
