import SkillAtlas.Decimal.Shortest

/-!
# Written forms of floats

The default form of a float has the fewest digits that read back, positional where the first digit
stands between the fourth place after the point and the sixteenth before it, and with an exponent
outside. Reports also use a fixed number of places and whole percents, both rounded from the exact
binary value.
-/

namespace SkillAtlas.Decimal

structure Layout where
  /-- the least exponent of the first digit that is written without an exponent -/
  least : Int
  /-- the greatest exponent of the first digit that is written without an exponent -/
  greatest : Int
  /-- digits of an exponent are filled up to this number -/
  exponentWidth : Nat
  nan : String
  infinity : String

/-- The form of floats in texts and reports: `0.0001`, `1e-05`, `1e+16`, `nan`, `inf`. -/
def plain : Layout :=
  ⟨-4, 15, 2, "nan", "inf"⟩

/-- The form of floats in JSON documents. -/
def json : Layout :=
  ⟨-4, 15, 2, "NaN", "Infinity"⟩

/-- The digits filled with zeros on the left. -/
def padded (width n : Nat) : String :=
  let s := toString n
  "".pushn '0' (width - s.length) ++ s

/-- Digits with a point before the last `places` of them. -/
def pointed (places n : Nat) : String :=
  if places == 0 then toString n
  else toString (n / tenTo places) ++ "." ++ padded places (n % tenTo places)

def Layout.digits (l : Layout) (d : Scaled) : String :=
  let count := digitCount d.digits
  let first := d.exponent + count - 1
  if l.least ≤ first && first ≤ l.greatest then
    if d.exponent ≥ 0 then toString (d.digits * tenTo d.exponent.toNat) ++ ".0"
    else pointed (-d.exponent).toNat d.digits
  else
    let mantissa := if count == 1 then toString d.digits else pointed (count - 1) d.digits
    mantissa ++ "e" ++ (if first < 0 then "-" else "+") ++ padded l.exponentWidth first.natAbs

def Layout.write (l : Layout) (x : Float) : String :=
  match Binary.ofFloat x with
  | .nan => l.nan
  | .infinite negative => (if negative then "-" else "") ++ l.infinity
  | .finite negative m e =>
    (if negative then "-" else "") ++ if m == 0 then "0.0" else l.digits (shortest m e)

/-- The magnitude `m * 2 ^ e` in units of `10 ^ -places`, rounded to the even neighbour on a tie. -/
def unitsOf (places m : Nat) (e : Int) : Nat :=
  roundDiv (m * twoTo e.toNat * tenTo places) (twoTo (-e).toNat)

/-- A float with a fixed number of places. -/
def fixed (places : Nat) (x : Float) : String :=
  match Binary.ofFloat x with
  | .nan => plain.nan
  | .infinite negative => (if negative then "-" else "") ++ plain.infinity
  | .finite negative m e => (if negative then "-" else "") ++ pointed places (unitsOf places m e)

/-- A float as a whole number of percents. -/
def percent (x : Float) : String :=
  fixed 0 (x * 100) ++ "%"

/-- The float nearest to the value rounded to a number of places. -/
def roundPlaces (places : Nat) (x : Float) : Float :=
  match Binary.ofFloat x with
  | .finite negative m e => ofRatio negative (unitsOf places m e) (tenTo places)
  | _ => x

end SkillAtlas.Decimal
