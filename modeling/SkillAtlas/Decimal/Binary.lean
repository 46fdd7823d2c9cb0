/-!
# Binary fractions

A finite `Float` is an integer times a power of two. This file takes a float apart into that exact
value and goes back from a quotient of integers to the nearest float, ties to the even neighbour.
-/

namespace SkillAtlas.Decimal

def twoTo (n : Nat) : Nat :=
  Nat.pow 2 n

def tenTo (n : Nat) : Nat :=
  Nat.pow 10 n

/-- The exact value of a float. A finite one is `mantissa * 2 ^ exponent`. -/
inductive Binary where
  | nan
  | infinite (negative : Bool)
  | finite (negative : Bool) (mantissa : Nat) (exponent : Int)

/-- Takes a float apart by its sign, exponent and fraction fields. -/
def Binary.ofFloat (x : Float) : Binary :=
  let bits := x.toBits.toNat
  let negative := bits / twoTo 63 == 1
  let field : Nat := bits / twoTo 52 % twoTo 11
  let fraction := bits % twoTo 52
  if field == 2047 then
    if fraction == 0 then .infinite negative else .nan
  else if field == 0 then .finite negative fraction (-1074)
  else .finite negative (fraction + twoTo 52) ((field : Int) - 1075)

/-- The quotient rounded to the nearest integer, a tie to the even one. -/
def roundDiv (num den : Nat) : Nat :=
  let q := num / den
  let r := num % den
  if 2 * r < den || (2 * r == den && q % 2 == 0) then q else q + 1

/-- The float with the given sign whose other bits are `bits`; too large a value is an infinity. -/
def ofMagnitude (negative : Bool) (bits : Nat) : Float :=
  .ofBits (.ofNat ((if negative then twoTo 63 else 0) + min bits (2047 * twoTo 52)))

/-- The float nearest to `± num / den`, a tie to the one with the even fraction.

The exponent is chosen so that the quotient has 53 binary digits in front of the point, but never
below the exponent of the smallest float. Rounding up to the next power of two carries into the
exponent field by itself. -/
def ofRatio (negative : Bool) (num den : Nat) : Float :=
  if num == 0 then ofMagnitude negative 0
  else
    let guess : Int := (num.log2 : Int) - den.log2 - 52
    let scaled (q : Int) : Nat × Nat := (num * twoTo (-q).toNat, den * twoTo q.toNat)
    let (n, d) := scaled guess
    let q := max (if n < twoTo 52 * d then guess - 1 else guess) (-1074)
    let (n, d) := scaled q
    let m := roundDiv n d
    ofMagnitude negative (if m < twoTo 52 then m else (q + 1075).toNat * twoTo 52 + (m - twoTo 52))

/-- The exact value of a finite float. -/
def ratOf? (x : Float) : Option Rat :=
  match Binary.ofFloat x with
  | .finite negative m e =>
    let magnitude : Rat := mkRat (m * twoTo e.toNat) (twoTo (-e).toNat)
    some (if negative then -magnitude else magnitude)
  | _ => none

/-- The float nearest to a rational number. -/
def ofRat (r : Rat) : Float :=
  ofRatio (r.num < 0) r.num.natAbs r.den

/-- The float nearest to `± digits * 10 ^ exponent`. Exponents beyond the range of floats are cut off
first, so that no huge power is computed. -/
def ofScaled (negative : Bool) (digits : Nat) (exponent : Int) : Float :=
  if digits == 0 then ofMagnitude negative 0
  else if exponent > 400 then ofMagnitude negative (2047 * twoTo 52)
  else if exponent + digits.log2 < -400 then ofMagnitude negative 0
  else ofRatio negative (digits * tenTo exponent.toNat) (tenTo (-exponent).toNat)

/-- The largest integer that is not above a finite float. -/
def floor? (x : Float) : Option Int :=
  (ratOf? x).map Rat.floor

end SkillAtlas.Decimal
