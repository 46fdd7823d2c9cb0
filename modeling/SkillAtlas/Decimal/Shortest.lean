import SkillAtlas.Decimal.Binary

/-!
# The fewest digits that read back

Among the decimals with `1, 2, …, 17` digits this file looks for the first count at which a neighbour
of the float lies in the interval of reals that round to it, and takes the nearer one.
-/

namespace SkillAtlas.Decimal

/-- The number `digits * 10 ^ exponent`. -/
structure Scaled where
  digits : Nat
  exponent : Int
deriving Repr, DecidableEq

/-- Drops zeros at the end of the digits; `fuel` bounds their number. -/
def Scaled.trimmed : Nat → Scaled → Scaled
  | 0, d => d
  | fuel + 1, d =>
    if d.digits != 0 && d.digits % 10 == 0 then trimmed fuel ⟨d.digits / 10, d.exponent + 1⟩ else d

def digitCount (n : Nat) : Nat :=
  (Nat.toDigits 10 n).length

/-- The reals that round to one float, as fractions over one denominator. -/
structure Interval where
  low : Nat
  value : Nat
  high : Nat
  den : Nat
  closed : Bool

/-- The interval of a positive float. Below a power of two the next float is only half as far. -/
def Interval.of (m : Nat) (e : Int) : Interval :=
  let scale := twoTo (e - 2).toNat
  let low := if m == twoTo 52 && e > -1074 then 4 * m - 1 else 4 * m - 2
  ⟨low * scale, 4 * m * scale, (4 * m + 2) * scale, twoTo (2 - e).toNat, m % 2 == 0⟩

/-- The fraction `n / d` lies in the interval. -/
def Interval.holds (i : Interval) (n d : Nat) : Bool :=
  if i.closed then i.low * d ≤ n * i.den && n * i.den ≤ i.high * d
  else i.low * d < n * i.den && n * i.den < i.high * d

/-- The position of the first digit: the `p` with `10 ^ (p - 1) ≤ num / den < 10 ^ p`. -/
def leadingPlace (num den : Nat) : Int :=
  if den ≤ num then digitCount (num / den)
  else
    let j := digitCount (den / num)
    if num * tenTo j ≥ den * 10 then 2 - j else 1 - j

/-- The nearer of the two neighbours with steps of `10 ^ exponent` that lie in the interval. -/
def Interval.onGrid? (i : Interval) (exponent : Int) : Option Scaled :=
  let up := tenTo exponent.toNat
  let down := tenTo (-exponent).toNat
  let num := i.value * down
  let den := i.den * up
  let below := num / den
  let pick (n : Nat) : Option Scaled := if i.holds (n * up) down then some ⟨n, exponent⟩ else none
  match pick below, pick (below + 1) with
  | some a, some b =>
    let r := num % den
    some (if 2 * r < den || (2 * r == den && below % 2 == 0) then a else b)
  | some a, none => some a
  | none, some b => some b
  | none, none => none

/-- The digits of a positive float `m * 2 ^ e`: the fewest that read back, of those the nearest. -/
def shortest (m : Nat) (e : Int) : Scaled :=
  let i := Interval.of m e
  let place := leadingPlace i.value i.den
  match (List.range 17).findSome? fun (k : Nat) => i.onGrid? (place - (k + 1 : Nat)) with
  | some d => d.trimmed 20
  | none => ⟨m * twoTo e.toNat, 0⟩

end SkillAtlas.Decimal
