import SkillAtlas.Fault

/-!
# Arithmetic on values

Weights and limits come from settings, so they may be values of any kind. The operations work on
numbers, joining and repeating work on texts and lists, and all else is a fault. Whole numbers have no
limit; an operation with a float gives a float.
-/

namespace SkillAtlas

/-- The numbers that arithmetic tells apart. -/
inductive Number where
  | int (n : Int)
  | float (x : Float)

/-- The float nearest to a whole number, if it is not beyond all of them. -/
def floatOfInt (n : Int) : Except Fault Float :=
  let x := Decimal.ofRat n
  if x.isInf then .error .tooLarge else .ok x

def Number.toFloat : Number → Except Fault Float
  | int n => floatOfInt n
  | float x => .ok x

/-- Is one number below the other? Whole numbers and floats are compared by their exact values. -/
def Number.less : Number → Number → Bool
  | int m, int n => m < n
  | float x, float y => x < y
  | int m, float y => match Decimal.ratOf? y with
    | some r => (m : Rat) < r
    | none => y > 0
  | float x, int n => match Decimal.ratOf? x with
    | some r => r < (n : Rat)
    | none => x < 0

def Number.atMost : Number → Number → Bool
  | int m, int n => m ≤ n
  | float x, float y => x ≤ y
  | int m, float y => match Decimal.ratOf? y with
    | some r => (m : Rat) ≤ r
    | none => y > 0
  | float x, int n => match Decimal.ratOf? x with
    | some r => r ≤ (n : Rat)
    | none => x < 0

/-- The items before a limit. A negative limit counts from the end. -/
def upTo {α : Type} (limit : Int) (items : List α) : List α :=
  items.take (if limit < 0 then limit + items.length else limit).toNat

namespace Value

/-- The number that a value is; truth values count as 0 and 1. -/
def number? : Value → Option Number
  | float x => some (.float x)
  | v => (integer? v).map .int

/-- Applies a whole-number operation when both are whole, else the one on floats. -/
def onNumbers (whole : Int → Int → Int) (real : Float → Float → Float) :
    Number → Number → Except Fault Value
  | .int m, .int n => .ok (.int (whole m n))
  | a, b => do
    let x ← a.toFloat
    let y ← b.toFloat
    return .float (real x y)

/-- Numbers are added; texts, bytes, lists and tuples are joined. -/
def add (a b : Value) : Except Fault Value :=
  match number? a, number? b with
  | some m, some n => onNumbers (· + ·) (· + ·) m n
  | _, _ => match a, b with
    | str s, str t => .ok (.str (s ++ t))
    | bytes s, bytes t => .ok (.bytes (s ++ t))
    | list xs, list ys => .ok (.list (xs ++ ys))
    | tuple xs, tuple ys => .ok (.tuple (xs ++ ys))
    | _, _ => .error .wrongKind

/-- A list written `n` times in a row. -/
def repeated {α : Type} (n : Int) (xs : List α) : List α :=
  (List.replicate n.toNat xs).flatten

/-- A text, byte string, list or tuple written `n` times in a row. -/
def repeats (n : Int) : Value → Except Fault Value
  | str s => .ok (.str (.ofList (repeated n s.toList)))
  | bytes bs => .ok (.bytes (repeated n bs))
  | list xs => .ok (.list (repeated n xs))
  | tuple xs => .ok (.tuple (repeated n xs))
  | _ => .error .wrongKind

/-- Numbers are multiplied; a text or list times a whole number is repeated. -/
def mul (a b : Value) : Except Fault Value :=
  match number? a, number? b with
  | some m, some n => onNumbers (· * ·) (· * ·) m n
  | some (.int m), none => repeats m b
  | none, some (.int n) => repeats n a
  | _, _ => .error .wrongKind

/-- The quotient of two numbers, always a float. Whole numbers are divided exactly and rounded once. -/
def quotient (a b : Value) : Except Fault Float :=
  match number? a, number? b with
  | some (.int m), some (.int n) =>
    if n == 0 then .error .divisionByZero
    else
      let x := Decimal.ofRatio (decide (m < 0) != decide (n < 0)) m.natAbs n.natAbs
      if x.isInf then .error .tooLarge else .ok x
  | some m, some n => do
    let x ← m.toFloat
    let y ← n.toFloat
    if y == 0 then .error .divisionByZero else .ok (x / y)
  | _, _ => .error .wrongKind

mutual
/-- Is one value below the other? Numbers, texts, dates, lists and sets are compared with their
like. -/
def less (a b : Value) : Except Fault Bool :=
  match a, b with
  | str s, str t => .ok (decide (s < t))
  | bytes s, bytes t => .ok (decide (s < t))
  | date d, date e => .ok (d.ordinal < e.ordinal)
  | moment m, moment n =>
    if m.offset.isSome == n.offset.isSome then .ok (m.instant < n.instant) else .error .wrongKind
  | list xs, list ys => lessItems xs ys
  | tuple xs, tuple ys => lessItems xs ys
  | set xs, set ys => .ok (xs.length < ys.length && allIn xs ys)
  | a, b => match number? a, number? b with
    | some m, some n => .ok (m.less n)
    | _, _ => .error .wrongKind

/-- Lists are compared at the first place where they differ, else by length. -/
def lessItems : List Value → List Value → Except Fault Bool
  | _, [] => .ok false
  | [], _ :: _ => .ok true
  | x :: xs, y :: ys => if same x y then lessItems xs ys else less x y
end

def minOf (a b : Value) : Except Fault Value := do
  return if ← less b a then b else a

/-- A number rounded to a number of places; whole numbers stay as they are. -/
def rounded (places : Nat) : Value → Except Fault Value
  | float x => .ok (.float (Decimal.roundPlaces places x))
  | v => match integer? v with
    | some n => .ok (.int n)
    | none => .error .wrongKind

/-- A number with two places. A date takes the request as a pattern without fields and gives it back. -/
def twoPlaces : Value → Except Fault String
  | float x => .ok (Decimal.fixed 2 x)
  | str _ => .error .badValue
  | date _ | moment _ => .ok ".2f"
  | v => match integer? v with
    | some n => (floatOfInt n).map (Decimal.fixed 2)
    | none => .error .wrongKind

/-- The values that a loop over the value visits: the characters of a text, the keys of a mapping. -/
def elements : Value → Except Fault (List Value)
  | list items | tuple items | set items => .ok items
  | map entries => .ok (entries.map Prod.fst)
  | str s => .ok (s.toList.map fun c => .str (String.singleton c))
  | bytes bs => .ok (bs.map fun b => .int b.toNat)
  | _ => .error .wrongKind

/-- The items before the limit, where null sets no limit. -/
def upTo {α : Type} (limit : Value) (items : List α) : Except Fault (List α) :=
  match limit with
  | null => .ok items
  | v => match integer? v with
    | some n => .ok (SkillAtlas.upTo n items)
    | none => .error .wrongKind

end Value

end SkillAtlas
