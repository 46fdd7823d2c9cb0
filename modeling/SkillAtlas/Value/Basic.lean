import SkillAtlas.Value.Calendar

/-!
# Values of documents

Documents, settings and template files hold values of many kinds. A mapping keeps its entries in the
order in which they were written. Equality follows the numbers: `true`, `1` and `1.0` are one key. A list or a
mapping that holds itself is unrolled a few times; then it stands in its own place as what it is.
-/

namespace SkillAtlas

/-- A value of a document. -/
inductive Value where
  | null
  | bool (b : Bool)
  | int (n : Int)
  | float (x : Float)
  | str (s : String)
  | bytes (bs : List UInt8)
  | date (d : Date)
  | moment (m : Moment)
  | list (items : List Value)
  | tuple (items : List Value)
  | set (items : List Value)
  | map (entries : List (Value × Value))
  /-- a list or a mapping that holds itself, at a place inside it -/
  | again (isList : Bool)
deriving Inhabited

namespace Value

def kindName : Value → String
  | null => "NoneType"
  | bool _ => "bool"
  | int _ => "int"
  | float _ => "float"
  | str _ => "str"
  | bytes _ => "bytes"
  | date _ => "date"
  | moment _ => "datetime"
  | list _ => "list"
  | tuple _ => "tuple"
  | set _ => "set"
  | map _ => "dict"
  | again isList => if isList then "list" else "dict"

/-- Nothing, zero and everything empty count as no. -/
def isTruthy : Value → Bool
  | null => false
  | bool b => b
  | int n => n != 0
  | float x => !(x == 0)
  | str s => !s.isEmpty
  | bytes bs => !bs.isEmpty
  | date _ | moment _ => true
  | list items | tuple items | set items => !items.isEmpty
  | map entries => !entries.isEmpty
  | again _ => true

mutual
/-- The value can be a key of a mapping: it is no list, set or mapping, and holds none. -/
def isKey : Value → Bool
  | list _ | set _ | map _ | again _ => false
  | tuple items => areKeys items
  | _ => true

def areKeys : List Value → Bool
  | [] => true
  | v :: rest => isKey v && areKeys rest
end

/-- The integer that a whole number or a truth value stands for. -/
def integer? : Value → Option Int
  | int n => some n
  | bool b => some (if b then 1 else 0)
  | _ => none

/-- A float and an integer are equal when the float has exactly that value. -/
def floatIs (x : Float) (n : Int) : Bool :=
  Decimal.ratOf? x == some (n : Rat)

/-- Two floats are one key when they are equal or both no number. -/
def sameFloat (x y : Float) : Bool :=
  x == y || (x.isNaN && y.isNaN)

mutual
/-- Two values are one key of a mapping, and one element of a container. -/
def same (a b : Value) : Bool :=
  match a, b with
  | null, null => true
  | str s, str t => s == t
  | bytes s, bytes t => s == t
  | date d, date e => d == e
  | moment m, moment n => m.same n
  | float x, float y => sameFloat x y
  | float x, b => (integer? b).any (floatIs x)
  | bool p, b => match b with
    | float y => floatIs y (if p then 1 else 0)
    | b => integer? b == some (if p then 1 else 0)
  | int n, b => match b with
    | float y => floatIs y n
    | b => integer? b == some n
  | list xs, list ys => sameItems xs ys
  | tuple xs, tuple ys => sameItems xs ys
  | set xs, set ys => xs.length == ys.length && allIn xs ys
  | map xs, map ys => xs.length == ys.length && entriesIn xs ys
  | again a, again b => a == b
  | _, _ => false

def sameItems : List Value → List Value → Bool
  | [], [] => true
  | x :: xs, y :: ys => same x y && sameItems xs ys
  | _, _ => false

/-- Every value is the same as some value of the other list. -/
def allIn : List Value → List Value → Bool
  | [], _ => true
  | x :: xs, ys => ys.any (same x ·) && allIn xs ys

/-- Every entry has the same key and the same value as some entry of the other list. -/
def entriesIn : List (Value × Value) → List (Value × Value) → Bool
  | [], _ => true
  | (k, v) :: rest, ys => ys.any (fun e => same k e.1 && same v e.2) && entriesIn rest ys
end

/-- Equality of two values on their own: as for keys, but a float that is no number equals nothing. -/
def equal : Value → Value → Bool
  | float x, float y => x == y
  | a, b => same a b

end Value

end SkillAtlas
