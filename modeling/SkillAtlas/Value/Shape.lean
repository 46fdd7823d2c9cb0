import SkillAtlas.Fault
import SkillAtlas.Value.Mapping

/-!
# Shapes of values

Tables and records that come from outside are checked against a shape before they are read. Of several
violations the one nearest to the top counts, and on one level the first in the order of the shape.
-/

namespace SkillAtlas

/-- The kinds of values that shapes tell apart. -/
inductive Kind where
  | text
  | number
  | nothing
  | list
  | mapping
deriving DecidableEq, Repr

namespace Kind

def name : Kind → String
  | text => "string"
  | number => "number"
  | nothing => "null"
  | list => "array"
  | mapping => "object"

/-- The value is of the kind. Truth values are no numbers, and tuples and sets no lists. -/
def holds : Kind → Value → Bool
  | text, .str _ => true
  | number, .int _ | number, .float _ => true
  | nothing, .null => true
  | list, .list _ => true
  | mapping, .map _ => true
  | _, _ => false

end Kind

/-- What a value has to look like. -/
inductive Shape where
  /-- a value of one of these kinds -/
  | oneOf (kinds : List Kind)
  /-- a text with at least one character -/
  | someText
  /-- a list of such items -/
  | listOf (item : Shape)
  /-- a mapping to such values -/
  | mapTo (value : Shape)
  /-- a mapping that has certain keys, and under some keys values of a certain shape -/
  | record (required : List String) (fields : List (String × Shape))

namespace Shape

def text : Shape :=
  oneOf [.text]

def texts : Shape :=
  listOf text

/-- The violation of a value that is of none of the kinds. -/
def kindFault (kinds : List Kind) (v : Value) : Violation :=
  .wrongKind v (kinds.map Kind.name)

mutual
/-- The violations in a value, level by level. -/
def violations : Shape → Value → List (List Violation)
  | oneOf kinds, v => if kinds.any (·.holds v) then [] else [[kindFault kinds v]]
  | someText, v => match v with
    | .str s => if s.isEmpty then [[.emptyText]] else []
    | v => [[kindFault [.text] v]]
  | listOf item, v => match v with
    | .list items => Depth.above [] (items.map item.violations)
    | v => [[kindFault [.list] v]]
  | mapTo value, v => match v with
    | .map es => Depth.above [] (es.map fun e => value.violations e.2)
    | v => [[kindFault [.mapping] v]]
  | record required fields, v => match v with
    | .map es =>
      Depth.above ((required.filter fun k => (Entries.named? es k).isNone).map .missing)
        (fieldViolations fields es)
    | v => [[kindFault [.mapping] v]]

/-- The violations under the keys of a mapping. -/
def fieldViolations : List (String × Shape) → List (Value × Value) → List (List (List Violation))
  | [], _ => []
  | (k, shape) :: rest, es =>
    (match Entries.named? es k with
      | some v => shape.violations v
      | none => []) :: fieldViolations rest es
end

/-- The violation that counts, if the value does not have the shape. An account is given of every violation, so
that all of them have to be told. -/
def violation? (shape : Shape) (v : Value) : Except Fault (Option Violation) :=
  let levels := shape.violations v
  if levels.flatten.all Violation.isTold then .ok (Depth.first? levels) else .error .badValue

end Shape

end SkillAtlas
