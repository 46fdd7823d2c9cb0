import SkillAtlas.Decimal.Numeral
import SkillAtlas.Text.Quoted
import SkillAtlas.Value.Basic

/-!
# Written forms of values

A value inside a container, or in a message about it, is shown in its quoted form; a value that is put
into a text on its own shows a text, a date or a moment without quotes. A collection inside itself is shown
without what it holds. Whole numbers are written only up to a limit of digits; a value with a longer one in it
cannot be told.
-/

namespace SkillAtlas.Value

open Text (quoted quotedBytes)

def commas (parts : List String) : String :=
  ", ".intercalate parts

mutual
/-- The quoted form of a value. -/
def shown : Value → String
  | null => "None"
  | bool b => if b then "True" else "False"
  | int n => toString n
  | float x => Decimal.plain.write x
  | str s => quoted s
  | bytes bs => quotedBytes bs
  | date d => d.quoted
  | moment m => m.quoted
  | list items => "[" ++ commas (shownItems items) ++ "]"
  | tuple items => match shownItems items with
    | [one] => "(" ++ one ++ ",)"
    | parts => "(" ++ commas parts ++ ")"
  | set items => match shownItems items with
    | [] => "set()"
    | parts => "\x7b" ++ commas parts ++ "\x7d"
  | map entries => "\x7b" ++ commas (shownEntries entries) ++ "\x7d"
  | again isList => if isList then "[...]" else "\x7b...\x7d"

def shownItems : List Value → List String
  | [] => []
  | v :: rest => shown v :: shownItems rest

def shownEntries : List (Value × Value) → List String
  | [] => []
  | (k, v) :: rest => (shown k ++ ": " ++ shown v) :: shownEntries rest
end

/-- The form of a value that stands in a text on its own. -/
def text : Value → String
  | str s => s
  | date d => d.text
  | moment m => m.text
  | v => shown v

mutual
/-- No number in the value has more digits than are written. -/
def isTold : Value → Bool
  | int n => n.natAbs < Decimal.tenTo Decimal.digitLimit
  | list items | tuple items | set items => areTold items
  | map entries => areToldEntries entries
  | _ => true

def areTold : List Value → Bool
  | [] => true
  | v :: rest => isTold v && areTold rest

def areToldEntries : List (Value × Value) → Bool
  | [] => true
  | (k, v) :: rest => isTold k && isTold v && areToldEntries rest
end

theorem isTold_int {n : Int} : (int n).isTold = true ↔ n.natAbs < Decimal.tenTo Decimal.digitLimit := by
  rw [isTold, decide_eq_true_eq]

theorem areTold_iff {vs : List Value} : areTold vs = true ↔ ∀ v ∈ vs, v.isTold = true := by
  induction vs with
  | nil => simp [areTold]
  | cons v rest ih => simp [areTold, ih]

theorem areToldEntries_iff {es : List (Value × Value)} :
    areToldEntries es = true ↔ ∀ e ∈ es, e.1.isTold = true ∧ e.2.isTold = true := by
  induction es with
  | nil => simp [areToldEntries]
  | cons e rest ih => simp [areToldEntries, ih, and_assoc]

theorem isTold_map {es : List (Value × Value)} :
    (map es).isTold = true ↔ ∀ e ∈ es, e.1.isTold = true ∧ e.2.isTold = true :=
  areToldEntries_iff

end SkillAtlas.Value
