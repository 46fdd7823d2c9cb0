import SkillAtlas.Journal
import SkillAtlas.Settings
import SkillAtlas.Template.Record

/-!
# Likeness of records

Two records score points for their names, their category, the number of their sections and the lines that
they share; the likeness is the share of the greatest score. How quotients are taken and compared is left open:
users are given floats. Before a record is stored, the records that it is like are looked for.
-/

namespace SkillAtlas

/-- A name in small letters, ready to be compared with others. Bytes are told from texts. -/
inductive ComparedName where
  | text (cs : List Char)
  | bytes (cs : List Char)

namespace ComparedName

/-- The name that a value gives; an empty value gives an empty text. -/
def ofValue (v : Value) : Except Fault ComparedName :=
  if !v.isTruthy then .ok (text [])
  else match v with
    | .str s => .ok (text (Text.lowerChars s.toList))
    | .bytes bs => .ok (bytes (bs.map fun b => (Char.ofNat b.toNat).toLower))
    | _ => .error .noMember

end ComparedName

/-- A way to divide two values, and to round the quotients. -/
structure Division (α : Type) where
  quotient : Value → Value → Except Fault α
  /-- the nearest whole number; a half goes up -/
  roundHalfUp : α → Except Fault Int

namespace Division

/-- The whole number nearest to a float; a half goes up. -/
def roundFloat (x : Float) : Except Fault Int :=
  let y := x + 0.5
  match Decimal.floor? y with
  | some n => .ok n
  | none => .error (if y.isNaN then .badValue else .tooLarge)

/-- Quotients are floats. -/
def float : Division Float :=
  ⟨Value.quotient, roundFloat⟩

end Division

/-- A way to divide, and to compare the quotients. -/
structure Scale (α : Type) extends Division α where
  /-- a quotient exceeds a threshold -/
  exceeds : Value → α → Except Fault Bool
  /-- a quotient is at most another one -/
  atMost : α → α → Bool

/-- Quotients are floats. -/
def Scale.float : Scale Float where
  toDivision := .float
  exceeds threshold x := threshold.less (.float x)
  atMost x y := x ≤ y

namespace SimilaritySettings

/-- The points for two names in small letters. -/
def textScore (s : SimilaritySettings) (a b : List Char) : Except Fault Value :=
  if a == b then .ok s.nameExact
  else if Text.occursIn a b || Text.occursIn b a then .ok s.nameSubstring
  else do
    let points ← (Value.count (Text.commonStart a b).length).mul s.namePrefixPerChar
    s.namePrefixCap.minOf points

/-- The points for the names of two records. -/
def nameScore (s : SimilaritySettings) (a b : Value) : Except Fault Value := do
  match ← ComparedName.ofValue a, ← ComparedName.ofValue b with
  | .text x, .text y => s.textScore x y
  | .bytes x, .bytes y => s.textScore x y
  | _, _ => .error .wrongKind

def distance (m n : Nat) : Nat :=
  (m - n) + (n - m)

/-- The points for the numbers of sections. -/
def sectionScore (s : SimilaritySettings) (a b : TemplateRecord) : Value :=
  match distance a.sectionCount b.sectionCount with
  | 0 => s.sectionEqual
  | 1 => s.sectionNear
  | _ => .int 0

/-- The number of lines that two lists share, each line counted as often as it is in both. -/
def sharedCount : List Value → List Value → Nat
  | [], _ => 0
  | x :: xs, ys =>
    if ys.any x.same then sharedCount xs (ys.eraseP x.same) + 1 else sharedCount xs ys

/-- The points for the lines that two records share, out of the lines of the longer one. -/
def lineScoreBy (s : SimilaritySettings) {α : Type} (d : Division α) (a b : TemplateRecord) :
    Except Fault Value :=
  let xs := a.allLines
  let ys := b.allLines
  if xs.isEmpty || ys.isEmpty then .ok (.int 0)
  else if !(xs.all Value.isKey && ys.all Value.isKey) then .error .wrongKind
  else do
    let points ← s.lineOverlap.mul (.count (sharedCount xs ys))
    return .int (← d.roundHalfUp (← d.quotient points (.count (max xs.length ys.length))))

def scoreBy (s : SimilaritySettings) {α : Type} (d : Division α) (a b : TemplateRecord) :
    Except Fault Value := do
  let names ← s.nameScore a.name b.name
  let withCategory ← if a.category.equal b.category then names.add s.categoryMatch else .ok names
  let withSections ← withCategory.add (s.sectionScore a b)
  withSections.add (← s.lineScoreBy d a b)

def likenessBy (s : SimilaritySettings) {α : Type} (d : Division α) (a b : TemplateRecord) : Except Fault α := do
  d.quotient (← s.scoreBy d a b) (← s.maxScore)

/-- The points for the lines that two records share, by way of floats. -/
def lineScore (s : SimilaritySettings) (a b : TemplateRecord) : Except Fault Value :=
  s.lineScoreBy .float a b

/-- The likeness of two records as a float. -/
def likeness (s : SimilaritySettings) (a b : TemplateRecord) : Except Fault Float :=
  s.likenessBy .float a b

end SimilaritySettings

/-- The line on two categories, if they differ. -/
def categoryDifference (a b : Value) : Except Fault (List String) :=
  if a.equal b then .ok []
  else do return [s!"Category: {← a.told} vs {← b.told}"]

/-- In what two records differ. -/
def differences (a b : TemplateRecord) : Except Fault (List String) := do
  let sections := if a.sectionCount == b.sectionCount then []
    else [s!"Section count: {a.sectionCount} vs {b.sectionCount}"]
  let lines := if a.allLines.length == b.allLines.length then []
    else [s!"Skill lines: {a.allLines.length} vs {b.allLines.length}"]
  return sections ++ lines ++ (← categoryDifference a.category b.category)

structure DuplicateMatch (α : Type := Float) where
  record : TemplateRecord
  likeness : α
  differences : List String

namespace DuplicateMatch

def toValue (m : DuplicateMatch) : Except Fault Value := do
  return .record [
    ("name", m.record.name),
    ("similarity", ← (Value.float m.likeness).rounded 4),
    ("differences", .strings m.differences)]

section Find

variable {α : Type} (s : SimilaritySettings) (c : Scale α)

/-- The match of a candidate with a record that is more like it than a threshold. -/
def between? (threshold : Value) (candidate record : TemplateRecord) :
    Except Fault (Option (DuplicateMatch α)) := do
  let likeness ← s.likenessBy c.toDivision candidate record
  if ← c.exceeds threshold likeness then
    return some ⟨record, likeness, ← SkillAtlas.differences candidate record⟩
  else return none

/-- The matches of a candidate, in the order of the records. -/
def all (threshold : Value) (candidate : TemplateRecord) :
    List TemplateRecord → Except Fault (List (DuplicateMatch α))
  | [] => .ok []
  | r :: rest => do
    let found ← between? s c threshold candidate r
    return found.toList ++ (← all threshold candidate rest)

/-- A value, or the usual one in place of null. -/
def orUsual (usual : Value) : Value → Value
  | .null => usual
  | v => v

/-- Looks for records that a candidate is like, the most alike first. -/
def findBy (candidate : TemplateRecord) (existing : List TemplateRecord) (threshold limit : Value) :
    Journal (List (DuplicateMatch α)) := do
  let threshold := orUsual s.duplicateThreshold threshold
  let limit := orUsual s.duplicateLimit limit
  let matching ← all s c threshold candidate existing
  Journal.note (.duplicatesFound matching.length candidate.name threshold)
  Value.upTo limit (matching.mergeSort fun a b => c.atMost b.likeness a.likeness)

end Find

/-- Looks for records that a candidate is like by way of floats. -/
def find (s : SimilaritySettings) (candidate : TemplateRecord) (existing : List TemplateRecord)
    (threshold limit : Value) : Journal (List DuplicateMatch) :=
  findBy s .float candidate existing threshold limit

end DuplicateMatch

end SkillAtlas
