import SkillAtlas.Value.Mapping

/-!
# Values with shared mappings

An alias puts one mapping in several places of a document, and a change in one place is seen in all of them.
Marks tell which mappings are one. A mapping without a mark is shared with no other place. A list has a mark if it
holds itself.
-/

namespace SkillAtlas

/-- A value with marks on its mappings. -/
inductive Linked where
  | plain (v : Value)
  | list (mark : Option Nat) (items : List Linked)
  | tuple (items : List Linked)
  | map (mark : Option Nat) (entries : List (Value × Linked))
  /-- the list or the mapping with the mark, at a place inside it -/
  | again (mark : Nat) (isList : Bool)
deriving Inhabited

/-- The entries of a mapping whose values have marks. -/
abbrev LinkedEntries := List (Value × Linked)

namespace LinkedEntries

/-- The value of a key that is a text. -/
def named? (es : LinkedEntries) (k : String) : Option Linked :=
  (List.find? (fun e => e.1.same (.str k)) es).map Prod.snd

/-- Gives a key a value, at its old place if it has one. -/
def put (k : Value) (v : Linked) : LinkedEntries → LinkedEntries
  | [] => [(k, v)]
  | e :: rest => if e.1.same k then (e.1, v) :: rest else e :: put k v rest

/-- The mapping that a list of entries writes, the last value of a key winning. -/
def ofList (es : LinkedEntries) : LinkedEntries :=
  es.foldl (fun m e => put e.1 e.2 m) []

end LinkedEntries

namespace Linked

mutual
/-- A value in which no mapping is shared. -/
def ofValue : Value → Linked
  | .map es => .map none (ofEntries es)
  | v => .plain v

def ofEntries : Entries → LinkedEntries
  | [] => []
  | (k, v) :: rest => (k, .ofValue v) :: ofEntries rest
end

mutual
/-- The value without its marks. -/
def value : Linked → Value
  | plain v => v
  | list _ items => .list (values items)
  | tuple items => .tuple (values items)
  | map _ es => .map (entryValues es)
  | again _ isList => .again isList

def values : List Linked → List Value
  | [] => []
  | l :: rest => l.value :: values rest

def entryValues : LinkedEntries → Entries
  | [] => []
  | (k, l) :: rest => (k, l.value) :: entryValues rest
end

/-- The mark and the entries of a mapping. -/
def mapping? : Linked → Option (Option Nat × LinkedEntries)
  | map mark es => some (mark, es)
  | plain (.map es) => some (none, ofEntries es)
  | _ => none

def entries (l : Linked) : LinkedEntries :=
  (l.mapping?.map Prod.snd).getD []

/-- The mark of a value that stands inside itself. -/
def again? : Linked → Option Nat
  | again mark _ => some mark
  | _ => none

/-- The marks of a value, or of the items of a list, that stand inside themselves. -/
def opens : Linked → List Nat
  | list _ items => items.filterMap again?
  | l => l.again?.toList

mutual
/-- All the marks in a value. -/
def marks : Linked → List Nat
  | plain _ => []
  | list mark items => mark.toList ++ itemMarks items
  | tuple items => itemMarks items
  | map mark es => mark.toList ++ entryMarks es
  | again mark _ => [mark]

def itemMarks : List Linked → List Nat
  | [] => []
  | l :: rest => l.marks ++ itemMarks rest

def entryMarks : LinkedEntries → List Nat
  | [] => []
  | (_, l) :: rest => l.marks ++ entryMarks rest
end

mutual
/-- The value with other marks. -/
def remark (f : Nat → Option Nat) : Linked → Linked
  | plain v => plain v
  | list mark items => list (mark.bind f) (remarkItems f items)
  | tuple items => tuple (remarkItems f items)
  | map mark es => map (mark.bind f) (remarkEntries f es)
  | again mark isList => match f mark with
    | some n => again n isList
    | none => plain (.again isList)

def remarkItems (f : Nat → Option Nat) : List Linked → List Linked
  | [] => []
  | l :: rest => l.remark f :: remarkItems f rest

def remarkEntries (f : Nat → Option Nat) : LinkedEntries → LinkedEntries
  | [] => []
  | (k, l) :: rest => (k, l.remark f) :: remarkEntries f rest
end

/-- The value with marks only on what stands in several places. Marks of two values stay apart
if the remainders `r` of the new marks modulo 2 differ. -/
def settled (r : Nat) (l : Linked) : Linked :=
  let all := l.marks
  l.remark fun n => if 1 < all.count n then some (2 * n + r) else none

mutual
/-- The value after a change of the mappings with a mark. -/
def amend (n : Nat) (change : LinkedEntries → LinkedEntries) : Linked → Linked
  | plain v => plain v
  | list mark items => list mark (amendItems n change items)
  | tuple items => tuple (amendItems n change items)
  | map mark es => map mark (if mark == some n then change es else amendEntries n change es)
  | again mark isList => again mark isList

def amendItems (n : Nat) (change : LinkedEntries → LinkedEntries) : List Linked → List Linked
  | [] => []
  | l :: rest => l.amend n change :: amendItems n change rest

def amendEntries (n : Nat) (change : LinkedEntries → LinkedEntries) : LinkedEntries → LinkedEntries
  | [] => []
  | (k, l) :: rest => (k, l.amend n change) :: amendEntries n change rest
end

end Linked

end SkillAtlas
