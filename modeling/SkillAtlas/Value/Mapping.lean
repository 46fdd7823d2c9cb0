import SkillAtlas.Fault
import SkillAtlas.Text.Casing

/-!
# Mappings

Entries in the order in which they were written. A key that is written again takes the new value at
its old place.
-/

namespace SkillAtlas

abbrev Entries := List (Value × Value)

namespace Entries

def get? (es : Entries) (k : Value) : Option Value :=
  (List.find? (fun e => e.1.same k) es).map Prod.snd

/-- The value of a key that is a text. -/
def named? (es : Entries) (k : String) : Option Value :=
  es.get? (.str k)

/-- Gives a key a value, at its old place if it has one. -/
def put (k v : Value) : Entries → Entries
  | [] => [(k, v)]
  | e :: rest => if e.1.same k then (e.1, v) :: rest else e :: put k v rest

/-- The mapping that a list of entries writes, the last value of a key winning. -/
def ofList (es : Entries) : Entries :=
  es.foldl (fun m e => put e.1 e.2 m) []

/-- The value of the first key whose text in small letters is the given one. The keys up to it have to be
told. -/
def firstSpelled? (small : String) : Entries → Except Fault (Option Value)
  | [] => .ok none
  | (k, v) :: rest => do
    if Text.lower (← k.told) == small then return some v else firstSpelled? small rest

/-- The value of a key, or of the first key that differs from it by case alone. -/
def anyCase? (es : Entries) (k : String) : Except Fault (Option Value) :=
  match es.named? k with
  | some v => .ok (some v)
  | none => firstSpelled? (Text.lower k) es

/-- The value of a key ignoring case; nothing for a key that is not there. -/
def anyCase (es : Entries) (k : String) : Except Fault Value := do
  return (← es.anyCase? k).getD .null

/-- Some key is the given one ignoring case. -/
def hasAnyCase (es : Entries) (k : String) : Except Fault Bool := do
  return (← firstSpelled? (Text.lower k) es).isSome

end Entries

namespace Value

/-- The entries of a mapping, no entries for any other value. -/
def entries : Value → Entries
  | map es => es
  | _ => []

/-- The value of a key, for values that are mappings. -/
def member? (v : Value) (k : String) : Except Fault (Option Value) :=
  match v with
  | map es => .ok (Entries.named? es k)
  | _ => .error .noMember

/-- The distinct values of a list of values that can be keys, in the order in which they come first. -/
def distinct (vs : List Value) : Except Fault (List Value) :=
  if vs.all isKey then .ok ((Entries.ofList (vs.map fun v => (v, .null))).map Prod.fst)
  else .error .wrongKind

/-- The distinct values of a list, in the order in which they come first. Mappings are all kept; other
values that cannot be keys are a fault. -/
def distinctItems (seen : List Value) : List Value → Except Fault (List Value)
  | [] => .ok []
  | v :: rest =>
    match v with
    | map _ => (distinctItems seen rest).map (v :: ·)
    | _ =>
      if !v.isKey then .error .wrongKind
      else if seen.any (·.same v) then distinctItems seen rest
      else (distinctItems (v :: seen) rest).map (v :: ·)

mutual
/-- Lays one value over another: mappings are merged key by key, lists are joined without repeats, and
any other value replaces what was there. -/
def overlaid (base top : Value) : Except Fault Value :=
  match base, top with
  | map bs, map os => (overlaidEntries bs os).map map
  | list bs, list os => (distinctItems [] (bs ++ os)).map list
  | _, top => .ok top

def overlaidEntries (base : Entries) : Entries → Except Fault Entries
  | [] => .ok base
  | (k, v) :: rest =>
    match base.get? k with
    | some b => do overlaidEntries (Entries.put k (← overlaid b v) base) rest
    | none => overlaidEntries (Entries.put k v base) rest
end

end Value

end SkillAtlas
