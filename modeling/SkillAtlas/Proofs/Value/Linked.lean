import Mathlib.Data.List.Basic
import SkillAtlas.Value.Linked

/-!
# Values with and without marks

Marks change nothing in a value, and what is done to mappings with marks is done to those without.
-/

namespace SkillAtlas

namespace Linked

lemma entryValues_eq_map (es : LinkedEntries) : entryValues es = es.map fun e => (e.1, e.2.value) := by
  induction es with
  | nil => rfl
  | cons e rest ih => rw [entryValues, ih, List.map_cons]

mutual
theorem value_ofValue : (v : Value) → (ofValue v).value = v
  | .map es => congrArg Value.map (entryValues_ofEntries es)
  | .null | .bool _ | .int _ | .float _ | .str _ | .bytes _ | .date _ | .moment _ | .list _ | .tuple _
  | .set _ | .again _ => rfl

theorem entryValues_ofEntries : (es : Entries) → entryValues (ofEntries es) = es
  | [] => rfl
  | (k, v) :: rest => by rw [ofEntries, entryValues, value_ofValue v, entryValues_ofEntries rest]
end

mutual
theorem value_remark (f : Nat → Option Nat) : (l : Linked) → (l.remark f).value = l.value
  | .plain _ => rfl
  | .list _ items => congrArg Value.list (values_remarkItems f items)
  | .tuple items => congrArg Value.tuple (values_remarkItems f items)
  | .map _ es => congrArg Value.map (entryValues_remarkEntries f es)
  | .again mark isList => by
    rw [remark]
    cases f mark <;> rfl

theorem values_remarkItems (f : Nat → Option Nat) : (items : List Linked) →
    values (remarkItems f items) = values items
  | [] => rfl
  | l :: rest => by rw [remarkItems, values, values, value_remark f l, values_remarkItems f rest]

theorem entryValues_remarkEntries (f : Nat → Option Nat) : (es : LinkedEntries) →
    entryValues (remarkEntries f es) = entryValues es
  | [] => rfl
  | (k, l) :: rest => by
    rw [remarkEntries, entryValues, entryValues, value_remark f l, entryValues_remarkEntries f rest]
end

@[simp] lemma value_settled (r : Nat) (l : Linked) : (l.settled r).value = l.value :=
  value_remark _ l

/-- The mapping that is found in a value with marks is that in the value without. -/
lemma mapping?_cases (l : Linked) :
    (∃ mark es, l.mapping? = some (mark, es) ∧ l.value = .map (entryValues es)) ∨
      l.mapping? = none ∧ ∀ es, l.value ≠ .map es := by
  cases l with
  | map mark es => exact Or.inl ⟨mark, es, rfl, rfl⟩
  | list _ items => exact Or.inr ⟨rfl, fun _ => Value.noConfusion⟩
  | again mark isList => exact Or.inr ⟨rfl, fun _ => Value.noConfusion⟩
  | tuple items => exact Or.inr ⟨rfl, fun _ => Value.noConfusion⟩
  | plain v =>
    cases v with
    | map es => exact Or.inl ⟨none, ofEntries es, rfl, congrArg Value.map (entryValues_ofEntries es).symm⟩
    | _ => exact Or.inr ⟨rfl, fun _ => Value.noConfusion⟩

lemma entryValues_entries (l : Linked) : entryValues l.entries = l.value.entries := by
  unfold entries
  rcases l.mapping?_cases with ⟨mark, es, hm, hv⟩ | ⟨hm, hv⟩
  · rw [hm, hv]
    rfl
  · rw [hm]
    cases hl : l.value with
    | map es => exact absurd hl (hv es)
    | _ => rfl

end Linked

namespace LinkedEntries

open Linked (entryValues entryValues_eq_map)

variable {es : LinkedEntries} {k : Value} {l : Linked}

lemma entryValues_put : entryValues (put k l es) = Entries.put k l.value (entryValues es) := by
  induction es with
  | nil => rfl
  | cons e rest ih =>
    by_cases h : e.1.same k = true
    · simp only [put, entryValues, Entries.put, h, if_true]
    · simp only [put, entryValues, Entries.put, h, Bool.false_eq_true, if_false, ih]

lemma entryValues_ofList (es : LinkedEntries) : entryValues (ofList es) = Entries.ofList (entryValues es) := by
  have hrun : ∀ m : LinkedEntries, entryValues (es.foldl (fun m e => put e.1 e.2 m) m) =
      (entryValues es).foldl (fun m e => Entries.put e.1 e.2 m) (entryValues m) := by
    induction es with
    | nil => exact fun m => rfl
    | cons e rest ih =>
      intro m
      rw [List.foldl_cons, ih, entryValues_put]
      rfl
  exact hrun []

lemma named?_entryValues (es : LinkedEntries) (s : String) :
    (entryValues es).named? s = (es.named? s).map Linked.value := by
  unfold Entries.named? Entries.get? named?
  rw [entryValues_eq_map, List.find?_map, Option.map_map, Option.map_map]
  rfl

end LinkedEntries

/-- No mapping in the value stands in several places, and nothing in it holds itself. -/
def Linked.Unshared (l : Linked) : Prop :=
  l.marks = []

/-- No mapping in the entries stands in several places, and nothing in them holds itself. -/
def LinkedEntries.Unshared (es : LinkedEntries) : Prop :=
  Linked.entryMarks es = []

namespace LinkedEntries

variable {es : LinkedEntries} {k : Value} {l : Linked}

lemma unshared_iff : es.Unshared ↔ ∀ e ∈ es, e.2.Unshared := by
  unfold Unshared
  induction es with
  | nil => simp [Linked.entryMarks]
  | cons e rest ih => simp [Linked.entryMarks, Linked.Unshared, ih]

lemma Unshared.named? {s : String} (h : es.Unshared) (hl : es.named? s = some l) : l.Unshared := by
  obtain ⟨e, he, rfl⟩ := Option.map_eq_some_iff.mp hl
  exact unshared_iff.mp h e (List.mem_of_find?_eq_some he)

lemma Unshared.put (h : es.Unshared) (k : Value) (hl : l.Unshared) : (put k l es).Unshared := by
  rw [unshared_iff] at h ⊢
  induction es with
  | nil => exact List.forall_mem_singleton.mpr hl
  | cons e rest ih =>
    obtain ⟨he, hrest⟩ := List.forall_mem_cons.mp h
    unfold LinkedEntries.put
    split
    · exact List.forall_mem_cons.mpr ⟨hl, hrest⟩
    · exact List.forall_mem_cons.mpr ⟨he, ih hrest⟩

end LinkedEntries

namespace Linked

lemma unshared_map {mark : Option Nat} {es : LinkedEntries} :
    (map mark es).Unshared ↔ mark = none ∧ es.Unshared := by
  simp [Unshared, LinkedEntries.Unshared, marks]

mutual
theorem unshared_ofValue : (v : Value) → (ofValue v).Unshared
  | .map es => unshared_map.mpr ⟨rfl, unshared_ofEntries es⟩
  | .null | .bool _ | .int _ | .float _ | .str _ | .bytes _ | .date _ | .moment _ | .list _ | .tuple _
  | .set _ | .again _ => rfl

theorem unshared_ofEntries : (es : Entries) → LinkedEntries.Unshared (ofEntries es)
  | [] => rfl
  | (_, v) :: rest => by
    rw [ofEntries, LinkedEntries.unshared_iff, List.forall_mem_cons]
    exact ⟨unshared_ofValue v, LinkedEntries.unshared_iff.mp (unshared_ofEntries rest)⟩
end

lemma Unshared.mapping? {l : Linked} {mark : Option Nat} {es : LinkedEntries} (h : l.Unshared)
    (hm : l.mapping? = some (mark, es)) : mark = none ∧ es.Unshared := by
  unfold Linked.mapping? at hm
  split at hm
  · obtain ⟨rfl, rfl⟩ := Prod.mk.inj (Option.some.inj hm)
    exact unshared_map.mp h
  · obtain ⟨rfl, rfl⟩ := Prod.mk.inj (Option.some.inj hm)
    exact ⟨rfl, unshared_ofEntries _⟩
  · simp at hm

lemma Unshared.entries {l : Linked} (h : l.Unshared) : l.entries.Unshared := by
  unfold Linked.entries
  cases hm : l.mapping? with
  | none => exact rfl
  | some found => exact (h.mapping? hm).2

end Linked

end SkillAtlas
