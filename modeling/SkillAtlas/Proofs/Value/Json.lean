import Mathlib.Tactic.Lemma
import SkillAtlas.Proofs.Analysis.Stages
import SkillAtlas.Value.Json

/-!
# Values that have a JSON form

A value is written exactly if no date, bytes or set stands anywhere in it, it does not hold itself, the keys of
its mappings are texts, numbers, truth values or nothing, and no number has too many digits. All other values are
refused.
-/

namespace SkillAtlas

/-- Why a value is not written. -/
inductive Fault.Unwritten : Fault → Prop where
  | wrongKind : Unwritten .wrongKind
  | badValue : Unwritten .badValue

/-- The result is there exactly under a condition; else a value is refused. -/
structure Fault.GivenIff {α : Type} (x : Except Fault α) (p : Prop) : Prop where
  given : p → ∃ a, x = .ok a
  refused : ¬ p → ∃ f : Fault, f.Unwritten ∧ x = .error f

namespace Fault.GivenIff

variable {α β : Type} {x : Except Fault α} {p q : Prop}

lemma ok (a : α) : GivenIff (.ok a) True :=
  ⟨fun _ => ⟨a, rfl⟩, fun h => absurd trivial h⟩

lemma congr (h : GivenIff x p) (hpq : p ↔ q) : GivenIff x q := by
  rwa [← propext hpq]

lemma bind {f : α → Except Fault β} (h : GivenIff x p) (hf : ∀ a, x = .ok a → GivenIff (f a) q) :
    GivenIff (x.bind f) (p ∧ q) := by
  by_cases hp : p
  · obtain ⟨a, rfl⟩ := h.given hp
    exact (hf a rfl).congr (by simp [hp])
  · obtain ⟨fault, hfault, hx⟩ := h.refused hp
    rw [hx]
    exact ⟨fun hpq => absurd hpq.1 hp, fun _ => ⟨fault, hfault, rfl⟩⟩

lemma map (h : GivenIff x p) (f : α → β) : GivenIff (x.bind fun a => .ok (f a)) p :=
  (h.bind fun a _ => ok (f a)).congr (iff_of_eq (and_true p))

lemma mapped (h : GivenIff x p) (f : α → β) : GivenIff (x.map f) p := by
  cases x <;> exact h.map f

lemma mapM {f : α → Except Fault β} {xs : List α} {P : α → Prop} (h : ∀ a ∈ xs, GivenIff (f a) (P a)) :
    GivenIff (xs.mapM f) (∀ a ∈ xs, P a) := by
  induction xs with
  | nil => exact (ok []).congr (by simp)
  | cons a rest ih =>
    rw [List.forall_mem_cons] at h
    rw [List.mapM_cons]
    exact (h.1.bind fun b _ => (ih h.2).map (b :: ·)).congr List.forall_mem_cons.symm

end Fault.GivenIff

open Fault (GivenIff)

namespace Json

/-- The value is a text, a number that can be told, a truth value or nothing. -/
def IsAtom (v : Value) : Prop :=
  ∃ s, atom v = .ok s

/-- The value has a JSON form. -/
inductive Writable : Value → Prop where
  | atom {v : Value} (h : IsAtom v) : Writable v
  | list {items : List Value} (h : ∀ v ∈ items, Writable v) : Writable (.list items)
  | tuple {items : List Value} (h : ∀ v ∈ items, Writable v) : Writable (.tuple items)
  | map {entries : List (Value × Value)} (keys : ∀ e ∈ entries, IsAtom e.1)
      (values : ∀ e ∈ entries, Writable e.2) : Writable (.map entries)

section Forms

variable {items : List Value} {entries : List (Value × Value)}

@[simp] lemma writable_list : Writable (.list items) ↔ ∀ v ∈ items, Writable v := by
  constructor
  · rintro (h | h)
    · simp [IsAtom, atom] at h
    · exact h
  · exact .list

@[simp] lemma writable_tuple : Writable (.tuple items) ↔ ∀ v ∈ items, Writable v := by
  constructor
  · rintro (h | _ | h)
    · simp [IsAtom, atom] at h
    · exact h
  · exact .tuple

@[simp] lemma writable_map :
    Writable (.map entries) ↔ ∀ e ∈ entries, IsAtom e.1 ∧ Writable e.2 := by
  constructor
  · rintro (h | _ | _ | ⟨keys, values⟩)
    · simp [IsAtom, atom] at h
    · exact fun e he => ⟨keys e he, values e he⟩
  · exact fun h => .map (fun e he => (h e he).1) fun e he => (h e he).2

/-- Values that hold no others are written if they are atoms. -/
lemma writable_iff_isAtom {v : Value} (hl : ∀ items, v ≠ .list items) (ht : ∀ items, v ≠ .tuple items)
    (hm : ∀ es, v ≠ .map es) : Writable v ↔ IsAtom v := by
  constructor
  · rintro (h | _ | _ | _)
    · exact h
    · exact absurd rfl (hl _)
    · exact absurd rfl (ht _)
    · exact absurd rfl (hm _)
  · exact .atom

@[simp] lemma isAtom_str (s : String) : IsAtom (.str s) :=
  ⟨_, rfl⟩

@[simp] lemma isAtom_int {n : Int} : IsAtom (.int n) ↔ (Value.int n).isTold = true := by
  simp [IsAtom, atom, Value.told_eq_ok]

@[simp] lemma writable_str (s : String) : Writable (.str s) :=
  .atom ⟨_, rfl⟩

@[simp] lemma writable_bool (b : Bool) : Writable (.bool b) :=
  .atom ⟨_, rfl⟩

@[simp] lemma writable_int {n : Int} : Writable (.int n) ↔ (Value.int n).isTold = true := by
  rw [writable_iff_isAtom (by simp) (by simp) (by simp), isAtom_int]

@[simp] lemma writable_float (x : Float) : Writable (.float x) :=
  .atom ⟨_, rfl⟩

@[simp] lemma writable_null : Writable .null :=
  .atom ⟨_, rfl⟩

end Forms

lemma atom_givenIff (v : Value) : GivenIff (atom v) (IsAtom v) := by
  refine ⟨id, fun hnot => ?_⟩
  cases v with
  | int n =>
    rw [isAtom_int, Bool.not_eq_true] at hnot
    exact ⟨.badValue, .badValue, Value.told_of_not_isTold hnot⟩
  | null | bool b | float x | str s => exact absurd ⟨_, rfl⟩ hnot
  | again isList => exact ⟨.badValue, .badValue, rfl⟩
  | bytes bs | date d | moment m | list items | tuple items | set items | map es =>
    exact ⟨.wrongKind, .wrongKind, rfl⟩

lemma key_givenIff (v : Value) : GivenIff (key v) (IsAtom v) := by
  unfold key
  split
  · exact (GivenIff.ok _).congr (iff_of_true trivial (isAtom_str _))
  · exact (atom_givenIff v).mapped text

lemma writeAt_givenIff_atom {v : Value} (hl : ∀ items, v ≠ .list items) (ht : ∀ items, v ≠ .tuple items)
    (hm : ∀ es, v ≠ .map es) (level : Nat) : GivenIff (writeAt level v) (Writable v) := by
  rw [writable_iff_isAtom hl ht hm]
  have hv : writeAt level v = atom v := by
    unfold writeAt
    split
    · exact absurd rfl (hl _)
    · exact absurd rfl (ht _)
    · exact absurd rfl (hm _)
    · rfl
  rw [hv]
  exact atom_givenIff v

-- The recursion is that of `writeAt`: over values, their items and their entries.
mutual
lemma writeAt_givenIff (level : Nat) (v : Value) : GivenIff (writeAt level v) (Writable v) := by
  cases v with
  | list items =>
    rw [writeAt, writable_list]
    exact (writeItems_givenIff (level + 1) items).map _
  | tuple items =>
    rw [writeAt, writable_tuple]
    exact (writeItems_givenIff (level + 1) items).map _
  | map entries =>
    rw [writeAt, writable_map]
    exact (writeEntries_givenIff (level + 1) entries).map _
  | _ => exact writeAt_givenIff_atom (by simp) (by simp) (by simp) level

lemma writeItems_givenIff (level : Nat) (items : List Value) :
    GivenIff (writeItems level items) (∀ v ∈ items, Writable v) := by
  match items with
  | [] => exact (GivenIff.ok []).congr (by simp)
  | v :: rest =>
    rw [writeItems, List.forall_mem_cons]
    exact (writeAt_givenIff level v).bind fun s _ => (writeItems_givenIff level rest).map (s :: ·)

lemma writeEntries_givenIff (level : Nat) (entries : List (Value × Value)) :
    GivenIff (writeEntries level entries) (∀ e ∈ entries, IsAtom e.1 ∧ Writable e.2) := by
  match entries with
  | [] => exact (GivenIff.ok []).congr (by simp)
  | (k, v) :: rest =>
    rw [writeEntries, List.forall_mem_cons, and_assoc]
    exact (key_givenIff k).bind fun s _ => (writeAt_givenIff level v).bind fun t _ =>
      (writeEntries_givenIff level rest).map ((s ++ ": " ++ t) :: ·)
end

/-- A value is written exactly if it has a JSON form. -/
theorem write_givenIff (v : Value) : GivenIff (write v) (Writable v) :=
  writeAt_givenIff 0 v

end Json

end SkillAtlas
