import SkillAtlas.Proofs.Document.Keys
import SkillAtlas.Proofs.Yaml.Parts

/-!
# Mappings in documents

In a mapping that a document holds, at whatever depth, no key is written twice, and every key is a single
value. Other keys are refused when the mapping is opened.
-/

namespace SkillAtlas

/-- A value that can be a key and holds no other values. -/
def Value.SingleKey (v : Value) : Prop :=
  v.isKey = true ∧ ∀ items, v ≠ .tuple items

/-- Every mapping in the value, mappings in mappings included, has distinct keys that are single values. -/
inductive Value.Tidy : Value → Prop where
  | map {es : Entries} (distinct : es.Distinct) (keys : ∀ e ∈ es, e.1.SingleKey)
      (values : ∀ e ∈ es, Tidy e.2) : Tidy (.map es)
  | other {v : Value} (h : ∀ es, v ≠ .map es) : Tidy v

namespace Entries

section Properties

variable {P Q : Value → Prop} {es : Entries}

lemma forall_put {k v : Value} (h : ∀ e ∈ es, P e.1 ∧ Q e.2) (hk : P k) (hv : Q v) :
    ∀ e ∈ put k v es, P e.1 ∧ Q e.2 := by
  induction es with
  | nil => exact List.forall_mem_singleton.mpr ⟨hk, hv⟩
  | cons a rest ih =>
    obtain ⟨ha, hrest⟩ := List.forall_mem_cons.mp h
    unfold put
    split
    · exact List.forall_mem_cons.mpr ⟨⟨ha.1, hv⟩, hrest⟩
    · exact List.forall_mem_cons.mpr ⟨ha, ih hrest⟩

lemma forall_ofList (h : ∀ e ∈ es, P e.1 ∧ Q e.2) : ∀ e ∈ ofList es, P e.1 ∧ Q e.2 := by
  have hrun : ∀ m : Entries, (∀ e ∈ m, P e.1 ∧ Q e.2) →
      ∀ e ∈ es.foldl (fun m e => put e.1 e.2 m) m, P e.1 ∧ Q e.2 := by
    induction es with
    | nil => exact fun m hm => hm
    | cons a rest ih =>
      obtain ⟨ha, hrest⟩ := List.forall_mem_cons.mp h
      exact fun m hm => ih hrest _ (forall_put hm ha.1 ha.2)
  exact hrun [] (by simp)

end Properties

end Entries

namespace Yaml

open Yaml.Part (All AllEntries)

/-- The part is no tuple, and if it can be made its mappings are tidy. -/
def Part.Neat (p : Part) : Prop :=
  (∀ items, p.value ≠ .tuple items) ∧ (p.faults = [] → p.value.Tidy)

namespace Part

lemma neat_of_isScalar {p : Part} (h : p.value.IsScalar) : p.Neat :=
  ⟨fun _ => h.ne_tuple, fun _ => .other fun _ => h.ne_map⟩

lemma neat_ofItems (i : Nat) (tag : Tag) (items : List Part) : (ofItems i tag items).Neat :=
  ⟨(value_ofItems i tag items).2, fun _ => .other (value_ofItems i tag items).1⟩

lemma neat_ofAgain (i : Nat) (isList : Bool) : (ofAgain i isList).Neat :=
  ⟨fun _ => Value.noConfusion, fun _ => .other fun _ => Value.noConfusion⟩

lemma faults_of_levelsOf {opening : List Fault} {children : List Part}
    (h : (levelsOf opening children).flatten = []) :
    opening = [] ∧ ∀ q ∈ children, q.levels.flatten = [] := by
  have hnone : ∀ f, f ∉ (levelsOf opening children).flatten := by simp [h]
  refine ⟨List.eq_nil_iff_forall_not_mem.mpr fun f hf => hnone f (mem_levelsOf (Or.inl hf)),
    fun q hq => List.eq_nil_iff_forall_not_mem.mpr fun f hf => hnone f (mem_levelsOf (Or.inr ⟨q, hq, hf⟩))⟩

/-- A mapping that can be made has single values as keys, and its values can be made. -/
lemma tidy_of_levels {es : List (Part × Part)} (h : AllEntries Neat es)
    (hl : (levelsOf (es.flatMap entryFaults) (es.flatMap fun e => [e.1, e.2])).flatten = []) :
    (Value.map (Entries.ofList (Linked.entryValues (es.map fun e => (e.1.value, e.2.linked))))).Tidy := by
  obtain ⟨hopening, hchildren⟩ := faults_of_levelsOf hl
  have hentry : ∀ e ∈ es.map fun e => (e.1.value, e.2.value), e.1.SingleKey ∧ e.2.Tidy := by
    intro e he
    obtain ⟨q, hq, rfl⟩ := List.mem_map.mp he
    have hfaults := List.flatMap_eq_nil_iff.mp hopening q hq
    simp only [entryFaults, List.append_eq_nil_iff] at hfaults
    obtain ⟨⟨-, hkey⟩, hvalue⟩ := hfaults
    refine ⟨⟨?_, (h q hq).1.self.1⟩, (h q hq).2.self.2 ?_⟩
    · by_contra hno
      simp [hno] at hkey
    · rw [faults, hvalue, hchildren q.2 (List.mem_flatMap.mpr ⟨q, hq, by simp⟩), List.append_nil]
  have hvalues : Linked.entryValues (es.map fun e => (e.1.value, e.2.linked)) =
      es.map fun e => (e.1.value, e.2.value) := by
    rw [Linked.entryValues_eq_map, List.map_map]
    rfl
  have hall := Entries.forall_ofList hentry
  rw [hvalues]
  exact .map (Entries.distinct_ofList _) (fun e he => (hall e he).1) fun e he => (hall e he).2

lemma neat_ofEntries (i : Nat) (tag : Tag) {entries : List (Part × Part)} (h : AllEntries Neat entries) :
    (ofEntries i tag entries).Neat := by
  rcases ofEntries_cases i tag entries with ⟨es, hes, hlinked, hlevels⟩ | ⟨v, hlinked, hv⟩ <;>
    rw [Neat, value, hlinked]
  · have hes := all_flatten (fun s => neat_of_isScalar (isScalar_ofText .str s)) h hes
    rcases value_mapOf i entries (es.map fun e => (e.1.value, e.2.linked)) with hmap | hagain
    · rw [hmap]
      refine ⟨fun _ => Value.noConfusion, fun hf => tidy_of_levels hes ?_⟩
      rw [← hlevels]
      exact (List.append_eq_nil_iff.mp hf).2
    · rw [hagain]
      exact ⟨fun _ => Value.noConfusion, fun _ => .other fun _ => Value.noConfusion⟩
  · rcases hv with hscalar | ⟨vs, rfl⟩
    · exact ⟨fun _ => hscalar.ne_tuple, fun _ => .other fun _ => hscalar.ne_map⟩
    · exact ⟨fun _ => Value.noConfusion, fun _ => .other fun _ => Value.noConfusion⟩

end Part

mutual
theorem Node.neat_part : (n : Node) → n.part.All Part.Neat
  | .scalar tag s => Part.all_ofText (Part.neat_of_isScalar (Part.isScalar_ofText tag s))
  | .sequence i tag items => Part.all_ofItems (neat_partsOf items) (Part.neat_ofItems i tag _)
  | .mapping i tag pairs =>
    Part.all_ofEntries (fun s => Part.neat_of_isScalar (Part.isScalar_ofText .str s))
      (neat_partsOfPairs pairs) (Part.neat_ofEntries i tag (neat_partsOfPairs pairs))
  | .again i isList => Part.all_ofAgain (Part.neat_ofAgain i isList)

theorem neat_partsOf : (items : List Node) → ∀ q ∈ partsOf items, q.All Part.Neat
  | [] => by simp [partsOf]
  | n :: rest => List.forall_mem_cons.mpr ⟨n.neat_part, neat_partsOf rest⟩

theorem neat_partsOfPairs : (pairs : List (Node × Node)) → AllEntries Part.Neat (partsOfPairs pairs)
  | [] => by simp [partsOfPairs, AllEntries]
  | (k, v) :: rest => List.forall_mem_cons.mpr ⟨⟨k.neat_part, v.neat_part⟩, neat_partsOfPairs rest⟩
end

/-- The mappings in the value of a text are tidy. -/
theorem tidy_of_readFrom {source : Source} {v : Value} (h : readFrom source = .ok v) : v.Tidy := by
  rcases node_of_readFrom h with rfl | ⟨n, -, hf, rfl⟩
  · exact .other fun _ => Value.noConfusion
  · exact n.neat_part.self.2 hf

end Yaml

end SkillAtlas
