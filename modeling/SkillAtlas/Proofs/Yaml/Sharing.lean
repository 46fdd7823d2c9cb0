import Mathlib.Algebra.Order.BigOperators.Group.List
import Mathlib.Algebra.Order.Group.Nat
import Mathlib.Algebra.Ring.Nat
import Mathlib.Data.List.Nodup
import SkillAtlas.Proofs.Yaml.Numbering

/-!
# Documents without aliases

A text in which no alias is written has a value no mapping of which stands in several places. Each collection of
the document comes into the value at most once: a key `<<` puts the entries of a mapping in its place.
-/

namespace SkillAtlas

lemma LinkedEntries.count_entryMarks_put (i : Nat) (k : Value) (l : Linked) (es : LinkedEntries) :
    (Linked.entryMarks (put k l es)).count i ≤ (Linked.entryMarks es).count i + l.marks.count i := by
  induction es with
  | nil => simp [put, Linked.entryMarks]
  | cons e rest ih =>
    unfold put
    split
    · simp only [Linked.entryMarks, List.count_append]
      omega
    · simp only [Linked.entryMarks, List.count_append]
      omega

lemma LinkedEntries.count_entryMarks_ofList (i : Nat) (es : LinkedEntries) :
    (Linked.entryMarks (ofList es)).count i ≤ (Linked.entryMarks es).count i := by
  have hrun : ∀ m : LinkedEntries, (Linked.entryMarks (es.foldl (fun m e => put e.1 e.2 m) m)).count i ≤
      (Linked.entryMarks m).count i + (Linked.entryMarks es).count i := by
    induction es with
    | nil => simp [Linked.entryMarks]
    | cons e rest ih =>
      intro m
      have hput := count_entryMarks_put i e.1 e.2 m
      have hrest := ih (put e.1 e.2 m)
      simp only [List.foldl_cons, Linked.entryMarks, List.count_append]
      omega
  have hle := hrun []
  rwa [Linked.entryMarks, List.count_nil, Nat.zero_add] at hle

namespace Linked

lemma bind_toList_eq_none {f : Nat → Option Nat} {mark : Option Nat} (h : ∀ n ∈ mark.toList, f n = none) :
    mark.bind f = none :=
  Option.bind_eq_none_iff.mpr fun n hn => h n (Option.mem_toList.mpr hn)

mutual
theorem marks_remark {f : Nat → Option Nat} : (l : Linked) → (∀ n ∈ l.marks, f n = none) →
    (l.remark f).marks = []
  | .plain _, _ => rfl
  | .list mark items, h => by
    obtain ⟨hmark, hitems⟩ := List.forall_mem_append.mp h
    rw [remark, marks, bind_toList_eq_none hmark, itemMarks_remarkItems items hitems]
    rfl
  | .tuple items, h => itemMarks_remarkItems items h
  | .map mark es, h => by
    obtain ⟨hmark, hes⟩ := List.forall_mem_append.mp h
    rw [remark, marks, bind_toList_eq_none hmark, entryMarks_remarkEntries es hes]
    rfl
  | .again mark isList, h => by
    rw [remark, h mark (by simp [marks])]
    rfl

theorem itemMarks_remarkItems {f : Nat → Option Nat} : (items : List Linked) →
    (∀ n ∈ itemMarks items, f n = none) → itemMarks (remarkItems f items) = []
  | [], _ => rfl
  | l :: rest, h => by
    obtain ⟨hl, hrest⟩ := List.forall_mem_append.mp h
    rw [remarkItems, itemMarks, marks_remark l hl, itemMarks_remarkItems rest hrest, List.append_nil]

theorem entryMarks_remarkEntries {f : Nat → Option Nat} : (es : LinkedEntries) →
    (∀ n ∈ entryMarks es, f n = none) → entryMarks (remarkEntries f es) = []
  | [], _ => rfl
  | (k, l) :: rest, h => by
    obtain ⟨hl, hrest⟩ := List.forall_mem_append.mp h
    rw [remarkEntries, entryMarks, marks_remark l hl, entryMarks_remarkEntries rest hrest, List.append_nil]
end

/-- Where all marks are different, none of them is kept. -/
lemma unshared_settled {l : Linked} (h : l.marks.Nodup) (r : Nat) : (l.settled r).Unshared := by
  refine marks_remark l fun n _ => if_neg ?_
  have hle := List.nodup_iff_count_le_one.mp h n
  omega

end Linked

namespace Yaml

namespace Part

/-- How often a mapping with the number stands in the value of a part. -/
def uses (i : Nat) (p : Part) : Nat :=
  p.linked.marks.count i

/-- How often it stands in the values of entries. -/
def valueUses (i : Nat) (es : List (Part × Part)) : Nat :=
  (es.map fun e => e.2.uses i).sum

/-- At most so many uses, in the part and in whatever it is opened as. -/
structure Bounded (i n : Nat) (p : Part) : Prop where
  linked : p.uses i ≤ n
  raw : ∀ es, p.raw = some es → (es.map fun e => e.1.uses i + e.2.uses i).sum ≤ n
  merged : ∀ es, p.mergedEntries = some es → valueUses i es ≤ n

/-- At most so many uses in all parts together. -/
inductive BoundedItems (i : Nat) : Nat → List Part → Prop where
  | nil : BoundedItems i 0 []
  | cons {a b : Nat} {p : Part} {rest : List Part} (hp : p.Bounded i a) (h : BoundedItems i b rest) :
    BoundedItems i (a + b) (p :: rest)

/-- At most so many uses in all keys and values together. -/
inductive BoundedPairs (i : Nat) : Nat → List (Part × Part) → Prop where
  | nil : BoundedPairs i 0 []
  | cons {a b c : Nat} {e : Part × Part} {rest : List (Part × Part)} (hk : e.1.Bounded i a)
    (hv : e.2.Bounded i b) (h : BoundedPairs i c rest) : BoundedPairs i (a + b + c) (e :: rest)

variable {i n : Nat}

lemma uses_plain {p : Part} (h : ∃ v, p.linked = .plain v) : p.uses i ≤ n := by
  obtain ⟨v, hv⟩ := h
  simp [uses, hv, Linked.marks]

lemma valueUses_append (es new : List (Part × Part)) :
    valueUses i (es ++ new) = valueUses i es + valueUses i new := by
  simp [valueUses]

lemma valueUses_flatten (each : List (List (Part × Part))) :
    valueUses i each.flatten = (each.map (valueUses i)).sum := by
  induction each with
  | nil => rfl
  | cons es rest ih => rw [List.flatten_cons, valueUses_append, ih, List.map_cons, List.sum_cons]

lemma BoundedItems.uses_le {qs : List Part} (h : BoundedItems i n qs) : (qs.map (uses i)).sum ≤ n := by
  induction h with
  | nil => simp
  | cons hp _ ih =>
    have hle := hp.linked
    rw [List.map_cons, List.sum_cons]
    omega

lemma BoundedItems.item_le {qs : List Part} (h : BoundedItems i n qs) {q : Part} (hq : q ∈ qs) : q.uses i ≤ n :=
  Nat.le_trans (List.single_le_sum (fun _ _ => Nat.zero_le _) _ (List.mem_map_of_mem hq)) h.uses_le

lemma BoundedItems.onlyEntries_le {qs : List Part} (h : BoundedItems i n qs) :
    ((qs.filterMap fun p => p.onlyEntry.toOption).map fun e => e.1.uses i + e.2.uses i).sum ≤ n := by
  induction h with
  | nil => simp
  | @cons a b p rest hp _ ih =>
    cases hentry : p.onlyEntry with
    | error f =>
      rw [List.filterMap_cons_none (by rw [hentry]; rfl)]
      omega
    | ok e =>
      rw [List.filterMap_cons_some (by rw [hentry]; rfl), List.map_cons, List.sum_cons]
      have hle := hp.raw [e] (onlyEntry_eq_ok hentry)
      simp only [List.map_cons, List.map_nil, List.sum_cons, List.sum_nil, Nat.add_zero] at hle
      omega

lemma BoundedItems.merged_le {qs : List Part} (h : BoundedItems i n qs) {each : List (List (Part × Part))}
    (heach : qs.mapM (fun q => if q.raw.isSome then q.flat else none) = some each) :
    (each.map (valueUses i)).sum ≤ n := by
  induction h generalizing each with
  | nil =>
    obtain rfl : [] = each := Option.some.inj heach
    simp
  | @cons a b p rest hp _ ih =>
    rw [List.mapM_cons] at heach
    obtain ⟨es, hes, heach⟩ := Option.bind_eq_some_iff.mp heach
    obtain ⟨more, hmore, heach⟩ := Option.bind_eq_some_iff.mp heach
    obtain rfl := Option.some.inj heach
    have hle : valueUses i es ≤ a := by
      refine hp.merged es ?_
      split at hes
      · rename_i hraw
        obtain ⟨raw, hraw⟩ := Option.isSome_iff_exists.mp hraw
        rw [mergedEntries, hraw]
        exact hes
      · simp at hes
    have hrest := ih hmore
    rw [List.map_cons, List.sum_cons]
    omega

lemma BoundedPairs.uses_le {es : List (Part × Part)} (h : BoundedPairs i n es) :
    (es.map fun e => e.1.uses i + e.2.uses i).sum ≤ n := by
  induction h with
  | nil => simp
  | cons hk hv _ ih =>
    have hle := hk.linked
    have hle' := hv.linked
    rw [List.map_cons, List.sum_cons]
    omega

lemma BoundedPairs.value_le {es : List (Part × Part)} (h : BoundedPairs i n es) {e : Part × Part} (he : e ∈ es) :
    e.2.uses i ≤ n := by
  have hle := List.single_le_sum (fun _ _ => Nat.zero_le _) _
    (List.mem_map_of_mem (f := fun e => e.1.uses i + e.2.uses i) he)
  have huses := h.uses_le
  omega

/-- An entry with the key `<<` brings in other entries, or it comes in itself. -/
lemma BoundedPairs.flatten_le {es flat : List (Part × Part)} (h : BoundedPairs i n es)
    (hf : flatten es = some flat) : valueUses i flat ≤ n := by
  obtain ⟨merged, hm, hflat⟩ := Option.bind_eq_some_iff.mp hf
  obtain rfl := Option.some.inj hflat
  clear hf hflat
  rw [valueUses_append, valueUses_flatten]
  induction h generalizing merged with
  | nil =>
    obtain rfl : [] = merged := Option.some.inj hm
    simp [valueUses]
  | @cons a b c e rest hk hv _ ih =>
    by_cases he : (e.1.tag == .merge) = true
    · simp only [List.filter_cons, he, if_true, List.mapM_cons] at hm
      obtain ⟨es, hes, hm⟩ := Option.bind_eq_some_iff.mp hm
      obtain ⟨more, hmore, hm⟩ := Option.bind_eq_some_iff.mp hm
      obtain rfl := Option.some.inj hm
      have hle := hv.merged es hes
      have hrest := ih more hmore
      simp only [List.filter_cons, bne, he, Bool.not_true, Bool.false_eq_true, if_false, List.map_cons,
        List.sum_cons]
      simp only [bne] at hrest
      omega
    · simp only [List.filter_cons, he, Bool.false_eq_true, if_false] at hm
      have hle := hv.linked
      have hrest := ih merged hm
      have hsame : (if e.1.tag == .default then (ofText .str (e.1.text.getD "="), e.2) else e).2 = e.2 := by
        split <;> rfl
      simp only [List.filter_cons, bne, he, Bool.not_false, if_true, List.map_cons, valueUses, List.sum_cons,
        hsame]
      simp only [bne, valueUses] at hrest
      omega

/-- A text holds no mapping, and cannot be opened. -/
lemma bounded_ofText (tag : Tag) (s : String) : (ofText tag s).Bounded i 0 := by
  obtain ⟨hraw, -, hitems⟩ := parts_ofText tag s
  obtain ⟨v, hlinked, -⟩ := linked_ofText tag s
  refine ⟨uses_plain ⟨v, hlinked⟩, by simp [hraw], fun es hes => ?_⟩
  simp [mergedEntries, hraw, hitems] at hes

lemma count_itemMarks (ls : List Linked) :
    (Linked.itemMarks ls).count i = (ls.map fun l => l.marks.count i).sum := by
  induction ls with
  | nil => rfl
  | cons l rest ih => rw [Linked.itemMarks, List.count_append, ih, List.map_cons, List.sum_cons]

/-- A list holds what its items hold, and has its own number as mark at most. -/
lemma count_marks_listOf (j : Nat) (ls : List Linked) :
    (listOf j ls).marks.count i ≤ (if j = i then 1 else 0) + (ls.map fun l => l.marks.count i).sum := by
  rw [listOf, Linked.marks, List.count_append, count_itemMarks]
  split
  · simp [List.count_cons]
  · simp

lemma count_again_le {l : Linked} {j : Nat} (h : l.again? = some j) (isList : Bool) :
    (Linked.again j isList).marks.count i ≤ l.marks.count i := by
  cases l with
  | again mark _ =>
    obtain rfl := Option.some.inj h
    exact Nat.le_refl _
  | _ => cases h

/-- What stands inside itself is among the marks. -/
lemma count_opens_le {l : Linked} {j : Nat} (h : j ∈ l.opens) (isList : Bool) :
    (Linked.again j isList).marks.count i ≤ l.marks.count i := by
  cases l with
  | list mark items =>
    obtain ⟨l, hl, hj⟩ := List.mem_filterMap.mp h
    have hsum := List.single_le_sum (fun _ _ => Nat.zero_le _) _
      (List.mem_map_of_mem (f := fun l => l.marks.count i) hl)
    rw [Linked.marks, List.count_append, count_itemMarks]
    exact Nat.le_trans (count_again_le hj isList) (Nat.le_trans hsum (Nat.le_add_left ..))
  | _ => exact count_again_le (Option.mem_toList.mp h) isList

/-- Single entries in a list stand in it once, and so does a list in place of them. -/
lemma uses_pairsOf_le (j : Nat) {qs : List Part} (h : BoundedItems i n qs) :
    (pairsOf j qs (qs.filterMap fun p => p.onlyEntry.toOption)).marks.count i ≤ (if j = i then 1 else 0) + n := by
  rcases pairsOf_cases j qs (qs.filterMap fun p => p.onlyEntry.toOption) with hlist | ⟨q, hq, mark, hmark, hagain⟩
  · have hle := count_marks_listOf (i := i) j
      ((qs.filterMap fun p => p.onlyEntry.toOption).map fun e => .tuple [e.1.linked, e.2.linked])
    simp only [List.map_map, Function.comp_def, Linked.marks, Linked.itemMarks, List.append_nil,
      List.count_append] at hle
    rw [hlist]
    exact Nat.le_trans hle (Nat.add_le_add_left h.onlyEntries_le _)
  · rw [hagain]
    calc (Linked.again mark true).marks.count i
      _ ≤ q.uses i := count_again_le hmark true
      _ ≤ n := h.item_le hq
      _ ≤ (if j = i then 1 else 0) + n := Nat.le_add_left ..

lemma bounded_ofItems (j : Nat) (tag : Tag) {qs : List Part} (h : BoundedItems i n qs) :
    (ofItems j tag qs).Bounded i ((if j = i then 1 else 0) + n) := by
  obtain ⟨hraw, -, hitems⟩ := parts_ofItems j tag qs
  refine ⟨?_, by simp [hraw], fun es hes => ?_⟩
  · cases tag with
    | seq =>
      have hle := count_marks_listOf (i := i) j (qs.map linked)
      rw [List.map_map] at hle
      exact Nat.le_trans hle (Nat.add_le_add_left h.uses_le _)
    | omap | pairs => exact uses_pairsOf_le j h
    | _ => exact uses_plain ⟨_, rfl⟩
  · rw [mergedEntries, hraw, hitems] at hes
    obtain ⟨each, heach, hes⟩ := Option.bind_eq_some_iff.mp hes
    obtain rfl := Option.some.inj hes
    rw [valueUses_flatten, List.map_reverse, List.sum_reverse]
    exact Nat.le_trans (h.merged_le heach) (Nat.le_add_left ..)

lemma count_entryMarks (es : List (Part × Part)) :
    (Linked.entryMarks (es.map fun e => (e.1.value, e.2.linked))).count i = valueUses i es := by
  induction es with
  | nil => rfl
  | cons e rest ih =>
    rw [List.map_cons, Linked.entryMarks, List.count_append, ih]
    rfl

/-- Entries stand in a mapping once, and so does a mapping in place of it. -/
lemma uses_mapOf_le (j : Nat) {es flat : List (Part × Part)} (h : BoundedPairs i n es)
    (hf : flatten es = some flat) :
    (mapOf j es (flat.map fun e => (e.1.value, e.2.linked))).marks.count i ≤ (if j = i then 1 else 0) + n := by
  rcases mapOf_cases j es (flat.map fun e => (e.1.value, e.2.linked)) with hmap | ⟨e, he, mark, hmark, hagain⟩
  · have hlist := LinkedEntries.count_entryMarks_ofList i (flat.map fun e => (e.1.value, e.2.linked))
    have hle := h.flatten_le hf
    have hmark : ((j : Option Nat).toList.count i) = if j = i then 1 else 0 := by
      simp [Option.toList, List.count_cons]
    rw [count_entryMarks] at hlist
    rw [hmap, Linked.marks, List.count_append]
    omega
  · rw [hagain]
    calc (Linked.again mark false).marks.count i
      _ ≤ e.2.uses i := count_opens_le hmark false
      _ ≤ n := h.value_le he
      _ ≤ (if j = i then 1 else 0) + n := Nat.le_add_left ..

lemma bounded_ofEntries (j : Nat) (tag : Tag) {es : List (Part × Part)} (h : BoundedPairs i n es) :
    (ofEntries j tag es).Bounded i ((if j = i then 1 else 0) + n) := by
  obtain ⟨hraw, hflat, -⟩ := parts_ofEntries j tag es
  refine ⟨?_, fun raw hr => ?_, fun merged hm => ?_⟩
  · rcases ofEntries_cases j tag es with ⟨flat, hf, hlinked, -⟩ | ⟨v, hlinked, -⟩
    · rw [uses, hlinked]
      exact uses_mapOf_le j h hf
    · exact uses_plain ⟨v, hlinked⟩
  · obtain rfl := Option.some.inj (hraw.symm.trans hr)
    exact Nat.le_trans h.uses_le (Nat.le_add_left ..)
  · rw [mergedEntries, hraw] at hm
    rcases hflat with hflat | hflat
    · exact Nat.le_trans (h.flatten_le (hflat.symm.trans hm)) (Nat.le_add_left ..)
    · simp [hflat] at hm

/-- Nothing can be opened in a collection inside itself. -/
lemma bounded_ofAgain (j : Nat) (isList : Bool) : (ofAgain j isList).Bounded i ([j, j].count i) := by
  refine ⟨?_, fun es hes => ?_, fun es hes => ?_⟩
  · show [j].count i ≤ [j, j].count i
    simp [List.count_cons]
  · cases isList with
    | true => cases hes
    | false =>
      obtain rfl := Option.some.inj hes
      exact Nat.zero_le _
  · obtain rfl : [] = es := by cases isList <;> exact Option.some.inj hes
    exact Nat.zero_le _

end Part

open SkillAtlas.Yaml.Part (Bounded BoundedItems BoundedPairs)

mutual
theorem Node.bounded_part (i : Nat) : (n : Node) → n.part.Bounded i (n.numbers.count i)
  | .scalar tag s => Part.bounded_ofText tag s
  | .sequence j tag items => by
    have hitems := Part.bounded_ofItems j tag (bounded_partsOf i items)
    rw [Node.numbers, List.count_cons, Nat.add_comm, Node.part]
    simpa using hitems
  | .mapping j tag pairs => by
    have hentries := Part.bounded_ofEntries j tag (bounded_partsOfPairs i pairs)
    rw [Node.numbers, List.count_cons, Nat.add_comm, Node.part]
    simpa using hentries
  | .again j isList => Part.bounded_ofAgain j isList

theorem bounded_partsOf (i : Nat) : (items : List Node) →
    BoundedItems i ((numbersOf items).count i) (partsOf items)
  | [] => .nil
  | n :: rest => by
    rw [numbersOf, List.count_append]
    exact .cons (n.bounded_part i) (bounded_partsOf i rest)

theorem bounded_partsOfPairs (i : Nat) : (pairs : List (Node × Node)) →
    BoundedPairs i ((numbersOfPairs pairs).count i) (partsOfPairs pairs)
  | [] => .nil
  | (k, v) :: rest => by
    rw [numbersOfPairs, List.count_append, List.count_append]
    exact .cons (k.bounded_part i) (v.bounded_part i) (bounded_partsOfPairs i rest)
end

/-- No alias is written in the text. -/
def Unaliased (text : String) : Prop :=
  ∀ a, Token.alias a ∉ (tokensOf (.ofText text)).ready

/-- Only aliases put a mapping in several places. -/
theorem unshared_of_unaliased {text : String} {l : Linked} (hno : Unaliased text) (hl : readLinked text = .ok l)
    (r : Nat) : (l.settled r).Unshared := by
  refine Linked.unshared_settled ?_ r
  rcases node_of_linkedFrom hl with rfl | ⟨n, hn, -, rfl⟩
  · exact List.nodup_nil
  · have hnodup := List.nodup_iff_count_le_one.mp (nodup_numbers hno hn)
    exact List.nodup_iff_count_le_one.mpr fun i => Nat.le_trans (n.bounded_part i).linked (hnodup i)

end Yaml

end SkillAtlas
