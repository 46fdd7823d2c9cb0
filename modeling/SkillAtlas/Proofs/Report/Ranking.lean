import SkillAtlas.Proofs.Distinct
import SkillAtlas.Proofs.Template.Duplicates
import SkillAtlas.Report.Basic

/-!
# Names ranked by count

A ranking holds every name once, with the sum of its counts. Greater counts stand first, and names of equal
counts in the order in which they come first.
-/

namespace SkillAtlas

/-- A ranking of names: each of them once, the greater counts first, and names of equal counts in the order in
which they come first. -/
structure Ranks (names : List String) (count : String → Nat) (ranking : List Ranked) : Prop where
  nodup : (ranking.map Ranked.name).Nodup
  mem_iff : ∀ r, r ∈ ranking ↔ r.name ∈ names ∧ r.count = count r.name
  falling : ranking.Pairwise fun r s =>
    s.count < r.count ∨ s.count = r.count ∧ names.idxOf r.name < names.idxOf s.name

section First

variable {names : List String}

/-- Names that are kept come first in the order in which they do among all names. -/
lemma idxOf_lt_of_filter {p : String → Bool} {a b : String} (ha : p a = true) (hb : p b = true)
    (h : (names.filter p).idxOf a < (names.filter p).idxOf b) : names.idxOf a < names.idxOf b := by
  induction names with
  | nil => exact absurd h (lt_irrefl _)
  | cons n rest ih =>
    by_cases hna : n = a
    · subst hna
      have hne : n ≠ b := by
        rintro rfl
        exact absurd h (lt_irrefl _)
      rw [List.idxOf_cons_self, List.idxOf_cons_ne _ hne]
      exact Nat.succ_pos _
    by_cases hnb : n = b
    · subst hnb
      rw [List.filter_cons_of_pos hb, List.idxOf_cons_self] at h
      exact absurd h (Nat.not_lt_zero _)
    rw [List.idxOf_cons_ne _ hna, List.idxOf_cons_ne _ hnb]
    refine Nat.succ_lt_succ (ih ?_)
    by_cases hn : p n = true
    · rw [List.filter_cons_of_pos hn, List.idxOf_cons_ne _ hna, List.idxOf_cons_ne _ hnb] at h
      exact Nat.lt_of_succ_lt_succ h
    · rwa [List.filter_cons_of_neg hn] at h

/-- Without repeats the names are in the order in which they come first. -/
lemma pairwise_idxOf_eraseDups (names : List String) :
    names.eraseDups.Pairwise fun a b => names.idxOf a < names.idxOf b := by
  induction names using eraseDups_induction with
  | nil => exact List.Pairwise.nil
  | cons n rest ih =>
    have hmem : ∀ a ∈ (rest.filter fun y => !y == n).eraseDups, (!a == n) = true := fun a ha =>
      (List.mem_filter.mp (List.mem_eraseDups.mp ha)).2
    have hne : ∀ a ∈ (rest.filter fun y => !y == n).eraseDups, n ≠ a := by
      rintro a ha rfl
      simpa using hmem n ha
    rw [List.eraseDups_cons, List.pairwise_cons]
    constructor
    · intro a ha
      rw [List.idxOf_cons_self, List.idxOf_cons_ne _ (hne a ha)]
      exact Nat.succ_pos _
    · refine ih.imp_of_mem fun {a b} ha hb hab => ?_
      rw [List.idxOf_cons_ne _ (hne a ha), List.idxOf_cons_ne _ (hne b hb)]
      exact Nat.succ_lt_succ (idxOf_lt_of_filter (hmem a ha) (hmem b hb) hab)

end First

section Totals

variable {counts more : List (String × Nat)} {n : String}

lemma totalOf_eq_sum (n : String) (counts : List (String × Nat)) :
    totalOf n counts = ((counts.filter fun c => c.1 == n).map Prod.snd).sum := by
  induction counts with
  | nil => rfl
  | cons c rest ih =>
    rw [totalOf, ih]
    split
    · rw [List.filter_cons_of_pos ‹_›, List.map_cons, List.sum_cons]
    · rw [List.filter_cons_of_neg ‹_›]

lemma totalOf_flatMap {α : Type} (n : String) (f : α → List (String × Nat)) (xs : List α) :
    totalOf n (xs.flatMap f) = (xs.map fun x => totalOf n (f x)).sum := by
  induction xs with
  | nil => rfl
  | cons x rest ih =>
    rw [List.flatMap_cons, List.map_cons, List.sum_cons, ← ih, totalOf_eq_sum, totalOf_eq_sum, totalOf_eq_sum,
      List.filter_append, List.map_append, List.sum_append]

lemma totalOf_ones (n : String) (names : List String) : totalOf n (names.map fun m => (m, 1)) = names.count n := by
  induction names with
  | nil => rfl
  | cons m rest ih =>
    rw [List.map_cons, totalOf, ih, List.count_cons]
    split
    · exact Nat.add_comm _ _
    · rfl

lemma mem_totals {r : Ranked} :
    r ∈ totals counts ↔ r.name ∈ counts.map Prod.fst ∧ r.count = totalOf r.name counts := by
  simp only [totals, List.mem_map, List.mem_eraseDups]
  constructor
  · rintro ⟨n, hn, rfl⟩
    exact ⟨hn, rfl⟩
  · rintro ⟨hn, hcount⟩
    exact ⟨r.name, hn, by rw [← hcount]⟩

lemma map_name_totals (counts : List (String × Nat)) :
    (totals counts).map Ranked.name = (counts.map Prod.fst).eraseDups := by
  rw [totals, List.map_map]
  exact List.map_id _

lemma pairwise_totals (counts : List (String × Nat)) : (totals counts).Pairwise fun r s =>
    (counts.map Prod.fst).idxOf r.name < (counts.map Prod.fst).idxOf s.name := by
  rw [totals, List.pairwise_map]
  exact pairwise_idxOf_eraseDups _

end Totals

/-- The count of a component as a key to rank by. -/
def Ranked.weight (r : Ranked) : ℚ :=
  r.count

lemma ranked_eq_descending (counts : List (String × Nat)) :
    ranked counts = descending Ranked.weight (totals counts) := by
  simp only [ranked, descending, Ranked.weight, Nat.cast_le]

/-- Ranking names ranks them. Names of one count stay as they come first, for sorting keeps their order. -/
lemma ranks_ranked (counts : List (String × Nat)) :
    Ranks (counts.map Prod.fst) (fun n => totalOf n counts) (ranked counts) := by
  have hperm : (ranked counts).Perm (totals counts) := ranked_eq_descending counts ▸ descending_perm _ _
  refine ⟨?_, fun r => ?_, ?_⟩
  · rw [(hperm.map Ranked.name).nodup_iff, map_name_totals]
    exact nodup_eraseDups _
  · rw [hperm.mem_iff, mem_totals]
  · rw [List.pairwise_iff_forall_sublist]
    intro r s hrs
    have hle : s.weight ≤ r.weight := by
      have hfalls := pairwise_descending Ranked.weight (totals counts)
      rw [← ranked_eq_descending] at hfalls
      exact List.pairwise_iff_forall_sublist.mp hfalls hrs
    rcases (Nat.cast_le.mp hle : s.count ≤ r.count).lt_or_eq with hlt | heq
    · exact Or.inl hlt
    · refine Or.inr ⟨heq, ?_⟩
      have hsame : s.weight = r.weight := congrArg Nat.cast heq
      have hkept : [r, s].Sublist ((totals counts).filter fun x => x.weight = r.weight) := by
        rw [← filter_descending, ← ranked_eq_descending]
        simpa [hsame] using hrs.filter fun x => x.weight = r.weight
      exact List.pairwise_iff_forall_sublist.mp (pairwise_totals counts) (hkept.trans List.filter_sublist)

/-- Each occurrence of a name counts once. -/
lemma ranks_rankedNames (names : List String) : Ranks names (fun n => names.count n) (rankedNames names) := by
  have hranks := ranks_ranked (names.map fun n => (n, 1))
  have hnames : (names.map fun n => (n, 1)).map Prod.fst = names := by
    rw [List.map_map]
    exact List.map_id _
  simp only [hnames, totalOf_ones] at hranks
  exact hranks

end SkillAtlas
