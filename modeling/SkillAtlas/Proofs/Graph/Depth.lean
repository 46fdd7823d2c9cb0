import Mathlib.Data.List.Nodup
import Mathlib.Order.Bounds.Basic
import Mathlib.Order.MinMax
import SkillAtlas.Proofs.Graph.Cycles

/-!
# Depth is the longest path

The depth of a unit is the number of calls on the longest path from it that closes no cycle. So the greatest
depth is the number of calls on the longest such path, and without cycles on the longest path.
-/

namespace SkillAtlas

section Greatest

variable {xs : List Nat} {x : Nat}

lemma le_foldl_max (xs : List Nat) (d : Nat) : d ≤ xs.foldl max d := by
  induction xs generalizing d with
  | nil => exact le_rfl
  | cons y rest ih => exact (le_max_left d y).trans (ih (max d y))

lemma le_foldl_max_of_mem (h : x ∈ xs) (d : Nat) : x ≤ xs.foldl max d := by
  induction xs generalizing d with
  | nil => simp at h
  | cons y rest ih =>
    rcases List.mem_cons.mp h with rfl | h
    · exact (le_max_right d x).trans (le_foldl_max rest (max d x))
    · exact ih h (max d y)

/-- A greatest number is the one started with or one of the list. -/
lemma foldl_max_eq_or_mem (xs : List Nat) (d : Nat) : xs.foldl max d = d ∨ xs.foldl max d ∈ xs := by
  induction xs generalizing d with
  | nil => exact Or.inl rfl
  | cons y rest ih =>
    rw [List.foldl_cons]
    rcases ih (max d y) with h | h
    · rw [h]
      rcases max_choice d y with hd | hy
      · exact Or.inl hd
      · exact Or.inr (List.mem_cons.mpr (Or.inl hy))
    · exact Or.inr (List.mem_cons_of_mem y h)

end Greatest

namespace Survey

variable {s : Survey} {m n : String} {names : List String}

lemma deepest_eq_foldl (s : Survey) (d : Nat) (names : List String) :
    s.deepest d names = (names.map fun m => s.depthOf m + 1).foldl max d := by
  rw [List.foldl_map, deepest]

lemma depthOf_lt_deepest (hm : m ∈ names) (d : Nat) : s.depthOf m < s.deepest d names := by
  have hmem : s.depthOf m + 1 ∈ names.map fun m => s.depthOf m + 1 := List.mem_map.mpr ⟨m, hm, rfl⟩
  rw [deepest_eq_foldl]
  exact le_foldl_max_of_mem hmem d

lemma exists_deepest (h : 0 < s.deepest 0 names) : ∃ m ∈ names, s.deepest 0 names = s.depthOf m + 1 := by
  rw [deepest_eq_foldl] at h ⊢
  have hmem := (foldl_max_eq_or_mem (names.map fun m => s.depthOf m + 1) 0).resolve_left (by omega)
  obtain ⟨m, hm, he⟩ := List.mem_map.mp hmem
  exact ⟨m, hm, he.symm⟩

lemma depthOf_of_mem (hs : s.left.Nodup) {d : Nat} (h : (n, d) ∈ s.depths) : s.depthOf n = d := by
  obtain ⟨before, rest, he⟩ := List.append_of_mem h
  have hbefore : before.lookup n = none := by
    rw [left, he, List.map_append, List.map_cons, List.nodup_middle, List.nodup_cons] at hs
    refine List.lookup_eq_none_iff.mpr fun e hmem => ?_
    have hne : n ≠ e.1 := by
      rintro rfl
      exact hs.1 (List.mem_append_left _ (List.mem_map.mpr ⟨e, hmem, rfl⟩))
    simpa using hne
  rw [depthOf, he, List.lookup_append, hbefore]
  simp

end Survey

namespace CallGraph

variable {g : CallGraph} {m n : String} {p : List String}

lemma kept_subset (g : CallGraph) (n : String) : g.kept n ⊆ g.successors n :=
  List.filter_subset_self _

lemma WellFormed.depthOf_eq (h : g.WellFormed) (hn : n ∈ g.nodes) :
    g.survey.depthOf n = g.survey.deepest 0 (g.kept n) := by
  rw [h.kept_eq hn]
  exact (h.finished hn).depth

/-- No path without closing calls is longer than the depth of its first unit. -/
lemma WellFormed.length_le_depthOf (h : g.WellFormed) (hp : IsPath g.nodes g.kept (n :: p)) :
    p.length ≤ g.survey.depthOf n := by
  induction p generalizing n with
  | nil => exact Nat.zero_le _
  | cons m rest ih =>
    obtain ⟨hm, hchain⟩ := List.isChain_cons_cons.mp hp.chain
    obtain ⟨hn, hknown⟩ := List.cons_subset.mp hp.known
    have hle := ih ⟨hknown, hchain⟩
    have hlt : g.survey.depthOf m < g.survey.depthOf n := by
      rw [h.depthOf_eq hn]
      exact Survey.depthOf_lt_deepest hm 0
    rw [List.length_cons]
    omega

/-- From each unit a path without closing calls is as long as its depth. -/
lemma WellFormed.exists_path (h : g.WellFormed) (hn : n ∈ g.nodes) :
    ∃ p, IsPath g.nodes g.kept (n :: p) ∧ p.length = g.survey.depthOf n := by
  induction hd : g.survey.depthOf n generalizing n with
  | zero => exact ⟨[], ⟨List.cons_subset.mpr ⟨hn, List.nil_subset _⟩, List.isChain_singleton n⟩, rfl⟩
  | succ d ih =>
    have hdeep := h.depthOf_eq hn
    have hpos : 0 < g.survey.deepest 0 (g.kept n) := by omega
    obtain ⟨m, hm, he⟩ := Survey.exists_deepest hpos
    have hmem : m ∈ g.nodes := h.successors_subset n (g.kept_subset n hm)
    obtain ⟨p, hp, hlen⟩ := ih hmem (by omega)
    refine ⟨m :: p, ⟨List.cons_subset.mpr ⟨hn, hp.known⟩, ?_⟩, ?_⟩
    · exact List.isChain_cons_cons.mpr ⟨hm, hp.chain⟩
    · rw [List.length_cons, hlen]

lemma WellFormed.depthOf_le_maxDepth (h : g.WellFormed) (hn : n ∈ g.nodes) :
    g.survey.depthOf n ≤ g.maxDepth := by
  obtain ⟨e, he, rfl⟩ := List.mem_map.mp (h.mem_left.mpr hn)
  rw [Survey.depthOf_of_mem h.consistent_survey.distinct he, maxDepth, depths_eq_survey]
  exact le_foldl_max_of_mem (List.mem_map_of_mem he) 0

lemma WellFormed.exists_depthOf_eq_maxDepth (h : g.WellFormed) (hd : g.maxDepth ≠ 0) :
    ∃ n ∈ g.nodes, g.survey.depthOf n = g.maxDepth := by
  rw [maxDepth, depths_eq_survey] at hd ⊢
  have hmem := (foldl_max_eq_or_mem (g.survey.depths.map Prod.snd) 0).resolve_left hd
  obtain ⟨e, he, hmax⟩ := List.mem_map.mp hmem
  refine ⟨e.1, h.mem_left.mp (List.mem_map_of_mem he), ?_⟩
  rw [Survey.depthOf_of_mem h.consistent_survey.distinct he, hmax]

/-- The greatest depth is the number of calls on the longest path without closing calls. -/
lemma WellFormed.isLongest_kept (h : g.WellFormed) :
    IsLongest (IsPath g.nodes g.kept) g.maxDepth := by
  constructor
  · by_cases hd : g.maxDepth = 0
    · exact ⟨[], ⟨List.nil_subset _, List.isChain_nil⟩, hd.symm⟩
    · obtain ⟨n, hn, he⟩ := h.exists_depthOf_eq_maxDepth hd
      obtain ⟨p, hp, hlen⟩ := h.exists_path hn
      exact ⟨n :: p, hp, hlen.trans he⟩
  · rintro k ⟨p, hp, rfl⟩
    cases p with
    | nil => exact Nat.zero_le _
    | cons n rest =>
      have hn := (List.cons_subset.mp hp.known).1
      exact (h.length_le_depthOf hp).trans (h.depthOf_le_maxDepth hn)

lemma kept_eq_successors (hc : g.cycles = []) : g.kept = g.successors := by
  funext n
  rw [kept, hc]
  simp

/-- The greatest depth is the number of calls on the longest path of the graph without the calls that close
the reported cycles; that graph has no cycle, and when no cycle is reported it is the whole graph. -/
theorem maxDepth_isLongest (changes : List Change) :
    let g := after changes
    IsLongest (IsPath g.nodes g.kept) g.maxDepth ∧ (∀ c, ¬ IsCycle g.nodes g.kept c) ∧
      (g.cycles = [] → IsLongest (IsPath g.nodes g.successors) g.maxDepth) := by
  intro g
  have h : g.WellFormed := wellFormed_after changes
  refine ⟨h.isLongest_kept, h.not_isCycle_kept, fun hc => ?_⟩
  rw [← kept_eq_successors hc]
  exact h.isLongest_kept

end CallGraph

end SkillAtlas
