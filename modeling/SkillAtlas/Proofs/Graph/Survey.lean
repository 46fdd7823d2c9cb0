import Mathlib.Data.List.Basic
import SkillAtlas.Graph.Cycle

/-!
# Cycles and depths in one walk

The search for cycles and the working out of depths enter the same units in the same order. Here one walk
does both at once, and each of the two is shown to be a part of it.
-/

namespace SkillAtlas

/-- What a walk has found. -/
structure Survey where
  /-- the units that the walk has left, each with its depth -/
  depths : Depths := []
  /-- the cycles in the order in which they were closed -/
  cycles : List (List String) := []

namespace Survey

/-- The units that the walk has left, in the order in which it left them. -/
def left (s : Survey) : List String :=
  s.depths.map Prod.fst

/-- Leaves a unit. -/
def leave (s : Survey) (n : String) (depth : Nat) : Survey :=
  { s with depths := s.depths ++ [(n, depth)] }

/-- Closes a cycle. -/
def close (s : Survey) (cycle : List String) : Survey :=
  { s with cycles := s.cycles ++ [cycle] }

@[simp] lemma left_leave (s : Survey) (n : String) (d : Nat) : (s.leave n d).left = s.left ++ [n] := by
  simp [left, leave]

lemma lookup_eq_none {s : Survey} {n : String} : s.depths.lookup n = none ↔ n ∉ s.left := by
  rw [List.lookup_eq_none_iff, left, List.mem_map]
  constructor
  · rintro h ⟨p, hp, rfl⟩
    simpa using h p hp
  · intro h p hp
    simpa using fun he : n = p.1 => h ⟨p, hp, he.symm⟩

lemma mem_left_of_lookup {s : Survey} {n : String} {d : Nat} (h : s.depths.lookup n = some d) :
    n ∈ s.left := by
  by_contra hn
  rw [lookup_eq_none.mpr hn] at h
  cases h

end Survey

/-- Walks to some units in turn, from the unit at the head of `path`. The result is the depth that the
walks give that unit, if it had `depth` before, and what has been found. -/
def walk (nodes : List String) (step : String → List String) (path : List String) (depth : Nat) :
    List String → Survey → Nat × Survey
  | [], s => (depth, s)
  | n :: rest, s =>
    if path.contains n then walk nodes step path depth rest (s.close (closedBy path n))
    else
      match s.depths.lookup n with
      | some d => walk nodes step path (max depth (d + 1)) rest s
      | none =>
        if _h : n ∈ nodes ∧ n ∉ path then
          let (d, found) := walk nodes step (n :: path) 0 (step n) s
          walk nodes step path (max depth (d + 1)) rest (found.leave n d)
        else walk nodes step path depth rest s
termination_by names => (unseen nodes path, names.length)
decreasing_by
  · exact Prod.Lex.right _ (by simp)
  · exact Prod.Lex.right _ (by simp)
  · exact Prod.Lex.left _ _ (unseen_cons_lt _h.1 _h.2)
  · exact Prod.Lex.right _ (by simp)
  · exact Prod.Lex.right _ (by simp)

/-- What the walk from each unit in turn finds. -/
def CallGraph.survey (g : CallGraph) : Survey :=
  (walk g.nodes g.successors [] 0 g.nodes {}).2

section Parts

variable {nodes : List String} {step : String → List String} {path names : List String}

/-- The depths worked out on their own are those of the walk. -/
lemma deepen_eq_walk (depth : Nat) (s : Survey) :
    deepen nodes step path depth names s.depths =
      ((walk nodes step path depth names s).1, (walk nodes step path depth names s).2.depths) := by
  induction path, depth, names, s using walk.induct nodes step with
  | case1 path depth s => simp [deepen, walk]
  | case2 path depth n rest s hn ih =>
    rw [deepen, walk, if_pos hn, if_pos hn]
    exact ih
  | case3 path depth n rest s hn d hd ih =>
    rw [deepen, walk, if_neg hn, if_neg hn, hd]
    exact ih
  | case4 path depth n rest s hn hd hu d found hw ih₁ ih₂ =>
    rw [deepen, walk, if_neg hn, if_neg hn, hd]
    simp only [dif_pos hu, hw, ih₁]
    exact ih₂
  | case5 path depth n rest s hn hd hu ih =>
    rw [deepen, walk, if_neg hn, if_neg hn, hd]
    simp only [dif_neg hu]
    exact ih

/-- A search and a walk on one path have closed the same cycles, and the search has visited what the walk
has left or is on the path. -/
structure Agrees (path : List String) (t : Tour) (s : Survey) : Prop where
  cycles : t.cycles = s.cycles
  visited : ∀ n, n ∈ t.visited ↔ n ∈ path ∨ n ∈ s.left

variable {t : Tour} {s : Survey} {n : String}

lemma Agrees.close (h : Agrees path t s) (c : List String) : Agrees path (t.close c) (s.close c) where
  cycles := congrArg (· ++ [c]) h.cycles
  visited := h.visited

lemma Agrees.enter (h : Agrees path t s) (n : String) : Agrees (n :: path) (t.enter n) s where
  cycles := h.cycles
  visited := by
    intro m
    rw [Tour.enter, List.mem_cons, List.mem_cons, h.visited m, or_assoc]

lemma Agrees.leave (h : Agrees (n :: path) t s) (d : Nat) : Agrees path t (s.leave n d) where
  cycles := h.cycles
  visited := by
    intro m
    rw [h.visited m, List.mem_cons, Survey.left_leave, List.mem_append, List.mem_singleton]
    tauto

/-- The search for cycles on its own agrees with the walk. -/
lemma Agrees.walk (depth : Nat) (h : Agrees path t s) :
    Agrees path (tour nodes step path names t) (walk nodes step path depth names s).2 := by
  induction path, depth, names, s using walk.induct nodes step generalizing t with
  | case1 path depth s =>
    rw [tour, SkillAtlas.walk]
    exact h
  | case2 path depth n rest s hn ih =>
    rw [tour, SkillAtlas.walk, if_pos hn, if_pos hn]
    exact ih (h.close _)
  | case3 path depth n rest s hn d hd ih =>
    have hv : t.visited.contains n := by
      rw [List.contains_iff_mem, h.visited]
      exact Or.inr (Survey.mem_left_of_lookup hd)
    rw [tour, SkillAtlas.walk, if_neg hn, if_neg hn, if_pos hv, hd]
    exact ih h
  | case4 path depth n rest s hn hd hu d found hw ih₁ ih₂ =>
    have hv : ¬ t.visited.contains n := by
      rw [List.contains_iff_mem, h.visited]
      exact not_or.mpr ⟨hu.2, Survey.lookup_eq_none.mp hd⟩
    rw [tour, SkillAtlas.walk, if_neg hn, if_neg hn, if_neg hv, hd]
    simp only [dif_pos hu, hw]
    have hfound := ih₁ (h.enter n)
    rw [hw] at hfound
    exact ih₂ (hfound.leave d)
  | case5 path depth n rest s hn hd hu ih =>
    have hv : ¬ t.visited.contains n := by
      rw [List.contains_iff_mem, h.visited]
      exact not_or.mpr ⟨by simpa using hn, Survey.lookup_eq_none.mp hd⟩
    rw [tour, SkillAtlas.walk, if_neg hn, if_neg hn, if_neg hv, hd]
    simp only [dif_neg hu]
    exact ih h

end Parts

namespace CallGraph

/-- The depths of the units are those that the walk finds. -/
lemma depths_eq_survey (g : CallGraph) : g.depths = g.survey.depths :=
  congrArg Prod.snd (deepen_eq_walk 0 {})

/-- The cycles of the graph are those that the walk finds. -/
lemma cycles_eq_survey (g : CallGraph) : g.cycles = g.survey.cycles := by
  have hempty : Agrees [] {} {} := ⟨rfl, by simp [Survey.left]⟩
  exact (hempty.walk 0).cycles

end CallGraph

end SkillAtlas
