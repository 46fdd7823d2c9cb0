import Mathlib.Data.List.Nodup
import SkillAtlas.Graph.Basic
import SkillAtlas.Proofs.Distinct

/-!
# Graphs that can be built

A graph is built from the empty one by making units known and adding edges, in any order. Every link of
such a graph connects two known units.
-/

namespace SkillAtlas

/-- One change of a graph: a unit becomes known or an edge is added. -/
inductive Change where
  | node (n : String)
  | edge (e : Edge)

namespace CallGraph

/-- Makes one change. -/
def apply (g : CallGraph) : Change → CallGraph
  | .node n => g.addNode n
  | .edge e => g.addEdge e

/-- The graph that some changes, made in turn, build from the empty one. -/
def after (changes : List Change) : CallGraph :=
  changes.foldl apply {}

/-- No unit is known twice, and the units that a link connects are known. -/
structure WellFormed (g : CallGraph) : Prop where
  distinct : g.nodes.Nodup
  linked : ∀ l ∈ g.links, l.1 ∈ g.nodes ∧ l.2 ∈ g.nodes

variable {g : CallGraph} {m n : String}

lemma hasNode_iff : g.hasNode n = true ↔ n ∈ g.nodes :=
  List.contains_iff_mem

lemma mem_addNode : m ∈ (g.addNode n).nodes ↔ m ∈ g.nodes ∨ m = n := by
  unfold addNode
  by_cases hn : g.hasNode n
  · have hmem : n ∈ g.nodes := by simpa [hasNode] using hn
    rw [if_pos hn]
    constructor
    · exact Or.inl
    · rintro (hm | rfl)
      · exact hm
      · exact hasNode_iff.mp hn
  · rw [if_neg hn, List.mem_append, List.mem_singleton]

lemma links_addNode (g : CallGraph) (n : String) : (g.addNode n).links = g.links := by
  unfold addNode
  split <;> rfl

lemma WellFormed.addNode (h : g.WellFormed) (n : String) : (g.addNode n).WellFormed where
  distinct := by
    unfold CallGraph.addNode
    by_cases hn : g.hasNode n
    · rw [if_pos hn]
      exact h.distinct
    · have hnot : n ∉ g.nodes := fun hmem => hn (hasNode_iff.mpr hmem)
      rw [if_neg hn, ← List.concat_eq_append]
      exact h.distinct.concat hnot
  linked := by
    intro l hl
    rw [links_addNode] at hl
    obtain ⟨hs, ht⟩ := h.linked l hl
    exact ⟨mem_addNode.mpr (Or.inl hs), mem_addNode.mpr (Or.inl ht)⟩

lemma WellFormed.link (h : g.WellFormed) (hm : m ∈ g.nodes) (n : String) : (g.link n m).WellFormed where
  distinct := (h.addNode n).distinct
  linked := by
    intro l hl
    rcases List.mem_append.mp hl with hl | hl
    · exact (h.addNode n).linked l hl
    · obtain rfl := List.mem_singleton.mp hl
      exact ⟨mem_addNode.mpr (Or.inr rfl), mem_addNode.mpr (Or.inl hm)⟩

lemma WellFormed.addEdge (h : g.WellFormed) (e : Edge) : (g.addEdge e).WellFormed := by
  have he : WellFormed { g with edges := g.edges ++ [e] } := ⟨h.distinct, h.linked⟩
  unfold CallGraph.addEdge
  dsimp only
  split
  · rename_i ht
    exact he.link (hasNode_iff.mp ht) e.source
  · exact he

lemma WellFormed.apply (h : g.WellFormed) (c : Change) : (g.apply c).WellFormed := by
  cases c with
  | node n => exact h.addNode n
  | edge e => exact h.addEdge e

/-- Every graph that can be built is well formed. -/
theorem wellFormed_after (changes : List Change) : (after changes).WellFormed := by
  have hrun : ∀ (g : CallGraph), g.WellFormed → (changes.foldl CallGraph.apply g).WellFormed := by
    induction changes with
    | nil => exact fun g h => h
    | cons c rest ih => exact fun g h => ih (g.apply c) (h.apply c)
  exact hrun {} ⟨List.nodup_nil, by simp⟩

lemma mem_successors : m ∈ g.successors n ↔ (n, m) ∈ g.links := by
  simp [successors, calls]

lemma nodup_successors (g : CallGraph) (n : String) : (g.successors n).Nodup :=
  nodup_eraseDups _

lemma WellFormed.successors_subset (h : g.WellFormed) (n : String) : g.successors n ⊆ g.nodes :=
  fun _ hm => (h.linked _ (mem_successors.mp hm)).2

end CallGraph

end SkillAtlas
