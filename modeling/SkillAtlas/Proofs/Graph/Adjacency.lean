import Mathlib.Data.List.Count
import SkillAtlas.Proofs.Graph.Build

/-!
# Both ends of a link

A known unit keeps two lists: whom it calls and who calls it. An edge to a known unit is entered twice, at
its source and at its target, which may be the same unit. The two views of a graph are these lists, and so
a call is found from its source as often as from its target. Where all units are known before the first
edge is added, it is found as often as it was added.
-/

namespace SkillAtlas

open AnalyzedUnit (names)

/-- The lists that a known unit keeps. -/
structure Neighbours where
  calls : List String
  calledBy : List String

namespace Neighbours

def enterCall (target : String) (u : Neighbours) : Neighbours :=
  { u with calls := u.calls ++ [target] }

def enterCaller (source : String) (u : Neighbours) : Neighbours :=
  { u with calledBy := u.calledBy ++ [source] }

end Neighbours

/-- The known units, each with the lists that it keeps, in the order in which they became known. -/
abbrev Ledger := List (String × Neighbours)

namespace Ledger

def knows (l : Ledger) (n : String) : Bool :=
  (l.map Prod.fst).contains n

def addNode (l : Ledger) (n : String) : Ledger :=
  if l.knows n then l else l ++ [(n, ⟨[], []⟩)]

/-- Changes the lists of one unit. -/
def update (l : Ledger) (n : String) (f : Neighbours → Neighbours) : Ledger :=
  l.map fun p => if p.1 = n then (p.1, f p.2) else p

/-- Enters an edge at both its ends, unless its target is not known. -/
def addEdge (l : Ledger) (e : Edge) : Ledger :=
  if l.knows e.target then
    ((l.addNode e.source).update e.source (.enterCall e.target)).update e.target (.enterCaller e.source)
  else l

def apply (l : Ledger) : Change → Ledger
  | .node n => l.addNode n
  | .edge e => l.addEdge e

/-- The ledger after some changes, made in turn. -/
def after (changes : List Change) : Ledger :=
  changes.foldl apply []

lemma update_map (known : List String) (table : String → Neighbours) (n : String)
    (f : Neighbours → Neighbours) :
    update (known.map fun m => (m, table m)) n f =
      known.map fun m => (m, if m = n then f (table m) else table m) := by
  unfold update
  rw [List.map_map]
  refine List.map_congr_left fun m _ => ?_
  by_cases hm : m = n <;> simp [hm]

end Ledger

namespace CallGraph

variable {g : CallGraph} {e : Edge} {s t n : String}

def neighbours (g : CallGraph) (n : String) : Neighbours :=
  ⟨g.calls n, g.calledBy n⟩

def ledger (g : CallGraph) : Ledger :=
  g.nodes.map fun n => (n, g.neighbours n)

/-- How many edges go from one name to another. -/
def edgesBetween (g : CallGraph) (source target : String) : Nat :=
  g.edges.countP fun e => e.source == source && e.target == target

section Views

lemma count_calls (g : CallGraph) (s t : String) : (g.calls s).count t = g.links.count (s, t) := by
  unfold calls
  induction g.links with
  | nil => rfl
  | cons l rest ih =>
    obtain ⟨a, b⟩ := l
    by_cases ha : a = s
    · simp [ha, ih, List.count_cons]
    · simp [ha, ih]

lemma count_calledBy (g : CallGraph) (s t : String) : (g.calledBy t).count s = g.links.count (s, t) := by
  unfold calledBy
  induction g.links with
  | nil => rfl
  | cons l rest ih =>
    obtain ⟨a, b⟩ := l
    by_cases hb : b = t
    · simp [hb, ih, List.count_cons]
    · simp [hb, ih]

lemma mem_calls : t ∈ g.calls s ↔ (s, t) ∈ g.links := by
  simp [calls]

lemma mem_calledBy : s ∈ g.calledBy t ↔ (s, t) ∈ g.links := by
  simp [calledBy]

lemma WellFormed.calls_subset (h : g.WellFormed) (s : String) : g.calls s ⊆ g.nodes :=
  fun _ ht => (h.linked _ (mem_calls.mp ht)).2

lemma WellFormed.calledBy_subset (h : g.WellFormed) (t : String) : g.calledBy t ⊆ g.nodes :=
  fun _ hs => (h.linked _ (mem_calledBy.mp hs)).1

lemma WellFormed.neighbours_eq (h : g.WellFormed) (hn : n ∉ g.nodes) : g.neighbours n = ⟨[], []⟩ := by
  have hcalls : g.calls n = [] :=
    List.eq_nil_iff_forall_not_mem.mpr fun t ht => hn (h.linked _ (mem_calls.mp ht)).1
  have hcalledBy : g.calledBy n = [] :=
    List.eq_nil_iff_forall_not_mem.mpr fun s hs => hn (h.linked _ (mem_calledBy.mp hs)).2
  rw [neighbours, hcalls, hcalledBy]

end Views

section Changed

lemma nodes_addNode (g : CallGraph) (n : String) :
    (g.addNode n).nodes = if g.hasNode n then g.nodes else g.nodes ++ [n] := by
  unfold addNode
  split <;> rfl

lemma edges_addNode (g : CallGraph) (n : String) : (g.addNode n).edges = g.edges := by
  unfold addNode
  split <;> rfl

lemma edges_addEdge (g : CallGraph) (e : Edge) : (g.addEdge e).edges = g.edges ++ [e] := by
  unfold addEdge
  dsimp only
  split
  · simp only [link, edges_addNode]
  · rfl

/-- An edge makes its source known if its target is. -/
lemma nodes_addEdge (g : CallGraph) (e : Edge) :
    (g.addEdge e).nodes = if g.hasNode e.target then (g.addNode e.source).nodes else g.nodes := by
  by_cases ht : g.hasNode e.target
  · have hadd : g.addEdge e = link { g with edges := g.edges ++ [e] } e.source e.target := if_pos ht
    rw [if_pos ht, hadd, link, nodes_addNode, nodes_addNode]
    rfl
  · have hadd : g.addEdge e = { g with edges := g.edges ++ [e] } := if_neg ht
    rw [if_neg ht, hadd]

lemma links_addEdge (g : CallGraph) (e : Edge) :
    (g.addEdge e).links = if g.hasNode e.target then g.links ++ [(e.source, e.target)] else g.links := by
  by_cases ht : g.hasNode e.target
  · have hadd : g.addEdge e = link { g with edges := g.edges ++ [e] } e.source e.target := if_pos ht
    rw [if_pos ht, hadd, link, links_addNode]
  · have hadd : g.addEdge e = { g with edges := g.edges ++ [e] } := if_neg ht
    rw [if_neg ht, hadd]

end Changed

section Ledger

lemma knows_ledger (g : CallGraph) (n : String) : g.ledger.knows n = g.hasNode n := by
  simp [Ledger.knows, ledger, hasNode, Function.comp_def]

lemma neighbours_congr {g g' : CallGraph} (h : g'.links = g.links) : g'.neighbours = g.neighbours := by
  funext m
  simp only [neighbours, calls, calledBy, h]

/-- One more link is seen by its source and by its target. -/
lemma neighbours_concat {g g' : CallGraph} (h : g'.links = g.links ++ [(s, t)]) (m : String) :
    g'.neighbours m =
      let u := if m = s then (g.neighbours m).enterCall t else g.neighbours m
      if m = t then u.enterCaller s else u := by
  simp only [neighbours, calls, calledBy, h, List.filter_append, List.map_append]
  by_cases hs : s = m
  · subst hs
    by_cases ht : t = s
    · subst ht
      simp [Neighbours.enterCall, Neighbours.enterCaller]
    · simp [ht, Ne.symm ht, Neighbours.enterCall]
  · by_cases ht : t = m
    · subst ht
      simp [hs, Ne.symm hs, Neighbours.enterCaller]
    · simp [hs, ht, Ne.symm hs, Ne.symm ht]

lemma WellFormed.ledger_addNode (h : g.WellFormed) (n : String) :
    (g.addNode n).ledger = g.ledger.addNode n := by
  unfold Ledger.addNode
  rw [knows_ledger, ledger, neighbours_congr (links_addNode g n)]
  by_cases hn : g.hasNode n
  · rw [if_pos hn, nodes_addNode, if_pos hn, ledger]
  · have hnot : n ∉ g.nodes := fun hmem => hn (hasNode_iff.mpr hmem)
    rw [if_neg hn, nodes_addNode, if_neg hn, List.map_append, List.map_singleton, h.neighbours_eq hnot, ledger]

lemma WellFormed.ledger_addEdge (h : g.WellFormed) (e : Edge) : (g.addEdge e).ledger = g.ledger.addEdge e := by
  unfold Ledger.addEdge
  rw [knows_ledger]
  have hnodes := nodes_addEdge g e
  have hlinks := links_addEdge g e
  by_cases ht : g.hasNode e.target
  · rw [if_pos ht] at hnodes hlinks ⊢
    rw [← h.ledger_addNode, ledger, ledger, Ledger.update_map, Ledger.update_map, hnodes,
      neighbours_congr (links_addNode g e.source)]
    refine List.map_congr_left fun m _ => ?_
    rw [neighbours_concat hlinks]
  · rw [if_neg ht] at hnodes hlinks ⊢
    rw [ledger, hnodes, neighbours_congr hlinks, ledger]

/-- The two views of a graph are the lists that its units keep. -/
lemma ledger_after (changes : List Change) : (after changes).ledger = Ledger.after changes := by
  have hrun : ∀ g : CallGraph, g.WellFormed →
      (changes.foldl CallGraph.apply g).ledger = changes.foldl Ledger.apply g.ledger := by
    induction changes with
    | nil => exact fun g _ => rfl
    | cons c rest ih =>
      intro g h
      have hstep : (g.apply c).ledger = g.ledger.apply c := by
        cases c with
        | node n => exact h.ledger_addNode n
        | edge e => exact h.ledger_addEdge e
      rw [List.foldl_cons, List.foldl_cons, ih (g.apply c) (h.apply c), hstep]
  exact hrun {} ⟨List.nodup_nil, by simp⟩

end Ledger

section Recorded

/-- The ends of the edges, in the order in which the edges were added. -/
def ends (g : CallGraph) : List (String × String) :=
  g.edges.map fun e => (e.source, e.target)

lemma edgesBetween_eq (g : CallGraph) (s t : String) : g.edgesBetween s t = g.ends.count (s, t) := by
  rw [edgesBetween, ends, List.count_eq_countP, List.countP_map]
  rfl

lemma links_sublist_apply (h : g.links.Sublist g.ends) (c : Change) :
    (g.apply c).links.Sublist (g.apply c).ends := by
  cases c with
  | node n =>
    show (g.addNode n).links.Sublist (g.addNode n).ends
    rw [ends, edges_addNode, links_addNode]
    exact h
  | edge e =>
    show (g.addEdge e).links.Sublist (g.addEdge e).ends
    rw [ends, edges_addEdge, links_addEdge, List.map_append]
    split
    · exact h.append (List.Sublist.refl _)
    · exact h.trans (List.sublist_append_left _ _)

lemma links_sublist_after (changes : List Change) : (after changes).links.Sublist (after changes).ends := by
  have hrun : ∀ g : CallGraph, g.links.Sublist g.ends →
      (changes.foldl CallGraph.apply g).links.Sublist (changes.foldl CallGraph.apply g).ends := by
    induction changes with
    | nil => exact fun g h => h
    | cons c rest ih => exact fun g h => ih (g.apply c) (links_sublist_apply h c)
  exact hrun {} (List.Sublist.refl _)

end Recorded

section Units

variable {es : List Edge}

lemma nodes_addEdge_of_mem (hs : e.source ∈ g.nodes) : (g.addEdge e).nodes = g.nodes := by
  rw [nodes_addEdge, nodes_addNode, if_pos (hasNode_iff.mpr hs), ite_self]

lemma foldl_addEdge (hs : ∀ e ∈ es, e.source ∈ g.nodes) :
    (es.foldl addEdge g).nodes = g.nodes ∧ (es.foldl addEdge g).edges = g.edges ++ es ∧
      (es.foldl addEdge g).links =
        g.links ++ (es.filter fun e => g.hasNode e.target).map fun e => (e.source, e.target) := by
  induction es generalizing g with
  | nil => simp
  | cons e rest ih =>
    obtain ⟨he, hrest⟩ := List.forall_mem_cons.mp hs
    have hnodes := nodes_addEdge_of_mem he
    have hhas : ∀ m, (g.addEdge e).hasNode m = g.hasNode m := fun m => by rw [hasNode, hnodes, hasNode]
    obtain ⟨hn, hedges, hlinks⟩ := ih (g := g.addEdge e) (by rwa [hnodes])
    refine ⟨hn.trans hnodes, ?_, ?_⟩
    · rw [List.foldl_cons, hedges, edges_addEdge, List.append_assoc, List.singleton_append]
    · rw [List.foldl_cons, hlinks, links_addEdge]
      simp only [hhas]
      by_cases ht : g.hasNode e.target
      · simp [ht]
      · simp [ht]

lemma foldl_addNode (ns : List String) (g : CallGraph) :
    (ns.foldl addNode g).nodes = g.nodes ++ (ns.filter fun n => !g.hasNode n).eraseDups ∧
      (ns.foldl addNode g).edges = g.edges ∧ (ns.foldl addNode g).links = g.links := by
  induction ns generalizing g with
  | nil => simp
  | cons n rest ih =>
    obtain ⟨hnodes, hedges, hlinks⟩ := ih (g.addNode n)
    refine ⟨?_, ?_, ?_⟩
    · rw [List.foldl_cons, hnodes]
      by_cases hn : g.hasNode n
      · have hsame : g.addNode n = g := if_pos hn
        rw [hsame, List.filter_cons_of_neg (by simp [hn])]
      · have hnew : (g.addNode n).nodes = g.nodes ++ [n] := by rw [nodes_addNode, if_neg hn]
        rw [List.filter_cons_of_pos (by simp [hn]), List.eraseDups_cons, hnew, List.append_assoc,
          List.singleton_append, List.filter_filter]
        refine congrArg (fun l => g.nodes ++ n :: l.eraseDups) (List.filter_congr fun m _ => ?_)
        rw [hasNode, hnew, hasNode]
        by_cases hm : m = n <;> simp [hm]
    · rw [List.foldl_cons, hedges, edges_addNode]
    · rw [List.foldl_cons, hlinks, links_addNode]

/-- The graph of some units is built by changes: all units become known, and then all edges are added. -/
lemma ofUnits_eq_after (units : List AnalyzedUnit) :
    ofUnits units = after ((names units).map .node ++ (units.flatMap edgesOf).map .edge) := by
  rw [after, List.foldl_append, List.foldl_map, List.foldl_map]
  rfl

lemma parts_ofUnits (units : List AnalyzedUnit) :
    (ofUnits units).nodes = (names units).eraseDups ∧ (ofUnits units).edges = units.flatMap edgesOf ∧
      (ofUnits units).links =
        ((units.flatMap edgesOf).filter fun e => (ofUnits units).hasNode e.target).map
          fun e => (e.source, e.target) := by
  obtain ⟨hnodes, hedges, hlinks⟩ := foldl_addNode (names units) {}
  have hknown : ((names units).foldl addNode {}).nodes = (names units).eraseDups := by
    rw [hnodes, List.nil_append, List.filter_eq_self.mpr (by simp [hasNode])]
  -- every edge comes from a unit, so adding it makes no further name known
  have hsources : ∀ e ∈ units.flatMap edgesOf, e.source ∈ ((names units).foldl addNode {}).nodes := by
    intro e he
    obtain ⟨u, hu, hc⟩ := List.mem_flatMap.mp he
    obtain ⟨c, -, rfl⟩ := List.mem_map.mp hc
    rw [hknown, List.mem_eraseDups]
    exact List.mem_map_of_mem hu
  obtain ⟨hn, he, hl⟩ := foldl_addEdge hsources
  refine ⟨hn.trans hknown, he.trans (by rw [hedges, List.nil_append]), hl.trans ?_⟩
  rw [hlinks, List.nil_append]
  refine congrArg (List.map _) (List.filter_congr fun e _ => ?_)
  rw [hasNode, hasNode, ofUnits, hn]

lemma count_links_ofUnits {units : List AnalyzedUnit} (ht : t ∈ (ofUnits units).nodes) (s : String) :
    (ofUnits units).links.count (s, t) = (ofUnits units).edgesBetween s t := by
  obtain ⟨-, hedges, hlinks⟩ := parts_ofUnits units
  rw [hlinks, ← hedges, edgesBetween, List.count_eq_countP, List.countP_map, List.countP_filter]
  refine List.countP_congr fun e _ => ?_
  simp only [Function.comp_apply, Bool.and_eq_true, beq_iff_eq, Prod.mk.injEq, hasNode_iff]
  constructor
  · exact And.left
  · rintro ⟨rfl, rfl⟩
    exact ⟨⟨rfl, rfl⟩, ht⟩

/-- An edge of some units is a link, or its target is no unit. -/
lemma mem_links_ofUnits {units : List AnalyzedUnit} (he : e ∈ (ofUnits units).edges) :
    (e.source, e.target) ∈ (ofUnits units).links ↔ e ∉ (ofUnits units).danglingEdges := by
  obtain ⟨-, hedges, hlinks⟩ := parts_ofUnits units
  have hdangling : e ∉ (ofUnits units).danglingEdges ↔ (ofUnits units).hasNode e.target = true := by
    simp [danglingEdges, he]
  rw [hdangling, hlinks, ← hedges]
  constructor
  · intro hm
    obtain ⟨f, hf, heq⟩ := List.mem_map.mp hm
    rw [← (Prod.mk.inj heq).2]
    exact (List.mem_filter.mp hf).2
  · exact fun ht => List.mem_map.mpr ⟨e, List.mem_filter.mpr ⟨he, ht⟩, rfl⟩

end Units

/-- In every graph the lists of the units name known units only, and a call is in the list of its source as
often as in that of its target, and no more often than it was added. The graph of some units knows these
units, in the order in which they come first, and has one edge for each of their calls; there a call is in
both lists as often as it was added, and an edge is in both lists or in neither and dangling. -/
theorem calls_mirror_calledBy :
    (∀ changes, let g := after changes
      g.ledger = Ledger.after changes ∧
      (∀ n, g.calls n ⊆ g.nodes ∧ g.calledBy n ⊆ g.nodes) ∧
      ∀ s t, (g.calls s).count t = (g.calledBy t).count s ∧ (g.calls s).count t ≤ g.edgesBetween s t) ∧
    ∀ units, ∃ g, (build units).outcome = .ok g ∧
      g = after ((names units).map .node ++ g.edges.map .edge) ∧
      g.nodes = (names units).eraseDups ∧
      g.edges = (units.flatMap fun u => u.calls.map fun c => ⟨u.name, c.name, c.context⟩) ∧
      (∀ s, ∀ t ∈ g.nodes,
        (g.calls s).count t = g.edgesBetween s t ∧ (g.calledBy t).count s = g.edgesBetween s t) ∧
      ∀ e ∈ g.edges, (e.target ∈ g.calls e.source ↔ e ∉ g.danglingEdges) ∧
        (e.source ∈ g.calledBy e.target ↔ e ∉ g.danglingEdges) := by
  refine ⟨fun changes => ⟨ledger_after changes, fun n => ?_, fun s t => ?_⟩, fun units => ?_⟩
  · have h := wellFormed_after changes
    exact ⟨h.calls_subset n, h.calledBy_subset n⟩
  · rw [count_calls, count_calledBy, edgesBetween_eq]
    exact ⟨rfl, (links_sublist_after changes).count_le _⟩
  · obtain ⟨hnodes, hedges, -⟩ := parts_ofUnits units
    refine ⟨ofUnits units, rfl, ?_, hnodes, hedges, fun s t ht => ?_, fun e he => ?_⟩
    · rw [hedges]
      exact ofUnits_eq_after units
    · rw [count_calls, count_calledBy, count_links_ofUnits ht]
      exact ⟨rfl, rfl⟩
    · rw [mem_calls, mem_calledBy]
      exact ⟨mem_links_ofUnits he, mem_links_ofUnits he⟩

end CallGraph

end SkillAtlas
