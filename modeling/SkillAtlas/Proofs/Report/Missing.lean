import SkillAtlas.Proofs.Graph.Adjacency
import SkillAtlas.Report.Basic

/-!
# Missing references and dangling edges

A call of a name that is no unit is told of twice: as an edge of the graph whose target is not known, and as
a missing reference. The graph knows the units and no other names, so the two are found in the same calls; a
call of a unit that is defined elsewhere dangles in the graph and misses nothing.
-/

namespace SkillAtlas

open AnalyzedUnit (names)

/-- The missing reference that an edge with an unknown target stands for. -/
def MissingReference.ofEdge (e : Edge) : MissingReference :=
  ⟨e.target, e.source, e.context⟩

namespace CallGraph

/-- Adding edges makes no name known that is no unit. -/
lemma hasNode_ofUnits (units : List AnalyzedUnit) (n : String) :
    (ofUnits units).hasNode n = (names units).contains n := by
  rw [hasNode, (parts_ofUnits units).1, Bool.eq_iff_iff, List.contains_iff_mem, List.contains_iff_mem,
    List.mem_eraseDups]

lemma danglingEdges_ofUnits (units : List AnalyzedUnit) :
    (ofUnits units).danglingEdges =
      (units.flatMap edgesOf).filter fun e => !(names units).contains e.target := by
  rw [danglingEdges, (parts_ofUnits units).2.1]
  simp only [hasNode_ofUnits]

end CallGraph

/-- What the edges of some units say of their calls is what the calls say. -/
lemma countP_edgesOf (units : List AnalyzedUnit) (p : String → String → Bool) :
    (units.flatMap CallGraph.edgesOf).countP (fun e => p e.target e.context) =
      (units.flatMap AnalyzedUnit.calls).countP fun c => p c.name c.context := by
  rw [List.countP_flatMap, List.countP_flatMap]
  refine congrArg List.sum (List.map_congr_left fun u _ => ?_)
  rw [Function.comp_apply, Function.comp_apply, CallGraph.edgesOf, List.countP_map]
  rfl

lemma missingReferences_eq (units : List AnalyzedUnit) :
    missingReferences units =
      ((CallGraph.ofUnits units).danglingEdges.filter fun e => e.context != Call.outside).map
        MissingReference.ofEdge := by
  rw [CallGraph.danglingEdges_ofUnits, List.filter_filter, missingReferences, List.filter_flatMap,
    List.map_flatMap]
  refine congrArg (fun f => units.flatMap f) (funext fun u => ?_)
  rw [CallGraph.edgesOf, List.filter_map, List.map_map]
  rfl

/-- The missing references of some units are the dangling edges of their graph, one for each and in the same
order, but for the calls of units that are defined elsewhere. So the graph counts as many dangling edges as
there are missing references and calls elsewhere of names that are no units. -/
theorem missingReferences_eq_danglingEdges (units : List AnalyzedUnit) :
    ∃ g, (CallGraph.build units).outcome = .ok g ∧
      missingReferences units =
        (g.danglingEdges.filter fun e => e.context != Call.outside).map
          (fun e => { called := e.target, caller := e.source, context := e.context }) ∧
      g.summary.danglingEdges = (missingReferences units).length +
        (units.flatMap AnalyzedUnit.calls).countP
          fun c => c.context == Call.outside && !(names units).contains c.name := by
  refine ⟨CallGraph.ofUnits units, rfl, missingReferences_eq units, ?_⟩
  have hsplit := List.length_eq_countP_add_countP (l := (CallGraph.ofUnits units).danglingEdges)
    fun e => e.context != Call.outside
  have houtside : (CallGraph.ofUnits units).danglingEdges.countP
        (fun e => decide ¬(e.context != Call.outside) = true) =
      (units.flatMap AnalyzedUnit.calls).countP
        fun c => c.context == Call.outside && !(names units).contains c.name := by
    rw [CallGraph.danglingEdges_ofUnits, List.countP_filter,
      ← countP_edgesOf units fun name context => context == Call.outside && !(names units).contains name]
    refine List.countP_congr fun e _ => ?_
    simp
  rw [missingReferences_eq, List.length_map, ← List.countP_eq_length_filter, ← houtside, ← hsplit]
  rfl

end SkillAtlas
