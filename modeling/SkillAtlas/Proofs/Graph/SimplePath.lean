import Mathlib.Order.Lattice.Nat
import SkillAtlas.Proofs.Graph.Depth
import SkillAtlas.Proofs.Graph.Routes

/-!
# Depth and paths that visit no unit twice

The greatest depth is at most the number of calls on the longest path that visits no unit twice. The two
are equal just when one of these longest paths has no call that closes a reported cycle: a depth is
remembered although the units that the walk was on when it was worked out were left out of it.
-/

namespace SkillAtlas

/-- A path that visits no unit twice. -/
structure IsSimplePath (nodes : List String) (step : String → List String) (p : List String) : Prop
    extends IsPath nodes step p where
  distinct : p.Nodup

section Simple

variable {nodes : List String} {step : String → List String} {p : List String}

lemma IsSimplePath.length_le (h : IsSimplePath nodes step p) : p.length ≤ nodes.length :=
  (List.subperm_of_subset h.distinct h.known).length_le

/-- Among the paths that visit no unit twice there is a longest one. -/
lemma exists_isLongest_simple (nodes : List String) (step : String → List String) :
    ∃ k, IsLongest (IsSimplePath nodes step) k := by
  have hnonempty : {n | ∃ p, IsSimplePath nodes step p ∧ p.length - 1 = n}.Nonempty :=
    ⟨0, [], ⟨⟨List.nil_subset _, List.isChain_nil⟩, List.nodup_nil⟩, rfl⟩
  have hbounded : BddAbove {n | ∃ p, IsSimplePath nodes step p ∧ p.length - 1 = n} := by
    refine ⟨nodes.length, ?_⟩
    rintro n ⟨p, hp, rfl⟩
    have hle := hp.length_le
    omega
  exact ⟨_, Nat.sSup_mem hnonempty hbounded, fun n hn => le_csSup hbounded hn⟩

/-- Steps from a known unit stay among known units. -/
lemma isPath_of_chain (hstep : ∀ n, step n ⊆ nodes) (hhead : ∀ n, p.head? = some n → n ∈ nodes)
    (hchain : p.IsChain fun a b => b ∈ step a) : IsPath nodes step p := by
  refine ⟨?_, hchain⟩
  induction p with
  | nil => exact List.nil_subset nodes
  | cons a rest ih =>
    obtain ⟨hrel, hrest⟩ := List.isChain_cons.mp hchain
    exact List.cons_subset.mpr ⟨hhead a rfl, ih (fun n hn => hstep a (hrel n hn)) hrest⟩

end Simple

namespace CallGraph

variable {g : CallGraph} {p : List String} {source target : String}

/-- A path between two units visits no unit twice. -/
lemma WellFormed.isSimplePath_of_pathBetween (h : g.WellFormed)
    (hp : g.pathBetween? source target = some p) : IsSimplePath g.nodes g.successors p := by
  unfold pathBetween? at hp
  by_cases hs : g.hasNode source
  · have hmem := hasNode_iff.mp hs
    rw [if_neg (by simpa using hs)] at hp
    by_cases he : source = target
    · rw [if_pos (by simpa using he)] at hp
      obtain rfl := Option.some.inj hp
      refine ⟨⟨List.cons_subset.mpr ⟨hmem, List.nil_subset _⟩, List.isChain_singleton _⟩, ?_⟩
      exact List.nodup_singleton source
    · rw [if_neg (by simpa using he)] at hp
      obtain ⟨r, hr, rfl⟩ := Option.map_eq_some_iff.mp hp
      obtain ⟨hf, -, -⟩ := mem_routesFrom (List.mem_of_find?_eq_some hr)
      refine ⟨isPath_of_chain h.successors_subset (fun n hn => ?_) hf.chain, hf.distinct⟩
      rw [hf.starts] at hn
      exact Option.some.inj hn ▸ hmem
  · rw [if_pos (by simpa using hs)] at hp
    cases hp

lemma WellFormed.isSimplePath_of_kept (h : g.WellFormed) (hp : IsPath g.nodes g.kept p) :
    IsSimplePath g.nodes g.successors p where
  known := hp.known
  chain := hp.chain.imp fun a _ hab => g.kept_subset a hab
  distinct := hp.nodup fun _ hn _ hm => h.rank_lt_of_mem_kept hn hm

/-- Two graphs with the same units and the same calls between them, found in whatever order. -/
structure SameCalls (g g' : CallGraph) : Prop where
  nodes : ∀ n, n ∈ g.nodes ↔ n ∈ g'.nodes
  successors : ∀ n m, m ∈ g.successors n ↔ m ∈ g'.successors n

lemma SameCalls.isSimplePath_iff {g' : CallGraph} (h : SameCalls g g') (p : List String) :
    IsSimplePath g.nodes g.successors p ↔ IsSimplePath g'.nodes g'.successors p := by
  constructor
  · intro hp
    refine ⟨⟨fun n hn => (h.nodes n).mp (hp.known hn), ?_⟩, hp.distinct⟩
    exact hp.chain.imp fun a b hab => (h.successors a b).mp hab
  · intro hp
    refine ⟨⟨fun n hn => (h.nodes n).mpr (hp.known hn), ?_⟩, hp.distinct⟩
    exact hp.chain.imp fun a b hab => (h.successors a b).mpr hab

/-- The greatest depth reaches the number of calls on the longest path without repeats just when such a path
crosses no closing call, as it does when no cycle is reported; otherwise it falls short of it. No path
between two units is longer than that number, which is the same for graphs with the same calls. -/
theorem maxDepth_eq_longest_simple_iff (changes : List Change) :
    let g := after changes
    ∃ k, IsLongest (IsSimplePath g.nodes g.successors) k ∧ g.maxDepth ≤ k ∧
      (g.maxDepth = k ↔ ∃ p, IsPath g.nodes g.kept p ∧ p.length - 1 = k) ∧
      (g.cycles = [] → g.maxDepth = k) ∧
      (∀ source target p, g.pathBetween? source target = some p → p.length - 1 ≤ k) ∧
      (∀ g', SameCalls g g' → IsLongest (IsSimplePath g'.nodes g'.successors) k) := by
  intro g
  have h : g.WellFormed := wellFormed_after changes
  obtain ⟨k, hk⟩ := exists_isLongest_simple g.nodes g.successors
  obtain ⟨⟨p, hp, hdepth⟩, hgreatest⟩ := h.isLongest_kept
  have hle : g.maxDepth ≤ k := hk.2 ⟨p, h.isSimplePath_of_kept hp, hdepth⟩
  refine ⟨k, hk, hle, ⟨fun he => ⟨p, hp, hdepth.trans he⟩, fun hq => ?_⟩, fun hc => ?_, ?_, ?_⟩
  · exact le_antisymm hle (hgreatest hq)
  · obtain ⟨q, hq, hcalls⟩ := hk.1
    refine le_antisymm hle (hgreatest ⟨q, ?_, hcalls⟩)
    rw [kept_eq_successors hc]
    exact hq.toIsPath
  · intro source target q hq
    exact hk.2 ⟨q, h.isSimplePath_of_pathBetween hq, rfl⟩
  · intro g' hsame
    have hkind : IsSimplePath g.nodes g.successors = IsSimplePath g'.nodes g'.successors := by
      funext q
      exact propext (hsame.isSimplePath_iff q)
    exact hkind ▸ hk

/-- A loop of two units that a third unit calls, the third known last. -/
def enteredLoop : List Change :=
  [.node "x", .node "y", .node "z", .edge ⟨"x", "y", "direct"⟩, .edge ⟨"y", "x", "direct"⟩,
    .edge ⟨"z", "y", "direct"⟩]

/-- The depth of `y` is worked out while the walk is on `x`, and so the path from `z` over `y` to `x` is
missed; it is found when `z` is known first. -/
theorem maxDepth_enteredLoop :
    let g := after enteredLoop
    g.maxDepth = 1 ∧ IsSimplePath g.nodes g.successors ["z", "y", "x"] ∧
      g.pathBetween? "z" "x" = some ["z", "y", "x"] ∧
      ¬ IsLongest (IsSimplePath g.nodes g.successors) g.maxDepth ∧
      SameCalls g (after (.node "z" :: enteredLoop)) ∧ (after (.node "z" :: enteredLoop)).maxDepth = 2 := by
  have hsteps : ∀ g ∈ [after enteredLoop, after (.node "z" :: enteredLoop)],
      g.successors "x" = ["y"] ∧ g.successors "y" = ["x"] ∧ g.successors "z" = ["y"] := by decide
  have hnodes : (after enteredLoop).nodes = ["x", "y", "z"] := by decide
  have hnodes' : (after (.node "z" :: enteredLoop)).nodes = ["z", "x", "y"] := by decide
  have hdepth : (after enteredLoop).maxDepth = 1 := by
    obtain ⟨hx, hy, hz⟩ := hsteps (after enteredLoop) (by simp)
    simp [maxDepth, depths, hnodes, deepen, hx, hy, hz, List.lookup_cons]
  have hdepth' : (after (.node "z" :: enteredLoop)).maxDepth = 2 := by
    obtain ⟨hx, hy, hz⟩ := hsteps (after (.node "z" :: enteredLoop)) (by simp)
    simp [maxDepth, depths, hnodes', deepen, hx, hy, hz, List.lookup_cons]
  have hpath : (after enteredLoop).pathBetween? "z" "x" = some ["z", "y", "x"] := by decide +kernel
  have hlinks : (after enteredLoop).links = (after (.node "z" :: enteredLoop)).links := by decide
  have hsimple := (wellFormed_after enteredLoop).isSimplePath_of_pathBetween hpath
  refine ⟨hdepth, hsimple, hpath, fun hlongest => ?_, ⟨fun n => ?_, fun n m => ?_⟩, hdepth'⟩
  · have hle : 2 ≤ (after enteredLoop).maxDepth := hlongest.2 ⟨["z", "y", "x"], hsimple, rfl⟩
    omega
  · rw [hnodes, hnodes']
    simp only [List.mem_cons, List.not_mem_nil, or_false]
    tauto
  · rw [mem_successors, mem_successors, hlinks]

end CallGraph

end SkillAtlas
