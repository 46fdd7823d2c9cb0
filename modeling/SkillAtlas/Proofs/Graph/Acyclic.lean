import Mathlib.Order.WellFounded
import SkillAtlas.Proofs.Graph.Adjacency
import SkillAtlas.Proofs.Graph.Shortest

/-!
# Graphs without cycles

Where no cycle is reported, every call goes to a unit that the walk has left before its caller. So neither
calls nor callers can be followed forever: from each unit calls lead to a leaf, and callers lead back to an
entry point. A longest path cannot be made longer at either end, and so it runs from an entry point to a
leaf.
-/

namespace SkillAtlas

/-- Steps that cannot be taken forever lead from everywhere to where no step is left. -/
lemma exists_last_step {α : Type} {r : α → α → Prop} (hr : WellFounded (flip r)) (a : α) :
    ∃ b, Relation.ReflTransGen r a b ∧ ∀ c, ¬ r b c := by
  obtain ⟨b, hb, hlast⟩ := hr.has_min {b | Relation.ReflTransGen r a b} ⟨a, Relation.ReflTransGen.refl⟩
  exact ⟨b, hb, fun c hc => hlast c (Relation.ReflTransGen.tail hb hc) hc⟩

namespace CallGraph

variable {g : CallGraph} {m n : String}

section Ends

lemma calls_eq_nil_iff : g.calls n = [] ↔ ∀ m, m ∉ g.successors n := by
  simp only [List.eq_nil_iff_forall_not_mem, successors, List.mem_eraseDups]

lemma calledBy_eq_nil_iff : g.calledBy n = [] ↔ ∀ m, n ∉ g.successors m := by
  simp only [List.eq_nil_iff_forall_not_mem, mem_calledBy, mem_successors]

lemma mem_leaves : n ∈ g.leaves ↔ n ∈ g.nodes ∧ ∀ m, m ∉ g.successors n := by
  rw [leaves, List.mem_filter, List.isEmpty_iff, calls_eq_nil_iff]

lemma mem_entryPoints : n ∈ g.entryPoints ↔ n ∈ g.nodes ∧ ∀ m, n ∉ g.successors m := by
  rw [entryPoints, List.mem_filter, List.isEmpty_iff, calledBy_eq_nil_iff]

/-- A root is an entry point that calls some unit. -/
lemma mem_roots : n ∈ g.roots ↔ n ∈ g.entryPoints ∧ g.calls n ≠ [] := by
  simp only [roots, entryPoints, List.mem_filter, Bool.and_eq_true, Bool.not_eq_true', List.isEmpty_iff,
    List.isEmpty_eq_false_iff]
  tauto

lemma WellFormed.mem_of_reaches (h : g.WellFormed) (hr : g.Reaches m n) (hm : m ∈ g.nodes) :
    n ∈ g.nodes := by
  induction hr with
  | refl => exact hm
  | tail _ hab _ => exact h.successors_subset _ hab

lemma WellFormed.mem_of_reaches_mem (h : g.WellFormed) (hr : g.Reaches m n) (hn : n ∈ g.nodes) :
    m ∈ g.nodes := by
  induction hr using Relation.ReflTransGen.head_induction_on with
  | refl => exact hn
  | head hab _ _ => exact (h.linked _ (mem_successors.mp hab)).1

end Ends

section Acyclic

variable (h : g.WellFormed) (hc : g.cycles = [])

include h hc

lemma WellFormed.rank_lt_of_call (hm : m ∈ g.successors n) : g.survey.rank m < g.survey.rank n := by
  have hn : n ∈ g.nodes := (h.linked _ (mem_successors.mp hm)).1
  rw [← kept_eq_successors hc] at hm
  exact h.rank_lt_of_mem_kept hn hm

/-- Calls cannot be followed forever. -/
lemma WellFormed.wellFounded_calls : WellFounded (flip fun a b => b ∈ g.successors a) :=
  Subrelation.wf (fun hab => h.rank_lt_of_call hc hab) (measure g.survey.rank).wf

/-- Callers cannot be followed back forever: their ranks go up, and a known unit ranks below the number of
units. -/
lemma WellFormed.wellFounded_callers : WellFounded fun a b => b ∈ g.successors a := by
  refine Subrelation.wf (fun {a b} hab => ?_) (measure fun n => g.survey.left.length - g.survey.rank n).wf
  have ha : a ∈ g.survey.left := h.mem_left.mpr (h.linked _ (mem_successors.mp hab)).1
  have hlt := h.rank_lt_of_call hc hab
  have hbound := Survey.rank_lt_length ha
  show g.survey.left.length - g.survey.rank a < g.survey.left.length - g.survey.rank b
  omega

/-- From each unit calls lead to a leaf. -/
lemma WellFormed.exists_leaf (hn : n ∈ g.nodes) : ∃ l ∈ g.leaves, g.Reaches n l := by
  obtain ⟨l, hl, hlast⟩ := exists_last_step (h.wellFounded_calls hc) n
  exact ⟨l, mem_leaves.mpr ⟨h.mem_of_reaches hl hn, hlast⟩, hl⟩

/-- To each unit calls lead from an entry point. -/
lemma WellFormed.exists_entryPoint (hn : n ∈ g.nodes) : ∃ e ∈ g.entryPoints, g.Reaches e n := by
  obtain ⟨e, he, hlast⟩ := exists_last_step (r := flip fun a b => b ∈ g.successors a)
    (h.wellFounded_callers hc) n
  have hreach : g.Reaches e n := Relation.reflTransGen_swap.mp he
  exact ⟨e, mem_entryPoints.mpr ⟨h.mem_of_reaches_mem hreach hn, hlast⟩, hreach⟩

lemma WellFormed.calls_eq_nil_of_roots (hroots : g.roots = []) (hn : n ∈ g.nodes) : g.calls n = [] := by
  obtain ⟨e, he, hreach⟩ := h.exists_entryPoint hc hn
  have hnone : g.calls e = [] := by
    by_contra hcalls
    have hroot : e ∈ g.roots := mem_roots.mpr ⟨he, hcalls⟩
    simp [hroots] at hroot
  -- an entry point without calls reaches only itself
  rcases Relation.ReflTransGen.cases_head hreach with rfl | ⟨m, hm, -⟩
  · exact hnone
  · exact absurd hm (calls_eq_nil_iff.mp hnone m)

/-- Some path has as many calls as the greatest depth; it has a unit, since the graph has one. -/
lemma WellFormed.exists_longest (hne : g.nodes ≠ []) :
    ∃ p, IsPath g.nodes g.successors p ∧ p ≠ [] ∧ p.length = g.maxDepth + 1 := by
  obtain ⟨⟨p, hp, hlen⟩, -⟩ := h.isLongest_kept
  rw [kept_eq_successors hc] at hp
  cases p with
  | nil =>
    obtain ⟨n, hn⟩ := List.exists_mem_of_ne_nil _ hne
    refine ⟨[n], ⟨List.cons_subset.mpr ⟨hn, List.nil_subset _⟩, List.isChain_singleton n⟩, by simp, ?_⟩
    rw [← hlen]
    rfl
  | cons a rest =>
    refine ⟨a :: rest, hp, by simp, ?_⟩
    rw [← hlen, List.length_cons, Nat.add_sub_cancel]

lemma WellFormed.length_le (p : List String) (hp : IsPath g.nodes g.successors p) :
    p.length ≤ g.maxDepth + 1 := by
  have hle : p.length - 1 ≤ g.maxDepth := h.isLongest_kept.2 ⟨p, by rwa [kept_eq_successors hc], rfl⟩
  omega

/-- A longest path starts at an entry point: a caller in front of it would make it longer. -/
lemma WellFormed.entryPoint_of_longest {p : List String} {e : String}
    (hp : IsPath g.nodes g.successors (e :: p)) (hlen : (e :: p).length = g.maxDepth + 1) :
    e ∈ g.entryPoints := by
  refine mem_entryPoints.mpr ⟨hp.known List.mem_cons_self, fun m hm => ?_⟩
  have hmem : m ∈ g.nodes := (h.linked _ (mem_successors.mp hm)).1
  have hle := h.length_le hc (m :: e :: p)
    ⟨List.cons_subset.mpr ⟨hmem, hp.known⟩, List.isChain_cons_cons.mpr ⟨hm, hp.chain⟩⟩
  rw [List.length_cons, hlen] at hle
  omega

/-- A longest path ends at a leaf: a call behind it would make it longer. -/
lemma WellFormed.leaf_of_longest {p : List String} {l : String}
    (hp : IsPath g.nodes g.successors (p ++ [l])) (hlen : (p ++ [l]).length = g.maxDepth + 1) :
    l ∈ g.leaves := by
  refine mem_leaves.mpr ⟨hp.known (by simp), fun m hm => ?_⟩
  have hchain : (p ++ [l] ++ [m]).IsChain fun a b => b ∈ g.successors a := by
    refine List.isChain_append.mpr ⟨hp.chain, List.isChain_singleton m, fun a ha b hb => ?_⟩
    rw [List.getLast?_concat] at ha
    obtain rfl := Option.some.inj ha
    obtain rfl := Option.some.inj hb
    exact hm
  have hknown : p ++ [l] ++ [m] ⊆ g.nodes :=
    List.append_subset.mpr ⟨hp.known, List.cons_subset.mpr ⟨h.successors_subset l hm, List.nil_subset _⟩⟩
  have hle := h.length_le hc _ ⟨hknown, hchain⟩
  rw [List.length_append, hlen, List.length_singleton] at hle
  omega

end Acyclic

/-- In a graph of some units without cycles each unit is an entry point or is called from one, directly or
through others, and each is a leaf or leads to one; without roots no unit calls another. The greatest depth
is the number of calls on a path from an entry point to a leaf, and no path has more. -/
theorem entryPoints_leaves_span (changes : List Change) (hne : (after changes).nodes ≠ [])
    (hc : (after changes).cycles = []) :
    let g := after changes
    (∀ n ∈ g.nodes, n ∈ g.entryPoints ∨ ∃ e ∈ g.entryPoints, n ∈ g.transitiveCalls e) ∧
      (∀ n ∈ g.nodes, n ∈ g.leaves ∨ ∃ l ∈ g.leaves, l ∈ g.transitiveCalls n) ∧
      (g.roots = [] → ∀ n ∈ g.nodes, g.calls n = []) ∧
      (∃ e ∈ g.entryPoints, ∃ l ∈ g.leaves, ∃ p, IsPath g.nodes g.successors p ∧
        Leads g.successors e l p ∧ p.length = g.maxDepth + 1) ∧
      ∀ p, IsPath g.nodes g.successors p → p.length ≤ g.maxDepth + 1 := by
  intro g
  have h : g.WellFormed := wellFormed_after changes
  refine ⟨fun n hn => ?_, fun n hn => ?_, fun hroots n hn => h.calls_eq_nil_of_roots hc hroots hn, ?_,
    h.length_le hc⟩
  · obtain ⟨e, he, hreach⟩ := h.exists_entryPoint hc hn
    by_cases hen : n = e
    · exact Or.inl (hen ▸ he)
    · exact Or.inr ⟨e, he, (h.mem_transitiveCalls (mem_entryPoints.mp he).1).mpr ⟨hen, hreach⟩⟩
  · obtain ⟨l, hl, hreach⟩ := h.exists_leaf hc hn
    by_cases hln : l = n
    · exact Or.inl (hln ▸ hl)
    · exact Or.inr ⟨l, hl, (h.mem_transitiveCalls hn).mpr ⟨hln, hreach⟩⟩
  · obtain ⟨p, hp, hpne, hlen⟩ := h.exists_longest hc hne
    obtain ⟨e, rest, rfl⟩ := List.exists_cons_of_ne_nil hpne
    obtain ⟨before, l, hl⟩ := (List.eq_nil_or_concat' (e :: rest)).resolve_left hpne
    have he := h.entryPoint_of_longest hc hp hlen
    have hleads : Leads g.successors e l (e :: rest) := ⟨hp.chain, rfl, by rw [hl, List.getLast?_concat]⟩
    refine ⟨e, he, l, ?_, e :: rest, hp, hleads, hlen⟩
    rw [hl] at hp hlen
    exact h.leaf_of_longest hc hp hlen

/-- A unit that calls two others, one of which calls the other, and a unit apart. -/
def shortcut : List Change :=
  [.node "Fire", .node "Burst", .node "Smoke", .node "Heal", .edge ⟨"Fire", "Smoke", "direct"⟩,
    .edge ⟨"Fire", "Burst", "direct"⟩, .edge ⟨"Burst", "Smoke", "direct"⟩]

/-- The path of the greatest depth does not take the shortcut. -/
theorem entryPoints_leaves_span_shortcut :
    (after shortcut).nodes ≠ [] ∧ (after shortcut).cycles = [] ∧ (after shortcut).maxDepth = 2 ∧
      ∃ e ∈ (after shortcut).entryPoints, ∃ l ∈ (after shortcut).leaves, ∃ p,
        IsPath (after shortcut).nodes (after shortcut).successors p ∧
        Leads (after shortcut).successors e l p ∧ p.length = (after shortcut).maxDepth + 1 := by
  have hne : (after shortcut).nodes ≠ [] := by decide
  have hnodes : (after shortcut).nodes = ["Fire", "Burst", "Smoke", "Heal"] := by decide
  have hsteps : (after shortcut).successors "Fire" = ["Smoke", "Burst"] ∧
      (after shortcut).successors "Burst" = ["Smoke"] ∧ (after shortcut).successors "Smoke" = [] ∧
      (after shortcut).successors "Heal" = [] := by decide
  have hc : (after shortcut).cycles = [] := by
    simp [cycles, hnodes, tour, hsteps, Tour.enter]
  have hdepth : (after shortcut).maxDepth = 2 := by
    simp [maxDepth, depths, hnodes, deepen, hsteps, List.lookup_cons]
  exact ⟨hne, hc, hdepth, (entryPoints_leaves_span shortcut hne hc).2.2.2.1⟩

end CallGraph

end SkillAtlas
