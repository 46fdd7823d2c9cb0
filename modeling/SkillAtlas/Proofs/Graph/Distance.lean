import SkillAtlas.Proofs.Graph.Shortest

/-!
# Units in the order of their distance

Each layer of an exploration lies one step beyond the layer before, so the routes never get shorter, and
as a route is a shortest walk, the units that a unit calls come in the order of their distance. The callers
of a unit are found in the same way along the calls in reverse, which keep all distances.
-/

namespace SkillAtlas

/-- The least number of steps from one name to another, 0 if no walk leads there. -/
noncomputable def distance (step : String → List String) (n m : String) : Nat :=
  sInf {k | Walks step n k m}

/-- The list names what is reached, each name once, the nearest first. -/
structure NearestFirst (reached : String → Prop) (far : String → Nat) (l : List String) : Prop where
  complete : ∀ m, m ∈ l ↔ reached m
  distinct : l.Nodup
  sorted : l.Pairwise fun a b => far a ≤ far b

section Walks

variable {step back : String → List String} {n m : String} {k : Nat}

lemma Walks.distance_le (h : Walks step n k m) : distance step n m ≤ k :=
  Nat.sInf_le h

lemma Walks.shortest (h : Walks step n k m) : Walks step n (distance step n m) m :=
  Nat.sInf_mem (s := {k | Walks step n k m}) ⟨k, h⟩

/-- One more step in front of a walk. -/
lemma Walks.after {a : String} (ha : a ∈ step n) (h : Walks step a k m) : Walks step n (k + 1) m := by
  induction h with
  | start => exact Walks.next .start ha
  | next _ hab ih => exact ih.next hab

lemma Walks.reverse (hback : ∀ a b, b ∈ step a ↔ a ∈ back b) (h : Walks step n k m) : Walks back m k n := by
  induction h with
  | start => exact .start
  | next _ hab ih => exact ih.after ((hback _ _).mp hab)

lemma distance_reverse (hback : ∀ a b, b ∈ step a ↔ a ∈ back b) (n m : String) :
    distance back m n = distance step n m := by
  have hiff : ∀ k, Walks back m k n ↔ Walks step n k m := fun k =>
    ⟨Walks.reverse fun a b => (hback b a).symm, Walks.reverse hback⟩
  unfold distance
  simp only [hiff]

lemma transGen_reverse (hback : ∀ a b, b ∈ step a ↔ a ∈ back b) (n m : String) :
    Relation.TransGen (fun a b => b ∈ back a) m n ↔ Relation.TransGen (fun a b => b ∈ step a) n m := by
  have hswap : (fun a b => b ∈ back a) = Function.swap fun a b => b ∈ step a :=
    funext fun a => funext fun b => propext (hback b a).symm
  rw [hswap, Relation.transGen_swap]

end Walks

section Layers

variable {nodes : List String} {step : String → List String} {n : String} {d : Nat} {seen : List String}
  {layer : List Route} {r : Route}

/-- Beyond a layer of routes with `d` steps every route has more steps. -/
lemma length_of_further (hstep : ∀ a, step a ⊆ nodes) (hr : r ∈ furtherRoutes nodes step seen layer) :
    ∀ d, Frontier step n d seen layer → d + 2 ≤ r.path.length := by
  induction seen, layer using furtherRoutes.induct nodes step with
  | case1 seen layer next hnil =>
    rw [furtherRoutes, dif_pos hnil] at hr
    simp at hr
  | case2 seen layer next hne ih =>
    intro d h
    rw [furtherRoutes, dif_neg hne] at hr
    rcases List.mem_append.mp hr with hr | hr
    · exact ((h.next hstep).walks r hr).1.ge
    · have hlen := ih hr (d + 1) (h.next hstep)
      omega

/-- Routes come in the order of their lengths, since those of one layer are equally long. -/
lemma pairwise_length_further (hstep : ∀ a, step a ⊆ nodes) :
    ∀ d, Frontier step n d seen layer →
      (furtherRoutes nodes step seen layer).Pairwise fun q r => q.path.length ≤ r.path.length := by
  induction seen, layer using furtherRoutes.induct nodes step with
  | case1 seen layer next hnil =>
    intro d _
    rw [furtherRoutes, dif_pos hnil]
    exact List.Pairwise.nil
  | case2 seen layer next hne ih =>
    intro d h
    have hnext := h.next hstep
    have hlayer : ∀ q ∈ next, q.path.length = d + 2 := fun q hq => (hnext.walks q hq).1
    rw [furtherRoutes, dif_neg hne]
    refine List.pairwise_append.mpr ⟨?_, ih (d + 1) hnext, fun q hq r hr => ?_⟩
    · exact List.pairwise_of_forall_mem_list fun q hq r hr => (hlayer q hq).trans (hlayer r hr).symm |>.le
    · have hlen := length_of_further hstep hr (d + 1) hnext
      have hq' := hlayer q hq
      omega

variable (hn : n ∈ nodes) (hstep : ∀ a, step a ⊆ nodes)

include hn hstep

/-- A route has as many steps as its end is distant. -/
lemma distance_last (hr : r ∈ routesFrom nodes step n) : r.path.length = distance step n r.last + 1 := by
  obtain ⟨hf, -, -⟩ := mem_routesFrom hr
  have hleads : Leads step n r.last r.path := ⟨hf.chain, hf.starts, r.getLast?_path⟩
  have hle := length_le_of_mem_routesFrom hn hstep hr hleads.walks.shortest
  have hge := hleads.walks.distance_le
  have hpos : 0 < r.path.length := List.length_pos_of_mem (List.mem_of_mem_head? hf.starts)
  omega

lemma pairwise_distance_routesFrom :
    ((routesFrom nodes step n).map Route.last).Pairwise fun a b => distance step n a ≤ distance step n b := by
  have hroutes : (routesFrom nodes step n).Pairwise fun q r => q.path.length ≤ r.path.length := by
    rw [routesFrom, if_pos (List.contains_iff_mem.mpr hn)]
    exact pairwise_length_further hstep 0 (frontier_start step n)
  refine List.pairwise_map.mpr (hroutes.imp_of_mem fun {q r} hq hr hlen => ?_)
  rw [distance_last hn hstep hq, distance_last hn hstep hr] at hlen
  exact Nat.le_of_succ_le_succ hlen

end Layers

section Explored

variable {nodes : List String} {step : String → List String}

/-- Exploring a graph whose steps connect known names finds what some steps lead to, the nearest first. -/
lemma nearestFirst_routesFrom (hsource : ∀ a b, b ∈ step a → a ∈ nodes) (hstep : ∀ a, step a ⊆ nodes)
    (n : String) :
    NearestFirst (fun m => m ∈ nodes ∧ m ≠ n ∧ Relation.TransGen (fun a b => b ∈ step a) n m)
      (distance step n) ((routesFrom nodes step n).map Route.last) := by
  by_cases hn : n ∈ nodes
  · refine ⟨fun m => ?_, nodup_last_routesFrom nodes step n, pairwise_distance_routesFrom hn hstep⟩
    rw [mem_last_routesFrom hn hstep, Relation.reflTransGen_iff_eq_or_transGen]
    constructor
    · rintro ⟨hne, he | hreach⟩
      · exact absurd he hne
      · obtain ⟨a, -, hab⟩ := Relation.TransGen.tail'_iff.mp hreach
        exact ⟨hstep a hab, hne, hreach⟩
    · rintro ⟨-, hne, hreach⟩
      exact ⟨hne, Or.inr hreach⟩
  · have hnil : routesFrom nodes step n = [] := if_neg fun h => hn (List.contains_iff_mem.mp h)
    rw [hnil]
    refine ⟨fun m => ⟨fun hm => by simp at hm, ?_⟩, List.nodup_nil, List.Pairwise.nil⟩
    rintro ⟨-, -, hreach⟩
    obtain ⟨b, hnb, -⟩ := Relation.TransGen.head'_iff.mp hreach
    exact absurd (hsource n b hnb) hn

end Explored

namespace CallGraph

variable {g : CallGraph} {m n : String}

lemma mem_predecessors : m ∈ g.predecessors n ↔ (m, n) ∈ g.links := by
  simp [predecessors, calledBy]

lemma mem_successors_iff_mem_predecessors (g : CallGraph) (m n : String) :
    n ∈ g.successors m ↔ m ∈ g.predecessors n :=
  mem_successors.trans mem_predecessors.symm

/-- The calls of a unit reach the units that any calls lead to, other than itself, each once and the nearest
first. Its callers are those that it is reached from, in the order of their distance to it. One unit is among
the calls of another just when that one is among its callers. -/
theorem transitiveCalls_nearest_first (changes : List Change) (n : String) :
    let g := after changes
    NearestFirst (fun m => m ∈ g.nodes ∧ m ≠ n ∧ Relation.TransGen (fun a b => b ∈ g.successors a) n m)
        (fun m => distance g.successors n m) (g.transitiveCalls n) ∧
      NearestFirst (fun m => m ∈ g.nodes ∧ m ≠ n ∧ Relation.TransGen (fun a b => b ∈ g.successors a) m n)
        (fun m => distance g.successors m n) (g.transitiveCallers n) ∧
      ∀ m, m ∈ g.transitiveCalls n ↔ n ∈ g.transitiveCallers m := by
  intro g
  have h : g.WellFormed := wellFormed_after changes
  have hsource : ∀ a b, b ∈ g.successors a → a ∈ g.nodes := fun a b hab => (h.linked _ (mem_successors.mp hab)).1
  have hcalls := nearestFirst_routesFrom hsource h.successors_subset
  -- calls in reverse connect known units as well, and keep what is reached and how far it is
  have hback := g.mem_successors_iff_mem_predecessors
  have hcallers : ∀ n, NearestFirst
      (fun m => m ∈ g.nodes ∧ m ≠ n ∧ Relation.TransGen (fun a b => b ∈ g.successors a) m n)
      (fun m => distance g.successors m n) (g.transitiveCallers n) := by
    intro n
    obtain ⟨hcomplete, hdistinct, hsorted⟩ :=
      nearestFirst_routesFrom (fun a b hab => h.successors_subset b ((hback b a).mpr hab))
        (fun a b hab => hsource b a ((hback b a).mpr hab)) n
    refine ⟨fun m => (hcomplete m).trans (by rw [transGen_reverse hback m n]), hdistinct, ?_⟩
    exact hsorted.imp fun {a b} hab => by rwa [distance_reverse hback a n, distance_reverse hback b n] at hab
  refine ⟨hcalls n, hcallers n, fun m => ?_⟩
  rw [transitiveCalls, (hcalls n).complete m, (hcallers m).complete n]
  constructor
  · rintro ⟨-, hne, hreach⟩
    obtain ⟨b, hnb, -⟩ := Relation.TransGen.head'_iff.mp hreach
    exact ⟨hsource n b hnb, hne.symm, hreach⟩
  · rintro ⟨-, hne, hreach⟩
    obtain ⟨a, -, hab⟩ := Relation.TransGen.tail'_iff.mp hreach
    exact ⟨h.successors_subset a hab, hne.symm, hreach⟩

end CallGraph

end SkillAtlas
