import SkillAtlas.Proofs.Graph.SimplePath

/-!
# Routes are shortest paths

Layer by layer, what has been seen after `d` layers are the names that some walk of at most `d` steps
reaches, and the layer holds a route to every name that no shorter walk reaches. So every name that can be
reached has a route, and no walk to it is shorter.
-/

namespace SkillAtlas

/-- A walk of so many steps leads from one name to another. -/
inductive Walks (step : String → List String) (n : String) : Nat → String → Prop
  | start : Walks step n 0 n
  | next {k : Nat} {a b : String} : Walks step n k a → b ∈ step a → Walks step n (k + 1) b

/-- The names lead from one to another, each to the next by a step. -/
structure Leads (step : String → List String) (source target : String) (p : List String) : Prop where
  chain : p.IsChain fun a b => b ∈ step a
  starts : p.head? = some source
  ends : p.getLast? = some target

section Walks

variable {step : String → List String} {n m : String} {p : List String}

lemma Walks.reaches {k : Nat} (h : Walks step n k m) :
    Relation.ReflTransGen (fun a b => b ∈ step a) n m := by
  induction h with
  | start => exact Relation.ReflTransGen.refl
  | next _ hab ih => exact ih.tail hab

lemma exists_walks (h : Relation.ReflTransGen (fun a b => b ∈ step a) n m) : ∃ k, Walks step n k m := by
  induction h with
  | refl => exact ⟨0, .start⟩
  | tail _ hab ih =>
    obtain ⟨k, hk⟩ := ih
    exact ⟨k + 1, hk.next hab⟩

/-- A walk that leads to the first of some names goes on to the last of them. -/
lemma Walks.along {k : Nat} {a : String} {rest : List String} (h : Walks step n k a)
    (hchain : (a :: rest).IsChain fun a b => b ∈ step a) (hends : (a :: rest).getLast? = some m) :
    Walks step n (k + rest.length) m := by
  induction rest generalizing k a with
  | nil =>
    obtain rfl := Option.some.inj hends
    exact h
  | cons b rest ih =>
    obtain ⟨hab, hrest⟩ := List.isChain_cons_cons.mp hchain
    rw [List.getLast?_cons_cons] at hends
    have hwalk := ih (h.next hab) hrest hends
    rw [List.length_cons]
    convert hwalk using 1
    omega

lemma Leads.walks (h : Leads step n m p) : Walks step n (p.length - 1) m := by
  obtain ⟨hchain, hstarts, hends⟩ := h
  cases p with
  | nil => simp at hstarts
  | cons a rest =>
    obtain rfl := Option.some.inj hstarts
    have hwalk := Walks.along .start hchain hends
    rwa [Nat.zero_add] at hwalk

end Walks

section Layers

variable {nodes : List String} {step : String → List String} {n m : String} {d : Nat} {seen : List String}
  {layer : List Route} {r : Route}

lemma Route.exists_mem_fresh {routes : List Route} (hr : r ∈ routes) (hs : r.last ∉ seen) :
    ∃ q ∈ Route.fresh seen routes, q.last = r.last := by
  induction routes generalizing seen with
  | nil => simp at hr
  | cons a rest ih =>
    unfold Route.fresh
    rcases List.mem_cons.mp hr with rfl | hr
    · rw [if_neg (by simpa using hs)]
      exact ⟨r, List.mem_cons_self, rfl⟩
    · split
      · exact ih hr hs
      · by_cases he : r.last = a.last
        · exact ⟨a, List.mem_cons_self, he.symm⟩
        · have hnot : r.last ∉ a.last :: seen := by simp [he, hs]
          obtain ⟨q, hq, hlast⟩ := ih hr hnot
          exact ⟨q, List.mem_cons_of_mem a hq, hlast⟩

/-- What is known after `d` layers: the names that are reached in at most `d` steps have been seen, and the
routes of the layer have `d` steps and end at all names that take as many. -/
structure Frontier (step : String → List String) (n : String) (d : Nat) (seen : List String)
    (layer : List Route) : Prop where
  seen_iff : ∀ m, m ∈ seen ↔ ∃ k ≤ d, Walks step n k m
  walks : ∀ r ∈ layer, r.path.length = d + 1 ∧ Walks step n d r.last
  complete : ∀ m, Walks step n d m → (∀ k < d, ¬ Walks step n k m) → ∃ r ∈ layer, r.last = m

lemma frontier_start (step : String → List String) (n : String) :
    Frontier step n 0 [n] [Route.start n] where
  seen_iff m := by
    constructor
    · intro hm
      obtain rfl := List.mem_singleton.mp hm
      exact ⟨0, le_rfl, .start⟩
    · rintro ⟨k, hk, hw⟩
      obtain rfl := Nat.le_zero.mp hk
      cases hw
      exact List.mem_singleton_self n
  walks r hr := by
    obtain rfl := List.mem_singleton.mp hr
    exact ⟨rfl, .start⟩
  complete m hw _ := by
    cases hw
    exact ⟨Route.start n, List.mem_singleton_self _, rfl⟩

lemma Frontier.exists_next (h : Frontier step n d seen layer) (hstep : ∀ a, step a ⊆ nodes)
    (hw : Walks step n (d + 1) m) (hm : m ∉ seen) : ∃ r ∈ nextLayer nodes step seen layer, r.last = m := by
  obtain _ | ⟨ha, hab⟩ := hw
  rename_i a
  -- `a` takes no fewer steps than `d`, since `m` would have been seen
  have hfirst : ∀ k < d, ¬ Walks step n k a := fun k hk hka =>
    hm ((h.seen_iff m).mpr ⟨k + 1, hk, hka.next hab⟩)
  obtain ⟨q, hq, rfl⟩ := h.complete a ha hfirst
  have hmem : q.extend m ∈ (layer.flatMap fun r => (step r.last).map r.extend).filter
      fun r => nodes.contains r.last := by
    refine List.mem_filter.mpr ⟨List.mem_flatMap.mpr ⟨q, hq, List.mem_map_of_mem hab⟩, ?_⟩
    exact List.contains_iff_mem.mpr (hstep _ hab)
  exact Route.exists_mem_fresh hmem hm

lemma Frontier.next (h : Frontier step n d seen layer) (hstep : ∀ a, step a ⊆ nodes) :
    Frontier step n (d + 1) ((nextLayer nodes step seen layer).map Route.last ++ seen)
      (nextLayer nodes step seen layer) where
  seen_iff m := by
    rw [List.mem_append]
    constructor
    · rintro (hm | hm)
      · obtain ⟨r, hr, rfl⟩ := List.mem_map.mp hm
        obtain ⟨-, -, q, hq, hlast, -⟩ := mem_nextLayer hr
        exact ⟨d + 1, le_rfl, (h.walks q hq).2.next hlast⟩
      · obtain ⟨k, hk, hw⟩ := (h.seen_iff m).mp hm
        exact ⟨k, by omega, hw⟩
    · rintro ⟨k, hk, hw⟩
      by_cases hm : m ∈ seen
      · exact Or.inr hm
      · obtain rfl : k = d + 1 := by
          by_contra hne
          exact hm ((h.seen_iff m).mpr ⟨k, by omega, hw⟩)
        obtain ⟨r, hr, rfl⟩ := h.exists_next hstep hw hm
        exact Or.inl (List.mem_map_of_mem hr)
  walks r hr := by
    obtain ⟨-, -, q, hq, hlast, he⟩ := mem_nextLayer hr
    obtain ⟨hlen, hw⟩ := h.walks q hq
    refine ⟨?_, hw.next hlast⟩
    rw [he, Route.path_extend, List.length_append, hlen, List.length_singleton]
  complete m hw hfirst := by
    refine h.exists_next hstep hw fun hm => ?_
    obtain ⟨k, hk, hwk⟩ := (h.seen_iff m).mp hm
    exact hfirst k (by omega) hwk

/-- When the next layer is empty, all names that can be reached have been seen. -/
lemma Frontier.mem_seen (h : Frontier step n d seen layer) (hstep : ∀ a, step a ⊆ nodes)
    (hnil : nextLayer nodes step seen layer = []) {k : Nat} (hw : Walks step n k m) : m ∈ seen := by
  induction hw with
  | start => exact (h.seen_iff n).mpr ⟨0, Nat.zero_le d, .start⟩
  | @next k a b _ hab ih =>
    obtain ⟨j, hj, ha⟩ := (h.seen_iff a).mp ih
    have hnext := (h.next hstep).seen_iff b
    rw [hnil, List.map_nil, List.nil_append] at hnext
    exact hnext.mpr ⟨j + 1, by omega, ha.next hab⟩

/-- Every name that can be reached and has not been seen has a further route. -/
lemma exists_further (hstep : ∀ a, step a ⊆ nodes) {k : Nat} (hw : Walks step n k m) (hm : m ∉ seen) :
    ∀ d, Frontier step n d seen layer → ∃ r ∈ furtherRoutes nodes step seen layer, r.last = m := by
  induction seen, layer using furtherRoutes.induct nodes step with
  | case1 seen layer next hnil => exact fun d h => absurd (h.mem_seen hstep hnil hw) hm
  | case2 seen layer next hne ih =>
    intro d h
    rw [furtherRoutes, dif_neg hne]
    by_cases hnext : m ∈ next.map Route.last
    · obtain ⟨r, hr, he⟩ := List.mem_map.mp hnext
      exact ⟨r, List.mem_append_left _ hr, he⟩
    · have hrest : m ∉ next.map Route.last ++ seen := fun hmem => (List.mem_append.mp hmem).elim hnext hm
      obtain ⟨r, hr, he⟩ := ih hrest (d + 1) (h.next hstep)
      exact ⟨r, List.mem_append_right _ hr, he⟩

/-- No walk to the end of a further route has fewer steps than the route. -/
lemma length_le_of_further (hstep : ∀ a, step a ⊆ nodes) {k : Nat} (hw : Walks step n k r.last)
    (hr : r ∈ furtherRoutes nodes step seen layer) :
    ∀ d, Frontier step n d seen layer → r.path.length ≤ k + 1 := by
  induction seen, layer using furtherRoutes.induct nodes step with
  | case1 seen layer next hnil =>
    rw [furtherRoutes, dif_pos hnil] at hr
    simp at hr
  | case2 seen layer next hne ih =>
    intro d h
    rw [furtherRoutes, dif_neg hne] at hr
    rcases List.mem_append.mp hr with hr | hr
    · obtain ⟨-, hs, -⟩ := mem_nextLayer hr
      have hlen := ((h.next hstep).walks r hr).1
      have hk : ¬ k ≤ d := fun hk => hs ((h.seen_iff _).mpr ⟨k, hk, hw⟩)
      omega
    · exact ih hr (d + 1) (h.next hstep)

variable (hn : n ∈ nodes) (hstep : ∀ a, step a ⊆ nodes)

include hn hstep

lemma exists_mem_routesFrom {k : Nat} (hw : Walks step n k m) (hm : m ≠ n) :
    ∃ r ∈ routesFrom nodes step n, r.last = m := by
  rw [routesFrom, if_pos (List.contains_iff_mem.mpr hn)]
  exact exists_further hstep hw (by simpa using hm) 0 (frontier_start step n)

lemma length_le_of_mem_routesFrom (hr : r ∈ routesFrom nodes step n) {k : Nat}
    (hw : Walks step n k r.last) : r.path.length ≤ k + 1 := by
  rw [routesFrom, if_pos (List.contains_iff_mem.mpr hn)] at hr
  exact length_le_of_further hstep hw hr 0 (frontier_start step n)

/-- What the routes from a known name end at: the other names that can be reached. -/
lemma mem_last_routesFrom :
    m ∈ (routesFrom nodes step n).map Route.last ↔
      m ≠ n ∧ Relation.ReflTransGen (fun a b => b ∈ step a) n m := by
  constructor
  · intro hm
    obtain ⟨r, hr, rfl⟩ := List.mem_map.mp hm
    obtain ⟨hf, -, hne⟩ := mem_routesFrom hr
    have hleads : Leads step n r.last r.path := ⟨hf.chain, hf.starts, r.getLast?_path⟩
    exact ⟨hne, hleads.walks.reaches⟩
  · rintro ⟨hne, hreach⟩
    obtain ⟨k, hw⟩ := exists_walks hreach
    obtain ⟨r, hr, rfl⟩ := exists_mem_routesFrom hn hstep hw hne
    exact List.mem_map_of_mem hr

end Layers

namespace CallGraph

variable {g : CallGraph} {source target : String} {p : List String}

/-- One unit calls the other, directly or through others, or is it. -/
def Reaches (g : CallGraph) : String → String → Prop :=
  Relation.ReflTransGen fun a b => b ∈ g.successors a

lemma WellFormed.mem_transitiveCalls (h : g.WellFormed) (hs : source ∈ g.nodes) :
    target ∈ g.transitiveCalls source ↔ target ≠ source ∧ g.Reaches source target :=
  mem_last_routesFrom hs h.successors_subset

lemma pathBetween?_of_not_mem (hs : source ∉ g.nodes) (target : String) :
    g.pathBetween? source target = none := by
  have hnode : g.hasNode source = false := Bool.eq_false_iff.mpr fun hh => hs (hasNode_iff.mp hh)
  rw [pathBetween?, hnode]
  rfl

lemma pathBetween?_self (hs : source ∈ g.nodes) : g.pathBetween? source source = some [source] := by
  rw [pathBetween?, hasNode_iff.mpr hs]
  simp

lemma pathBetween?_of_ne (hs : source ∈ g.nodes) (hne : target ≠ source) :
    g.pathBetween? source target =
      ((routesFrom g.nodes g.successors source).find? fun r => r.last == target).map Route.path := by
  rw [pathBetween?, hasNode_iff.mpr hs]
  simp [Ne.symm hne]

lemma pathBetween?_isSome (hs : source ∈ g.nodes) (hne : target ≠ source) :
    (g.pathBetween? source target).isSome ↔ target ∈ g.transitiveCalls source := by
  rw [pathBetween?_of_ne hs hne, Option.isSome_map, List.find?_isSome, transitiveCalls, List.mem_map]
  simp only [beq_iff_eq]

lemma WellFormed.pathBetween?_shortest (h : g.WellFormed) (hp : g.pathBetween? source target = some p) :
    Leads g.successors source target p ∧
      ∀ q, Leads g.successors source target q → p.length ≤ q.length := by
  have hpos : ∀ q, Leads g.successors source target q → 0 < q.length := fun q hq =>
    List.length_pos_of_mem (List.mem_of_mem_head? hq.starts)
  by_cases hs : source ∈ g.nodes
  · by_cases he : target = source
    · subst he
      rw [pathBetween?_self hs] at hp
      obtain rfl := Option.some.inj hp
      exact ⟨⟨List.isChain_singleton _, rfl, rfl⟩, hpos⟩
    · rw [pathBetween?_of_ne hs he] at hp
      obtain ⟨r, hr, rfl⟩ := Option.map_eq_some_iff.mp hp
      have hmem := List.mem_of_find?_eq_some hr
      obtain rfl : r.last = target := by simpa using List.find?_some hr
      obtain ⟨hf, -, -⟩ := mem_routesFrom hmem
      refine ⟨⟨hf.chain, hf.starts, r.getLast?_path⟩, fun q hq => ?_⟩
      have hle := length_le_of_mem_routesFrom hs h.successors_subset hmem hq.walks
      have := hpos q hq
      omega
  · rw [pathBetween?_of_not_mem hs] at hp
    cases hp

/-- There is no path between two names just when the first is no unit or does not reach the second. A path
follows calls, visits no unit twice, and no other path between the two has fewer calls. Between two
different units there is one just when the second is among the transitive calls of the first. -/
theorem pathBetween?_eq_none_iff_shortest (changes : List Change) (source target : String) :
    let g := after changes
    (g.pathBetween? source target = none ↔
        source ∉ g.nodes ∨
          ¬ (target = source ∨ Relation.TransGen (fun a b => b ∈ g.successors a) source target)) ∧
      (∀ p, g.pathBetween? source target = some p →
        IsSimplePath g.nodes g.successors p ∧ Leads g.successors source target p ∧
          ∀ q, Leads g.successors source target q → p.length ≤ q.length) ∧
      (source ∈ g.nodes → target ∈ g.nodes → source ≠ target →
        ((g.pathBetween? source target).isSome ↔ target ∈ g.transitiveCalls source)) := by
  intro g
  have h : g.WellFormed := wellFormed_after changes
  have hnone : g.pathBetween? source target = none ↔ source ∉ g.nodes ∨
      ¬ (target = source ∨ Relation.TransGen (fun a b => b ∈ g.successors a) source target) := by
    by_cases hs : source ∈ g.nodes
    · by_cases he : target = source
      · subst he
        simp [pathBetween?_self hs, hs]
      · rw [← Option.not_isSome_iff_eq_none, pathBetween?_isSome hs he, h.mem_transitiveCalls hs, Reaches,
          Relation.reflTransGen_iff_eq_or_transGen]
        simp [hs, he]
    · simp [pathBetween?_of_not_mem hs, hs]
  refine ⟨hnone, fun p hp => ?_, fun hs _ hne => pathBetween?_isSome hs hne.symm⟩
  exact ⟨h.isSimplePath_of_pathBetween hp, h.pathBetween?_shortest hp⟩

end CallGraph

end SkillAtlas
