import Mathlib.Data.List.Nodup
import Mathlib.Data.List.Chain
import SkillAtlas.Graph.Route

/-!
# Routes are simple paths

Exploring a graph layer by layer gives one route to every name that it reaches. Each route follows calls
from where the exploration starts, visits no name twice, and ends at a name that no other route ends at.
-/

namespace SkillAtlas

namespace Route

@[simp] lemma path_start (n : String) : (start n).path = [n] := rfl

@[simp] lemma path_extend (r : Route) (n : String) : (r.extend n).path = r.path ++ [n] := by
  simp [path, extend]

lemma getLast?_path (r : Route) : r.path.getLast? = some r.last := by
  simp [path]

/-- The route follows steps from `n` and visits no name twice. -/
structure Follows (step : String → List String) (n : String) (r : Route) : Prop where
  chain : r.path.IsChain fun a b => b ∈ step a
  starts : r.path.head? = some n
  distinct : r.path.Nodup

variable {step : String → List String} {n m : String} {seen : List String} {r : Route}

lemma follows_start (step : String → List String) (n : String) : (start n).Follows step n where
  chain := List.isChain_singleton n
  starts := rfl
  distinct := List.nodup_singleton n

lemma Follows.extend (h : r.Follows step n) (hm : m ∈ step r.last) (hn : m ∉ r.path) :
    (r.extend m).Follows step n where
  chain := by
    rw [path_extend]
    refine List.isChain_append.mpr ⟨h.chain, List.isChain_singleton m, fun a ha b hb => ?_⟩
    rw [getLast?_path] at ha
    obtain rfl := Option.some.inj ha
    obtain rfl := Option.some.inj hb
    exact hm
  starts := by rw [path_extend, List.head?_append, h.starts, Option.some_or]
  distinct := by
    rw [path_extend, ← List.concat_eq_append]
    exact h.distinct.concat hn

lemma nodup_last_fresh (seen : List String) (routes : List Route) :
    ((fresh seen routes).map last).Nodup := by
  induction routes generalizing seen with
  | nil => simp [fresh]
  | cons q rest ih =>
    unfold fresh
    split
    · exact ih seen
    · rw [List.map_cons, List.nodup_cons]
      refine ⟨fun hq => ?_, ih _⟩
      obtain ⟨r, hr, he⟩ := List.mem_map.mp hq
      exact (last_not_mem_of_mem_fresh hr).1 (he ▸ List.mem_cons_self)

end Route

section Layers

variable {nodes : List String} {step : String → List String} {n : String} {seen : List String}
  {layer : List Route} {r : Route}

/-- A route of the next layer extends one of the layer to a known name that was not seen. -/
lemma mem_nextLayer (h : r ∈ nextLayer nodes step seen layer) :
    r.last ∈ nodes ∧ r.last ∉ seen ∧ ∃ q ∈ layer, r.last ∈ step q.last ∧ r = q.extend r.last := by
  obtain ⟨hs, hf⟩ := Route.last_not_mem_of_mem_fresh h
  obtain ⟨hr, hn⟩ := List.mem_filter.mp hf
  obtain ⟨q, hq, hmap⟩ := List.mem_flatMap.mp hr
  obtain ⟨m, hm, rfl⟩ := List.mem_map.mp hmap
  exact ⟨by simpa using hn, hs, q, hq, hm, rfl⟩

/-- What is known of a layer: its routes follow steps from `n` through names that have been seen. -/
def LayerFrom (step : String → List String) (n : String) (seen : List String) (layer : List Route) :
    Prop :=
  ∀ r ∈ layer, r.Follows step n ∧ r.path ⊆ seen

lemma LayerFrom.next (h : LayerFrom step n seen layer) :
    LayerFrom step n ((nextLayer nodes step seen layer).map Route.last ++ seen)
      (nextLayer nodes step seen layer) := by
  intro r hr
  obtain ⟨-, hs, q, hq, hm, he⟩ := mem_nextLayer hr
  obtain ⟨hf, hp⟩ := h q hq
  constructor
  · rw [he]
    exact hf.extend hm fun hmem => hs (hp hmem)
  · intro x hx
    rw [he, Route.path_extend] at hx
    rcases List.mem_append.mp hx with hx | hx
    · exact List.mem_append_right _ (hp hx)
    · obtain rfl := List.mem_singleton.mp hx
      exact List.mem_append_left _ (List.mem_map_of_mem hr)

/-- Each further route follows steps from `n` to a known name that was not seen. -/
lemma mem_furtherRoutes (hl : LayerFrom step n seen layer) (h : r ∈ furtherRoutes nodes step seen layer) :
    r.Follows step n ∧ r.last ∈ nodes ∧ r.last ∉ seen := by
  induction seen, layer using furtherRoutes.induct nodes step with
  | case1 seen layer next hnil =>
    rw [furtherRoutes, dif_pos hnil] at h
    simp at h
  | case2 seen layer next hne ih =>
    rw [furtherRoutes, dif_neg hne] at h
    rcases List.mem_append.mp h with h | h
    · have hm := mem_nextLayer h
      exact ⟨(hl.next r h).1, hm.1, hm.2.1⟩
    · obtain ⟨hf, hn, hs⟩ := ih hl.next h
      exact ⟨hf, hn, fun hm => hs (List.mem_append_right _ hm)⟩

lemma nodup_last_furtherRoutes (hl : LayerFrom step n seen layer) :
    ((furtherRoutes nodes step seen layer).map Route.last).Nodup := by
  induction seen, layer using furtherRoutes.induct nodes step with
  | case1 seen layer next hnil =>
    rw [furtherRoutes, dif_pos hnil]
    simp
  | case2 seen layer next hne ih =>
    rw [furtherRoutes, dif_neg hne, List.map_append]
    refine List.nodup_append.mpr ⟨Route.nodup_last_fresh _ _, ih hl.next, fun a ha b hb hab => ?_⟩
    obtain ⟨q, hq, rfl⟩ := List.mem_map.mp hb
    exact (mem_furtherRoutes hl.next hq).2.2 (List.mem_append_left _ (hab ▸ ha))

lemma layerFrom_start (step : String → List String) (n : String) :
    LayerFrom step n [n] [Route.start n] := by
  intro r hr
  obtain rfl := List.mem_singleton.mp hr
  exact ⟨Route.follows_start step n, by simp⟩

/-- Each route from `n` follows steps to a known name other than `n`. -/
lemma mem_routesFrom (h : r ∈ routesFrom nodes step n) :
    r.Follows step n ∧ r.last ∈ nodes ∧ r.last ≠ n := by
  unfold routesFrom at h
  split at h
  · obtain ⟨hf, hn, hs⟩ := mem_furtherRoutes (layerFrom_start step n) h
    exact ⟨hf, hn, fun he => hs (he ▸ List.mem_cons_self)⟩
  · simp at h

/-- No two routes from `n` end at the same name. -/
lemma nodup_last_routesFrom (nodes : List String) (step : String → List String) (n : String) :
    ((routesFrom nodes step n).map Route.last).Nodup := by
  unfold routesFrom
  split
  · exact nodup_last_furtherRoutes (layerFrom_start step n)
  · simp

end Layers

end SkillAtlas
