import Mathlib.Data.List.Chain
import Mathlib.Data.List.Nodup
import SkillAtlas.Proofs.Graph.Build
import SkillAtlas.Proofs.Graph.Walk

/-!
# The cycles of a graph

Every cycle that is reported is one, no two are closed by the same call, and every cycle of calls contains a
call that closes a reported one. Without those calls the graph has no cycle.
-/

namespace SkillAtlas

/-- Pairs are distinct if those with any one first part have distinct second parts. -/
lemma nodup_of_nodup_fibers {α β : Type} [BEq α] [LawfulBEq α] {ps : List (α × β)}
    (h : ∀ a, ((ps.filter fun p => p.1 == a).map Prod.snd).Nodup) : ps.Nodup := by
  induction ps with
  | nil => exact List.nodup_nil
  | cons p rest ih =>
    have hfiber := h p.1
    rw [List.filter_cons_of_pos (by simp), List.map_cons, List.nodup_cons] at hfiber
    refine List.nodup_cons.mpr ⟨fun hp => hfiber.1 ?_, ih fun a => ?_⟩
    · exact List.mem_map_of_mem (List.mem_filter.mpr ⟨hp, by simp⟩)
    · exact (h a).sublist (((List.sublist_cons_self p rest).filter _).map _)

lemma exists_closing? {c : List String} (hc : 2 ≤ c.length) : ∃ e, closing? c = some e := by
  unfold closing?
  rw [← List.length_reverse] at hc
  match c.reverse, hc with
  | b :: a :: _, _ => exact ⟨(a, b), rfl⟩

lemma Survey.mem_closedFrom {s : Survey} {m n : String} :
    m ∈ s.closedFrom n ↔ some (n, m) ∈ s.cycles.map closing? := by
  simp only [Survey.closedFrom, Survey.closings, List.mem_map, List.mem_filter, List.mem_filterMap]
  constructor
  · rintro ⟨e, ⟨⟨c, hc, he⟩, hn⟩, rfl⟩
    exact ⟨c, hc, by rw [he, ← beq_iff_eq.mp hn]⟩
  · rintro ⟨c, hc, he⟩
    exact ⟨(n, m), ⟨⟨c, hc, he⟩, beq_self_eq_true n⟩, rfl⟩

namespace CallGraph

/-- The units that a unit calls without closing a cycle. -/
def kept (g : CallGraph) (n : String) : List String :=
  (g.successors n).filter fun m => !(g.cycles.map closing?).contains (some (n, m))

variable {g : CallGraph} {m n : String}

lemma WellFormed.walked_survey (h : g.WellFormed) :
    Walked g.nodes g.successors [] 0 g.nodes {} (walk g.nodes g.successors [] 0 g.nodes {}) := by
  have hempty : Consistent g.nodes g.successors [] {} := by
    constructor <;> simp [Survey.left, Survey.closedFrom, Survey.closings]
  exact walked_walk h.successors_subset hempty (isTrail_nil _ _) (fun _ hn => hn) (by simp)

lemma WellFormed.consistent_survey (h : g.WellFormed) :
    Consistent g.nodes g.successors [] g.survey :=
  h.walked_survey.consistent

/-- The walk leaves every known unit. -/
lemma WellFormed.mem_left (h : g.WellFormed) : n ∈ g.survey.left ↔ n ∈ g.nodes := by
  constructor
  · exact fun hn => h.consistent_survey.known hn
  · exact fun hn => (h.walked_survey.advances.reached n hn).resolve_left (by simp)

lemma WellFormed.finished (h : g.WellFormed) (hn : n ∈ g.nodes) : Finished g.successors g.survey n :=
  h.consistent_survey.finished n (h.mem_left.mpr hn)

/-- The calls that close no cycle are those of units left before. -/
lemma WellFormed.kept_eq (h : g.WellFormed) (hn : n ∈ g.nodes) :
    g.kept n = (g.successors n).filter fun m => decide (g.survey.rank m < g.survey.rank n) := by
  refine List.filter_congr fun m hm => ?_
  have hclosed : some (n, m) ∈ g.cycles.map closing? ↔ g.survey.rank n ≤ g.survey.rank m := by
    rw [cycles_eq_survey, ← Survey.mem_closedFrom, (h.finished hn).closed, List.mem_filter,
      decide_eq_true_iff]
    exact and_iff_right hm
  rw [Bool.eq_iff_iff, Bool.not_eq_true', ← Bool.not_eq_true, List.contains_iff_mem, hclosed,
    decide_eq_true_iff, Nat.not_le]

lemma WellFormed.rank_lt_of_mem_kept (h : g.WellFormed) (hn : n ∈ g.nodes) (hm : m ∈ g.kept n) :
    g.survey.rank m < g.survey.rank n := by
  rw [h.kept_eq hn] at hm
  exact of_decide_eq_true (List.mem_filter.mp hm).2

lemma WellFormed.not_isCycle_kept (h : g.WellFormed) (c : List String) : ¬ IsCycle g.nodes g.kept c :=
  not_isCycle fun _ hn _ hm => h.rank_lt_of_mem_kept hn hm

lemma WellFormed.isCycle_of_mem (h : g.WellFormed) {c : List String} (hc : c ∈ g.cycles) :
    IsCycle g.nodes g.successors c ∧ c.dropLast.Nodup := by
  rw [cycles_eq_survey] at hc
  exact h.consistent_survey.cyclic c hc

lemma WellFormed.nodup_closedFrom (h : g.WellFormed) (n : String) : (g.survey.closedFrom n).Nodup := by
  by_cases hn : n ∈ g.nodes
  · rw [(h.finished hn).closed]
    exact (nodup_successors g n).filter _
  · have hleft : n ∉ g.survey.left := fun hl => hn (h.mem_left.mp hl)
    have hnone : g.survey.closedFrom n = [] := h.consistent_survey.untouched n (by simp) hleft
    rw [hnone]
    exact List.nodup_nil

lemma WellFormed.nodup_closings (h : g.WellFormed) : (g.cycles.map closing?).Nodup := by
  have hsome : g.cycles.map closing? = g.survey.closings.map some := by
    rw [cycles_eq_survey, Survey.closings, List.map_filterMap_some_eq_filter_map_isSome]
    refine (List.filter_eq_self.mpr fun e he => ?_).symm
    obtain ⟨c, hc, rfl⟩ := List.mem_map.mp he
    obtain ⟨e, he⟩ := exists_closing? (h.consistent_survey.cyclic c hc).1.long
    rw [he, Option.isSome_some]
  rw [hsome]
  exact (nodup_of_nodup_fibers h.nodup_closedFrom).map (Option.some_injective _)

/-- A cycle of calls contains a call that closes a reported cycle. -/
lemma WellFormed.exists_closing (h : g.WellFormed) {w : List String}
    (hw : IsCycle g.nodes g.successors w) :
    ∃ c ∈ g.cycles, ∃ a b, closing? c = some (a, b) ∧ [a, b] <:+: w := by
  by_contra hnone
  -- otherwise the cycle would be one of the calls that close none
  refine h.not_isCycle_kept w ⟨⟨hw.known, ?_⟩, hw.long, hw.closed⟩
  rw [List.isChain_iff_forall_rel_of_append_cons_cons]
  intro a b before rest he
  have hab := List.isChain_iff_forall_rel_of_append_cons_cons.mp hw.chain he
  have hclosed : some (a, b) ∉ g.cycles.map closing? := by
    intro hmem
    obtain ⟨c, hc, hclosing⟩ := List.mem_map.mp hmem
    exact hnone ⟨c, hc, a, b, hclosing, before, rest, by rw [he]; simp⟩
  exact List.mem_filter.mpr ⟨hab, by simpa using hclosed⟩

/-- Every reported cycle is one, closed on its first unit and otherwise without repeats; no two are closed
by the same call; and every cycle of calls contains a call that closes a reported one. So no cycle is
reported just when there is none. -/
theorem cycles_sound_complete (changes : List Change) :
    let g := after changes
    (∀ c ∈ g.cycles, IsCycle g.nodes g.successors c ∧ c.dropLast.Nodup) ∧
      (g.cycles.map closing?).Nodup ∧
      (∀ w, IsCycle g.nodes g.successors w →
        ∃ c ∈ g.cycles, ∃ a b, closing? c = some (a, b) ∧ [a, b] <:+: w) ∧
      (g.cycles = [] ↔ ∀ w, ¬ IsCycle g.nodes g.successors w) := by
  intro g
  have h : g.WellFormed := wellFormed_after changes
  refine ⟨fun c hc => h.isCycle_of_mem hc, h.nodup_closings, fun w hw => h.exists_closing hw, ?_⟩
  constructor
  · intro hnil w hw
    obtain ⟨c, hc, -⟩ := h.exists_closing hw
    rw [hnil] at hc
    simp at hc
  · intro hnone
    refine List.eq_nil_iff_forall_not_mem.mpr fun c hc => ?_
    exact hnone c (h.isCycle_of_mem hc).1

end CallGraph

end SkillAtlas
