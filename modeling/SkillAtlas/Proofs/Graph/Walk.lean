import Mathlib.Data.List.Nodup
import Mathlib.Data.List.Infix
import SkillAtlas.Proofs.Graph.Path
import SkillAtlas.Proofs.Graph.Survey

/-!
# What a walk keeps to

A unit that the walk has left comes after every unit that it calls without closing a cycle. So the order in
which units are left tells the closing calls from the others, and the depth of a unit that has been left is
worked out from the units before it.
-/

namespace SkillAtlas

namespace Survey

/-- The place of a unit in the order in which units were left. -/
def rank (s : Survey) (n : String) : Nat :=
  s.left.idxOf n

/-- The depth of a unit that has been left. -/
def depthOf (s : Survey) (n : String) : Nat :=
  (s.depths.lookup n).getD 0

/-- The depth that calls of some units in turn give to their source, if it had `depth` before. -/
def deepest (s : Survey) (depth : Nat) (names : List String) : Nat :=
  names.foldl (fun d m => max d (s.depthOf m + 1)) depth

/-- The calls that close a cycle. -/
def closings (s : Survey) : List (String × String) :=
  s.cycles.filterMap closing?

/-- The units whose calls from a unit close a cycle. -/
def closedFrom (s : Survey) (n : String) : List String :=
  (s.closings.filter fun e => e.1 == n).map Prod.snd

variable {s t : Survey} {m n u : String} {c : List String} {d : Nat}

@[simp] lemma deepest_cons (s : Survey) (d : Nat) (m : String) (names : List String) :
    s.deepest d (m :: names) = s.deepest (max d (s.depthOf m + 1)) names := rfl

@[simp] lemma depths_leave (s : Survey) (n : String) (d : Nat) :
    (s.leave n d).depths = s.depths ++ [(n, d)] := rfl

@[simp] lemma closedFrom_leave (s : Survey) (n : String) (d : Nat) (m : String) :
    (s.leave n d).closedFrom m = s.closedFrom m := rfl

lemma closedFrom_close (hc : closing? c = some (u, n)) (m : String) :
    (s.close c).closedFrom m = s.closedFrom m ++ if u = m then [n] else [] := by
  have hclosings : (s.close c).closings = s.closings ++ [(u, n)] := by
    simp [closings, close, hc]
  rw [closedFrom, hclosings, List.filter_append, List.map_append, ← closedFrom]
  by_cases hu : u = m
  · simp [hu]
  · simp [hu]

/-! ### What later steps leave as it is -/

lemma left_isPrefix (h : s.depths <+: t.depths) : s.left <+: t.left :=
  h.map Prod.fst

lemma rank_eq (h : s.depths <+: t.depths) (hn : n ∈ s.left) : t.rank n = s.rank n := by
  obtain ⟨more, hmore⟩ := left_isPrefix h
  rw [rank, ← hmore, List.idxOf_append_of_mem hn, rank]

lemma rank_lt_length (hn : n ∈ s.left) : s.rank n < s.left.length :=
  List.idxOf_lt_length_of_mem hn

lemma length_le_rank (h : s.depths <+: t.depths) (hm : m ∉ s.left) : s.left.length ≤ t.rank m := by
  obtain ⟨more, hmore⟩ := left_isPrefix h
  rw [rank, ← hmore, List.idxOf_append_of_notMem hm]
  omega

/-- Units left later come after those left before. -/
lemma rank_lt_rank_iff (h : s.depths <+: t.depths) (hn : n ∈ s.left) (m : String) :
    t.rank m < t.rank n ↔ s.rank m < s.rank n := by
  have hlt := rank_lt_length hn
  rw [rank_eq h hn]
  by_cases hm : m ∈ s.left
  · rw [rank_eq h hm]
  · have ht := length_le_rank h hm
    have hs := length_le_rank List.prefix_rfl hm
    omega

lemma mem_left_of_rank_lt (hn : n ∈ s.left) (h : s.rank m < s.rank n) : m ∈ s.left := by
  by_contra hm
  have hlt := rank_lt_length hn
  have hle := length_le_rank List.prefix_rfl hm
  omega

lemma depthOf_eq (h : s.depths <+: t.depths) (hn : n ∈ s.left) : t.depthOf n = s.depthOf n := by
  obtain ⟨more, hmore⟩ := h
  rw [depthOf, depthOf, ← hmore, List.lookup_append]
  cases hl : s.depths.lookup n with
  | none => exact absurd hn (lookup_eq_none.mp hl)
  | some d => rfl

lemma deepest_eq (h : s.depths <+: t.depths) {names : List String} (hn : names ⊆ s.left) (d : Nat) :
    t.deepest d names = s.deepest d names := by
  induction names generalizing d with
  | nil => rfl
  | cons m rest ih =>
    obtain ⟨hm, hrest⟩ := List.cons_subset.mp hn
    rw [deepest_cons, deepest_cons, depthOf_eq h hm]
    exact ih hrest _

lemma depthOf_leave (hn : n ∉ s.left) (d : Nat) : (s.leave n d).depthOf n = d := by
  rw [depthOf, depths_leave, List.lookup_append, lookup_eq_none.mpr hn]
  simp

lemma rank_leave (hn : n ∉ s.left) (d : Nat) : (s.leave n d).rank n = s.left.length := by
  rw [rank, left_leave, List.idxOf_append_of_notMem hn]
  simp

end Survey

/-- The calls of a unit that close a cycle are those of units not left before it, and its depth is worked
out from the others. -/
structure Finished (step : String → List String) (s : Survey) (n : String) : Prop where
  closed : s.closedFrom n = (step n).filter fun m => decide (s.rank n ≤ s.rank m)
  depth : s.depthOf n = s.deepest 0 ((step n).filter fun m => decide (s.rank m < s.rank n))

/-- What holds of a survey whenever the walk is on `path`. -/
structure Consistent (nodes : List String) (step : String → List String) (path : List String)
    (s : Survey) : Prop where
  distinct : s.left.Nodup
  known : s.left ⊆ nodes
  apart : ∀ n ∈ path, n ∉ s.left
  finished : ∀ n ∈ s.left, Finished step s n
  untouched : ∀ n, n ∉ path → n ∉ s.left → s.closedFrom n = []
  cyclic : ∀ c ∈ s.cycles, IsCycle nodes step c ∧ c.dropLast.Nodup

/-- What calls of `names` by the unit at the head of `path` add to a survey. -/
structure Advances (path names : List String) (s t : Survey) : Prop where
  grown : s.depths <+: t.depths
  reached : ∀ n ∈ names, n ∈ path ∨ n ∈ t.left
  atHead : ∀ u, path.head? = some u → t.closedFrom u = s.closedFrom u ++ names.filter path.contains
  elsewhere : ∀ u, u ∈ s.left ∨ u ∈ path.tail → t.closedFrom u = s.closedFrom u

/-- What a walk to `names` makes of a survey and of the depth of the unit at the head of `path`. -/
structure Walked (nodes : List String) (step : String → List String) (path : List String) (depth : Nat)
    (names : List String) (s : Survey) (result : Nat × Survey) : Prop where
  consistent : Consistent nodes step path result.2
  advances : Advances path names s result.2
  depth : result.1 = result.2.deepest depth (names.filter fun n => !path.contains n)

section Invariant

variable {nodes : List String} {step : String → List String} {path names : List String} {s t : Survey}
  {n u : String} {depth d : Nat} {result : Nat × Survey}

lemma Finished.grow (h : Finished step s n) (hg : s.depths <+: t.depths) (hn : n ∈ s.left)
    (hc : t.closedFrom n = s.closedFrom n) : Finished step t n where
  closed := by
    rw [hc, h.closed]
    refine List.filter_congr fun m _ => decide_eq_decide.mpr ?_
    have hiff := Survey.rank_lt_rank_iff hg hn m
    omega
  depth := by
    have hsame : (step n).filter (fun m => decide (t.rank m < t.rank n)) =
        (step n).filter fun m => decide (s.rank m < s.rank n) :=
      List.filter_congr fun m _ => decide_eq_decide.mpr (Survey.rank_lt_rank_iff hg hn m)
    have hleft : ((step n).filter fun m => decide (s.rank m < s.rank n)) ⊆ s.left := by
      intro m hm
      exact Survey.mem_left_of_rank_lt hn (of_decide_eq_true (List.mem_filter.mp hm).2)
    rw [Survey.depthOf_eq hg hn, h.depth, hsame, Survey.deepest_eq hg hleft]

lemma Consistent.enter (h : Consistent nodes step path s) (hn : n ∉ s.left) :
    Consistent nodes step (n :: path) s where
  distinct := h.distinct
  known := h.known
  apart := List.forall_mem_cons.mpr ⟨hn, h.apart⟩
  finished := h.finished
  untouched := fun m hm => h.untouched m fun hp => hm (List.mem_cons_of_mem n hp)
  cyclic := h.cyclic

lemma Consistent.close (h : Consistent nodes step path s) (ht : IsTrail nodes step path)
    (hn : n ∈ path) (hu : path.head? = some u) (hs : n ∈ step u) :
    Consistent nodes step path (s.close (closedBy path n)) where
  distinct := h.distinct
  known := h.known
  apart := h.apart
  finished := by
    intro m hm
    have hne : u ≠ m := by
      rintro rfl
      exact h.apart u (List.mem_of_head? hu) hm
    refine (h.finished m hm).grow List.prefix_rfl hm ?_
    rw [Survey.closedFrom_close (closing?_closedBy hu hn), if_neg hne, List.append_nil]
  untouched := by
    intro m hp hm
    have hne : u ≠ m := by
      rintro rfl
      exact hp (List.mem_of_head? hu)
    rw [Survey.closedFrom_close (closing?_closedBy hu hn), if_neg hne, List.append_nil]
    exact h.untouched m hp hm
  cyclic := by
    intro c hc
    rcases List.mem_append.mp hc with hc | hc
    · exact h.cyclic c hc
    · obtain rfl := List.mem_singleton.mp hc
      refine ⟨ht.isCycle_closedBy hn fun v hv => ?_, ht.nodup_closedBy hn⟩
      obtain rfl := Option.some.inj (hu.symm.trans hv)
      exact hs

/-- A unit has been left before the unit that calls it just when the walk is not on it. -/
lemma rank_leave_lt_iff (ha : ∀ m ∈ n :: path, m ∉ t.left)
    (hr : ∀ m ∈ step n, m ∈ n :: path ∨ m ∈ t.left) (d : Nat) {m : String} (hm : m ∈ step n) :
    (t.leave n d).rank m < (t.leave n d).rank n ↔ m ∉ n :: path := by
  have hgrown : t.depths <+: (t.leave n d).depths := List.prefix_append _ _
  rw [Survey.rank_leave (ha n List.mem_cons_self)]
  constructor
  · intro hlt hmem
    have hle := Survey.length_le_rank hgrown (ha m hmem)
    omega
  · intro hmem
    have hleft := (hr m hm).resolve_left hmem
    rw [Survey.rank_eq hgrown hleft]
    exact Survey.rank_lt_length hleft

lemma finished_leave (ha : ∀ m ∈ n :: path, m ∉ t.left)
    (hr : ∀ m ∈ step n, m ∈ n :: path ∨ m ∈ t.left)
    (hc : t.closedFrom n = (step n).filter (n :: path).contains)
    (hd : d = t.deepest 0 ((step n).filter fun m => !(n :: path).contains m)) :
    Finished step (t.leave n d) n where
  closed := by
    rw [Survey.closedFrom_leave, hc]
    refine List.filter_congr fun m hm => ?_
    have hiff := rank_leave_lt_iff ha hr d hm
    rw [Bool.eq_iff_iff, List.contains_iff_mem, decide_eq_true_iff, ← Nat.not_lt, hiff, not_not]
  depth := by
    have hsame : (step n).filter (fun m => decide ((t.leave n d).rank m < (t.leave n d).rank n)) =
        (step n).filter fun m => !(n :: path).contains m := by
      refine List.filter_congr fun m hm => ?_
      have hiff := rank_leave_lt_iff ha hr d hm
      rw [Bool.eq_iff_iff, decide_eq_true_iff, hiff, Bool.not_eq_true', ← Bool.not_eq_true,
        List.contains_iff_mem]
    have hleft : ((step n).filter fun m => !(n :: path).contains m) ⊆ t.left := by
      intro m hm
      obtain ⟨hm, hnot⟩ := List.mem_filter.mp hm
      exact (hr m hm).resolve_left (by simpa using hnot)
    rw [Survey.depthOf_leave (ha n List.mem_cons_self), hsame,
      Survey.deepest_eq (List.prefix_append _ _) hleft]
    exact hd

/-- Leaving a unit after walking to all that it calls. -/
lemma Consistent.leave (h : Consistent nodes step (n :: path) t) (hk : n ∈ nodes) (hp : n ∉ path)
    (hf : Finished step (t.leave n d) n) : Consistent nodes step path (t.leave n d) where
  distinct := by
    rw [Survey.left_leave, ← List.concat_eq_append]
    exact h.distinct.concat (h.apart n List.mem_cons_self)
  known := by
    rw [Survey.left_leave]
    exact List.append_subset.mpr ⟨h.known, List.cons_subset.mpr ⟨hk, List.nil_subset nodes⟩⟩
  apart := by
    intro m hm hl
    rw [Survey.left_leave] at hl
    rcases List.mem_append.mp hl with hl | hl
    · exact h.apart m (List.mem_cons_of_mem n hm) hl
    · exact hp (List.mem_singleton.mp hl ▸ hm)
  finished := by
    intro m hm
    rw [Survey.left_leave] at hm
    rcases List.mem_append.mp hm with hm | hm
    · exact (h.finished m hm).grow (List.prefix_append _ _) hm rfl
    · exact List.mem_singleton.mp hm ▸ hf
  untouched := by
    intro m hm hl
    rw [Survey.left_leave, List.mem_append, List.mem_singleton, not_or] at hl
    exact h.untouched m (by simp [hm, hl.2]) hl.1
  cyclic := h.cyclic

lemma walked_nil (h : Consistent nodes step path s) (depth : Nat) :
    Walked nodes step path depth [] s (depth, s) where
  consistent := h
  advances := ⟨List.prefix_rfl, by simp, by simp, fun _ _ => rfl⟩
  depth := rfl

/-- A call of a unit on the path, before the calls of the rest. -/
lemma Walked.close (hn : n ∈ path) (hu : path.head? = some u) (ha : ∀ m ∈ path, m ∉ s.left)
    (hd : path.Nodup)
    (h : Walked nodes step path depth names (s.close (closedBy path n)) result) :
    Walked nodes step path depth (n :: names) s result where
  consistent := h.consistent
  advances := by
    have hclosed := Survey.closedFrom_close (s := s) (closing?_closedBy hu hn)
    constructor
    case grown => exact h.advances.grown
    case reached => exact List.forall_mem_cons.mpr ⟨Or.inl hn, h.advances.reached⟩
    case atHead =>
      intro v hv
      obtain rfl := Option.some.inj (hu.symm.trans hv)
      rw [h.advances.atHead u hu, hclosed, if_pos rfl, List.filter_cons_of_pos (by simpa using hn)]
      simp
    case elsewhere =>
      intro v hv
      have hne : u ≠ v := by
        rintro rfl
        obtain ⟨rest, rfl⟩ := List.head?_eq_some_iff.mp hu
        rcases hv with hv | hv
        · exact ha u List.mem_cons_self hv
        · exact (List.nodup_cons.mp hd).1 hv
      rw [h.advances.elsewhere v hv, hclosed, if_neg hne, List.append_nil]
  depth := by
    rw [h.depth, List.filter_cons_of_neg (by simpa using hn)]

/-- A call of a unit that has been left, before the calls of the rest. -/
lemma Walked.known (hn : n ∉ path) (hl : s.depths.lookup n = some d)
    (h : Walked nodes step path (max depth (d + 1)) names s result) :
    Walked nodes step path depth (n :: names) s result where
  consistent := h.consistent
  advances := by
    have hleft := Survey.mem_left_of_lookup hl
    constructor
    case grown => exact h.advances.grown
    case reached =>
      have hmem := (Survey.left_isPrefix h.advances.grown).subset hleft
      exact List.forall_mem_cons.mpr ⟨Or.inr hmem, h.advances.reached⟩
    case atHead =>
      intro u hu
      rw [h.advances.atHead u hu, List.filter_cons_of_neg (by simpa using hn)]
    case elsewhere => exact h.advances.elsewhere
  depth := by
    have hd : result.2.depthOf n = d := by
      rw [Survey.depthOf_eq h.advances.grown (Survey.mem_left_of_lookup hl), Survey.depthOf, hl]
      rfl
    rw [h.depth, List.filter_cons_of_pos (by simpa using hn), Survey.deepest_cons, hd]

/-- A call of a unit that the walk enters, before the calls of the rest. -/
lemma Walked.enter (hn : n ∉ path) (hin : Advances (n :: path) (step n) s t)
    (hout : n ∉ t.left) (h : Walked nodes step path (max depth (d + 1)) names (t.leave n d) result) :
    Walked nodes step path depth (n :: names) s result where
  consistent := h.consistent
  advances := by
    have hmem : n ∈ (t.leave n d).left := by simp
    constructor
    case grown => exact (hin.grown.trans (List.prefix_append _ _)).trans h.advances.grown
    case reached =>
      have hfinal := (Survey.left_isPrefix h.advances.grown).subset hmem
      exact List.forall_mem_cons.mpr ⟨Or.inr hfinal, h.advances.reached⟩
    case atHead =>
      intro u hu
      have hsame := hin.elsewhere u (Or.inr (List.mem_of_head? hu))
      rw [h.advances.atHead u hu, Survey.closedFrom_leave, hsame,
        List.filter_cons_of_neg (by simpa using hn)]
    case elsewhere =>
      intro u hu
      have hkept : u ∈ (t.leave n d).left ∨ u ∈ path.tail := by
        refine hu.imp_left fun hs => ?_
        rw [Survey.left_leave]
        exact List.mem_append_left _ ((Survey.left_isPrefix hin.grown).subset hs)
      rw [h.advances.elsewhere u hkept, Survey.closedFrom_leave]
      exact hin.elsewhere u (hu.imp_right fun hp => List.mem_of_mem_tail hp)
  depth := by
    have hd : result.2.depthOf n = d := by
      rw [Survey.depthOf_eq h.advances.grown (by simp), Survey.depthOf_leave hout]
    rw [h.depth, List.filter_cons_of_pos (by simpa using hn), Survey.deepest_cons, hd]

/-- A walk keeps surveys consistent and finishes the units that it enters. -/
theorem walked_walk (hstep : ∀ n, step n ⊆ nodes) (h : Consistent nodes step path s)
    (ht : IsTrail nodes step path) (hn : names ⊆ nodes)
    (hs : ∀ u, path.head? = some u → names ⊆ step u) :
    Walked nodes step path depth names s (walk nodes step path depth names s) := by
  -- the induction follows the walk: in the case where it enters a unit, first for what that unit calls
  -- and then for the rest
  induction path, depth, names, s using walk.induct nodes step with
  | case1 path depth s =>
    rw [walk]
    exact walked_nil h depth
  | case2 path depth n rest s hp ih =>
    have hmem : n ∈ path := by simpa using hp
    obtain ⟨u, hu⟩ : ∃ u, path.head? = some u := by
      rw [← Option.isSome_iff_exists, List.isSome_head?]
      exact List.ne_nil_of_mem hmem
    obtain ⟨-, hrest⟩ := List.cons_subset.mp hn
    have hsn : n ∈ step u := hs u hu List.mem_cons_self
    have hclose := h.close ht hmem hu hsn
    rw [walk, if_pos hp]
    exact (ih hclose ht hrest fun v hv => (List.cons_subset.mp (hs v hv)).2).close hmem hu h.apart ht.distinct
  | case3 path depth n rest s hp d hd ih =>
    obtain ⟨-, hrest⟩ := List.cons_subset.mp hn
    rw [walk, if_neg hp, hd]
    exact (ih h ht hrest fun v hv => (List.cons_subset.mp (hs v hv)).2).known (by simpa using hp) hd
  | case4 path depth n rest s hp hd hu d found hw ih₁ ih₂ =>
    obtain ⟨hnode, hrest⟩ := List.cons_subset.mp hn
    have hl := Survey.lookup_eq_none.mp hd
    have htrail := ht.cons hnode hu.2 fun v hv => hs v hv List.mem_cons_self
    have hself : ∀ v, (n :: path).head? = some v → step n ⊆ step v := by
      intro v hv
      rw [← Option.some.inj hv]
      exact fun m hm => hm
    have hin := ih₁ (h.enter hl) htrail (hstep n) hself
    rw [hw] at hin
    have hclosed : found.closedFrom n = (step n).filter (n :: path).contains := by
      rw [hin.advances.atHead n rfl, h.untouched n hu.2 hl, List.nil_append]
    have hfinished := finished_leave hin.consistent.apart hin.advances.reached hclosed hin.depth
    have hleave := hin.consistent.leave hu.1 hu.2 hfinished
    rw [walk, if_neg hp, hd]
    simp only [dif_pos hu, hw]
    exact (ih₂ hleave ht hrest fun v hv => (List.cons_subset.mp (hs v hv)).2).enter hu.2 hin.advances
      (hin.consistent.apart n List.mem_cons_self)
  | case5 path depth n rest s hp hd hu ih =>
    exact absurd ⟨hn List.mem_cons_self, by simpa using hp⟩ hu

end Invariant

end SkillAtlas
