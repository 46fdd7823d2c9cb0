import SkillAtlas.Proofs.Grouping.Chains

/-!
# What call chains leave

A root may gather two units that the search leaves free: each was then gathered first by a root that had no
other free unit, and one of the two roots was claimed before the search. So where no root is claimed
before, at most one unit of each root is left.
-/

namespace SkillAtlas

open AnalyzedUnit (names)

/-- Of some names at most one is not claimed. -/
def LeavesOne (ns claimed : List String) : Prop :=
  ∀ a ∈ ns, ∀ b ∈ ns, a ∉ claimed → b ∉ claimed → a = b

namespace CallGraph

variable {g : CallGraph} {before starts claimed : List String} {b q r n : String} {c d : Chain}

/-- Only a root itself reaches the root. -/
lemma eq_of_reaches_root (hq : q ∈ g.roots) (h : g.Reaches b q) : b = q := by
  rcases Relation.ReflTransGen.cases_tail h with rfl | ⟨m, -, hm⟩
  · rfl
  · exact absurd hm ((mem_entryPoints.mp (mem_roots.mp hq).1).2 m)

lemma root_mem_nodes (hr : r ∈ g.roots) : r ∈ g.nodes :=
  (List.mem_filter.mp hr).1

lemma chainStarts_of_mem (hr : r ∈ g.roots) : g.chainStarts = g.roots := by
  unfold chainStarts
  split
  · rename_i hnone
    simp [hnone] at hr
  · rfl

/-- What a start gathers is in the chains, unless it was gathered before them. -/
lemma exists_chain (hr : r ∈ starts) (hn : n ∈ g.gathered r) (hnew : n ∉ before.flatMap g.gathered) :
    ∃ c ∈ g.chains before starts, n ∈ c.own := by
  induction starts generalizing before with
  | nil => simp at hr
  | cons q rest ih =>
    rw [chains_cons]
    by_cases hq : n ∈ g.gathered q
    · exact ⟨_, List.mem_cons_self, mem_own.mpr ⟨hq, hnew⟩⟩
    · have hr : r ∈ rest := (List.mem_cons.mp hr).resolve_left fun he => hq (he ▸ hn)
      have hnew : n ∉ (before ++ [q]).flatMap g.gathered := by
        rw [List.flatMap_append, List.flatMap_singleton, List.mem_append]
        exact not_or.mpr ⟨hnew, hq⟩
      obtain ⟨c, hc, hown⟩ := ih hr hnew
      exact ⟨c, List.mem_cons_of_mem _ hc, hown⟩

/-- A name is in one chain only. -/
lemma chain_unique (hc : c ∈ g.chains before starts) (hd : d ∈ g.chains before starts) (hn : n ∈ c.own)
    (hm : n ∈ d.own) : c = d := by
  induction starts generalizing before with
  | nil => simp [chains] at hc
  | cons q rest ih =>
    -- the chains after that of `q` leave out what `q` gathers
    have hlater : ∀ e ∈ g.chains (before ++ [q]) rest, n ∈ e.own → n ∉ (g.chainOf before q).own := by
      intro e he hne hnq
      obtain ⟨earlier, r, later, -, rfl⟩ := exists_of_mem_chains he
      exact (mem_own.mp hne).2 (List.mem_flatMap.mpr ⟨q, by simp, (mem_own.mp hnq).1⟩)
    rw [chains_cons, List.mem_cons] at hc hd
    rcases hc with rfl | hc <;> rcases hd with rfl | hd
    · rfl
    · exact absurd hn (hlater d hd hm)
    · exact absurd hm (hlater c hc hn)
    · exact ih hc hd

/-- A root is in its own chain. -/
lemma WellFormed.root_mem_own (h : g.WellFormed) (hc : c ∈ g.chains [] g.roots) :
    c.root ∈ g.roots ∧ c.root ∈ c.own := by
  obtain ⟨earlier, r, later, hroots, rfl⟩ := exists_of_mem_chains hc
  have hr : r ∈ g.roots := by simp [hroots]
  refine ⟨hr, mem_own.mpr ⟨List.mem_cons_self, fun hm => ?_⟩⟩
  rw [List.nil_append] at hm
  obtain ⟨b, hb, hrb⟩ := List.mem_flatMap.mp hm
  have hbroot : b ∈ g.roots := by simp [hroots, hb]
  obtain rfl := eq_of_reaches_root hr ((h.mem_gathered (root_mem_nodes hbroot)).mp hrb)
  have hdistinct : g.roots.Nodup := h.distinct.filter _
  rw [hroots, List.nodup_append] at hdistinct
  exact hdistinct.2.2 b hb b List.mem_cons_self rfl

/-- If the one free name of a chain is gathered by a root and the root of the chain is free, the two roots are
one: the root of the chain is that name, and no other root reaches it. -/
lemma WellFormed.root_eq_of_free (h : g.WellFormed) (hr : r ∈ g.roots) (hc : c ∈ g.chains [] g.roots)
    (hn : n ∈ g.gathered r) (honly : c.free claimed = [n]) (hfree : c.root ∉ claimed) : c.root = r := by
  obtain ⟨hroot, hown⟩ := h.root_mem_own hc
  have hname : c.root = n := List.mem_singleton.mp (honly ▸ Chain.mem_free.mpr ⟨hown, hfree⟩)
  have hreach : g.Reaches r c.root := (h.mem_gathered (root_mem_nodes hr)).mp (hname ▸ hn)
  exact (eq_of_reaches_root hroot hreach).symm

end CallGraph

namespace Searcher

variable {s : Searcher} {units : List AnalyzedUnit} {g : CallGraph} {claimed starts : List String}
  {groups : List GroupProposal} {cs : List Chain} {a b n r : String} {c d : Chain}

lemma flatMap_memberNames (h : List.Forall₂ (s.Makes units claimed) cs groups) :
    groups.flatMap GroupProposal.memberNames = cs.flatMap (·.free claimed) := by
  induction h with
  | nil => rfl
  | cons hp _ ih => rw [List.flatMap_cons, List.flatMap_cons, hp.memberNames, ih]

/-- The names that are claimed after the chains of some starts. -/
def claimedAfter (g : CallGraph) (claimed starts : List String) : List String :=
  claimed ++ ((g.chains [] starts).filter fun c => 2 ≤ (c.free claimed).length).flatMap (·.free claimed)

/-- A name of a chain is left if and only if it is the only free name of the chain. -/
lemma not_mem_claimedAfter (hc : c ∈ g.chains [] starts) (hn : n ∈ c.own) :
    n ∉ claimedAfter g claimed starts ↔ c.free claimed = [n] := by
  rw [claimedAfter, List.mem_append, not_or, List.mem_flatMap]
  constructor
  · rintro ⟨hfree, hnone⟩
    have hmem : n ∈ c.free claimed := Chain.mem_free.mpr ⟨hn, hfree⟩
    have hone : ¬ 2 ≤ (c.free claimed).length := fun htwo =>
      hnone ⟨c, List.mem_filter.mpr ⟨hc, by simpa using htwo⟩, hmem⟩
    have hlength : (c.free claimed).length = 1 := by
      have hpos := List.length_pos_of_mem hmem
      omega
    obtain ⟨m, hm⟩ := List.length_eq_one_iff.mp hlength
    rw [hm, List.mem_singleton] at hmem
    rw [hm, hmem]
  · intro honly
    have hmem : n ∈ c.free claimed := honly ▸ List.mem_singleton_self n
    refine ⟨(Chain.mem_free.mp hmem).2, ?_⟩
    rintro ⟨d, hd, hnd⟩
    obtain ⟨hd, htwo⟩ := List.mem_filter.mp hd
    obtain rfl := CallGraph.chain_unique hd hc (Chain.mem_free.mp hnd).1 hn
    simp [honly] at htwo

lemma leavesOne_own (hc : c ∈ g.chains [] starts) : LeavesOne c.own (claimedAfter g claimed starts) := by
  intro a ha b hb hfa hfb
  have hboth := ((not_mem_claimedAfter hc ha).mp hfa).symm.trans ((not_mem_claimedAfter hc hb).mp hfb)
  exact List.singleton_inj.mp hboth

/-- The two names are the only free names of the chains of two roots, and one of these roots is claimed. -/
def LeavesBoth (g : CallGraph) (claimed : List String) (a b : String) : Prop :=
  ∃ c ∈ g.chains [] g.roots, ∃ d ∈ g.chains [] g.roots, c.root ≠ d.root ∧
    (c.root ∈ claimed ∨ d.root ∈ claimed) ∧ c.free claimed = [a] ∧ d.free claimed = [b]

lemma left_iff_leavesBoth (h : g.WellFormed) (hr : r ∈ g.roots) (ha : a ∈ g.gathered r)
    (hb : b ∈ g.gathered r) (hab : a ≠ b) :
    (a ∉ claimedAfter g claimed g.roots ∧ b ∉ claimedAfter g claimed g.roots) ↔ LeavesBoth g claimed a b := by
  constructor
  · rintro ⟨hfa, hfb⟩
    have hnew : ∀ n, n ∉ [].flatMap g.gathered := fun n => List.not_mem_nil
    obtain ⟨c, hc, hac⟩ := CallGraph.exists_chain hr ha (hnew a)
    obtain ⟨d, hd, hbd⟩ := CallGraph.exists_chain hr hb (hnew b)
    rw [not_mem_claimedAfter hc hac] at hfa
    rw [not_mem_claimedAfter hd hbd] at hfb
    obtain ⟨hcroot, hcown⟩ := h.root_mem_own hc
    obtain ⟨hdroot, hdown⟩ := h.root_mem_own hd
    have hne : c.root ≠ d.root := fun he => by
      obtain rfl := CallGraph.chain_unique hc hd hcown (he ▸ hdown)
      exact hab (List.singleton_inj.mp (hfa.symm.trans hfb))
    refine ⟨c, hc, d, hd, hne, ?_, hfa, hfb⟩
    by_contra hfree
    rw [not_or] at hfree
    have hcr := h.root_eq_of_free hr hc ha hfa hfree.1
    have hdr := h.root_eq_of_free hr hd hb hfb hfree.2
    exact hne (hcr.trans hdr.symm)
  · rintro ⟨c, hc, d, hd, -, -, hfa, hfb⟩
    have hac : a ∈ c.own := (Chain.mem_free.mp (hfa ▸ List.mem_singleton_self a)).1
    have hbd : b ∈ d.own := (Chain.mem_free.mp (hfb ▸ List.mem_singleton_self b)).1
    exact ⟨(not_mem_claimedAfter hc hac).mpr hfa, (not_mem_claimedAfter hd hbd).mpr hfb⟩

/-- After the search for call chains no chain of a root has two free names. A root gathers two free names
exactly if they are the only free names of the chains of two roots, one of them claimed before; so if no
root was claimed before, no root gathers two. The least length of a shared name has to be a number. -/
theorem callChains_leave (s : Searcher) (units : List AnalyzedUnit) (claimed : List String)
    (hs : s.settings.groupNameMinPrefix.number?.isSome) : ∃ g groups,
      (CallGraph.build units).outcome = .ok g ∧
      let after := claimed ++ groups.flatMap GroupProposal.memberNames
      (s.callChains units g claimed).settle claimed = (.ok groups, after) ∧
      (∀ c ∈ g.chains [] g.roots, LeavesOne c.own after) ∧
      (∀ r ∈ g.roots, ∀ a ∈ g.gathered r, ∀ b ∈ g.gathered r, a ≠ b →
        (a ∉ after ∧ b ∉ after ↔ LeavesBoth g claimed a b)) ∧
      ((∀ r ∈ g.roots, r ∉ claimed) → ∀ r ∈ g.roots, LeavesOne (g.gathered r) after) := by
  have hg := CallGraph.over_ofUnits units
  have hwf := hg.wellFormed
  obtain ⟨groups, hsettle, hgroups⟩ := settle_callChains hs hg claimed
  refine ⟨.ofUnits units, groups, rfl, ?_⟩
  intro after
  have hafter : ∀ r ∈ (CallGraph.ofUnits units).roots,
      after = claimedAfter (.ofUnits units) claimed (CallGraph.ofUnits units).roots := fun r hr => by
    rw [← CallGraph.chainStarts_of_mem hr, claimedAfter, ← flatMap_memberNames hgroups]
  refine ⟨hsettle, fun c hc => ?_, fun r hr a ha b hb hab => ?_, fun hfree r hr a ha b hb hfa hfb => ?_⟩
  · rw [hafter _ (hwf.root_mem_own hc).1]
    exact leavesOne_own hc
  · rw [hafter r hr]
    exact left_iff_leavesBoth hwf hr ha hb hab
  · rw [hafter r hr] at hfa hfb
    by_contra hab
    obtain ⟨c, hc, d, hd, -, hclaimed, -, -⟩ := (left_iff_leavesBoth hwf hr ha hb hab).mp ⟨hfa, hfb⟩
    rcases hclaimed with hcr | hdr
    · exact hfree _ (hwf.root_mem_own hc).1 hcr
    · exact hfree _ (hwf.root_mem_own hd).1 hdr

/-- The second root is the only free unit of its chain, and it is left. -/
theorem callChains_leave_storms :
    let s : Searcher := ⟨default, {}⟩
    let claimed := ["Gust", "Wave", "Foam"]
    s.settings.groupNameMinPrefix.number?.isSome ∧
      ∃ g groups, (CallGraph.build storms).outcome = .ok g ∧
        let after := claimed ++ groups.flatMap GroupProposal.memberNames
        (s.callChains storms g claimed).settle claimed = (.ok groups, after) ∧
        (∀ r ∈ g.roots, LeavesOne (g.gathered r) after) ∧
        "Tide" ∈ g.roots ∧ "Tide" ∉ after := by
  intro s claimed
  have hs : s.settings.groupNameMinPrefix.number?.isSome := rfl
  obtain ⟨g, groups, hbuild, hsettle, -, -, hfree⟩ := callChains_leave s storms claimed hs
  refine ⟨hs, g, groups, hbuild, hsettle, ?_⟩
  obtain rfl : CallGraph.ofUnits storms = g := Except.ok.inj hbuild
  refine ⟨hfree (by decide +kernel), by decide +kernel, ?_⟩
  have hafter : _ = claimed ++ groups.flatMap GroupProposal.memberNames := congrArg Prod.snd hsettle
  rw [← hafter]
  decide +kernel

/-- Two roots that call one unit and nothing else. -/
def embers : List AnalyzedUnit :=
  [calling "Ash" ["Cinder"], calling "Bolt" ["Cinder"], calling "Cinder" []]

/-- The first root is claimed: it has gathered the unit that both call, and makes no group of it. The second
root is left alone with its call. -/
theorem callChains_leave_embers :
    let s : Searcher := ⟨default, {}⟩
    let g := CallGraph.ofUnits embers
    let after := ((s.callChains embers g ["Ash"]).settle ["Ash"]).2
    (names embers).Nodup ∧ (CallGraph.build embers).outcome = .ok g ∧ "Bolt" ∈ g.roots ∧
      ¬ LeavesOne (g.gathered "Bolt") after := by
  intro s g after
  refine ⟨by decide, rfl, by decide +kernel, fun hone => ?_⟩
  have hsame : "Bolt" = "Cinder" := hone "Bolt" (by decide +kernel) "Cinder" (by decide +kernel)
    (by decide +kernel) (by decide +kernel)
  simp at hsame

end Searcher

end SkillAtlas
