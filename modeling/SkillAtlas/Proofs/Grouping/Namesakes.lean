import SkillAtlas.Proofs.Grouping.Partition

/-!
# Units that share a name

Groups are told apart by the names that they claim, and two units may have one name. Then a family may
leave out a unit whose name it claims, and that unit does not stand alone either. But no unit is handed out
twice, and a unit is left out only for the sake of a namesake that is in a group.
-/

namespace SkillAtlas

open AnalyzedUnit (names unclaimed)

section Handed

variable {units members : List AnalyzedUnit} {claimed : List String} {parts : List (List AnalyzedUnit)}

/-- Each family is made of units whose names neither `claimed` nor an earlier family claims, each unit at
most as often as it occurs. -/
inductive Handed (units : List AnalyzedUnit) : List String → List (List AnalyzedUnit) → Prop where
  | nil (claimed : List String) : Handed units claimed []
  | cons {claimed : List String} {members : List AnalyzedUnit} {rest : List (List AnalyzedUnit)}
      (first : members.Subperm (unclaimed claimed units))
      (others : Handed units (claimed ++ names members) rest) : Handed units claimed (members :: rest)

lemma Drawn.subperm (h : Drawn units claimed members) : members.Subperm (unclaimed claimed units) :=
  List.subperm_of_subset (List.Nodup.of_map _ h.distinct) fun u hu =>
    AnalyzedUnit.mem_unclaimed.mpr ⟨h.known u hu, h.free u hu⟩

lemma Apart.handed (h : Apart units claimed parts) : Handed units claimed parts := by
  induction h with
  | nil claimed => exact .nil claimed
  | cons first others ih => exact .cons first.subperm ih

lemma Handed.append {more : List (List AnalyzedUnit)} (h : Handed units claimed parts)
    (hm : Handed units (claimed ++ names parts.flatten) more) : Handed units claimed (parts ++ more) := by
  induction h with
  | nil claimed => simpa [names] using hm
  | cons first others ih =>
    refine .cons first (ih ?_)
    simpa [names, List.append_assoc] using hm

lemma AnalyzedUnit.unclaimed_append (claimed more : List String) (units : List AnalyzedUnit) :
    unclaimed (claimed ++ more) units = unclaimed more (unclaimed claimed units) := by
  simp only [unclaimed, List.filter_filter, List.contains_append, Bool.not_or, Bool.and_comm]

/-- A family and the units whose names it leaves free are not more than the units it was drawn from. -/
lemma subperm_append_unclaimed {free : List AnalyzedUnit} (h : members.Subperm free) :
    (members ++ unclaimed (names members) free).Subperm free := by
  let p : AnalyzedUnit → Bool := fun u => (names members).contains u.name
  have hself : members.filter p = members := by
    refine List.filter_eq_self.mpr fun u hu => ?_
    have hm : u.name ∈ names members := List.mem_map_of_mem hu
    simpa [p] using hm
  have hmembers : members.Subperm (free.filter p) := hself ▸ h.filter p
  have hsplit : (free.filter p ++ unclaimed (names members) free).Perm free :=
    List.filter_append_perm p free
  exact (hmembers.append (List.Subperm.refl _)).trans hsplit.subperm

/-- What was handed out and what is free in the end are not more than what was free at the start. -/
lemma Handed.subperm (h : Handed units claimed parts) :
    (parts.flatten ++ unclaimed (claimed ++ names parts.flatten) units).Subperm
      (unclaimed claimed units) := by
  induction h with
  | nil claimed =>
    simp only [List.flatten_nil, names, List.map_nil, List.append_nil, List.nil_append]
    exact List.Subperm.refl _
  | @cons claimed members rest first others ih =>
    have hnames : claimed ++ names (members :: rest).flatten =
        claimed ++ names members ++ names rest.flatten := by
      simp [names, List.append_assoc]
    rw [hnames, List.flatten_cons, List.append_assoc]
    refine ((List.Subperm.refl members).append ih).trans ?_
    rw [AnalyzedUnit.unclaimed_append]
    exact subperm_append_unclaimed first

end Handed

/-- The families are handed out in turn, and become groups with their members. -/
structure Family.Handed (units : List AnalyzedUnit) (claimed : List String) (fs : List Family) : Prop where
  handed : SkillAtlas.Handed units claimed (fs.map Family.members)
  faithful : ∀ f ∈ fs, ∀ p, f.proposal = .ok p → p.members = f.members

/-- Whatever the search finds is handed out. -/
def Detection.Hands (units : List AnalyzedUnit) (claimed : List String) (d : Detection) : Prop :=
  ∀ fs, d.families = .ok fs → Family.Handed units claimed fs

section Hands

variable {units : List AnalyzedUnit} {claimed after : List String} {fs : List Family}
  {ps : List GroupProposal} {d : Detection}

lemma Family.Handed.nil : Family.Handed units claimed [] :=
  ⟨.nil claimed, by simp⟩

lemma Family.Handed.cons {p : GroupProposal} (hp : p.members.Subperm (unclaimed claimed units))
    (h : Family.Handed units (claimed ++ names p.members) fs) :
    Family.Handed units claimed (Family.ofProposal p :: fs) := by
  refine ⟨.cons hp h.handed, List.forall_mem_cons.mpr ⟨fun q hq => ?_, h.faithful⟩⟩
  obtain rfl : p = q := Except.ok.inj hq
  rfl

lemma Family.Sound.handed {k : GroupKind} {ready : Prop} (h : Family.Sound units claimed k ready fs) :
    Family.Handed units claimed fs :=
  ⟨h.apart.handed, fun f hf p hp => ((h.proposes f hf).faithful p hp).1⟩

lemma Detection.Sound.hands {k : GroupKind} {ready : Prop} (h : d.Sound units claimed k ready) :
    d.Hands units claimed :=
  fun fs hfs => (h.families fs hfs).handed

/-- Groups have the members of the families of which they are made, and claim their names. -/
lemma Family.parts_of_propose (hm : ∀ f ∈ fs, ∀ p, f.proposal = .ok p → p.members = f.members)
    (hp : Family.propose claimed fs = (.ok ps, after)) :
    GroupProposal.parts ps = fs.map Family.members ∧
      after = claimed ++ names (fs.map Family.members).flatten := by
  induction fs generalizing claimed ps with
  | nil =>
    obtain ⟨rfl, rfl⟩ := Family.propose_nil_eq_ok.mp hp
    exact ⟨rfl, by simp [names]⟩
  | cons f rest ih =>
    obtain ⟨hf, hrest⟩ := List.forall_mem_cons.mp hm
    obtain ⟨p, qs, he, hr, rfl⟩ := Family.propose_cons_eq_ok.mp hp
    obtain ⟨hparts, hafter⟩ := ih hrest hr
    constructor
    · exact congrArg₂ List.cons (hf p he) hparts
    · rw [hafter]
      simp [names, List.append_assoc]

lemma Detection.Hands.settle (h : d.Hands units claimed) (hs : d.settle claimed = (.ok ps, after)) :
    SkillAtlas.Handed units claimed (GroupProposal.parts ps) ∧
      after = claimed ++ names (GroupProposal.parts ps).flatten := by
  obtain ⟨fs, hf, hpropose⟩ := Detection.exists_propose_of_settle hs
  obtain ⟨hparts, hafter⟩ := Family.parts_of_propose (h fs hf).faithful hpropose
  rw [hparts]
  exact ⟨(h fs hf).handed, hafter⟩

end Hands

/-- The groups so far are handed out, and the claimed names are those of their members. -/
structure Progress.Hands (units : List AnalyzedUnit) (p : Progress) : Prop where
  handed : Handed units [] (GroupProposal.parts p.groups)
  claims : p.claimed = names (GroupProposal.parts p.groups).flatten

namespace Searcher

variable {s : Searcher} {units : List AnalyzedUnit} {claimed : List String} {g : CallGraph}
  {p q : Progress}

lemma documentPrefix_hands (s : Searcher) (units : List AnalyzedUnit) (claimed : List String) :
    (s.documentPrefix units claimed).Hands units claimed := by
  intro fs hfs
  unfold documentPrefix documentStartFor at hfs
  dsimp only at hfs
  split at hfs
  · obtain rfl := Except.ok.inj hfs
    exact .nil
  · split at hfs
    · simp at hfs
    · split at hfs
      · obtain rfl := Except.ok.inj hfs
        exact .nil
      · split at hfs
        · obtain rfl := Except.ok.inj hfs
          exact .nil
        · obtain rfl := Except.ok.inj hfs
          exact .cons (List.Subperm.refl _) .nil

lemma suffixGroups_handed {remaining : List AnalyzedUnit} (hk : remaining.Sublist units)
    (families : List (String × List String)) :
    Family.Handed units claimed (s.suffixGroups remaining claimed families) := by
  induction families generalizing claimed with
  | nil => exact .nil
  | cons family rest ih =>
    unfold suffixGroups
    dsimp only
    split
    · exact ih
    · refine .cons ?_ ih
      exact ((List.filter_sublist.trans hk).filter _).subperm

lemma residualSuffixes_hands (s : Searcher) (units : List AnalyzedUnit) (claimed : List String) :
    (s.residualSuffixes units claimed).Hands units claimed := by
  intro fs hfs
  obtain rfl := Except.ok.inj hfs
  exact suffixGroups_handed List.filter_sublist _

/-- One search more. -/
lemma hands_of_advance {find : List String → Detection} (hf : ∀ claimed, (find claimed).Hands units claimed)
    (hp : p.Hands units) (h : (advance find p).outcome = .ok q) : q.Hands units := by
  obtain ⟨ps, hs, hgroups⟩ := exists_settle_of_advance h
  obtain ⟨hhanded, hafter⟩ := (hf p.claimed).settle hs
  have hparts : GroupProposal.parts q.groups =
      GroupProposal.parts p.groups ++ GroupProposal.parts ps := by
    rw [hgroups]
    exact List.map_append
  constructor
  · rw [hparts]
    refine hp.handed.append ?_
    rw [List.nil_append, ← hp.claims]
    exact hhanded
  · rw [hafter, hp.claims, hparts, List.flatten_append]
    exact List.map_append.symm

lemma hands_of_search {kind : Search} {find : List String → Detection}
    (hf : ∀ claimed, (find claimed).Hands units claimed) (hp : p.Hands units)
    (h : (search kind find p).outcome = .ok q) : q.Hands units :=
  hands_of_advance hf hp (search_outcome kind find p ▸ h)

lemma hands_of_secondSearch {kind : ContextKind} (hp : p.Hands units)
    (h : (s.secondSearch units kind p).outcome = .ok q) : q.Hands units := by
  unfold secondSearch at h
  cases kind with
  | mob => exact hands_of_search (fun claimed => (s.variantFamilies_sound units claimed).hands) hp h
  | skillFile =>
    dsimp only at h
    split at h
    · exact hands_of_search (s.documentPrefix_hands units) hp h
    · obtain rfl := Except.ok.inj h
      exact hp

lemma hands_of_lastSearch {kind : ContextKind} (hp : p.Hands units)
    (h : (s.lastSearch units kind p).outcome = .ok q) : q.Hands units := by
  cases kind with
  | mob =>
    obtain rfl := Except.ok.inj h
    exact hp
  | skillFile =>
    obtain ⟨m, hm, hq⟩ := lastSearch_skillFile_eq_ok.mp h
    have hhands := hands_of_advance (fun claimed => (s.residualPrefixes_sound units claimed).hands) hp hm
    exact hands_of_advance (s.residualSuffixes_hands units) hhands hq

lemma hands_of_synthesize {kind : ContextKind} {r : Grouping}
    (h : (s.synthesize units g kind).outcome = .ok r) :
    ∃ p : Progress, p.Hands units ∧ r = ⟨p.groups, unclaimed p.claimed units⟩ := by
  obtain ⟨p, q, m, t, hrun, rfl⟩ := exists_run_of_synthesize h
  have hfirst : p.Hands units := hands_of_search
    (fun claimed => (s.lifecycleFamilies_sound units claimed).hands) ⟨.nil [], rfl⟩ hrun.lifecycle
  have hsecond := hands_of_secondSearch hfirst hrun.second
  have hchains : m.Hands units := hands_of_search
    (fun claimed => (s.callChains_sound units g claimed).hands) hsecond hrun.chains
  exact ⟨t, hands_of_lastSearch hchains hrun.last, rfl⟩

end Searcher

/-- The groups and what stands alone are not more than the units, and a unit that is not among them has a
namesake in a group. -/
structure Grouping.Accounts (units : List AnalyzedUnit) (r : Grouping) : Prop where
  atMostOnce : (r.groups.flatMap GroupProposal.members ++ r.standalone).Subperm units
  inOrder : r.standalone.Sublist units
  namesake : ∀ u ∈ units, u ∈ r.standalone ∨
    ∃ v ∈ r.groups.flatMap GroupProposal.members, v.name = u.name

lemma Searcher.accounts_of_synthesize {s : Searcher} {units : List AnalyzedUnit} {g : CallGraph}
    {kind : ContextKind} {r : Grouping} (h : (s.synthesize units g kind).outcome = .ok r) :
    r.Accounts units := by
  obtain ⟨p, hp, rfl⟩ := hands_of_synthesize h
  have hflat : (GroupProposal.parts p.groups).flatten = p.groups.flatMap GroupProposal.members := by
    rw [List.flatMap_def, GroupProposal.parts]
  constructor
  · have hsub := hp.handed.subperm
    rw [List.nil_append, ← hp.claims, hflat] at hsub
    exact hsub.trans List.filter_sublist.subperm
  · exact List.filter_sublist
  · intro u hu
    by_cases hc : u.name ∈ p.claimed
    · rw [hp.claims, hflat] at hc
      obtain ⟨v, hv, he⟩ := List.mem_map.mp hc
      exact Or.inr ⟨v, hv, he⟩
    · exact Or.inl (AnalyzedUnit.mem_unclaimed.mpr ⟨hu, hc⟩)

/-- Where no two units share a name none is missing. -/
lemma Grouping.Accounts.perm {units : List AnalyzedUnit} {r : Grouping} (hn : (names units).Nodup)
    (h : r.Accounts units) : (r.groups.flatMap GroupProposal.members ++ r.standalone).Perm units := by
  refine h.atMostOnce.antisymm (List.subperm_of_subset (List.Nodup.of_map _ hn) fun u hu => ?_)
  rcases h.namesake u hu with ha | ⟨v, hv, he⟩
  · exact List.mem_append_right _ ha
  · have hvu : v ∈ units := h.atMostOnce.subset (List.mem_append_left _ hv)
    obtain rfl : v = u := List.inj_on_of_nodup_map hn hvu hu he
    exact List.mem_append_left _ hv

end SkillAtlas
