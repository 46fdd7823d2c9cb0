import Mathlib.Data.List.Nodup
import Mathlib.Data.List.Perm.Subperm
import SkillAtlas.Grouping.Proposal

/-!
# Families that share no unit

A search is sound when each family that it finds is drawn from the units that nothing before it has
claimed. `Drawn` says this of one family and `Apart` of all families of a search in turn. Settling a
sound search gives groups that are apart in the same way, and claims exactly the names of their members.
-/

namespace SkillAtlas

open AnalyzedUnit (names named? anyCase? unclaimed)

lemma AnalyzedUnit.named?_eq_some {units : List AnalyzedUnit} {n : String} {u : AnalyzedUnit}
    (h : named? units n = some u) : u ∈ units ∧ u.name = n := by
  unfold named? at h
  exact ⟨List.mem_reverse.mp (List.mem_of_find?_eq_some h), by simpa using List.find?_some h⟩

lemma AnalyzedUnit.anyCase?_eq_some {units : List AnalyzedUnit} {n : String} {u : AnalyzedUnit}
    (h : anyCase? units n = some u) : u ∈ units ∧ Text.lower u.name = Text.lower n := by
  unfold anyCase? at h
  exact ⟨List.mem_of_find?_eq_some h, by simpa using List.find?_some h⟩

lemma AnalyzedUnit.mem_unclaimed {claimed : List String} {units : List AnalyzedUnit} {u : AnalyzedUnit} :
    u ∈ unclaimed claimed units ↔ u ∈ units ∧ u.name ∉ claimed := by
  simp [unclaimed]

/-- The more is claimed, the less is free. -/
lemma AnalyzedUnit.unclaimed_subset {claimed now : List String} (h : claimed ⊆ now)
    (units : List AnalyzedUnit) : unclaimed now units ⊆ unclaimed claimed units := by
  intro u hu
  obtain ⟨hu, hfree⟩ := mem_unclaimed.mp hu
  exact mem_unclaimed.mpr ⟨hu, fun hc => hfree (h hc)⟩

lemma AnalyzedUnit.names_sublist {us vs : List AnalyzedUnit} (h : us.Sublist vs) :
    (names us).Sublist (names vs) :=
  h.map _

/-- The units found for some names bear some of these names, in their order. -/
lemma AnalyzedUnit.names_filterMap_named (units : List AnalyzedUnit) (ns : List String) :
    (names (ns.filterMap (named? units))).Sublist ns := by
  induction ns with
  | nil => exact List.Sublist.refl _
  | cons n rest ih =>
    cases h : named? units n with
    | none =>
      rw [List.filterMap_cons_none h]
      exact ih.cons n
    | some u =>
      rw [List.filterMap_cons_some h, names, List.map_cons, (named?_eq_some h).2]
      exact ih.cons_cons n

section AddMember

variable {claimed : List String} {members us : List AnalyzedUnit} {u : AnalyzedUnit}

/-- Members that join come after those that are there. -/
lemma foldl_addMember_eq_append (claimed : List String) (members us : List AnalyzedUnit) :
    ∃ more, us.foldl (addMember claimed) members = members ++ more ∧ ∀ u ∈ more, u ∈ us ∧ u.name ∉ claimed := by
  induction us generalizing members with
  | nil => exact ⟨[], (List.append_nil members).symm, by simp⟩
  | cons v rest ih =>
    have hlater : ∀ u ∈ rest, u ∈ v :: rest := fun u hu => List.mem_cons_of_mem v hu
    rw [List.foldl_cons, addMember]
    split
    · obtain ⟨more, hmore, hjoined⟩ := ih members
      exact ⟨more, hmore, fun u hu => (hjoined u hu).imp_left (hlater u)⟩
    · rename_i hv
      simp only [Bool.or_eq_true, List.contains_eq_mem, decide_eq_true_eq, not_or] at hv
      obtain ⟨more, hmore, hjoined⟩ := ih (members ++ [v])
      refine ⟨v :: more, by rw [hmore, List.append_assoc, List.singleton_append], ?_⟩
      exact List.forall_mem_cons.mpr
        ⟨⟨List.mem_cons_self, hv.1⟩, fun u hu => (hjoined u hu).imp_left (hlater u)⟩

lemma sublist_foldl_addMember : members.Sublist (us.foldl (addMember claimed) members) := by
  obtain ⟨more, hmore, -⟩ := foldl_addMember_eq_append claimed members us
  rw [hmore]
  exact List.sublist_append_left _ _

lemma mem_foldl_addMember (h : u ∈ us.foldl (addMember claimed) members) :
    u ∈ members ∨ u ∈ us ∧ u.name ∉ claimed := by
  obtain ⟨more, hmore, hjoined⟩ := foldl_addMember_eq_append claimed members us
  rw [hmore] at h
  exact (List.mem_append.mp h).imp_right (hjoined u)

/-- A unit that is free joins, unless a member has its name. -/
lemma name_mem_foldl_addMember (hu : u ∈ us) (hc : u.name ∉ claimed) :
    u.name ∈ names (us.foldl (addMember claimed) members) := by
  induction us generalizing members with
  | nil => simp at hu
  | cons v rest ih =>
    rw [List.foldl_cons]
    rcases List.mem_cons.mp hu with rfl | hu
    · have hjoins : u.name ∈ names (addMember claimed members u) := by
        unfold addMember
        split
        · simp_all
        · simp [names]
      exact (AnalyzedUnit.names_sublist sublist_foldl_addMember).subset hjoins
    · exact ih hu

lemma nodup_foldl_addMember (h : (names members).Nodup) :
    (names (us.foldl (addMember claimed) members)).Nodup := by
  induction us generalizing members with
  | nil => exact h
  | cons v rest ih =>
    rw [List.foldl_cons]
    apply ih
    unfold addMember
    split
    · exact h
    · rename_i hn
      simp only [Bool.or_eq_true, List.contains_eq_mem, decide_eq_true_eq, not_or] at hn
      rw [names, List.map_append, List.map_singleton, ← List.concat_eq_append]
      exact h.concat hn.2

end AddMember

/-- Two units at least, of different names, that are known and not claimed. -/
structure Drawn (units : List AnalyzedUnit) (claimed : List String) (members : List AnalyzedUnit) :
    Prop where
  two : 2 ≤ members.length
  distinct : (names members).Nodup
  known : ∀ u ∈ members, u ∈ units
  free : ∀ u ∈ members, u.name ∉ claimed

lemma Drawn.length_le {units members : List AnalyzedUnit} {claimed : List String}
    (h : Drawn units claimed members) : members.length ≤ units.length :=
  (List.subperm_of_subset (List.Nodup.of_map _ h.distinct) h.known).length_le

/-- Each family is drawn from what neither `claimed` nor an earlier family holds. -/
inductive Apart (units : List AnalyzedUnit) : List String → List (List AnalyzedUnit) → Prop where
  | nil (claimed : List String) : Apart units claimed []
  | cons {claimed : List String} {members : List AnalyzedUnit} {rest : List (List AnalyzedUnit)}
      (first : Drawn units claimed members) (others : Apart units (claimed ++ names members) rest) :
      Apart units claimed (members :: rest)

namespace Apart

variable {units : List AnalyzedUnit} {claimed : List String} {parts : List (List AnalyzedUnit)}

lemma append {more : List (List AnalyzedUnit)} (h : Apart units claimed parts)
    (hm : Apart units (claimed ++ names parts.flatten) more) : Apart units claimed (parts ++ more) := by
  induction h with
  | nil claimed => simpa [names] using hm
  | cons first others ih =>
    refine cons first (ih ?_)
    simpa [names, List.append_assoc] using hm

lemma two_le (h : Apart units claimed parts) : ∀ members ∈ parts, 2 ≤ members.length := by
  induction h with
  | nil => simp
  | cons first others ih => exact List.forall_mem_cons.mpr ⟨first.two, ih⟩

lemma mem_units (h : Apart units claimed parts) : ∀ u ∈ parts.flatten, u ∈ units := by
  induction h with
  | nil => simp
  | cons first others ih =>
    intro u hu
    rcases List.mem_append.mp hu with hu | hu
    · exact first.known u hu
    · exact ih u hu

lemma not_claimed (h : Apart units claimed parts) : ∀ u ∈ parts.flatten, u.name ∉ claimed := by
  induction h with
  | nil => simp
  | cons first others ih =>
    intro u hu
    rcases List.mem_append.mp hu with hu | hu
    · exact first.free u hu
    · exact fun hc => ih u hu (List.mem_append_left _ hc)

/-- No name occurs twice in families that are apart. -/
lemma nodup_names (h : Apart units claimed parts) : (names parts.flatten).Nodup := by
  induction h with
  | nil => simp [names]
  | cons first others ih =>
    rw [List.flatten_cons, names, List.map_append]
    refine List.nodup_append.mpr ⟨first.distinct, ih, fun a ha b hb hab => ?_⟩
    obtain ⟨v, hv, rfl⟩ := List.mem_map.mp hb
    exact others.not_claimed v hv (List.mem_append_right _ (hab ▸ ha))

end Apart

/-- The family becomes a group of one kind with the members of the family; it does when the searcher is
ready. -/
structure Family.Proposes (k : GroupKind) (ready : Prop) (f : Family) : Prop where
  faithful : ∀ p, f.proposal = .ok p → p.members = f.members ∧ p.kind = k
  worded : ready → ∃ p, f.proposal = .ok p

lemma Family.proposes_ofProposal {p : GroupProposal} {k : GroupKind} (hk : p.kind = k) (ready : Prop) :
    (Family.ofProposal p).Proposes k ready where
  faithful q hq := by
    obtain rfl : p = q := Except.ok.inj hq
    exact ⟨rfl, hk⟩
  worded _ := ⟨p, rfl⟩

/-- The families are apart and become groups of one kind. -/
structure Family.Sound (units : List AnalyzedUnit) (claimed : List String) (k : GroupKind) (ready : Prop)
    (fs : List Family) : Prop where
  apart : Apart units claimed (fs.map Family.members)
  proposes : ∀ f ∈ fs, f.Proposes k ready

namespace Family.Sound

variable {units : List AnalyzedUnit} {claimed : List String} {k : GroupKind} {ready : Prop}
  {fs : List Family}

lemma nil : Family.Sound units claimed k ready [] :=
  ⟨.nil _, by simp⟩

lemma cons {f : Family} (hd : Drawn units claimed f.members) (hp : f.Proposes k ready)
    (h : Family.Sound units (claimed ++ names f.members) k ready fs) :
    Family.Sound units claimed k ready (f :: fs) :=
  ⟨.cons hd h.apart, List.forall_mem_cons.mpr ⟨hp, h.proposes⟩⟩

lemma append {gs : List Family} (h : Family.Sound units claimed k ready fs)
    (hg : Family.Sound units (claimed ++ Family.claims fs) k ready gs) :
    Family.Sound units claimed k ready (fs ++ gs) := by
  have he : Family.claims fs = names (fs.map Family.members).flatten := by
    simp [Family.claims, names, List.flatMap_def, List.map_flatten, Function.comp_def]
  refine ⟨?_, fun f hf => (List.mem_append.mp hf).elim (h.proposes f) (hg.proposes f)⟩
  rw [List.map_append]
  exact h.apart.append (he ▸ hg.apart)

end Family.Sound

/-- The members of groups, group by group. -/
def GroupProposal.parts (ps : List GroupProposal) : List (List AnalyzedUnit) :=
  ps.map GroupProposal.members

/-- Groups that are apart, all of one kind, with the names that are claimed after them. -/
structure Settled (units : List AnalyzedUnit) (claimed : List String) (k : GroupKind)
    (ps : List GroupProposal) (after : List String) : Prop where
  apart : Apart units claimed (GroupProposal.parts ps)
  kind : ∀ p ∈ ps, p.kind = k
  claims : after = claimed ++ names (GroupProposal.parts ps).flatten

lemma Family.ofProposal_injective {p q : GroupProposal} (h : Family.ofProposal p = .ofProposal q) : p = q :=
  Except.ok.inj (congrArg Family.proposal h)

lemma Family.propose_nil_eq_ok {claimed after : List String} {ps : List GroupProposal} :
    Family.propose claimed [] = (.ok ps, after) ↔ ps = [] ∧ after = claimed := by
  simp [Family.propose, eq_comm]

/-- Groups come of families exactly if the first family is put into words and groups come of the others. -/
lemma Family.propose_cons_eq_ok {claimed after : List String} {f : Family} {rest : List Family}
    {ps : List GroupProposal} : Family.propose claimed (f :: rest) = (.ok ps, after) ↔
      ∃ p qs, f.proposal = .ok p ∧ Family.propose (claimed ++ names f.members) rest = (.ok qs, after) ∧
        ps = p :: qs := by
  simp only [Family.propose]
  cases hp : f.proposal with
  | error e => simp
  | ok p =>
    cases hr : Family.propose (claimed ++ names f.members) rest with
    | mk groups last =>
      cases groups with
      | error e => simp [Except.map]
      | ok qs =>
        simp only [Except.map, Prod.mk.injEq, Except.ok.injEq]
        constructor
        · rintro ⟨rfl, rfl⟩
          exact ⟨p, qs, rfl, ⟨rfl, rfl⟩, rfl⟩
        · rintro ⟨q, rs, rfl, ⟨rfl, rfl⟩, rfl⟩
          exact ⟨rfl, rfl⟩

/-- Groups made of sound families are apart, and claim the names of their members. -/
lemma Family.Sound.settled {units : List AnalyzedUnit} {claimed after : List String} {k : GroupKind}
    {ready : Prop} {fs : List Family} {ps : List GroupProposal}
    (h : Family.Sound units claimed k ready fs) (hp : Family.propose claimed fs = (.ok ps, after)) :
    Settled units claimed k ps after := by
  induction fs generalizing claimed ps with
  | nil =>
    obtain ⟨rfl, rfl⟩ := Family.propose_nil_eq_ok.mp hp
    exact ⟨.nil _, by simp, by simp [GroupProposal.parts, names]⟩
  | cons f rest ih =>
    obtain ⟨p, qs, hf, hr, rfl⟩ := Family.propose_cons_eq_ok.mp hp
    obtain ⟨hm, hk⟩ := (h.proposes f List.mem_cons_self).faithful p hf
    cases h.apart with
    | cons first others =>
      have hs := ih ⟨others, fun g hg => h.proposes g (List.mem_cons_of_mem f hg)⟩ hr
      refine ⟨?_, List.forall_mem_cons.mpr ⟨hk, hs.kind⟩, ?_⟩
      · exact .cons (hm ▸ first) (hm ▸ hs.apart)
      · rw [hs.claims]
        simp [GroupProposal.parts, names, hm]

lemma Family.propose_eq_ok {fs : List Family} (claimed : List String)
    (h : ∀ f ∈ fs, ∃ p, f.proposal = .ok p) :
    ∃ ps after, Family.propose claimed fs = (.ok ps, after) := by
  induction fs generalizing claimed with
  | nil => exact ⟨[], claimed, rfl⟩
  | cons f rest ih =>
    obtain ⟨p, hf⟩ := h f List.mem_cons_self
    obtain ⟨ps, after, hrest⟩ := ih (claimed ++ names f.members)
      fun g hg => h g (List.mem_cons_of_mem f hg)
    exact ⟨p :: ps, after, Family.propose_cons_eq_ok.mpr ⟨p, ps, hf, hrest, rfl⟩⟩

/-- A search is sound if its families are, and if it gives families when the searcher is ready. -/
structure Detection.Sound (units : List AnalyzedUnit) (claimed : List String) (k : GroupKind)
    (ready : Prop) (d : Detection) : Prop where
  families : ∀ fs, d.families = .ok fs → Family.Sound units claimed k ready fs
  answers : ready → ∃ fs, d.families = .ok fs

lemma Detection.exists_propose_of_settle {d : Detection} {claimed after : List String} {ps : List GroupProposal}
    (h : d.settle claimed = (.ok ps, after)) :
    ∃ fs, d.families = .ok fs ∧ Family.propose claimed fs = (.ok ps, after) := by
  unfold Detection.settle at h
  cases hf : d.families with
  | error e => simp [hf] at h
  | ok fs =>
    rw [hf] at h
    exact ⟨fs, rfl, h⟩

namespace Detection.Sound

variable {units : List AnalyzedUnit} {claimed after : List String} {k : GroupKind} {ready : Prop}
  {d : Detection} {ps : List GroupProposal}

lemma of_ok {fs : List Family} (hd : d.families = .ok fs) (h : Family.Sound units claimed k ready fs) :
    d.Sound units claimed k ready where
  families gs hg := by
    obtain rfl : fs = gs := Except.ok.inj (hd.symm.trans hg)
    exact h
  answers _ := ⟨fs, hd⟩

lemma settled (h : d.Sound units claimed k ready) (hs : d.settle claimed = (.ok ps, after)) :
    Settled units claimed k ps after := by
  obtain ⟨fs, hf, hpropose⟩ := Detection.exists_propose_of_settle hs
  exact (h.families fs hf).settled hpropose

lemma settle_eq_ok (h : d.Sound units claimed k ready) (hr : ready) :
    ∃ ps after, d.settle claimed = (.ok ps, after) := by
  obtain ⟨fs, hfs⟩ := h.answers hr
  unfold Detection.settle
  rw [hfs]
  exact Family.propose_eq_ok claimed fun f hf => ((h.families fs hfs).proposes f hf).worded hr

end Detection.Sound

end SkillAtlas
