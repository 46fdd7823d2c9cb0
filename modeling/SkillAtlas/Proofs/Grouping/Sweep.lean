import SkillAtlas.Proofs.Grouping.Family

/-!
# Searches that go through a list once

The searches by name go through units, or through families of names. At its turn an item may give a family
in view of the names that are claimed by then, and the family claims its own names. Names are never freed.
So what is free in the end was free at every turn, and no item could then give a family that holds it.
-/

namespace SkillAtlas

open AnalyzedUnit (names unclaimed)

/-- A list with two different members has two places. -/
lemma two_le_length {α : Type} {xs : List α} {a b : α} (ha : a ∈ xs) (hb : b ∈ xs) (hab : a ≠ b) :
    2 ≤ xs.length := by
  have hsubset : [a, b] ⊆ xs := by simp [ha, hb]
  exact (List.subperm_of_subset (by simpa using hab) hsubset).length_le

section Sweep

variable {α : Type} {find : List String → α → Option Family} {claimed now after mid : List String}
  {x : α} {xs : List α} {f : Family} {fs gs : List Family} {p : GroupProposal} {ps qs : List GroupProposal}

/-- The families that some items give in turn. -/
def sweep (find : List String → α → Option Family) (claimed : List String) : List α → List Family
  | [] => []
  | x :: rest => match find claimed x with
    | none => sweep find claimed rest
    | some f => f :: sweep find (claimed ++ names f.members) rest

lemma sweep_of_none {rest : List α} (h : find claimed x = none) :
    sweep find claimed (x :: rest) = sweep find claimed rest := by
  rw [sweep, h]

lemma sweep_of_some {rest : List α} (h : find claimed x = some f) :
    sweep find claimed (x :: rest) = f :: sweep find (claimed ++ names f.members) rest := by
  rw [sweep, h]

/-- The family of the units that are gathered for an item, of which there have to be two. -/
def gathered (gather : List String → α → List AnalyzedUnit)
    (propose : α → List AnalyzedUnit → Except Fault GroupProposal) (claimed : List String) (x : α) :
    Option Family :=
  let members := gather claimed x
  if members.length < 2 then none else some ⟨members, propose x members⟩

section Gathered

variable {gather : List String → α → List AnalyzedUnit}
  {propose : α → List AnalyzedUnit → Except Fault GroupProposal} {a b : AnalyzedUnit}

lemma gathered_eq_some (h : gathered gather propose claimed x = some f) :
    f = ⟨gather claimed x, propose x (gather claimed x)⟩ := by
  unfold gathered at h
  dsimp only at h
  split at h
  · simp at h
  · exact (Option.some.inj h).symm

lemma two_le_of_gathered (h : gathered gather propose claimed x = some f) : 2 ≤ f.members.length := by
  unfold gathered at h
  dsimp only at h
  split at h
  · simp at h
  · obtain rfl := Option.some.inj h
    exact Nat.not_lt.mp ‹_›

/-- Two different units are enough. -/
lemma exists_gathered (ha : a ∈ gather claimed x) (hb : b ∈ gather claimed x) (hab : a ≠ b) :
    ∃ f, gathered gather propose claimed x = some f ∧ f.members = gather claimed x :=
  ⟨_, if_neg (Nat.not_lt.mpr (two_le_length ha hb hab)), rfl⟩

end Gathered

/-- Every item gives families that become groups with their members. -/
def Faithful (find : List String → α → Option Family) : Prop :=
  ∀ now x f, find now x = some f → ∀ p, f.proposal = .ok p → p.members = f.members

/-- Every item gives families whose proposals cannot fail. -/
def Unfailing (find : List String → α → Option Family) : Prop :=
  ∀ now x f, find now x = some f → ∃ p, f = .ofProposal p

lemma Unfailing.faithful (h : Unfailing find) : Faithful find := by
  intro now x f hf p hp
  obtain ⟨q, rfl⟩ := h now x f hf
  exact congrArg GroupProposal.members (Except.ok.inj hp).symm

/-- The groups that came of some items in turn. -/
structure Swept (find : List String → α → Option Family) (xs : List α) (claimed after : List String)
    (ps : List GroupProposal) : Prop where
  claims : after = claimed ++ ps.flatMap GroupProposal.memberNames
  /-- a group was given by an item at its turn -/
  origin : ∀ p ∈ ps, ∃ x ∈ xs, ∃ now f, claimed ⊆ now ∧ now ⊆ after ∧ find now x = some f ∧
    f.proposal = .ok p
  /-- an item had its turn, and what it gave then is claimed in the end -/
  turn : ∀ x ∈ xs, ∃ now, claimed ⊆ now ∧ now ⊆ after ∧ ∀ f, find now x = some f → names f.members ⊆ after

namespace Swept

lemma mem_after (h : Swept find xs claimed after ps) (hp : p ∈ ps) : p.memberNames ⊆ after := by
  rw [h.claims]
  exact fun n hn => List.mem_append_right _ (List.mem_flatMap.mpr ⟨p, hp, hn⟩)

lemma claimed_subset (h : Swept find xs claimed after ps) : claimed ⊆ after := by
  rw [h.claims]
  exact List.subset_append_left _ _

/-- What is left was free from the start. -/
lemma left (h : Swept find xs claimed after ps) {units : List AnalyzedUnit} {u : AnalyzedUnit}
    (hu : u ∈ unclaimed after units) : u ∈ unclaimed claimed units ∧ u.name ∉ after :=
  ⟨AnalyzedUnit.unclaimed_subset h.claimed_subset units hu, (AnalyzedUnit.mem_unclaimed.mp hu).2⟩

/-- If proposals cannot fail, a group was proposed by an item at its turn. -/
lemma proposed (h : Swept find xs claimed after ps) (hfind : Unfailing find) (hp : p ∈ ps) :
    ∃ x ∈ xs, ∃ now, claimed ⊆ now ∧ now ⊆ after ∧ find now x = some (.ofProposal p) := by
  obtain ⟨x, hx, now, f, hclaimed, hnow, hf, hfp⟩ := h.origin p hp
  obtain ⟨q, rfl⟩ := hfind now x f hf
  obtain rfl : q = p := Except.ok.inj hfp
  exact ⟨x, hx, now, hclaimed, hnow, hf⟩

lemma nil (find : List String → α → Option Family) (claimed : List String) :
    Swept find [] claimed claimed [] where
  claims := by simp
  origin := by simp
  turn := by simp

/-- An item that gives nothing. -/
lemma pass (h : Swept find xs claimed after ps) (hx : find claimed x = none) :
    Swept find (x :: xs) claimed after ps where
  claims := h.claims
  origin p hp := by
    obtain ⟨y, hy, hgave⟩ := h.origin p hp
    exact ⟨y, List.mem_cons_of_mem x hy, hgave⟩
  turn := by
    refine List.forall_mem_cons.mpr ⟨⟨claimed, List.Subset.refl _, h.claimed_subset, ?_⟩, h.turn⟩
    simp [hx]

/-- An item that gives a family. -/
lemma take (h : Swept find xs (claimed ++ names f.members) after ps) (hx : find claimed x = some f)
    (hp : f.proposal = .ok p) (hm : p.members = f.members) : Swept find (x :: xs) claimed after (p :: ps) where
  claims := by
    rw [h.claims, List.flatMap_cons, GroupProposal.memberNames, hm, List.append_assoc]
  origin := by
    have hsubset : claimed ⊆ after := List.Subset.trans (List.subset_append_left _ _) h.claimed_subset
    refine List.forall_mem_cons.mpr ⟨?_, fun q hq => ?_⟩
    · exact ⟨x, List.mem_cons_self, claimed, f, List.Subset.refl _, hsubset, hx, hp⟩
    obtain ⟨y, hy, now, g, hnow, hgave⟩ := h.origin q hq
    exact ⟨y, List.mem_cons_of_mem x hy, now, g, List.Subset.trans (List.subset_append_left _ _) hnow, hgave⟩
  turn := by
    have hsubset : claimed ⊆ after := List.Subset.trans (List.subset_append_left _ _) h.claimed_subset
    refine List.forall_mem_cons.mpr ⟨⟨claimed, List.Subset.refl _, hsubset, fun g hg => ?_⟩, fun y hy => ?_⟩
    · obtain rfl : f = g := Option.some.inj (hx.symm.trans hg)
      exact List.Subset.trans (List.subset_append_right _ _) h.claimed_subset
    · obtain ⟨now, hnow, hrest⟩ := h.turn y hy
      exact ⟨now, List.Subset.trans (List.subset_append_left _ _) hnow, hrest⟩

end Swept

/-- The groups of a sweep come of its items in turn. The induction is on the items. -/
lemma swept_of_propose (hf : Faithful find)
    (h : Family.propose claimed (sweep find claimed xs) = (.ok ps, after)) : Swept find xs claimed after ps := by
  induction xs generalizing claimed ps with
  | nil =>
    obtain ⟨rfl, rfl⟩ := Family.propose_nil_eq_ok.mp h
    exact Swept.nil find after
  | cons x rest ih =>
    cases hx : find claimed x with
    | none =>
      rw [sweep_of_none hx] at h
      exact (ih h).pass hx
    | some f =>
      rw [sweep_of_some hx] at h
      obtain ⟨p, qs, hp, hrest, rfl⟩ := Family.propose_cons_eq_ok.mp h
      exact (ih hrest).take hx hp (hf claimed x f hx p hp)

/-- A sweep gives groups if proposals cannot fail. -/
lemma exists_swept (hfind : Unfailing find) (claimed : List String) (xs : List α) : ∃ ps after,
    Family.propose claimed (sweep find claimed xs) = (.ok ps, after) ∧ Swept find xs claimed after ps := by
  have hall : ∀ f ∈ sweep find claimed xs, ∃ p, f.proposal = .ok p := by
    induction xs generalizing claimed with
    | nil => simp [sweep]
    | cons x rest ih =>
      cases hx : find claimed x with
      | none =>
        rw [sweep_of_none hx]
        exact ih claimed
      | some f =>
        obtain ⟨p, rfl⟩ := hfind claimed x f hx
        rw [sweep_of_some hx]
        exact List.forall_mem_cons.mpr ⟨⟨p, rfl⟩, ih _⟩
  obtain ⟨ps, after, hpropose⟩ := Family.propose_eq_ok claimed hall
  exact ⟨ps, after, hpropose, swept_of_propose hfind.faithful hpropose⟩

lemma Family.claims_of_propose (h : Family.propose claimed fs = (.ok ps, after)) :
    after = claimed ++ Family.claims fs := by
  induction fs generalizing claimed ps with
  | nil =>
    obtain ⟨-, rfl⟩ := Family.propose_nil_eq_ok.mp h
    exact (List.append_nil after).symm
  | cons f rest ih =>
    obtain ⟨p, qs, -, hrest, -⟩ := Family.propose_cons_eq_ok.mp h
    rw [ih hrest, Family.claims, Family.claims, List.flatMap_cons, List.append_assoc]

lemma Family.propose_append (hfs : Family.propose claimed fs = (.ok ps, mid))
    (hgs : Family.propose mid gs = (.ok qs, after)) :
    Family.propose claimed (fs ++ gs) = (.ok (ps ++ qs), after) := by
  induction fs generalizing claimed ps with
  | nil =>
    obtain ⟨rfl, rfl⟩ := Family.propose_nil_eq_ok.mp hfs
    exact hgs
  | cons f rest ih =>
    obtain ⟨p, rs, hp, hrest, rfl⟩ := Family.propose_cons_eq_ok.mp hfs
    exact Family.propose_cons_eq_ok.mpr ⟨p, rs ++ qs, hp, ih hrest, rfl⟩

end Sweep

end SkillAtlas
