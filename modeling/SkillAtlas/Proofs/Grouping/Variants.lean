import SkillAtlas.Grouping.Variant
import SkillAtlas.Proofs.Grouping.Sweep
import SkillAtlas.Proofs.Text.Pieces

/-!
# What the search for variants leaves

The first variant that finds a base gathers all free variants that may derive from the base. So a variant
that is left derives from the base of no group, and it has no other free unit as its base.
-/

namespace SkillAtlas

open AnalyzedUnit (names anyCase? unclaimed)
open Naming (isVariant variantBases)

namespace Vocabulary

/-- The name holds the marker of variants, ignoring case. -/
def Marks (v : Vocabulary) (name : String) : Prop :=
  (Text.lower v.variantMarker).toList <:+: (Text.lower name).toList

/-- One of the bases that the name tells is the other name, ignoring case. -/
def Derives (v : Vocabulary) (name base : String) : Prop :=
  ∃ n ∈ variantBases v name, Text.lower n = Text.lower base

lemma isVariant_iff {v : Vocabulary} {name : String} : isVariant v name = true ↔ v.Marks name :=
  Text.contains_iff

end Vocabulary

namespace Searcher

variable {s : Searcher} {units us : List AnalyzedUnit} {claimed : List String} {u w base : AnalyzedUnit}
  {f : Family} {p : GroupProposal} {n : String}

/-- What a unit gives at its turn: a family, if it is a free variant with a base. -/
def variantTurn (s : Searcher) (units : List AnalyzedUnit) (claimed : List String) (u : AnalyzedUnit) :
    Option Family :=
  if claimed.contains u.name || !isVariant s.vocabulary u.name then none else s.variantFamily? units claimed u

lemma families_variantFamiliesFrom (s : Searcher) (units : List AnalyzedUnit) (claimed : List String)
    (us : List AnalyzedUnit) : Encounter.families (s.variantFamiliesFrom units claimed us) =
      sweep (s.variantTurn units) claimed us := by
  induction us generalizing claimed with
  | nil => rfl
  | cons u rest ih =>
    rw [variantFamiliesFrom, sweep, variantTurn]
    split
    · exact ih claimed
    · cases hf : s.variantFamily? units claimed u with
      | none => exact ih claimed
      | some f => exact congrArg (f :: ·) (ih _)

lemma derivesFrom_iff : s.derivesFrom base w = true ↔
    s.vocabulary.Marks w.name ∧ s.vocabulary.Derives w.name base.name := by
  simp only [derivesFrom, Bool.and_eq_true, Vocabulary.isVariant_iff, List.any_eq_true, beq_iff_eq,
    Vocabulary.Derives]

lemma variantBase?_eq_none (h : s.variantBase? units claimed u = none)
    (hn : n ∈ variantBases s.vocabulary u.name) (hw : anyCase? units n = some w) (hfree : w.name ∉ claimed) :
    w.name = u.name := by
  have hnone := List.findSome?_eq_none_iff.mp h n hn
  rw [hw, Option.filter_eq_none_iff] at hnone
  by_contra hne
  simpa [hne, hfree] using hnone w rfl

lemma variantBase?_eq_some (h : s.variantBase? units claimed u = some base) :
    s.vocabulary.Derives u.name base.name := by
  obtain ⟨n, hn, hbase⟩ := List.exists_of_findSome?_eq_some h
  obtain ⟨hfound, -⟩ := Option.filter_eq_some_iff.mp hbase
  exact ⟨n, hn, (AnalyzedUnit.anyCase?_eq_some hfound).2.symm⟩

/-- The family is a base with variants that derive from it, among them all of the units that are free. -/
structure VariantsOf (s : Searcher) (units : List AnalyzedUnit) (claimed : List String) (base : AnalyzedUnit)
    (members : List AnalyzedUnit) : Prop where
  derived : ∃ rest, members = base :: rest ∧
    ∀ w ∈ rest, s.vocabulary.Marks w.name ∧ s.vocabulary.Derives w.name base.name
  all : ∀ w ∈ units, w.name ∉ claimed → s.vocabulary.Marks w.name → s.vocabulary.Derives w.name base.name →
    w.name ∈ names members

lemma variantTurn_eq_some (h : s.variantTurn units claimed u = some f) :
    ∃ base p, f = .ofProposal p ∧ u.name ∈ p.memberNames ∧ s.VariantsOf units claimed base p.members := by
  unfold variantTurn at h
  split at h
  · simp at h
  · rename_i hturn
    simp only [Bool.or_eq_true, Bool.not_eq_true', not_or, Bool.not_eq_false, Vocabulary.isVariant_iff] at hturn
    obtain ⟨base, hbase, rfl⟩ := Option.map_eq_some_iff.mp h
    obtain ⟨more, hmore, hjoined⟩ :=
      foldl_addMember_eq_append claimed [base, u] (units.filter (s.derivesFrom base))
    refine ⟨base, _, rfl, ?_, ⟨u :: more, hmore, ?_⟩, fun w hw hfree hmarks hderives => ?_⟩
    · rw [GroupProposal.memberNames, variantProposal, hmore]
      simp [names]
    · refine List.forall_mem_cons.mpr ⟨⟨hturn.2, variantBase?_eq_some hbase⟩, fun w hw => ?_⟩
      exact derivesFrom_iff.mp (List.mem_filter.mp (hjoined w hw).1).2
    · have hfound : w ∈ units.filter (s.derivesFrom base) :=
        List.mem_filter.mpr ⟨hw, derivesFrom_iff.mpr ⟨hmarks, hderives⟩⟩
      exact name_mem_foldl_addMember hfound hfree

/-- A free variant that gives no family has no base. -/
lemma variantBase?_of_variantTurn (h : s.variantTurn units claimed u = none) (hfree : u.name ∉ claimed)
    (hmarks : s.vocabulary.Marks u.name) : s.variantBase? units claimed u = none := by
  have hvariant : isVariant s.vocabulary u.name = true := Vocabulary.isVariant_iff.mpr hmarks
  rw [variantTurn, if_neg (by simp [hfree, hvariant])] at h
  exact Option.map_eq_none_iff.mp h

lemma unfailing_variantTurn (s : Searcher) (units : List AnalyzedUnit) : Unfailing (s.variantTurn units) := by
  intro now u f hf
  obtain ⟨base, p, rfl, -⟩ := variantTurn_eq_some hf
  exact ⟨p, rfl⟩

/-- The members of a group are variants of the first one at the turn when they are claimed. -/
lemma variantsOf_of_variantTurn (h : s.variantTurn units claimed u = some (.ofProposal p)) :
    ∃ base, s.VariantsOf units claimed base p.members := by
  obtain ⟨base, q, he, -, hvariants⟩ := variantTurn_eq_some h
  exact ⟨base, Family.ofProposal_injective he ▸ hvariants⟩

/-- The search for variants always gives groups. In each the members after the first hold the marker, and the
first is one of their bases. A variant that is left has the first member of no group among its bases, and no
base of it is found as a free unit other than itself. -/
theorem variantFamilies_exhaust (s : Searcher) (units : List AnalyzedUnit) (claimed : List String) :
    ∃ groups after, (s.variantFamilies units claimed).settle claimed = (.ok groups, after) ∧
      after = claimed ++ groups.flatMap GroupProposal.memberNames ∧
      (∀ p ∈ groups, ∃ base rest, p.members = base :: rest ∧
        ∀ w ∈ rest, s.vocabulary.Marks w.name ∧ s.vocabulary.Derives w.name base.name) ∧
      ∀ u ∈ unclaimed after units, s.vocabulary.Marks u.name →
        (∀ p ∈ groups, ∀ base ∈ p.members.head?, ¬ s.vocabulary.Derives u.name base.name) ∧
        ∀ n ∈ variantBases s.vocabulary u.name, ∀ w, anyCase? units n = some w → w.name ∉ after →
          w.name = u.name := by
  have hunfailing := unfailing_variantTurn s units
  obtain ⟨groups, after, hpropose, hswept⟩ := exists_swept hunfailing claimed units
  refine ⟨groups, after, ?_, hswept.claims, fun p hp => ?_, fun u hu hmarks => ?_⟩
  · rw [variantFamilies, Detection.settle, families_variantFamiliesFrom]
    exact hpropose
  · obtain ⟨x, -, now, -, -, hf⟩ := hswept.proposed hunfailing hp
    obtain ⟨base, hvariants⟩ := variantsOf_of_variantTurn hf
    obtain ⟨rest, hmembers, hderived⟩ := hvariants.derived
    exact ⟨base, rest, hmembers, hderived⟩
  · obtain ⟨hu, hleft⟩ := AnalyzedUnit.mem_unclaimed.mp hu
    constructor
    · intro p hp base hbase hderives
      obtain ⟨x, -, now, -, hnow, hf⟩ := hswept.proposed hunfailing hp
      obtain ⟨first, hvariants⟩ := variantsOf_of_variantTurn hf
      obtain ⟨rest, hmembers, -⟩ := hvariants.derived
      obtain rfl : first = base := by simpa [hmembers] using hbase
      have hgathered := hvariants.all u hu (fun hc => hleft (hnow hc)) hmarks hderives
      exact hleft (hswept.mem_after hp hgathered)
    · intro n hn w hw hfree
      obtain ⟨now, -, hnow, hgave⟩ := hswept.turn u hu
      have hnone : s.variantTurn units now u = none := by
        refine Option.eq_none_iff_forall_ne_some.mpr fun f hf => ?_
        obtain ⟨base, p, rfl, hself, -⟩ := variantTurn_eq_some hf
        exact hleft (hgave _ hf hself)
      have hbase := variantBase?_of_variantTurn hnone (fun hc => hleft (hnow hc)) hmarks
      exact variantBase?_eq_none hbase hn hw fun hc => hfree (hnow hc)

end Searcher

end SkillAtlas
