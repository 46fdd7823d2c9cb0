import SkillAtlas.Grouping.CommonStart
import SkillAtlas.Proofs.Grouping.Sweep
import SkillAtlas.Proofs.Naming.Suffixes

/-!
# What the search for bases leaves

The families are found before the first group is made. At its turn a family gives a group of what is left of
it, unless that is one unit or none.
-/

namespace SkillAtlas

open AnalyzedUnit (names unclaimed)
open Naming (Follows TellsBase followers suffixFamilies)

namespace Searcher

variable {s : Searcher} {units remaining : List AnalyzedUnit} {claimed now : List String}
  {families : List (String × List String)} {family : String × List String} {base : String}
  {a b u : AnalyzedUnit} {f : Family} {p : GroupProposal}

/-- The free units whose names are in a family. -/
def freeMembers (remaining : List AnalyzedUnit) (claimed : List String) (family : String × List String) :
    List AnalyzedUnit :=
  unclaimed claimed (remaining.filter fun u => family.2.contains u.name)

lemma mem_freeMembers : u ∈ freeMembers remaining claimed family ↔
    u ∈ remaining ∧ u.name ∈ family.2 ∧ u.name ∉ claimed := by
  rw [freeMembers, AnalyzedUnit.mem_unclaimed, List.mem_filter, List.contains_iff_mem, and_assoc]

/-- What the family of a base gives at its turn. -/
def suffixTurn (s : Searcher) (remaining : List AnalyzedUnit) :
    List String → String × List String → Option Family :=
  gathered (freeMembers remaining) fun family members => .ok (s.suffixProposal family.1 members)

lemma suffixGroups_eq_sweep (s : Searcher) (remaining : List AnalyzedUnit) (claimed : List String)
    (families : List (String × List String)) :
    s.suffixGroups remaining claimed families = sweep (s.suffixTurn remaining) claimed families := by
  induction families generalizing claimed with
  | nil => rfl
  | cons family rest ih =>
    by_cases htwo : (freeMembers remaining claimed family).length < 2
    · rw [sweep_of_none (if_pos htwo), ← ih]
      exact if_pos htwo
    · rw [sweep_of_some (if_neg htwo), ← ih]
      exact if_neg htwo

lemma unfailing_suffixTurn (s : Searcher) (remaining : List AnalyzedUnit) :
    Unfailing (s.suffixTurn remaining) :=
  fun now family _ h => ⟨s.suffixProposal family.1 (freeMembers remaining now family), gathered_eq_some h⟩

lemma members_of_suffixTurn (h : s.suffixTurn remaining now family = some (.ofProposal p)) :
    p.members = freeMembers remaining now family :=
  congrArg Family.members (gathered_eq_some h)

/-- If fewer than two names follow a base, units that follow it are the same. -/
lemma eq_of_few_followers (hfew : (followers (names remaining) base).length < 2) (ha : a ∈ remaining)
    (hb : b ∈ remaining) (hfa : Follows base a.name) (hfb : Follows base b.name) : a = b := by
  by_contra hab
  have hmem : ∀ u ∈ remaining, Follows base u.name →
      u ∈ remaining.filter (Naming.isNamedAfter base ∘ AnalyzedUnit.name) := fun u hu hf =>
    List.mem_filter.mpr ⟨hu, Naming.isNamedAfter_iff.mpr hf⟩
  rw [followers, names, List.filter_map, List.length_map] at hfew
  exact absurd hfew (not_lt.mpr (two_le_length (hmem a ha hfa) (hmem b hb hfb) hab))

/-- The search for bases always gives groups, with the packaged suffixes and ASCII names. The members of each
follow a base that the name of a free unit tells. Of what follows such a base at most one unit is left. -/
theorem residualSuffixes_exhaust (s : Searcher) (hv : s.vocabulary.namingSuffixes = Packaged.namingSuffixes)
    (units : List AnalyzedUnit) (hascii : ∀ u ∈ units, Text.Ascii u.name.toList) (claimed : List String) :
    ∃ groups after, (s.residualSuffixes units claimed).settle claimed = (.ok groups, after) ∧
      after = claimed ++ groups.flatMap GroupProposal.memberNames ∧
      (∀ p ∈ groups, ∃ base, (∃ u ∈ unclaimed claimed units, TellsBase Packaged.namingSuffixes base u.name) ∧
        ∀ w ∈ p.members, Follows base w.name) ∧
      ∀ u ∈ unclaimed claimed units, ∀ base, TellsBase Packaged.namingSuffixes base u.name →
        ∀ a ∈ unclaimed after units, ∀ b ∈ unclaimed after units,
          Follows base a.name → Follows base b.name → a = b := by
  let remaining := unclaimed claimed units
  have hunfailing := unfailing_suffixTurn s remaining
  have hnames : ∀ n ∈ names remaining, Text.Ascii n.toList := by
    intro n hn
    obtain ⟨u, hu, rfl⟩ := List.mem_map.mp hn
    exact hascii u (AnalyzedUnit.mem_unclaimed.mp hu).1
  obtain ⟨groups, after, hpropose, hswept⟩ :=
    exists_swept hunfailing claimed (suffixFamilies Packaged.namingSuffixes (names remaining))
  refine ⟨groups, after, ?_, hswept.claims, fun p hp => ?_, fun u hu base htells a ha b hb hfa hfb => ?_⟩
  · rw [Detection.settle, residualSuffixes, hv]
    simp only [suffixGroups_eq_sweep]
    exact hpropose
  · obtain ⟨family, hfamily, now, -, -, hf⟩ := hswept.proposed hunfailing hp
    obtain ⟨⟨n, hn, htells⟩, hmembers⟩ := Naming.mem_suffixFamilies Naming.hangs_of_packaged hnames hfamily
    obtain ⟨u, hu, rfl⟩ := List.mem_map.mp hn
    refine ⟨family.1, ⟨u, hu, htells⟩, fun w hw => ?_⟩
    rw [members_of_suffixTurn hf, mem_freeMembers, hmembers] at hw
    exact (Naming.mem_followers.mp hw.2.1).2
  · obtain ⟨hra, hfreea⟩ := hswept.left ha
    obtain ⟨hrb, hfreeb⟩ := hswept.left hb
    rcases Naming.exists_suffixFamily Naming.hangs_of_packaged hnames (List.mem_map_of_mem hu) htells with
      ⟨family, hfamily, hmembers⟩ | hfew
    · -- were both free, they would be claimed at the turn of their family
      by_contra hab
      obtain ⟨now, -, hnow, hgave⟩ := hswept.turn family hfamily
      have hmem : ∀ w ∈ remaining, w.name ∉ after → Follows base w.name →
          w ∈ freeMembers remaining now family := by
        intro w hw hfree hf
        refine mem_freeMembers.mpr ⟨hw, ?_, fun hc => hfree (hnow hc)⟩
        rw [hmembers]
        exact Naming.mem_followers.mpr ⟨List.mem_map_of_mem hw, hf⟩
      have hga := hmem a hra hfreea hfa
      obtain ⟨f, hf, hgathered⟩ := exists_gathered hga (hmem b hrb hfreeb hfb) hab
      exact hfreea (hgave f hf (hgathered ▸ List.mem_map_of_mem hga))
    · exact eq_of_few_followers hfew hra hrb hfa hfb

/-- What is named after `Frost` is a group in either spelling. -/
theorem residualSuffixes_exhaust_frost :
    let units : List AnalyzedUnit :=
      [{ name := "Frost-Projectile" }, { name := "Heal" }, { name := "frost_Cast" }, { name := "Ice-Aura" }]
    let s : Searcher := ⟨{ (default : Vocabulary) with namingSuffixes := Packaged.namingSuffixes }, {}⟩
    s.vocabulary.namingSuffixes = Packaged.namingSuffixes ∧ (∀ u ∈ units, Text.Ascii u.name.toList) ∧
      ∃ groups after, (s.residualSuffixes units ["Heal"]).settle ["Heal"] = (.ok groups, after) ∧
        after = ["Heal", "Frost-Projectile", "frost_Cast"] ∧
        ∀ u ∈ unclaimed ["Heal"] units, ∀ base, TellsBase Packaged.namingSuffixes base u.name →
          ∀ a ∈ unclaimed after units, ∀ b ∈ unclaimed after units,
            Follows base a.name → Follows base b.name → a = b := by
  intro units s
  have hascii : ∀ u ∈ units, Text.Ascii u.name.toList := by decide
  obtain ⟨groups, after, hsettle, -, -, hleft⟩ := residualSuffixes_exhaust s rfl units hascii ["Heal"]
  have hafter : ((s.residualSuffixes units ["Heal"]).settle ["Heal"]).2 =
      ["Heal", "Frost-Projectile", "frost_Cast"] := by
    decide +kernel
  rw [hsettle] at hafter
  exact ⟨rfl, hascii, groups, after, hsettle, hafter, hleft⟩

end Searcher

end SkillAtlas
