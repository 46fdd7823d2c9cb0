import SkillAtlas.Proofs.Analysis.Stages
import SkillAtlas.Proofs.Grouping.Chains
import SkillAtlas.Proofs.Grouping.Sweep
import SkillAtlas.Proofs.Naming.Starts

/-!
# What the search for common starts leaves

Each long start that two names share has a family with both names. When the search comes to the family, it
makes a group of its names unless at most one of them is still free. So no two names that are left share a
long start.
-/

namespace SkillAtlas

open AnalyzedUnit (names named? unclaimed)
open Naming (isShort sharedPairs sharedStart startFamilies trimSeparator)

namespace Searcher

variable {s : Searcher} {units remaining : List AnalyzedUnit} {claimed : List String}
  {families : List (String × List String)} {family : String × List String} {f : Family}
  {p : GroupProposal} {limit : Number} {a b : String}

/-- The units that bear the free names of a family. -/
def freeNamed (remaining : List AnalyzedUnit) (claimed : List String) (family : String × List String) :
    List AnalyzedUnit :=
  (family.2.filter fun n => !claimed.contains n).filterMap (named? remaining)

/-- What a family of names gives at its turn. -/
def startTurn (s : Searcher) (remaining : List AnalyzedUnit) :
    List String → String × List String → Option Family :=
  gathered (freeNamed remaining) fun family => s.startProposal family.1

lemma startGroups_eq_sweep (s : Searcher) (remaining : List AnalyzedUnit) (claimed : List String)
    (families : List (String × List String)) :
    s.startGroups remaining claimed families = sweep (s.startTurn remaining) claimed families := by
  induction families generalizing claimed with
  | nil => rfl
  | cons family rest ih =>
    by_cases htwo : (freeNamed remaining claimed family).length < 2
    · rw [sweep_of_none (if_pos htwo), ← ih]
      exact if_pos htwo
    · rw [sweep_of_some (if_neg htwo), ← ih]
      exact if_neg htwo

lemma faithful_startTurn (s : Searcher) (remaining : List AnalyzedUnit) : Faithful (s.startTurn remaining) := by
  intro now family f hf p hp
  obtain rfl := gathered_eq_some hf
  exact (startProposal_eq_ok hp).1

lemma exists_freeNamed (hknown : a ∈ names remaining) (hfree : a ∉ claimed) (ha : a ∈ family.2) :
    ∃ u ∈ freeNamed remaining claimed family, u.name = a := by
  obtain ⟨u, hu⟩ := AnalyzedUnit.exists_named? hknown
  have hmem : u ∈ freeNamed remaining claimed family :=
    List.mem_filterMap.mpr ⟨a, List.mem_filter.mpr ⟨ha, by simpa using hfree⟩, hu⟩
  exact ⟨u, hmem, (AnalyzedUnit.named?_eq_some hu).2⟩

/-- The names of the units stay in the order of the family. -/
lemma names_freeNamed_sublist (remaining : List AnalyzedUnit) (claimed : List String)
    (family : String × List String) : (names (freeNamed remaining claimed family)).Sublist family.2 := by
  have hnamed : ∀ ns : List String, (names (ns.filterMap (named? remaining))).Sublist ns := by
    intro ns
    induction ns with
    | nil => exact List.Sublist.refl _
    | cons n rest ih =>
      cases hu : named? remaining n with
      | none =>
        rw [List.filterMap_cons_none hu]
        exact ih.cons n
      | some u =>
        rw [List.filterMap_cons_some hu, names, List.map_cons, (AnalyzedUnit.named?_eq_some hu).2]
        exact ih.cons_cons n
  exact (hnamed _).trans List.filter_sublist

/-- All members of a group start with the start for which it is named, and that is long enough. -/
structure StartsAlike (limit : Number) (p : GroupProposal) (start : String) : Prop where
  long : isShort limit start = false
  starts : ∀ u ∈ p.members, start.toList <+: u.name.toList
  suggestedName : p.suggestedName = Naming.readable start

lemma startsAlike_of_startTurn (hline : ∀ n ∈ names remaining, '\n' ∉ n.toList)
    (hfamily : family ∈ startFamilies limit (names remaining))
    (hf : s.startTurn remaining claimed family = some f) (hp : f.proposal = .ok p) : StartsAlike limit p family.1 := by
  obtain rfl := gathered_eq_some hf
  obtain ⟨hpm, -, hname, -⟩ := startProposal_eq_ok hp
  obtain ⟨⟨n, hn⟩, hfamilyNames⟩ := Naming.mem_startFamilies hfamily
  refine ⟨?_, fun u hu => ?_, hname⟩
  · obtain ⟨a, -, b, -, hpair⟩ := Naming.exists_of_mem_sharedPairs hn
    obtain ⟨hlong, hstart, -⟩ := Naming.mem_sharedPair.mp hpair
    rwa [hstart]
  · rw [hpm] at hu
    obtain ⟨m, hm, hu⟩ := List.mem_filterMap.mp hu
    have hshared := (hfamilyNames m).mp (List.mem_filter.mp hm).1
    obtain ⟨a, ha, b, -, hpair⟩ := Naming.exists_of_mem_sharedPairs hshared
    obtain ⟨-, hstart, hmab⟩ := Naming.mem_sharedPair.mp hpair
    obtain ⟨hstarta, hstartb⟩ := Naming.sharedStart_prefix (b := b) (hline a ha)
    rw [(AnalyzedUnit.named?_eq_some hu).2, hstart]
    rcases hmab with rfl | rfl
    · exact hstarta
    · exact hstartb

/-- Two free names of a family are claimed at its turn. -/
lemma exists_startTurn (ha : a ∈ names remaining) (hb : b ∈ names remaining) (hab : a ≠ b) (hfa : a ∉ claimed)
    (hfb : b ∉ claimed) (hma : a ∈ family.2) (hmb : b ∈ family.2) :
    ∃ f, s.startTurn remaining claimed family = some f ∧ a ∈ names f.members := by
  obtain ⟨u, hu, rfl⟩ := exists_freeNamed ha hfa hma
  obtain ⟨w, hw, rfl⟩ := exists_freeNamed hb hfb hmb
  obtain ⟨f, hf, hmembers⟩ := exists_gathered hu hw fun he => hab (congrArg AnalyzedUnit.name he)
  exact ⟨f, hf, hmembers ▸ List.mem_map_of_mem hu⟩

/-- The groups by common starts come of the families among the free names in turn. -/
lemma swept_residualPrefixes {groups : List GroupProposal} {after : List String}
    (hlimit : s.settings.namingPrefixMinLength.number? = some limit)
    (h : (s.residualPrefixes units claimed).settle claimed = (.ok groups, after)) :
    Swept (s.startTurn (unclaimed claimed units)) (startFamilies limit (names (unclaimed claimed units))) claimed
      after groups := by
  rw [Detection.settle, residualPrefixes, Naming.startFamiliesFor_eq hlimit] at h
  simp only [Except.map, startGroups_eq_sweep] at h
  exact swept_of_propose (faithful_startTurn s _) h

/-- The search for common starts. Its groups start with long starts for which they are named. Whatever starts
two names that are left is short without a separator at its end. There are groups whenever the settings are
numbers. -/
theorem residualPrefixes_exhaust (s : Searcher) {limit : Number}
    (hlimit : s.settings.namingPrefixMinLength.number? = some limit) (units : List AnalyzedUnit)
    (hn : (names units).Nodup) (hline : ∀ u ∈ units, '\n' ∉ u.name.toList) (claimed : List String) :
    (s.settings.Numeric → units.length < 2 ^ 63 →
      ∃ groups after, (s.residualPrefixes units claimed).settle claimed = (.ok groups, after)) ∧
    ∀ groups after, (s.residualPrefixes units claimed).settle claimed = (.ok groups, after) →
      after = claimed ++ groups.flatMap GroupProposal.memberNames ∧
      (∀ p ∈ groups, ∃ start, StartsAlike limit p start) ∧
      ∀ a ∈ unclaimed after units, ∀ b ∈ unclaimed after units, a ≠ b →
        ∀ start : String, start.toList <+: a.name.toList → start.toList <+: b.name.toList →
          isShort limit (trimSeparator start) = true := by
  refine ⟨fun hs hl => (s.residualPrefixes_sound units claimed).settle_eq_ok ⟨hs, hl⟩, ?_⟩
  intro groups after hsettle
  let remaining := unclaimed claimed units
  have hswept := swept_residualPrefixes hlimit hsettle
  have hlines : ∀ n ∈ names remaining, '\n' ∉ n.toList := by
    intro n hn
    obtain ⟨u, hu, rfl⟩ := List.mem_map.mp hn
    exact hline u (AnalyzedUnit.mem_unclaimed.mp hu).1
  refine ⟨hswept.claims, fun p hp => ?_, fun a ha b hb hab start hsa hsb => ?_⟩
  · obtain ⟨family, hfamily, now, f, -, -, hf, hfp⟩ := hswept.origin p hp
    exact ⟨family.1, startsAlike_of_startTurn hlines hfamily hf hfp⟩
  · obtain ⟨hua, hfa⟩ := hswept.left ha
    obtain ⟨hub, hfb⟩ := hswept.left hb
    have hunits : ∀ u ∈ unclaimed after units, u ∈ units := fun u hu => (AnalyzedUnit.mem_unclaimed.mp hu).1
    have hne : a.name ≠ b.name := fun he =>
      hab (List.inj_on_of_nodup_map hn (hunits a ha) (hunits b hb) he)
    have hra : a.name ∈ names remaining := List.mem_map_of_mem hua
    have hrb : b.name ∈ names remaining := List.mem_map_of_mem hub
    -- a long start would have a family with both names, and at its turn both would be free
    refine Naming.isShort_of_le (Naming.length_trimSeparator_le hsa hsb) ?_
    by_contra hlong
    rw [Bool.not_eq_true] at hlong
    have hpa := Naming.mem_sharedPairs hra hrb hne hlong
    have hpb := Naming.mem_sharedPairs hrb hra hne.symm (Naming.sharedStart_comm _ _ ▸ hlong)
    rw [Naming.sharedStart_comm] at hpb
    obtain ⟨ns, hfamily⟩ := Naming.exists_startFamily hpa
    have hmembers := (Naming.mem_startFamilies hfamily).2
    obtain ⟨now, -, hnow, hgave⟩ := hswept.turn _ hfamily
    have hanow : a.name ∉ now := fun hc => hfa (hnow hc)
    have hbnow : b.name ∉ now := fun hc => hfb (hnow hc)
    have hgives : ∃ f, s.startTurn remaining now (Naming.sharedStart a.name b.name, ns) = some f ∧
        a.name ∈ names f.members :=
      exists_startTurn hra hrb hne hanow hbnow ((hmembers _).mpr hpa) ((hmembers _).mpr hpb)
    obtain ⟨f, hf, haf⟩ := hgives
    exact hfa (hgave f hf haf)

/-- Of two units that summon, one at least joins a group. -/
theorem residualPrefixes_exhaust_summons :
    let units : List AnalyzedUnit :=
      [{ name := "Summon_Skeleton" }, { name := "Heal" }, { name := "Summon-Zombie" }]
    let s : Searcher := ⟨default, {}⟩
    s.settings.namingPrefixMinLength.number? = some (.int 3) ∧ (names units).Nodup ∧
      (∀ u ∈ units, '\n' ∉ u.name.toList) ∧ s.settings.Numeric ∧ units.length < 2 ^ 63 ∧
      ∃ groups after, (s.residualPrefixes units []).settle [] = (.ok groups, after) ∧
        (∀ p ∈ groups, ∃ start, StartsAlike (.int 3) p start ∧ 3 ≤ start.length) ∧
        ("Summon_Skeleton" ∈ after ∨ "Summon-Zombie" ∈ after) := by
  intro units s
  have hlimit : s.settings.namingPrefixMinLength.number? = some (.int 3) := rfl
  have hn : (names units).Nodup := by decide
  have hline : ∀ u ∈ units, '\n' ∉ u.name.toList := by decide
  obtain ⟨hok, hall⟩ := residualPrefixes_exhaust s hlimit units hn hline []
  have hs : s.settings.Numeric := DetectorSettings.numeric_usual
  have hl : units.length < 2 ^ 63 := by decide
  obtain ⟨groups, after, hsettle⟩ := hok hs hl
  obtain ⟨-, hsound, hleft⟩ := hall groups after hsettle
  refine ⟨hlimit, hn, hline, hs, hl, groups, after, hsettle, fun p hp => ?_, ?_⟩
  · obtain ⟨start, hstart⟩ := hsound p hp
    exact ⟨start, hstart, by exact_mod_cast Naming.isShort_int.mp hstart.long⟩
  · by_contra hfree
    obtain ⟨ha, hb⟩ := not_or.mp hfree
    have hmem : ∀ u ∈ units, u.name ∉ after → u ∈ unclaimed after units := fun u hu hu' =>
      AnalyzedUnit.mem_unclaimed.mpr ⟨hu, hu'⟩
    have hshort := hleft _ (hmem { name := "Summon_Skeleton" } (by simp [units]) ha)
      _ (hmem { name := "Summon-Zombie" } (by simp [units]) hb) (by simp) "Summon" (by decide) (by decide)
    exact absurd hshort (by decide)

end Searcher

end SkillAtlas
