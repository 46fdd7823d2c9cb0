import SkillAtlas.Grouping.Lifecycle
import SkillAtlas.Proofs.Grouping.Chains
import SkillAtlas.Proofs.Grouping.Search
import SkillAtlas.Proofs.Grouping.Sweep
import SkillAtlas.Proofs.Naming.Satellites

/-!
# What the search for lifecycle families leaves

A free unit that drives another free unit leads a family at its turn in the first pass. So in the second pass
nothing is driven any more, and the families of bases and satellites are made by name alone. A free satellite
of a free base has its family at its turn in the second pass.
-/

namespace SkillAtlas

open AnalyzedUnit (names named? anyCase? unclaimed)
open Naming (IsSatellite lifecycleBase?)

/-- A callback of the unit calls the other by its exact name. -/
def AnalyzedUnit.Drives (u w : AnalyzedUnit) : Prop :=
  ∃ c ∈ u.callbacks, c.name = w.name

section Units

variable {v : Vocabulary} {units : List AnalyzedUnit} {u w : AnalyzedUnit} {n base : String}

/-- Where names differ ignoring case, a unit is found under each spelling of its name. -/
lemma AnalyzedUnit.anyCase?_eq (hdistinct : (units.map fun u => Text.lower u.name).Nodup) (hu : u ∈ units)
    (h : Text.lower u.name = Text.lower n) : anyCase? units n = some u := by
  have hsome : (anyCase? units n).isSome := List.find?_isSome.mpr ⟨u, hu, beq_iff_eq.mpr h⟩
  obtain ⟨w, hw⟩ := Option.isSome_iff_exists.mp hsome
  obtain ⟨hwu, hlower⟩ := AnalyzedUnit.anyCase?_eq_some hw
  rw [hw, List.inj_on_of_nodup_map hdistinct hwu hu (hlower.trans h.symm)]

lemma isSatellite_of_mem_satellites (h : w ∈ satellites v units base) :
    IsSatellite v.lifecycleSuffixes base w.name := by
  rcases mem_foldl_addMember h with hm | ⟨hm, -⟩
  · simp at hm
  · obtain ⟨candidate, hc, hw⟩ := List.mem_filterMap.mp hm
    obtain ⟨suffix, hsuffix, hc⟩ := List.mem_flatMap.mp hc
    obtain ⟨-, hlower⟩ := AnalyzedUnit.anyCase?_eq_some hw
    rcases (by simpa using hc : candidate = base ++ "-" ++ suffix ∨ candidate = base ++ "_" ++ suffix) with
      rfl | rfl
    · exact ⟨suffix, hsuffix, "-", by simp, hlower⟩
    · exact ⟨suffix, hsuffix, "_", by simp, hlower⟩

lemma name_mem_satellites (hdistinct : (units.map fun u => Text.lower u.name).Nodup) (hw : w ∈ units)
    (h : IsSatellite v.lifecycleSuffixes base w.name) : w.name ∈ names (satellites v units base) := by
  obtain ⟨suffix, hsuffix, mark, hmark, hlower⟩ := h
  have hcandidate : base ++ mark ++ suffix ∈ [base ++ "-" ++ suffix, base ++ "_" ++ suffix] := by
    rcases (by simpa using hmark : mark = "-" ∨ mark = "_") with rfl | rfl
    · simp
    · simp
  refine name_mem_foldl_addMember (List.mem_filterMap.mpr ⟨base ++ mark ++ suffix, ?_, ?_⟩) (by simp)
  · exact List.mem_flatMap.mpr ⟨suffix, hsuffix, hcandidate⟩
  · exact AnalyzedUnit.anyCase?_eq hdistinct hw hlower

end Units

namespace Searcher

variable {s : Searcher} {units us : List AnalyzedUnit} {claimed now mid : List String} {u w : AnalyzedUnit}
  {f : Family} {p : GroupProposal} {ps : List GroupProposal}

/-- The targets that join come after the unit that calls them. -/
lemma exists_withTargets (units : List AnalyzedUnit) (claimed : List String) (u : AnalyzedUnit) :
    ∃ more, withTargets units claimed u = u :: more ∧ ∀ w ∈ more, u.Drives w := by
  obtain ⟨more, hmore, hjoined⟩ := foldl_addMember_eq_append claimed [u]
    (u.callbacks.filterMap fun c => named? units c.name)
  refine ⟨more, hmore, fun w hw => ?_⟩
  obtain ⟨c, hc, hw⟩ := List.mem_filterMap.mp (hjoined w hw).1
  exact ⟨c, hc, (AnalyzedUnit.named?_eq_some hw).2.symm⟩

lemma name_mem_withTargets (hw : w ∈ units) (hfree : w.name ∉ claimed) (h : u.Drives w) :
    w.name ∈ names (withTargets units claimed u) := by
  obtain ⟨c, hc, he⟩ := h
  obtain ⟨target, htarget⟩ := AnalyzedUnit.exists_named? (he ▸ List.mem_map_of_mem hw : c.name ∈ names units)
  have hname : target.name = w.name := (AnalyzedUnit.named?_eq_some htarget).2.trans he
  rw [← hname] at hfree ⊢
  exact name_mem_foldl_addMember (List.mem_filterMap.mpr ⟨c, hc, htarget⟩) hfree

/-- Something that joins is driven exactly if a target joins, since a satellite that is driven is one. -/
lemma exists_drives_iff {targets others : List AnalyzedUnit}
    (htargets : withTargets units claimed u = u :: targets) (hdriven : ∀ w ∈ targets, u.Drives w)
    (hothers : ∀ w ∈ others, w ∈ satellites s.vocabulary units u.name ∧ w.name ∉ claimed) :
    (∃ w ∈ targets ++ others, u.Drives w) ↔ targets ≠ [] := by
  constructor
  · rintro ⟨w, hw, hd⟩ rfl
    obtain ⟨hsatellite, hfree⟩ := hothers w hw
    obtain ⟨hunits, hne⟩ := mem_satellites hsatellite
    have hmem := name_mem_withTargets hunits hfree hd
    rw [htargets] at hmem
    exact hne (by simpa [names] using hmem)
  · intro hne
    obtain ⟨w, hw⟩ := List.exists_mem_of_ne_nil targets hne
    exact ⟨w, List.mem_append_left others hw, hdriven w hw⟩

/-- A group is made of a unit with what it drives and its satellites. The confidence tells whether it drives
any of them. -/
structure Leads (s : Searcher) (p : GroupProposal) (first : AnalyzedUnit) (rest : List AnalyzedUnit) : Prop where
  members : p.members = first :: rest
  joined : ∀ w ∈ rest, first.Drives w ∨ IsSatellite s.vocabulary.lifecycleSuffixes first.name w.name
  explicit : (∃ w ∈ rest, first.Drives w) → p.confidence = s.settings.lifecycleExplicitConfidence
  naming : (∀ w ∈ rest, ¬ first.Drives w) → p.confidence = s.settings.lifecycleNamingConfidence

/-- What a unit gives at its turn in the first pass: a family, if it is free and calls back. -/
def drivenTurn (s : Searcher) (units : List AnalyzedUnit) (claimed : List String) (u : AnalyzedUnit) :
    Option Family :=
  if claimed.contains u.name || u.callbacks.isEmpty then none else s.drivenFamily? units claimed u

lemma families_drivenFamilies (s : Searcher) (units : List AnalyzedUnit) (claimed : List String)
    (us : List AnalyzedUnit) : Encounter.families (s.drivenFamilies units claimed us) =
      sweep (s.drivenTurn units) claimed us := by
  induction us generalizing claimed with
  | nil => rfl
  | cons u rest ih =>
    rw [drivenFamilies, sweep, drivenTurn]
    split
    · exact ih claimed
    · cases hf : s.drivenFamily? units claimed u with
      | none => exact ih claimed
      | some f => exact congrArg (f :: ·) (ih _)

lemma drivenTurn_eq_some (h : s.drivenTurn units now u = some f) :
    ∃ p rest, f = .ofProposal p ∧ s.Leads p u rest := by
  unfold drivenTurn drivenFamily? at h
  dsimp only at h
  split at h
  · simp at h
  · split at h
    · simp at h
    · obtain rfl := Option.some.inj h
      obtain ⟨targets, htargets, hdriven⟩ := exists_withTargets units now u
      obtain ⟨others, hothers, hjoined⟩ :=
        foldl_addMember_eq_append now (u :: targets) (satellites s.vocabulary units u.name)
      have hexplicit := exists_drives_iff htargets hdriven hjoined
      refine ⟨_, targets ++ others, rfl, ?_, fun w hw => ?_, fun hsome => ?_, fun hnone => ?_⟩
      · rw [drivenProposal, htargets, hothers, List.cons_append]
      · exact (List.mem_append.mp hw).imp (hdriven w) fun hw => isSatellite_of_mem_satellites (hjoined w hw).1
      · have hpos := List.length_pos_iff.mpr (hexplicit.mp hsome)
        simp [drivenProposal, htargets, hpos]
      · have hnil : targets = [] := by
          by_contra hne
          obtain ⟨w, hw, hd⟩ := hexplicit.mpr hne
          exact hnone w hw hd
        simp [drivenProposal, htargets, hnil]

/-- A free unit that drives another free unit leads a family at its turn. -/
lemma exists_drivenTurn (hu : u.name ∉ now) (hw : w ∈ units) (hfree : w.name ∉ now) (hd : u.Drives w)
    (hne : u.name ≠ w.name) : ∃ f, s.drivenTurn units now u = some f ∧ u.name ∈ names f.members := by
  have hcalls : u.callbacks.isEmpty = false := by
    obtain ⟨c, hc, -⟩ := hd
    exact List.isEmpty_eq_false_iff.mpr (List.ne_nil_of_mem hc)
  have hjoined : (names (withTargets units now u)).Sublist
      (names ((satellites s.vocabulary units u.name).foldl (addMember now) (withTargets units now u))) :=
    AnalyzedUnit.names_sublist sublist_foldl_addMember
  have hself : u.name ∈ names (withTargets units now u) := by
    obtain ⟨more, hmore, -⟩ := exists_withTargets units now u
    simp [hmore, names]
  have htwo := two_le_length (hjoined.subset hself) (hjoined.subset (name_mem_withTargets hw hfree hd)) hne
  rw [names, List.length_map] at htwo
  rw [drivenTurn, if_neg (by simp [hu, hcalls]), drivenFamily?]
  exact ⟨_, if_neg (not_lt.mpr htwo), hjoined.subset hself⟩

/-- After the first pass no free unit drives another. -/
lemma name_eq_of_drives (h : Swept (s.drivenTurn units) units claimed mid ps) (hu : u ∈ unclaimed mid units)
    (hw : w ∈ unclaimed mid units) (hd : u.Drives w) : u.name = w.name := by
  obtain ⟨hu, hufree⟩ := AnalyzedUnit.mem_unclaimed.mp hu
  obtain ⟨hw, hwfree⟩ := AnalyzedUnit.mem_unclaimed.mp hw
  by_contra hne
  obtain ⟨now, -, hnow, hgave⟩ := h.turn u hu
  have hunow : u.name ∉ now := fun hc => hufree (hnow hc)
  have hwnow : w.name ∉ now := fun hc => hwfree (hnow hc)
  obtain ⟨f, hf, hmem⟩ := exists_drivenTurn (s := s) hunow hw hwnow hd hne
  exact hufree (hgave f hf hmem)

/-- What a unit gives at its turn in the second pass: the family of its base, if it is free. -/
def namedTurn (s : Searcher) (units : List AnalyzedUnit) (claimed : List String) (u : AnalyzedUnit) :
    Option Family :=
  if claimed.contains u.name then none else s.namedFamily? units claimed u

lemma namedFamilies_eq_sweep (s : Searcher) (units : List AnalyzedUnit) (claimed : List String)
    (us : List AnalyzedUnit) : s.namedFamilies units claimed us = sweep (s.namedTurn units) claimed us := by
  induction us generalizing claimed with
  | nil => rfl
  | cons u rest ih =>
    rw [namedFamilies, sweep, ← namedTurn]
    cases s.namedTurn units claimed u with
    | none => exact ih claimed
    | some f => exact congrArg (f :: ·) (ih _)

/-- The second pass gives families of free bases with their free satellites. -/
lemma namedTurn_eq_some (h : s.namedTurn units now u = some f) :
    ∃ base rest, f = .ofProposal (s.namedProposal base (base :: rest)) ∧ base ∈ unclaimed now units ∧
      ∀ w ∈ rest, w ∈ unclaimed now (satellites s.vocabulary units base.name) := by
  unfold namedTurn namedFamily? at h
  split at h
  · simp at h
  · obtain ⟨base, hbase, h⟩ := Option.bind_eq_some_iff.mp h
    obtain ⟨hbase, hfree⟩ := Option.filter_eq_some_iff.mp hbase
    dsimp only at h
    split at h
    · simp at h
    · obtain rfl := Option.some.inj h
      obtain ⟨n, -, hbase⟩ := Option.bind_eq_some_iff.mp hbase
      have hunits := (AnalyzedUnit.anyCase?_eq_some (Option.filter_eq_some_iff.mp hbase).1).1
      exact ⟨base, _, rfl, AnalyzedUnit.mem_unclaimed.mpr ⟨hunits, by simpa using hfree⟩, fun w hw => hw⟩

/-- A free satellite of a free base has a family at its turn. -/
lemma exists_namedTurn (hv : s.vocabulary.lifecycleSuffixes = Packaged.lifecycleSuffixes)
    (hdistinct : (units.map fun u => Text.lower u.name).Nodup) (hu : u ∈ unclaimed now units)
    (hw : w ∈ unclaimed now units) (hne : u.name ≠ "") (hascii : Text.Ascii w.name.toList)
    (hline : '\n' ∉ w.name.toList) (h : IsSatellite s.vocabulary.lifecycleSuffixes u.name w.name) :
    ∃ f, s.namedTurn units now w = some f ∧ w.name ∈ names f.members := by
  obtain ⟨hu, hufree⟩ := AnalyzedUnit.mem_unclaimed.mp hu
  obtain ⟨hw, hwfree⟩ := AnalyzedUnit.mem_unclaimed.mp hw
  obtain ⟨found, hfound, hlower⟩ := Naming.exists_lifecycleBase? hv hne hascii hline h
  obtain ⟨satellite, hsatellite, hname⟩ := List.mem_map.mp (name_mem_satellites hdistinct hw h)
  have hother : u.name ≠ w.name := hname ▸ (mem_satellites hsatellite).2.symm
  have hbase : s.lifecycleBaseOf? units w = some u := by
    rw [lifecycleBaseOf?, hfound]
    simp [AnalyzedUnit.anyCase?_eq hdistinct hu hlower.symm, hother]
  have hmember : satellite ∈ unclaimed now (satellites s.vocabulary units u.name) :=
    AnalyzedUnit.mem_unclaimed.mpr ⟨hsatellite, hname ▸ hwfree⟩
  have htwo : ¬ (u :: unclaimed now (satellites s.vocabulary units u.name)).length < 2 := by
    have hpos := List.length_pos_of_mem hmember
    rw [List.length_cons]
    omega
  have hfree : (some u).filter (fun base => !now.contains base.name) = some u := by simp [hufree]
  rw [namedTurn, if_neg (by simpa using hwfree), namedFamily?, hbase, hfree]
  exact ⟨_, if_neg htwo, List.mem_cons_of_mem u.name (hname ▸ List.mem_map_of_mem hmember)⟩

/-- In the second pass nothing is driven any more. -/
lemma leads_of_namedTurn (hfirst : Swept (s.drivenTurn units) units claimed mid ps) (hnow : mid ⊆ now)
    (h : s.namedTurn units now u = some f) : ∃ p first rest, f = .ofProposal p ∧ s.Leads p first rest := by
  obtain ⟨base, rest, rfl, hbase, hrest⟩ := namedTurn_eq_some h
  have hearlier := AnalyzedUnit.unclaimed_subset hnow units
  have hundriven : ∀ w ∈ rest, ¬ base.Drives w := by
    intro w hw hd
    obtain ⟨hsatellite, hfree⟩ := AnalyzedUnit.mem_unclaimed.mp (hrest w hw)
    obtain ⟨hunits, hne⟩ := mem_satellites hsatellite
    have hleft := hearlier (AnalyzedUnit.mem_unclaimed.mpr ⟨hunits, hfree⟩)
    exact hne (name_eq_of_drives hfirst (hearlier hbase) hleft hd).symm
  refine ⟨_, base, rest, rfl, rfl, fun w hw => Or.inr ?_, ?_, fun _ => rfl⟩
  · exact isSatellite_of_mem_satellites (AnalyzedUnit.mem_unclaimed.mp (hrest w hw)).1
  · rintro ⟨w, hw, hd⟩
    exact absurd hd (hundriven w hw)

/-- The search for lifecycle families always gives groups, with the packaged suffixes and ASCII names on one
line that differ ignoring case. In each of them the first unit leads. What is left neither drives another unit
that is left nor is a satellite of one. -/
theorem lifecycleFamilies_exhaust (s : Searcher)
    (hv : s.vocabulary.lifecycleSuffixes = Packaged.lifecycleSuffixes) (units : List AnalyzedUnit)
    (hnames : ∀ u ∈ units, u.name ≠ "" ∧ Text.Ascii u.name.toList ∧ '\n' ∉ u.name.toList)
    (hdistinct : (units.map fun u => Text.lower u.name).Nodup) (claimed : List String) :
    ∃ groups after, (s.lifecycleFamilies units claimed).settle claimed = (.ok groups, after) ∧
      after = claimed ++ groups.flatMap GroupProposal.memberNames ∧
      (∀ p ∈ groups, ∃ first rest, s.Leads p first rest) ∧
      ∀ u ∈ unclaimed after units, ∀ w ∈ unclaimed after units,
        (u.Drives w → w = u) ∧ ¬ IsSatellite s.vocabulary.lifecycleSuffixes u.name w.name := by
  have hdriven : Unfailing (s.drivenTurn units) := by
    intro now u f hf
    obtain ⟨p, rest, rfl, -⟩ := drivenTurn_eq_some hf
    exact ⟨p, rfl⟩
  have hnamed : Unfailing (s.namedTurn units) := by
    intro now u f hf
    obtain ⟨base, rest, rfl, -⟩ := namedTurn_eq_some hf
    exact ⟨_, rfl⟩
  obtain ⟨ps, mid, hproposeDriven, hfirst⟩ := exists_swept hdriven claimed units
  obtain ⟨qs, after, hproposeNamed, hsecond⟩ := exists_swept hnamed mid units
  refine ⟨ps ++ qs, after, ?_, ?_, fun p hp => ?_, fun u hu w hw => ⟨fun hd => ?_, fun hsatellite => ?_⟩⟩
  · rw [lifecycleFamilies, Detection.settle]
    simp only [families_drivenFamilies, namedFamilies_eq_sweep, ← Family.claims_of_propose hproposeDriven]
    exact Family.propose_append hproposeDriven hproposeNamed
  · rw [hsecond.claims, hfirst.claims, List.flatMap_append, List.append_assoc]
  · rcases List.mem_append.mp hp with hp | hp
    · obtain ⟨u, -, now, -, -, hf⟩ := hfirst.proposed hdriven hp
      obtain ⟨q, rest, he, hleads⟩ := drivenTurn_eq_some hf
      exact ⟨u, rest, Family.ofProposal_injective he ▸ hleads⟩
    · obtain ⟨u, -, now, hnow, -, hf⟩ := hsecond.proposed hnamed hp
      obtain ⟨q, first, rest, he, hleads⟩ := leads_of_namedTurn hfirst hnow hf
      exact ⟨first, rest, Family.ofProposal_injective he ▸ hleads⟩
  · have hname := name_eq_of_drives hfirst (hsecond.left hu).1 (hsecond.left hw).1 hd
    have hunits : ∀ x ∈ unclaimed after units, x ∈ units := fun x hx => (AnalyzedUnit.mem_unclaimed.mp hx).1
    exact List.inj_on_of_nodup_map hdistinct (hunits w hw) (hunits u hu) (congrArg Text.lower hname.symm)
  · obtain ⟨hwu, hfree⟩ := AnalyzedUnit.mem_unclaimed.mp hw
    obtain ⟨now, -, hnow, hgave⟩ := hsecond.turn w hwu
    have hleft := AnalyzedUnit.unclaimed_subset hnow units
    obtain ⟨-, hascii, hline⟩ := hnames w hwu
    obtain ⟨f, hf, hmem⟩ := exists_namedTurn hv hdistinct (hleft hu) (hleft hw)
      (hnames u (AnalyzedUnit.mem_unclaimed.mp hu).1).1 hascii hline hsatellite
    exact hfree (hgave f hf hmem)

/-- A unit is gathered with what it drives, and a base with a satellite in capitals. -/
theorem lifecycleFamilies_exhaust_storm :
    let storm : AnalyzedUnit := { name := "Storm", calls := [{ name := "Bolt", context := "onTick" }] }
    let units : List AnalyzedUnit := [{ name := "ICE_TICK" }, storm, { name := "Bolt" }, { name := "Ice" }]
    let s : Searcher := ⟨{ (default : Vocabulary) with lifecycleSuffixes := Packaged.lifecycleSuffixes }, {}⟩
    s.vocabulary.lifecycleSuffixes = Packaged.lifecycleSuffixes ∧
      (∀ u ∈ units, u.name ≠ "" ∧ Text.Ascii u.name.toList ∧ '\n' ∉ u.name.toList) ∧
      (units.map fun u => Text.lower u.name).Nodup ∧
      ∃ groups after, (s.lifecycleFamilies units []).settle [] = (.ok groups, after) ∧
        (∀ p ∈ groups, ∃ first rest, s.Leads p first rest) ∧
        ("Storm" ∈ after ∨ "Bolt" ∈ after) ∧ ("Ice" ∈ after ∨ "ICE_TICK" ∈ after) := by
  intro storm units s
  have hnames : ∀ u ∈ units, u.name ≠ "" ∧ Text.Ascii u.name.toList ∧ '\n' ∉ u.name.toList := by decide
  have hdistinct : (units.map fun u => Text.lower u.name).Nodup := by decide
  obtain ⟨groups, after, hsettle, -, hsound, hleft⟩ := lifecycleFamilies_exhaust s rfl units hnames hdistinct []
  have hfree : ∀ u ∈ units, u.name ∉ after → u ∈ unclaimed after units := fun u hu hu' =>
    AnalyzedUnit.mem_unclaimed.mpr ⟨hu, hu'⟩
  refine ⟨rfl, hnames, hdistinct, groups, after, hsettle, hsound, ?_, ?_⟩
  · by_contra hboth
    obtain ⟨hstorm, hbolt⟩ := not_or.mp hboth
    have hdrives : storm.Drives { name := "Bolt" } := ⟨{ name := "Bolt", context := "onTick" }, by decide, rfl⟩
    have hsame := (hleft storm (hfree storm (by simp [units]) hstorm)
      { name := "Bolt" } (hfree { name := "Bolt" } (by simp [units]) hbolt)).1 hdrives
    exact absurd (congrArg AnalyzedUnit.name hsame) (by decide)
  · by_contra hboth
    obtain ⟨hice, htick⟩ := not_or.mp hboth
    have hsatellite : IsSatellite s.vocabulary.lifecycleSuffixes "Ice" "ICE_TICK" :=
      ⟨"Tick", by decide, "_", by decide, by decide⟩
    exact (hleft { name := "Ice" } (hfree { name := "Ice" } (by simp [units]) hice)
      { name := "ICE_TICK" } (hfree { name := "ICE_TICK" } (by simp [units]) htick)).2 hsatellite

end Searcher

end SkillAtlas
