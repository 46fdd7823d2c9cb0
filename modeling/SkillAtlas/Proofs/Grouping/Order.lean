import SkillAtlas.Proofs.Grouping.Patterns
import SkillAtlas.Proofs.Grouping.Starts
import SkillAtlas.Proofs.Naming.Arrivals

/-!
# The order of names that start alike

The patterns and the groups of a common start list names in the order of those that brought them into its family.
They are in document order if no later name brought an earlier one. Three names may be out of order in a pattern,
where the second shares more than the start with the first, and four in a group.
-/

namespace SkillAtlas

open AnalyzedUnit (names named? unclaimed)
open Naming (JoinsBefore joins startFamilies)

/-- The names, of those that were compared, are listed in the order of the names that brought them into the family
of the start, and in document order just if no later name brought an earlier one. -/
structure ListedInTurn (document compared : List String) (start : String) (listed : List String) : Prop where
  known : listed ⊆ compared
  inTurn : listed.Pairwise (JoinsBefore compared start)
  inOrder_iff : listed.Sublist document ↔ ∀ a ∈ listed, ∀ b ∈ listed,
    document.idxOf a < document.idxOf b → joins compared start a ≤ joins compared start b

/-- Some names of a family of those that were compared, in the order of the family. -/
lemma listedInTurn_of_sublist {document compared listed members : List String} {start : String} {limit : Number}
    (hn : document.Nodup) (hcompared : compared.Sublist document)
    (hfamily : (start, members) ∈ startFamilies limit compared) (h : listed.Sublist members) :
    ListedInTurn document compared start listed := by
  have hknown : listed ⊆ compared := fun n hm =>
    Naming.mem_of_mem_sharedPairs (((Naming.mem_startFamilies hfamily).2 n).mp (h.subset hm))
  have hturn := (Naming.pairwise_startFamilies (hn.sublist hcompared) hfamily).sublist h
  refine ⟨hknown, hturn, Naming.sublist_iff_rank_le hn (List.Subset.trans hknown hcompared.subset) ?_⟩
  refine hturn.imp_of_mem fun {a b} ha hb hab => hab.imp_right fun ⟨hsame, hplace⟩ => ⟨hsame, ?_⟩
  exact Naming.idxOf_lt_of_sublist hn hcompared (hknown ha) (hknown hb) hplace

namespace Searcher

variable {s : Searcher} {units : List AnalyzedUnit} {claimed after : List String} {p : NamingPattern}
  {patterns : List NamingPattern} {groups : List GroupProposal} {g : GroupProposal}

/-- The patterns of a common start are those of the families of names that start alike. -/
lemma exists_family_of_pattern {kind : ContextKind}
    (h : s.namingPatterns units kind = .ok patterns) (hp : p ∈ patterns) (hkind : p.kind = .sharedPrefix) :
    ∃ limit, (p.anchor, p.members) ∈ startFamilies limit (names units) := by
  cases kind with
  | mob =>
    obtain rfl := Except.ok.inj h
    obtain ⟨n, hknown, hp⟩ := List.mem_filterMap.mp hp
    simp [(lists_variantPattern hknown hp).1] at hkind
  | skillFile =>
    obtain ⟨starts, hstarts, rfl⟩ := skillPatterns_eq_ok h
    rw [List.mem_append, List.mem_append] at hp
    rcases hp with (hp | hp) | hp
    · obtain ⟨families, hfamilies, hstarts⟩ := Fault.bind_eq_ok.mp hstarts
      have hall : ∀ p ∈ starts, ∃ limit, (p.anchor, p.members) ∈ startFamilies limit (names units) := by
        refine Fault.forall_of_mapM (fun family hfamily p hp => ?_) hstarts
        obtain ⟨confidence, -, hp⟩ := Fault.bind_eq_ok.mp hp
        obtain rfl := Except.ok.inj hp
        exact Naming.mem_startFamiliesFor hfamilies hfamily
      exact hall p hp
    · obtain ⟨base, -, rfl⟩ := List.mem_map.mp hp
      simp [lifecyclePattern] at hkind
    · obtain ⟨family, -, rfl⟩ := List.mem_map.mp hp
      simp [suffixPattern] at hkind

/-- A group of a common start lists some names of the family of the start among the free names, in its order. -/
lemma exists_family_of_group (h : (s.residualPrefixes units claimed).settle claimed = (.ok groups, after))
    (hg : g ∈ groups) : g.kind = .sharedPrefix ∧
      ∃ limit start members, (start, members) ∈ startFamilies limit (names (unclaimed claimed units)) ∧
        g.suggestedName = Naming.readable start ∧ g.memberNames.Sublist members := by
  let remaining := unclaimed claimed units
  obtain ⟨fs, hfs, hpropose⟩ := Detection.exists_propose_of_settle h
  obtain ⟨families, hfamilies, rfl⟩ := Fault.map_eq_ok.mp hfs
  rw [startGroups_eq_sweep] at hpropose
  have hswept := swept_of_propose (faithful_startTurn s remaining) hpropose
  obtain ⟨family, hfamily, now, f, -, -, hf, hfg⟩ := hswept.origin g hg
  obtain ⟨limit, hmem⟩ := Naming.mem_startFamiliesFor hfamilies hfamily
  obtain rfl := gathered_eq_some hf
  obtain ⟨hmembers, hkind, hname, -⟩ := startProposal_eq_ok hfg
  refine ⟨hkind, limit, family.1, family.2, hmem, hname, ?_⟩
  rw [GroupProposal.memberNames, hmembers]
  exact names_freeNamed_sublist remaining now family

/-- The order in which names that start alike are listed, in the patterns and in the groups of units with different
names. -/
theorem sharedPrefix_listedInTurn (s : Searcher) (units : List AnalyzedUnit) (hn : (names units).Nodup) :
    (∀ kind patterns, s.namingPatterns units kind = .ok patterns → ∀ p ∈ patterns, p.kind = .sharedPrefix →
      ListedInTurn (names units) (names units) p.anchor p.members) ∧
    ∀ claimed groups after, (s.residualPrefixes units claimed).settle claimed = (.ok groups, after) →
      ∀ g ∈ groups, g.kind = .sharedPrefix ∧ ∃ start, g.suggestedName = Naming.readable start ∧
        ListedInTurn (names units) (names (unclaimed claimed units)) start g.memberNames := by
  refine ⟨fun kind patterns h p hp hkind => ?_, fun claimed groups after h g hg => ?_⟩
  · obtain ⟨limit, hfamily⟩ := exists_family_of_pattern h hp hkind
    exact listedInTurn_of_sublist hn (List.Sublist.refl _) hfamily (List.Sublist.refl _)
  · obtain ⟨hkind, limit, start, members, hfamily, hname, hlisted⟩ := exists_family_of_group h hg
    have hfree : (names (unclaimed claimed units)).Sublist (names units) :=
      AnalyzedUnit.names_sublist List.filter_sublist
    exact ⟨hkind, start, hname, listedInTurn_of_sublist hn hfree hfamily hlisted⟩

/-- The first name brings both others, so that the pattern and the group are in document order. -/
theorem sharedPrefix_listedInTurn_summons :
    let s : Searcher := ⟨default, {}⟩
    let units : List AnalyzedUnit :=
      [{ name := "Summon_Skeleton" }, { name := "Heal" }, { name := "Summon_Bear" }, { name := "Summon-Zombie" }]
    let listed := ["Summon_Skeleton", "Summon_Bear", "Summon-Zombie"]
    (names units).Nodup ∧ ∃ patterns groups after, s.namingPatterns units .skillFile = .ok patterns ∧
      (s.residualPrefixes units []).settle [] = (.ok groups, after) ∧
      (patterns.map fun p => (p.kind, p.anchor, p.members)) = [(.sharedPrefix, "Summon", listed)] ∧
      groups.map GroupProposal.memberNames = [listed] ∧ listed.Sublist (names units) ∧
      (∀ p ∈ patterns, p.kind = .sharedPrefix → ListedInTurn (names units) (names units) p.anchor p.members) ∧
      ∀ g ∈ groups, ∃ start, ListedInTurn (names units) (names units) start g.memberNames := by
  intro s units listed
  have hn : (names units).Nodup := by decide
  obtain ⟨hpatterns, hgroups⟩ := sharedPrefix_listedInTurn s units hn
  have hready : s.Ready units := ⟨DetectorSettings.numeric_usual, by decide⟩
  obtain ⟨patterns, hp⟩ := namingPatterns_answers hready .skillFile
  obtain ⟨groups, after, hg⟩ := (s.residualPrefixes_sound units []).settle_eq_ok hready
  have hshown : (s.namingPatterns units .skillFile).toOption.map
      (List.map fun p => (p.kind, p.anchor, p.members)) = some [(.sharedPrefix, "Summon", listed)] := by
    decide +kernel
  have hlisted : ((s.residualPrefixes units []).settle []).1.toOption.map (List.map GroupProposal.memberNames) =
      some [listed] := by decide +kernel
  rw [hp] at hshown
  rw [hg] at hlisted
  have hmap := Option.some.inj hshown
  refine ⟨hn, patterns, groups, after, hp, hg, hmap, Option.some.inj hlisted, ?_,
    hpatterns .skillFile patterns hp, fun g hmem => ?_⟩
  · have hpattern := List.mem_singleton_self (GroupKind.sharedPrefix, "Summon", listed)
    obtain ⟨p, hpmem, he⟩ := List.mem_map.mp (hmap ▸ hpattern)
    obtain ⟨hkind, hanchor, hmembers⟩ : p.kind = .sharedPrefix ∧ p.anchor = "Summon" ∧ p.members = listed := by
      simpa using he
    have hturn := hpatterns .skillFile patterns hp p hpmem hkind
    rw [hanchor, hmembers] at hturn
    exact hturn.inOrder_iff.mpr (by decide +kernel)
  · obtain ⟨-, start, -, hturn⟩ := hgroups [] groups after hg g hmem
    exact ⟨start, hturn⟩

/-- The first name brings the second and the fourth. It shares more with the third, which the second brings. -/
theorem sharedPrefix_outOfOrder :
    let s : Searcher := ⟨.packaged, {}⟩
    let units : List AnalyzedUnit :=
      [{ name := "FireBallA" }, { name := "FireStorm" }, { name := "FireBallB" }, { name := "FireRain" }]
    let listed := ["FireBallA", "FireStorm", "FireRain", "FireBallB"]
    (names units).Nodup ∧
      ((s.namingPatterns units .skillFile).toOption.map fun ps =>
        (ps.filter fun p => p.kind == .sharedPrefix).map fun p => (p.anchor, p.members)) =
          some [("Fire", listed), ("FireBall", ["FireBallA", "FireBallB"])] ∧
      ((s.residualPrefixes units []).settle []).1.toOption.map (List.map GroupProposal.memberNames) =
        some [listed] ∧
      ¬listed.Sublist (names units) :=
  ⟨by decide, by decide +kernel, by decide +kernel, by decide⟩

end Searcher

end SkillAtlas
