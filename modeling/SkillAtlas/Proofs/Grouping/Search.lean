import SkillAtlas.Grouping.Variant
import SkillAtlas.Proofs.Distinct
import SkillAtlas.Proofs.Graph.Routes
import SkillAtlas.Proofs.Grouping.Confidence
import SkillAtlas.Proofs.Grouping.Family
import SkillAtlas.Proofs.Text.Joined

/-!
# Every search is sound

Each of the six searches looks units up in its own way: by exact name, by the first name that is alike,
along calls, or by a common start. In each of them a family is drawn from the units that are still free,
and the rest of the search goes on with the names of the family claimed.
-/

namespace SkillAtlas

open AnalyzedUnit (names named? anyCase? unclaimed)

section Satellites

variable {v : Vocabulary} {units : List AnalyzedUnit} {base : String} {u : AnalyzedUnit}

lemma names_satellites_nodup (v : Vocabulary) (units : List AnalyzedUnit) (base : String) :
    (names (satellites v units base)).Nodup :=
  nodup_foldl_addMember (by simp [names])

/-- A satellite is a unit other than its base: its name is longer than that of the base. -/
lemma mem_satellites (h : u ∈ satellites v units base) : u ∈ units ∧ u.name ≠ base := by
  rcases mem_foldl_addMember h with hm | ⟨hm, -⟩
  · simp at hm
  · obtain ⟨candidate, hc, hu⟩ := List.mem_filterMap.mp hm
    obtain ⟨suffix, -, hc⟩ := List.mem_flatMap.mp hc
    obtain ⟨hunits, hlower⟩ := AnalyzedUnit.anyCase?_eq_some hu
    refine ⟨hunits, fun he => ?_⟩
    rw [he] at hlower
    have hne (sep : String) (hsep : Text.lowerChars sep.toList ≠ []) :
        Text.lower (base ++ sep ++ suffix) ≠ Text.lower base := by
      rw [String.append_assoc]
      refine Text.lower_append_ne fun hnil => hsep ?_
      have hlen := congrArg List.length hnil
      rw [String.toList_append, Text.length_lowerChars_append] at hlen
      exact List.eq_nil_of_length_eq_zero (by simp only [List.length_nil] at hlen; omega)
    simp only [List.mem_cons, List.not_mem_nil, or_false] at hc
    rcases hc with rfl | rfl
    · exact hne "-" (by decide) hlower.symm
    · exact hne "_" (by decide) hlower.symm

end Satellites

namespace Searcher

variable {s : Searcher} {units : List AnalyzedUnit} {claimed : List String} {u : AnalyzedUnit}
  {us : List AnalyzedUnit} {f : Family}

lemma drivenFamily?_drawn (hu : u ∈ units) (hc : u.name ∉ claimed)
    (h : s.drivenFamily? units claimed u = some f) :
    Drawn units claimed f.members ∧ f.Proposes .lifecycleSuffixes (s.Ready units) := by
  unfold drivenFamily? at h
  dsimp only at h
  split at h
  · simp at h
  · rename_i htwo
    obtain rfl := Option.some.inj h
    have hmem : ∀ w ∈ (satellites s.vocabulary units u.name).foldl (addMember claimed)
        (withTargets units claimed u), w ∈ units ∧ w.name ∉ claimed := by
      intro w hw
      rcases mem_foldl_addMember hw with hw | ⟨hw, hn⟩
      · rcases mem_foldl_addMember hw with hw | ⟨hw, hn⟩
        · obtain rfl := List.mem_singleton.mp hw
          exact ⟨hu, hc⟩
        · obtain ⟨c, -, hw⟩ := List.mem_filterMap.mp hw
          exact ⟨(AnalyzedUnit.named?_eq_some hw).1, hn⟩
      · exact ⟨(mem_satellites hw).1, hn⟩
    refine ⟨⟨Nat.not_lt.mp htwo, ?_, fun w hw => (hmem w hw).1, fun w hw => (hmem w hw).2⟩,
      Family.proposes_ofProposal (by rfl) _⟩
    exact nodup_foldl_addMember (nodup_foldl_addMember (by simp [names]))

lemma drivenFamilies_sound (hus : us ⊆ units) :
    Family.Sound units claimed .lifecycleSuffixes (s.Ready units)
      (Encounter.families (s.drivenFamilies units claimed us)) := by
  induction us generalizing claimed with
  | nil => exact .nil
  | cons u rest ih =>
    have hrest : rest ⊆ units := fun w hw => hus (List.mem_cons_of_mem u hw)
    unfold drivenFamilies
    split
    · exact ih hrest
    · rename_i hc
      simp only [Bool.or_eq_true, List.contains_eq_mem, decide_eq_true_eq, not_or] at hc
      split
      · exact ih hrest
      · rename_i f hf
        obtain ⟨hd, hp⟩ := drivenFamily?_drawn (hus List.mem_cons_self) hc.1 hf
        exact .cons hd hp (ih hrest)

lemma namedFamily?_drawn (h : s.namedFamily? units claimed u = some f) :
    Drawn units claimed f.members ∧ f.Proposes .lifecycleSuffixes (s.Ready units) := by
  unfold namedFamily? at h
  obtain ⟨base, hb, h⟩ := Option.bind_eq_some_iff.mp h
  obtain ⟨hb, hc⟩ := Option.filter_eq_some_iff.mp hb
  have hc : base.name ∉ claimed := by simpa using hc
  have hbase : base ∈ units := by
    unfold lifecycleBaseOf? at hb
    obtain ⟨n, -, hb⟩ := Option.bind_eq_some_iff.mp hb
    exact (AnalyzedUnit.anyCase?_eq_some (Option.filter_eq_some_iff.mp hb).1).1
  dsimp only at h
  split at h
  · simp at h
  · rename_i htwo
    obtain rfl := Option.some.inj h
    refine ⟨⟨Nat.not_lt.mp htwo, ?_, ?_, ?_⟩, Family.proposes_ofProposal (by rfl) _⟩
    · refine List.nodup_cons.mpr ⟨fun hm => ?_, ?_⟩
      · obtain ⟨w, hw, he⟩ := List.mem_map.mp hm
        exact (mem_satellites (AnalyzedUnit.mem_unclaimed.mp hw).1).2 he
      · exact (names_satellites_nodup s.vocabulary units base.name).sublist
          (AnalyzedUnit.names_sublist List.filter_sublist)
    · refine List.forall_mem_cons.mpr ⟨hbase, fun w hw => ?_⟩
      exact (mem_satellites (AnalyzedUnit.mem_unclaimed.mp hw).1).1
    · exact List.forall_mem_cons.mpr ⟨hc, fun w hw => (AnalyzedUnit.mem_unclaimed.mp hw).2⟩

lemma namedFamilies_sound (us : List AnalyzedUnit) :
    Family.Sound units claimed .lifecycleSuffixes (s.Ready units) (s.namedFamilies units claimed us) := by
  induction us generalizing claimed with
  | nil => exact .nil
  | cons u rest ih =>
    unfold namedFamilies
    split
    · exact ih
    · rename_i f hf
      split at hf
      · simp at hf
      · obtain ⟨hd, hp⟩ := namedFamily?_drawn hf
        exact .cons hd hp ih

theorem lifecycleFamilies_sound (s : Searcher) (units : List AnalyzedUnit) (claimed : List String) :
    (s.lifecycleFamilies units claimed).Sound units claimed .lifecycleSuffixes (s.Ready units) := by
  refine .of_ok rfl ?_
  exact (drivenFamilies_sound (List.Subset.refl units)).append (namedFamilies_sound units)

lemma variantFamily?_drawn (hu : u ∈ units) (hc : u.name ∉ claimed)
    (h : s.variantFamily? units claimed u = some f) :
    Drawn units claimed f.members ∧ f.Proposes .mobVariants (s.Ready units) := by
  unfold variantFamily? at h
  obtain ⟨base, hb, rfl⟩ := Option.map_eq_some_iff.mp h
  unfold variantBase? at hb
  obtain ⟨n, -, hb⟩ := List.exists_of_findSome?_eq_some hb
  obtain ⟨hb, hfree⟩ := Option.filter_eq_some_iff.mp hb
  simp only [bne_iff_ne, ne_eq, List.contains_eq_mem, Bool.and_eq_true, Bool.not_eq_true',
    decide_eq_false_iff_not] at hfree
  have hbase := (AnalyzedUnit.anyCase?_eq_some hb).1
  have hmem : ∀ w ∈ (units.filter (s.derivesFrom base)).foldl (addMember claimed) [base, u],
      w ∈ units ∧ w.name ∉ claimed := by
    intro w hw
    rcases mem_foldl_addMember hw with hw | ⟨hw, hn⟩
    · simp only [List.mem_cons, List.not_mem_nil, or_false] at hw
      rcases hw with rfl | rfl
      · exact ⟨hbase, hfree.2⟩
      · exact ⟨hu, hc⟩
    · exact ⟨(List.mem_filter.mp hw).1, hn⟩
  refine ⟨⟨?_, ?_, fun w hw => (hmem w hw).1, fun w hw => (hmem w hw).2⟩,
    Family.proposes_ofProposal (by rfl) _⟩
  · show [base, u].length ≤ _
    exact sublist_foldl_addMember.length_le
  · exact nodup_foldl_addMember (by simpa [names] using hfree.1)

lemma variantFamiliesFrom_sound (hus : us ⊆ units) :
    Family.Sound units claimed .mobVariants (s.Ready units)
      (Encounter.families (s.variantFamiliesFrom units claimed us)) := by
  induction us generalizing claimed with
  | nil => exact .nil
  | cons u rest ih =>
    have hrest : rest ⊆ units := fun w hw => hus (List.mem_cons_of_mem u hw)
    unfold variantFamiliesFrom
    split
    · exact ih hrest
    · rename_i hc
      simp only [Bool.or_eq_true, List.contains_eq_mem, decide_eq_true_eq, not_or] at hc
      split
      · exact ih hrest
      · rename_i f hf
        obtain ⟨hd, hp⟩ := variantFamily?_drawn (hus List.mem_cons_self) hc.1 hf
        exact .cons hd hp (ih hrest)

theorem variantFamilies_sound (s : Searcher) (units : List AnalyzedUnit) (claimed : List String) :
    (s.variantFamilies units claimed).Sound units claimed .mobVariants (s.Ready units) := by
  exact .of_ok rfl (variantFamiliesFrom_sound (List.Subset.refl units))

lemma documentStartFor_sound (s : Searcher) (limit : Number) {remaining : List AnalyzedUnit}
    (hd : Drawn units claimed remaining) :
    (s.documentStartFor limit remaining).Sound units claimed .documentPrefix (s.Ready units) := by
  unfold documentStartFor
  dsimp only
  split
  · exact .of_ok rfl .nil
  · split
    · exact .of_ok rfl .nil
    · exact .of_ok rfl (.cons hd (Family.proposes_ofProposal (by rfl) _) .nil)

theorem documentPrefix_sound (s : Searcher) (hn : (names units).Nodup) (claimed : List String) :
    (s.documentPrefix units claimed).Sound units claimed .documentPrefix (s.Ready units) := by
  unfold documentPrefix
  dsimp only
  split
  · exact .of_ok rfl .nil
  · rename_i htwo
    have hd : Drawn units claimed (unclaimed claimed units) :=
      ⟨Nat.not_lt.mp htwo, hn.sublist (AnalyzedUnit.names_sublist List.filter_sublist),
        fun w hw => (AnalyzedUnit.mem_unclaimed.mp hw).1, fun w hw => (AnalyzedUnit.mem_unclaimed.mp hw).2⟩
    split
    · rename_i hnone
      refine ⟨by simp, fun hr => ?_⟩
      have hsome := hr.1.documentPrefixMinLength
      rw [hnone] at hsome
      simp at hsome
    · exact s.documentStartFor_sound _ hd

/-- Units looked up for distinct names that are not claimed are a family, if they are two. -/
lemma drawn_of_named {ns : List String} (hn : ns.Nodup) (hk : us ⊆ units)
    (htwo : ¬((ns.filter fun n => !claimed.contains n).filterMap (named? us)).length < 2) :
    Drawn units claimed ((ns.filter fun n => !claimed.contains n).filterMap (named? us)) where
  two := Nat.not_lt.mp htwo
  distinct := (hn.sublist List.filter_sublist).sublist (AnalyzedUnit.names_filterMap_named us _)
  known u hu := by
    obtain ⟨n, -, hu⟩ := List.mem_filterMap.mp hu
    exact hk (AnalyzedUnit.named?_eq_some hu).1
  free u hu := by
    obtain ⟨n, hm, hu⟩ := List.mem_filterMap.mp hu
    rw [(AnalyzedUnit.named?_eq_some hu).2]
    simpa using (List.mem_filter.mp hm).2

lemma nodup_cons_transitiveCalls (g : CallGraph) (root : String) (visited : List String) :
    (root :: (g.transitiveCalls root).filter fun n => !visited.contains n).Nodup := by
  refine List.nodup_cons.mpr ⟨fun hm => ?_, ?_⟩
  · obtain ⟨r, hr, he⟩ := List.mem_map.mp (List.mem_filter.mp hm).1
    exact (mem_routesFrom hr).2.2 he
  · exact (nodup_last_routesFrom g.nodes g.successors root).sublist List.filter_sublist

lemma chainProposal_eq_ok {root : String} {length : Nat} {members : List AnalyzedUnit} {p : GroupProposal}
    (h : s.chainProposal root length members = .ok p) :
    p.members = members ∧ p.kind = .callChain ∧ p.confidence = s.settings.callChainConfidence := by
  obtain ⟨name, -, h⟩ := Fault.bind_eq_ok.mp h
  obtain rfl := Except.ok.inj h
  exact ⟨rfl, rfl, rfl⟩

lemma proposes_chain (s : Searcher) (root : String) (length : Nat) (members : List AnalyzedUnit) :
    Family.Proposes .callChain (s.Ready units) ⟨members, s.chainProposal root length members⟩ where
  faithful p hp := by
    obtain ⟨hmembers, hkind, -⟩ := chainProposal_eq_ok hp
    exact ⟨hmembers, hkind⟩
  worded hr := by
    obtain ⟨name, hg⟩ := groupName_eq_ok hr.1.groupNameMinPrefix (names members) root
    exact ⟨_, by simp only [chainProposal, hg, bind, Except.bind]; rfl⟩

lemma chainsFrom_sound (g : CallGraph) (visited roots : List String) :
    Family.Sound units claimed .callChain (s.Ready units) (s.chainsFrom units g claimed visited roots) := by
  induction roots generalizing claimed visited with
  | nil => exact .nil
  | cons root rest ih =>
    unfold chainsFrom
    split
    · exact ih visited
    · dsimp only
      split
      · exact ih _
      · rename_i htwo
        exact .cons (drawn_of_named (nodup_cons_transitiveCalls g root visited)
          (List.Subset.refl units) htwo) (proposes_chain s _ _ _) (ih _)

theorem callChains_sound (s : Searcher) (units : List AnalyzedUnit) (g : CallGraph)
    (claimed : List String) : (s.callChains units g claimed).Sound units claimed .callChain (s.Ready units) :=
  .of_ok rfl (chainsFrom_sound g [] g.chainStarts)

lemma nodup_startFamilies (limit : Number) (ns : List String) :
    ∀ family ∈ Naming.startFamilies limit ns, family.2.Nodup := by
  intro family hf
  obtain ⟨⟨start, members⟩, -, rfl⟩ := List.mem_map.mp hf
  exact nodup_eraseDups _

lemma nodup_startFamiliesFor {limit : Value} {ns : List String} {families : List (String × List String)}
    (h : Naming.startFamiliesFor limit ns = .ok families) : ∀ family ∈ families, family.2.Nodup := by
  unfold Naming.startFamiliesFor at h
  split at h
  · obtain rfl := Except.ok.inj h
    simp
  · obtain rfl := Except.ok.inj h
    simp
  · split at h
    · obtain rfl := Except.ok.inj h
      exact nodup_startFamilies _ _
    · simp at h

lemma startProposal_eq_ok {start : String} {members : List AnalyzedUnit} {p : GroupProposal}
    (h : s.startProposal start members = .ok p) :
    p.members = members ∧ p.kind = .sharedPrefix ∧ p.suggestedName = Naming.readable start ∧
      s.startConfidence (.int members.length) = .ok p.confidence := by
  obtain ⟨confidence, hc, h⟩ := Fault.bind_eq_ok.mp h
  obtain rfl := Except.ok.inj h
  exact ⟨rfl, rfl, rfl, hc⟩

lemma proposes_start (s : Searcher) (start : String) {members : List AnalyzedUnit}
    (hd : Drawn units claimed members) :
    Family.Proposes .sharedPrefix (s.Ready units) ⟨members, s.startProposal start members⟩ where
  faithful p hp := by
    obtain ⟨hmembers, hkind, -⟩ := startProposal_eq_ok hp
    exact ⟨hmembers, hkind⟩
  worded hr := by
    obtain ⟨c, hc⟩ := startConfidence_eq_ok hr.1 (lt_of_le_of_lt hd.length_le hr.2)
    exact ⟨_, by simp only [startProposal, hc, bind, Except.bind]; rfl⟩

lemma startGroups_sound {remaining : List AnalyzedUnit} (hk : remaining ⊆ units)
    {families : List (String × List String)} (hn : ∀ family ∈ families, family.2.Nodup) :
    Family.Sound units claimed .sharedPrefix (s.Ready units) (s.startGroups remaining claimed families) := by
  induction families generalizing claimed with
  | nil => exact .nil
  | cons family rest ih =>
    obtain ⟨hf, hr⟩ := List.forall_mem_cons.mp hn
    unfold startGroups
    dsimp only
    split
    · exact ih hr
    · rename_i htwo
      have hd := drawn_of_named hf hk htwo
      exact .cons hd (proposes_start s _ hd) (ih hr)

theorem residualPrefixes_sound (s : Searcher) (units : List AnalyzedUnit) (claimed : List String) :
    (s.residualPrefixes units claimed).Sound units claimed .sharedPrefix (s.Ready units) := by
  constructor
  · intro fs hfs
    obtain ⟨families, hf, rfl⟩ := Fault.map_eq_ok.mp hfs
    exact startGroups_sound (List.filter_subset_self _) (nodup_startFamiliesFor hf)
  · intro hr
    obtain ⟨families, hf⟩ := startFamiliesFor_eq_ok hr.1 (names (unclaimed claimed units))
    exact ⟨_, by simp only [residualPrefixes, hf, Except.map]; rfl⟩

lemma suffixGroups_sound {remaining : List AnalyzedUnit} (hk : remaining.Sublist units)
    (hn : (names units).Nodup) (families : List (String × List String)) :
    Family.Sound units claimed .lifecycleSuffixes (s.Ready units) (s.suffixGroups remaining claimed families) := by
  induction families generalizing claimed with
  | nil => exact .nil
  | cons family rest ih =>
    unfold suffixGroups
    dsimp only
    split
    · exact ih
    · rename_i htwo
      refine .cons ⟨Nat.not_lt.mp htwo, ?_, ?_, ?_⟩ (Family.proposes_ofProposal (by rfl) _) ih
      · exact hn.sublist (AnalyzedUnit.names_sublist
          ((List.filter_sublist.trans List.filter_sublist).trans hk))
      · exact fun w hw => hk.subset (List.mem_filter.mp (AnalyzedUnit.mem_unclaimed.mp hw).1).1
      · exact fun w hw => (AnalyzedUnit.mem_unclaimed.mp hw).2

theorem residualSuffixes_sound (s : Searcher) (hn : (names units).Nodup) (claimed : List String) :
    (s.residualSuffixes units claimed).Sound units claimed .lifecycleSuffixes (s.Ready units) := by
  exact .of_ok rfl (suffixGroups_sound List.filter_sublist hn _)

end Searcher

end SkillAtlas
