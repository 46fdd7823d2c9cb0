import SkillAtlas.Proofs.Analysis.Stages
import SkillAtlas.Proofs.Grouping.Partition

/-!
# What all proposals have in common

A property that every search gives its proposals is one of all groups of a document. In particular all
groups and patterns have a number as their confidence if the settings give numbers.
-/

namespace SkillAtlas

/-- The proposal of a family, if there is one, has a property. -/
def Family.Yields (P : GroupProposal → Prop) (f : Family) : Prop :=
  ∀ p, f.proposal = .ok p → P p

/-- All proposals that come of a search have a property. -/
def Detection.Yields (P : GroupProposal → Prop) (d : Detection) : Prop :=
  ∀ fs, d.families = .ok fs → ∀ f ∈ fs, f.Yields P

section Search

variable {P : GroupProposal → Prop} {fs gs : List Family} {claimed after : List String}
  {ps : List GroupProposal} {find : List String → Detection} {p q : Progress}

lemma Family.yields_ofProposal {p : GroupProposal} (h : P p) : (Family.ofProposal p).Yields P := by
  intro q hq
  obtain rfl := Except.ok.inj hq
  exact h

lemma Family.forall_propose (hf : ∀ f ∈ fs, f.Yields P)
    (h : Family.propose claimed fs = (.ok ps, after)) : ∀ p ∈ ps, P p := by
  induction fs generalizing claimed ps with
  | nil =>
    obtain ⟨rfl, -⟩ := Family.propose_nil_eq_ok.mp h
    simp
  | cons f rest ih =>
    obtain ⟨hself, hrest⟩ := List.forall_mem_cons.mp hf
    obtain ⟨p, others, hp, ho, rfl⟩ := Family.propose_cons_eq_ok.mp h
    exact List.forall_mem_cons.mpr ⟨hself p hp, ih hrest ho⟩

lemma Detection.Yields.settle {d : Detection} (hd : d.Yields P)
    (h : d.settle claimed = (.ok ps, after)) : ∀ p ∈ ps, P p := by
  obtain ⟨fs, hf, hpropose⟩ := Detection.exists_propose_of_settle h
  exact Family.forall_propose (hd fs hf) hpropose

namespace Searcher

lemma forall_groups_of_advance (hf : ∀ claimed, (find claimed).Yields P)
    (h : (advance find p).outcome = .ok q) (hp : ∀ g ∈ p.groups, P g) : ∀ g ∈ q.groups, P g := by
  obtain ⟨ps, hs, hgroups⟩ := exists_settle_of_advance h
  rw [hgroups]
  exact List.forall_mem_append.mpr ⟨hp, (hf p.claimed).settle hs⟩

lemma forall_groups_of_search {kind : Search} (hf : ∀ claimed, (find claimed).Yields P)
    (h : (search kind find p).outcome = .ok q) (hp : ∀ g ∈ p.groups, P g) : ∀ g ∈ q.groups, P g :=
  forall_groups_of_advance hf (search_outcome kind find p ▸ h) hp

/-- Every search gives its proposals the property. -/
structure AllYield (s : Searcher) (units : List AnalyzedUnit) (g : CallGraph) (P : GroupProposal → Prop) :
    Prop where
  lifecycle : ∀ claimed, (s.lifecycleFamilies units claimed).Yields P
  variants : ∀ claimed, (s.variantFamilies units claimed).Yields P
  document : ∀ claimed, (s.documentPrefix units claimed).Yields P
  chains : ∀ claimed, (s.callChains units g claimed).Yields P
  starts : ∀ claimed, (s.residualPrefixes units claimed).Yields P
  suffixes : ∀ claimed, (s.residualSuffixes units claimed).Yields P

variable {s : Searcher} {units : List AnalyzedUnit} {g : CallGraph} {kind : ContextKind}

lemma AllYield.secondSearch (hs : s.AllYield units g P) (h : (s.secondSearch units kind p).outcome = .ok q)
    (hp : ∀ g ∈ p.groups, P g) : ∀ g ∈ q.groups, P g := by
  cases kind with
  | mob => exact forall_groups_of_search hs.variants h hp
  | skillFile =>
    unfold Searcher.secondSearch at h
    dsimp only at h
    split at h
    · exact forall_groups_of_search hs.document h hp
    · obtain rfl := Except.ok.inj h
      exact hp

lemma AllYield.lastSearch (hs : s.AllYield units g P) (h : (s.lastSearch units kind p).outcome = .ok q)
    (hp : ∀ g ∈ p.groups, P g) : ∀ g ∈ q.groups, P g := by
  cases kind with
  | mob =>
    obtain rfl := Except.ok.inj h
    exact hp
  | skillFile =>
    obtain ⟨starts, hstarts, hsuffixes⟩ := lastSearch_skillFile_eq_ok.mp h
    exact forall_groups_of_advance hs.suffixes hsuffixes (forall_groups_of_advance hs.starts hstarts hp)

/-- What every search gives its proposals, all groups have. -/
theorem AllYield.forall_groups (hs : s.AllYield units g P) {r : Grouping}
    (h : (s.synthesize units g kind).outcome = .ok r) : ∀ p ∈ r.groups, P p := by
  obtain ⟨first, second, third, last, hrun, rfl⟩ := exists_run_of_synthesize h
  have hfirst := forall_groups_of_search hs.lifecycle hrun.lifecycle (by simp)
  have hsecond := hs.secondSearch hrun.second hfirst
  exact hs.lastSearch hrun.last (forall_groups_of_search hs.chains hrun.chains hsecond)

end Searcher

end Search

/-- The confidences are numbers. -/
structure DetectorSettings.Graded (d : DetectorSettings) : Prop where
  lifecycleExplicitConfidence : d.lifecycleExplicitConfidence.number?.isSome
  lifecycleNamingConfidence : d.lifecycleNamingConfidence.number?.isSome
  variantFamilyConfidence : d.variantFamilyConfidence.number?.isSome
  documentPrefixConfidence : d.documentPrefixConfidence.number?.isSome
  callChainConfidence : d.callChainConfidence.number?.isSome
  prefixBaseConfidence : d.prefixBaseConfidence.number?.isSome
  prefixMaxConfidence : d.prefixMaxConfidence.number?.isSome
  suffixPatternConfidence : d.suffixPatternConfidence.number?.isSome

namespace Value

lemma onNumbers_number? {whole : Int → Int → Int} {real : Float → Float → Float} {m n : Number} {v : Value}
    (h : onNumbers whole real m n = .ok v) : v.number?.isSome := by
  unfold onNumbers at h
  split at h
  · obtain rfl := Except.ok.inj h
    rfl
  · obtain ⟨x, -, h⟩ := Fault.bind_eq_ok.mp h
    obtain ⟨y, -, h⟩ := Fault.bind_eq_ok.mp h
    obtain rfl := Except.ok.inj h
    rfl

/-- What is added to a number is one. -/
lemma number?_of_add {a b v : Value} (ha : a.number?.isSome) (h : a.add b = .ok v) : v.number?.isSome := by
  obtain ⟨m, hm⟩ := Option.isSome_iff_exists.mp ha
  unfold add at h
  cases hn : b.number? with
  | some n =>
    rw [hm, hn] at h
    exact onNumbers_number? h
  | none =>
    rw [hm, hn] at h
    cases a <;> simp [number?, integer?] at hm <;> simp at h

lemma number?_of_minOf {a b v : Value} (ha : a.number?.isSome) (hb : b.number?.isSome)
    (h : a.minOf b = .ok v) : v.number?.isSome := by
  obtain ⟨less, -, h⟩ := Fault.bind_eq_ok.mp h
  obtain rfl := Except.ok.inj h
  split
  · exact hb
  · exact ha

end Value

/-- The proposal has a number as its confidence. -/
def GroupProposal.Graded (p : GroupProposal) : Prop :=
  p.confidence.number?.isSome

namespace Searcher

variable {s : Searcher} {units us : List AnalyzedUnit} {claimed : List String}

lemma number?_of_startConfidence (hd : s.settings.Graded) {count v : Value}
    (h : s.startConfidence count = .ok v) : v.number?.isSome := by
  obtain ⟨steps, -, h⟩ := Fault.bind_eq_ok.mp h
  obtain ⟨sum, hsum, h⟩ := Fault.bind_eq_ok.mp h
  exact Value.number?_of_minOf hd.prefixMaxConfidence (Value.number?_of_add hd.prefixBaseConfidence hsum) h

lemma graded_drivenFamilies (hd : s.settings.Graded) :
    ∀ f ∈ Encounter.families (s.drivenFamilies units claimed us), f.Yields GroupProposal.Graded := by
  induction us generalizing claimed with
  | nil => simp [drivenFamilies, Encounter.families]
  | cons u rest ih =>
    unfold drivenFamilies
    split
    · exact ih
    · split
      · exact ih
      · rename_i f hf
        unfold drivenFamily? at hf
        dsimp only at hf
        split at hf
        · simp at hf
        · obtain rfl := Option.some.inj hf
          refine List.forall_mem_cons.mpr ⟨Family.yields_ofProposal ?_, ih⟩
          unfold GroupProposal.Graded drivenProposal
          dsimp only
          split
          · exact hd.lifecycleExplicitConfidence
          · exact hd.lifecycleNamingConfidence

lemma graded_namedFamilies (hd : s.settings.Graded) :
    ∀ f ∈ s.namedFamilies units claimed us, f.Yields GroupProposal.Graded := by
  induction us generalizing claimed with
  | nil => simp [namedFamilies]
  | cons u rest ih =>
    unfold namedFamilies
    split
    · exact ih
    · rename_i f hf
      refine List.forall_mem_cons.mpr ⟨?_, ih⟩
      split at hf
      · simp at hf
      · obtain ⟨base, -, hf⟩ := Option.bind_eq_some_iff.mp hf
        dsimp only at hf
        split at hf
        · simp at hf
        · obtain rfl := Option.some.inj hf
          exact Family.yields_ofProposal hd.lifecycleNamingConfidence

lemma graded_variantFamiliesFrom (hd : s.settings.Graded) :
    ∀ f ∈ Encounter.families (s.variantFamiliesFrom units claimed us), f.Yields GroupProposal.Graded := by
  induction us generalizing claimed with
  | nil => simp [variantFamiliesFrom, Encounter.families]
  | cons u rest ih =>
    unfold variantFamiliesFrom
    split
    · exact ih
    · split
      · exact ih
      · rename_i f hf
        obtain ⟨base, -, rfl⟩ := Option.map_eq_some_iff.mp hf
        exact List.forall_mem_cons.mpr ⟨Family.yields_ofProposal hd.variantFamilyConfidence, ih⟩

lemma graded_documentPrefix (hd : s.settings.Graded) (units : List AnalyzedUnit) (claimed : List String) :
    (s.documentPrefix units claimed).Yields GroupProposal.Graded := by
  have hnone : ∀ notes, ({ notes, families := .ok [] } : Detection).Yields GroupProposal.Graded := by
    intro notes fs hfs
    obtain rfl := Except.ok.inj hfs
    simp
  unfold documentPrefix documentStartFor
  dsimp only
  split
  · exact hnone []
  · split
    · intro fs hfs
      simp at hfs
    · split
      · exact hnone _
      · split
        · exact hnone _
        · intro fs hfs
          obtain rfl := Except.ok.inj hfs
          exact List.forall_mem_singleton.mpr (Family.yields_ofProposal hd.documentPrefixConfidence)

lemma graded_chainsFrom (hd : s.settings.Graded) (g : CallGraph) (visited roots : List String) :
    ∀ f ∈ s.chainsFrom units g claimed visited roots, f.Yields GroupProposal.Graded := by
  induction roots generalizing claimed visited with
  | nil => simp [chainsFrom]
  | cons root rest ih =>
    unfold chainsFrom
    split
    · exact ih visited
    · dsimp only
      split
      · exact ih _
      · refine List.forall_mem_cons.mpr ⟨fun p hp => ?_, ih _⟩
        obtain ⟨-, -, hconfidence⟩ := chainProposal_eq_ok hp
        rw [GroupProposal.Graded, hconfidence]
        exact hd.callChainConfidence

lemma graded_startGroups (hd : s.settings.Graded) (remaining : List AnalyzedUnit)
    (families : List (String × List String)) :
    ∀ f ∈ s.startGroups remaining claimed families, f.Yields GroupProposal.Graded := by
  induction families generalizing claimed with
  | nil => simp [startGroups]
  | cons family rest ih =>
    unfold startGroups
    dsimp only
    split
    · exact ih
    · refine List.forall_mem_cons.mpr ⟨fun p hp => ?_, ih⟩
      obtain ⟨-, -, -, hconfidence⟩ := startProposal_eq_ok hp
      exact number?_of_startConfidence hd hconfidence

lemma graded_suffixGroups (hd : s.settings.Graded) (remaining : List AnalyzedUnit)
    (families : List (String × List String)) :
    ∀ f ∈ s.suffixGroups remaining claimed families, f.Yields GroupProposal.Graded := by
  induction families generalizing claimed with
  | nil => simp [suffixGroups]
  | cons family rest ih =>
    unfold suffixGroups
    dsimp only
    split
    · exact ih
    · exact List.forall_mem_cons.mpr ⟨Family.yields_ofProposal hd.suffixPatternConfidence, ih⟩

lemma allYield_graded (hd : s.settings.Graded) (units : List AnalyzedUnit) (g : CallGraph) :
    s.AllYield units g GroupProposal.Graded where
  lifecycle claimed fs hfs := by
    obtain rfl := Except.ok.inj hfs
    exact List.forall_mem_append.mpr ⟨graded_drivenFamilies hd, graded_namedFamilies hd⟩
  variants claimed fs hfs := by
    obtain rfl := Except.ok.inj hfs
    exact graded_variantFamiliesFrom hd
  document := graded_documentPrefix hd units
  chains claimed fs hfs := by
    obtain rfl := Except.ok.inj hfs
    exact graded_chainsFrom hd g _ _
  starts claimed fs hfs := by
    obtain ⟨families, -, rfl⟩ := Fault.map_eq_ok.mp hfs
    exact graded_startGroups hd _ families
  suffixes claimed fs hfs := by
    obtain rfl := Except.ok.inj hfs
    exact graded_suffixGroups hd _ _

lemma graded_patterns (hd : s.settings.Graded) {kind : ContextKind} {ps : List NamingPattern}
    (h : s.namingPatterns units kind = .ok ps) : ∀ p ∈ ps, p.confidence.number?.isSome := by
  cases kind with
  | mob =>
    obtain rfl := Except.ok.inj h
    intro p hp
    obtain ⟨name, -, hp⟩ := List.mem_filterMap.mp hp
    unfold variantPattern? at hp
    split at hp
    · simp at hp
    · obtain ⟨base, -, rfl⟩ := Option.map_eq_some_iff.mp hp
      exact hd.variantFamilyConfidence
  | skillFile =>
    obtain ⟨starts, hstarts, h⟩ := Fault.bind_eq_ok.mp h
    obtain rfl := Except.ok.inj h
    obtain ⟨families, -, hstarts⟩ := Fault.bind_eq_ok.mp hstarts
    have hgraded : ∀ p ∈ starts, p.confidence.number?.isSome := by
      refine Fault.forall_of_mapM (fun family _ p hp => ?_) hstarts
      obtain ⟨confidence, hc, hp⟩ := Fault.bind_eq_ok.mp hp
      obtain rfl := Except.ok.inj hp
      exact number?_of_startConfidence hd hc
    refine List.forall_mem_append.mpr ⟨List.forall_mem_append.mpr ⟨hgraded, ?_⟩, ?_⟩
    · exact List.forall_mem_map.mpr fun base _ => hd.lifecycleNamingConfidence
    · exact List.forall_mem_map.mpr fun family _ => hd.suffixPatternConfidence

end Searcher

end SkillAtlas
