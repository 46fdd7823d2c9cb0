import SkillAtlas.Grouping.Pattern
import SkillAtlas.Proofs.Grouping.Partition
import SkillAtlas.Proofs.Naming.Starts

/-!
# Groups and patterns for any units

With settings that are numbers the searches give a result also when units share a name, and so do the
patterns of names.
-/

namespace SkillAtlas

open AnalyzedUnit (names unclaimed)

/-- The search finds families, and each is put into words. -/
def Detection.Answers (d : Detection) : Prop :=
  ∃ fs, d.families = .ok fs ∧ ∀ f ∈ fs, ∃ p, f.proposal = .ok p

namespace Searcher

lemma advance_answers {find : List String → Detection} (h : ∀ claimed, (find claimed).Answers)
    (p : Progress) : ∃ q, (advance find p).outcome = .ok q := by
  obtain ⟨fs, hfs, hworded⟩ := h p.claimed
  obtain ⟨ps, after, hpropose⟩ := Family.propose_eq_ok p.claimed hworded
  refine ⟨⟨p.groups ++ ps, after⟩, ?_⟩
  simp only [advance_outcome, Detection.settle, hfs, hpropose, Except.map]

variable {s : Searcher} {units : List AnalyzedUnit}

lemma documentPrefix_answers (hs : s.settings.Numeric) (units : List AnalyzedUnit)
    (claimed : List String) : (s.documentPrefix units claimed).Answers := by
  obtain ⟨limit, hlimit⟩ := Option.isSome_iff_exists.mp hs.documentPrefixMinLength
  unfold documentPrefix documentStartFor
  dsimp only
  rw [hlimit]
  split
  · exact ⟨[], rfl, by simp⟩
  · dsimp only
    split
    · exact ⟨[], rfl, by simp⟩
    · split
      · exact ⟨[], rfl, by simp⟩
      · exact ⟨_, rfl, List.forall_mem_singleton.mpr ⟨_, rfl⟩⟩

lemma suffixGroups_worded (s : Searcher) (remaining : List AnalyzedUnit) (claimed : List String)
    (families : List (String × List String)) :
    ∀ f ∈ s.suffixGroups remaining claimed families, ∃ p, f.proposal = .ok p := by
  induction families generalizing claimed with
  | nil => simp [suffixGroups]
  | cons family rest ih =>
    unfold suffixGroups
    dsimp only
    split
    · exact ih claimed
    · exact List.forall_mem_cons.mpr ⟨⟨_, rfl⟩, ih _⟩

lemma residualSuffixes_answers (s : Searcher) (units : List AnalyzedUnit) (claimed : List String) :
    (s.residualSuffixes units claimed).Answers :=
  ⟨_, rfl, s.suffixGroups_worded _ _ _⟩

lemma secondSearch_answers (hr : s.Ready units) (kind : ContextKind) (p : Progress) :
    ∃ q, (s.secondSearch units kind p).outcome = .ok q := by
  cases kind with
  | mob => exact search_eq_ok (s.variantFamilies_sound units) hr p
  | skillFile =>
    unfold secondSearch
    dsimp only
    split
    · rw [search_outcome]
      exact advance_answers (documentPrefix_answers hr.1 units) p
    · exact ⟨p, rfl⟩

lemma lastSearch_answers (hr : s.Ready units) (kind : ContextKind) (p : Progress) :
    ∃ q, (s.lastSearch units kind p).outcome = .ok q := by
  cases kind with
  | mob => exact ⟨p, rfl⟩
  | skillFile =>
    obtain ⟨q, hq⟩ := advance_eq_ok (s.residualPrefixes_sound units) hr p
    obtain ⟨t, ht⟩ := advance_answers (s.residualSuffixes_answers units) q
    exact ⟨t, lastSearch_skillFile_eq_ok.mpr ⟨q, hq, ht⟩⟩

/-- The grouping of any units gives a result. -/
theorem synthesize_answers (hr : s.Ready units) (g : CallGraph) (kind : ContextKind) :
    ∃ r, (s.synthesize units g kind).outcome = .ok r := by
  obtain ⟨p, hp⟩ : ∃ p, (search .lifecycle (s.lifecycleFamilies units) {}).outcome = .ok p :=
    search_eq_ok (s.lifecycleFamilies_sound units) hr {}
  obtain ⟨q, hq⟩ := secondSearch_answers hr kind p
  obtain ⟨t, ht⟩ : ∃ t, (search .callChains (s.callChains units g) q).outcome = .ok t :=
    search_eq_ok (s.callChains_sound units g) hr q
  obtain ⟨w, hw⟩ := lastSearch_answers hr kind t
  exact ⟨_, Run.synthesize ⟨hp, hq, ht, hw⟩⟩

end Searcher

lemma subset_of_startFamiliesFor {limit : Value} {ns : List String} {families : List (String × List String)}
    (h : Naming.startFamiliesFor limit ns = .ok families) : ∀ family ∈ families, family.2 ⊆ ns := by
  unfold Naming.startFamiliesFor at h
  split at h
  case h_1 | h_2 =>
    obtain rfl := Except.ok.inj h
    simp
  case h_3 =>
    split at h
    · obtain rfl := Except.ok.inj h
      intro family hf n hn
      obtain ⟨⟨start, members⟩, hg, rfl⟩ := List.mem_map.mp hf
      obtain ⟨k, -, hk⟩ := List.mem_map.mp hg
      obtain ⟨rfl, rfl⟩ := Prod.mk.inj hk
      obtain ⟨e, he, rfl⟩ := List.mem_map.mp (List.mem_eraseDups.mp hn)
      exact Naming.mem_of_mem_sharedPairs (List.mem_filter.mp he).1
    · simp at h

namespace Searcher

variable {s : Searcher} {units : List AnalyzedUnit}

lemma startPatterns_answers (hr : s.Ready units) : ∃ ps, s.startPatterns (names units) = .ok ps := by
  obtain ⟨families, hf⟩ := startFamiliesFor_eq_ok hr.1 (names units)
  unfold startPatterns
  rw [hf]
  refine Fault.exists_mapM fun family hfamily => ?_
  have hlen : family.2.length ≤ units.length := by
    rw [← List.length_map (f := AnalyzedUnit.name)]
    exact (List.subperm_of_subset (nodup_startFamiliesFor hf family hfamily)
      (subset_of_startFamiliesFor hf family hfamily)).length_le
  obtain ⟨c, hc⟩ := startConfidence_eq_ok hr.1 (lt_of_le_of_lt hlen hr.2)
  exact ⟨_, by dsimp only; rw [hc]; rfl⟩

/-- The patterns of names of any units give a result. -/
theorem namingPatterns_answers (hr : s.Ready units) (kind : ContextKind) :
    ∃ ps, s.namingPatterns units kind = .ok ps := by
  cases kind with
  | mob => exact ⟨_, rfl⟩
  | skillFile =>
    obtain ⟨starts, hstarts⟩ := startPatterns_answers hr
    exact ⟨_, by simp only [namingPatterns, skillPatterns, hstarts, bind, Except.bind]; rfl⟩

end Searcher

end SkillAtlas
