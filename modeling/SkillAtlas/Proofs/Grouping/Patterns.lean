import SkillAtlas.Proofs.Analysis.Stages
import SkillAtlas.Proofs.Grouping.Answers
import SkillAtlas.Proofs.Grouping.Satellites
import SkillAtlas.Proofs.Naming.Starts

/-!
# Naming patterns are families

A naming pattern lists different names of units, and no two bases of patterns are one name in different case. A
pattern lists two names at least, except for the pattern of a base with satellites: when a name matches a suffix
that is not ASCII in one of its letters alone, its base is read, and yet it is no satellite of the base. Such a
base stands alone in its pattern.
-/

namespace SkillAtlas

open AnalyzedUnit (names anyCase?)
open Naming (PlainSuffixes sharedPairs startFamilies)
open Text (Ascii lower)

namespace Naming

variable {limit : Number} {ns : List String} {start n : String}

/-- A start that is shared is shared by two different names, when names differ. -/
lemma exists_ne_of_mem_sharedPairs (hn : ns.Nodup) (h : (start, n) ∈ sharedPairs limit ns) :
    ∃ a b, a ≠ b ∧ (start, a) ∈ sharedPairs limit ns ∧ (start, b) ∈ sharedPairs limit ns := by
  induction ns with
  | nil => simp [sharedPairs] at h
  | cons a rest ih =>
    obtain ⟨hnew, hrest⟩ := List.nodup_cons.mp hn
    rcases List.mem_append.mp h with h | h
    · obtain ⟨b, hb, hpair⟩ := List.mem_flatMap.mp h
      obtain ⟨hlong, hstart, -⟩ := mem_sharedPair.mp hpair
      have hboth : ∀ m, m = a ∨ m = b → (start, m) ∈ sharedPairs limit (a :: rest) := fun m hm =>
        List.mem_append_left _ (List.mem_flatMap.mpr ⟨b, hb, mem_sharedPair.mpr ⟨hlong, hstart, hm⟩⟩)
      exact ⟨a, b, fun he => hnew (he ▸ hb), hboth a (Or.inl rfl), hboth b (Or.inr rfl)⟩
    · obtain ⟨c, d, hne, hc, hd⟩ := ih hrest h
      exact ⟨c, d, hne, List.mem_append_right _ hc, List.mem_append_right _ hd⟩

lemma two_le_startFamilies (hn : ns.Nodup) {family : String × List String} (h : family ∈ startFamilies limit ns) :
    2 ≤ family.2.length := by
  obtain ⟨⟨n, hpair⟩, hmembers⟩ := mem_startFamilies h
  obtain ⟨a, b, hne, ha, hb⟩ := exists_ne_of_mem_sharedPairs hn hpair
  exact two_le_length ((hmembers a).mpr ha) ((hmembers b).mpr hb) hne

lemma two_le_startFamiliesFor {v : Value} {families : List (String × List String)} (hn : ns.Nodup)
    (h : startFamiliesFor v ns = .ok families) : ∀ family ∈ families, 2 ≤ family.2.length := by
  unfold startFamiliesFor at h
  split at h
  case h_1 | h_2 =>
    obtain rfl := Except.ok.inj h
    simp
  case h_3 =>
    split at h
    · obtain rfl := Except.ok.inj h
      exact fun family => two_le_startFamilies hn
    · simp at h

end Naming

/-- The pattern lists different names of units. -/
structure NamingPattern.Lists (units : List AnalyzedUnit) (p : NamingPattern) : Prop where
  distinct : p.members.Nodup
  known : p.members ⊆ names units

/-- A base alone. There are no suffixes, or one is not ASCII. -/
structure NamingPattern.Lone (v : Vocabulary) (p : NamingPattern) : Prop where
  kind : p.kind = .lifecycleSuffixes
  members : p.members = [p.anchor]
  suffixes : ¬PlainSuffixes v

section Units

variable {v : Vocabulary} {units : List AnalyzedUnit} {u w : AnalyzedUnit} {base n : String}

/-- A unit found under some name is found under its own. -/
lemma AnalyzedUnit.anyCase?_name (h : anyCase? units n = some u) : anyCase? units u.name = some u := by
  have hlower := (AnalyzedUnit.anyCase?_eq_some h).2
  rw [anyCase?] at h ⊢
  rwa [hlower]

lemma satellites_ne_nil (hw : w ∈ units) (h : Naming.IsSatellite v.lifecycleSuffixes base w.name) :
    satellites v units base ≠ [] := by
  obtain ⟨suffix, hsuffix, mark, hmark, hlower⟩ := h
  have hsome : (anyCase? units (base ++ mark ++ suffix)).isSome :=
    List.find?_isSome.mpr ⟨w, hw, beq_iff_eq.mpr hlower⟩
  obtain ⟨found, hfound⟩ := Option.isSome_iff_exists.mp hsome
  have hcandidate : base ++ mark ++ suffix ∈ [base ++ "-" ++ suffix, base ++ "_" ++ suffix] := by
    rcases (by simpa using hmark : mark = "-" ∨ mark = "_") with rfl | rfl
    · simp
    · simp
  have hmem : found.name ∈ names (satellites v units base) :=
    name_mem_foldl_addMember (List.mem_filterMap.mpr ⟨_, List.mem_flatMap.mpr ⟨suffix, hsuffix, hcandidate⟩, hfound⟩)
      (by simp)
  intro hnil
  rw [hnil] at hmem
  simp [names] at hmem

end Units

namespace Searcher

variable {s : Searcher} {units : List AnalyzedUnit} {u base : AnalyzedUnit} {p : NamingPattern}
  {patterns : List NamingPattern}

lemma lists_startPatterns (hn : (names units).Nodup) (h : s.startPatterns (names units) = .ok patterns) :
    ∀ p ∈ patterns, p.kind = .sharedPrefix ∧ p.Lists units ∧ 2 ≤ p.members.length := by
  obtain ⟨families, hfamilies, h⟩ := Fault.bind_eq_ok.mp h
  refine Fault.forall_of_mapM (fun family hfamily p hp => ?_) h
  obtain ⟨confidence, -, hp⟩ := Fault.bind_eq_ok.mp hp
  obtain rfl := Except.ok.inj hp
  exact ⟨rfl, ⟨nodup_startFamiliesFor hfamilies family hfamily, subset_of_startFamiliesFor hfamilies family hfamily⟩,
    Naming.two_le_startFamiliesFor hn hfamilies family hfamily⟩

lemma lists_variantPattern {n : String} (hknown : n ∈ names units) (h : s.variantPattern? units n = some p) :
    p.kind = .mobVariants ∧ p.Lists units ∧ 2 ≤ p.members.length := by
  unfold variantPattern? at h
  split at h
  · simp at h
  · obtain ⟨base, hbase, rfl⟩ := Option.map_eq_some_iff.mp h
    obtain ⟨candidate, -, hfound⟩ := List.exists_of_findSome?_eq_some hbase
    obtain ⟨hbase, hother⟩ := Option.filter_eq_some_iff.mp hfound
    have hmem : base.name ∈ names units := List.mem_map_of_mem (AnalyzedUnit.anyCase?_eq_some hbase).1
    exact ⟨rfl, ⟨by simpa using hother, by simp [hmem, hknown]⟩, le_rfl⟩

/-- A base is found under its own name, and the name of some unit is read as that of a satellite of it. -/
lemma mem_lifecycleBases (h : base ∈ s.lifecycleBases units) : anyCase? units base.name = some base ∧
    ∃ u ∈ units, ∃ n, Naming.lifecycleBase? s.vocabulary u.name = some n ∧ lower base.name = lower n := by
  rcases mem_foldl_addMember h with hnil | ⟨hbase, -⟩
  · simp at hnil
  · obtain ⟨u, hu, hbase⟩ := List.mem_filterMap.mp hbase
    obtain ⟨n, hn, hbase⟩ := Option.bind_eq_some_iff.mp hbase
    exact ⟨AnalyzedUnit.anyCase?_name hbase, u, hu, n, hn, (AnalyzedUnit.anyCase?_eq_some hbase).2⟩

/-- Bases differ, also when case is ignored: a unit that is found under its own name is found in every case. -/
lemma nodup_lower_lifecycleBases (s : Searcher) (units : List AnalyzedUnit) :
    ((names (s.lifecycleBases units)).map lower).Nodup := by
  have hnames : (names (s.lifecycleBases units)).Nodup := nodup_foldl_addMember (by simp [names])
  refine hnames.map_on ?_
  rw [names, List.forall_mem_map]
  intro a ha
  rw [List.forall_mem_map]
  intro b hb hlower
  have hfinda := (mem_lifecycleBases ha).1
  have hfindb := (mem_lifecycleBases hb).1
  rw [anyCase?, hlower, ← anyCase?, hfindb] at hfinda
  rw [Option.some.inj hfinda]

lemma lists_lifecyclePattern (hbase : base ∈ s.lifecycleBases units) :
    (s.lifecyclePattern units base).Lists units where
  distinct := by
    refine List.nodup_cons.mpr ⟨fun hm => ?_, names_satellites_nodup s.vocabulary units base.name⟩
    obtain ⟨w, hw, he⟩ := List.mem_map.mp hm
    exact (mem_satellites hw).2 he
  known := by
    refine List.cons_subset.mpr ⟨?_, fun n hn => ?_⟩
    · exact List.mem_map_of_mem (AnalyzedUnit.anyCase?_eq_some (mem_lifecycleBases hbase).1).1
    · obtain ⟨w, hw, rfl⟩ := List.mem_map.mp hn
      exact List.mem_map_of_mem (mem_satellites hw).1

/-- With ASCII suffixes a base has the satellite from whose name it is read. -/
lemma two_le_lifecyclePattern (hascii : ∀ n ∈ names units, Ascii n.toList)
    (hline : ∀ n ∈ names units, '\n' ∉ n.toList) (hbase : base ∈ s.lifecycleBases units) :
    2 ≤ (s.lifecyclePattern units base).members.length ∨ (s.lifecyclePattern units base).Lone s.vocabulary := by
  cases hsatellites : satellites s.vocabulary units base.name with
  | cons w more => exact Or.inl (by simp [lifecyclePattern, hsatellites, names])
  | nil =>
    refine Or.inr ⟨rfl, by simp [lifecyclePattern, hsatellites, names], fun hplain => ?_⟩
    obtain ⟨hfound, u, hu, n, hn, hsame⟩ := mem_lifecycleBases hbase
    have hknown := List.mem_map_of_mem (f := AnalyzedUnit.name) (AnalyzedUnit.anyCase?_eq_some hfound).1
    have hname := List.mem_map_of_mem (f := AnalyzedUnit.name) hu
    have hsatellite := Naming.isSatellite_of_lifecycleBase? hplain (hascii _ hname) (hline _ hname)
      (hascii _ hknown) hn hsame
    exact satellites_ne_nil hu hsatellite hsatellites

/-- The families of curated suffixes that are not among those of satellites. -/
def otherFamilies (s : Searcher) (units : List AnalyzedUnit) : List (String × List String) :=
  (Naming.suffixFamilies s.vocabulary.namingSuffixes (names units)).filter fun f =>
    !((names (s.lifecycleBases units)).map lower).contains (lower f.1)

lemma skillPatterns_eq_ok (h : s.skillPatterns units = .ok patterns) :
    ∃ starts, s.startPatterns (names units) = .ok starts ∧
      patterns = starts ++ (s.lifecycleBases units).map (s.lifecyclePattern units) ++
        (s.otherFamilies units).map s.suffixPattern := by
  obtain ⟨starts, hstarts, h⟩ := Fault.bind_eq_ok.mp h
  exact ⟨starts, hstarts, (Except.ok.inj h).symm⟩

lemma lists_suffixPattern (hn : (names units).Nodup) {family : String × List String}
    (h : family ∈ s.otherFamilies units) :
    (s.suffixPattern family).Lists units ∧ 2 ≤ (s.suffixPattern family).members.length := by
  rcases Naming.mem_foldl_addSuffixFamily (List.mem_filter.mp h).1 with hnil | ⟨-, hmembers, htwo⟩
  · simp at hnil
  · have hsublist : family.2.Sublist (names units) := hmembers ▸ List.filter_sublist
    exact ⟨⟨hn.sublist hsublist, hsublist.subset⟩, htwo⟩

/-- The anchors of bases, in small letters. -/
def lowerBases (patterns : List NamingPattern) : List String :=
  (patterns.filter fun p => p.kind == .lifecycleSuffixes).map fun p => lower p.anchor

/-- No two patterns have one base, ignoring case. -/
lemma nodup_lowerBases_skillPatterns (hn : (names units).Nodup) (h : s.skillPatterns units = .ok patterns) :
    (lowerBases patterns).Nodup := by
  obtain ⟨starts, hstarts, rfl⟩ := skillPatterns_eq_ok h
  have hnone : starts.filter (fun p => p.kind == .lifecycleSuffixes) = [] :=
    List.filter_eq_nil_iff.mpr fun p hp => by simp [(lists_startPatterns hn hstarts p hp).1]
  have hbases : lowerBases (starts ++ (s.lifecycleBases units).map (s.lifecyclePattern units) ++
      (s.otherFamilies units).map s.suffixPattern) =
      (names (s.lifecycleBases units)).map lower ++ (s.otherFamilies units).map fun f => lower f.1 := by
    simp [lowerBases, hnone, List.filter_map, Function.comp_def, lifecyclePattern, suffixPattern, names]
  rw [hbases]
  refine List.nodup_append.mpr ⟨nodup_lower_lifecycleBases s units, ?_, fun a ha b hb hab => ?_⟩
  · exact (Naming.nodup_foldl_addSuffixFamily (by simp)).sublist (List.filter_sublist.map _)
  · obtain ⟨family, hfamily, rfl⟩ := List.mem_map.mp hb
    have hother := (List.mem_filter.mp hfamily).2
    rw [← hab, Bool.not_eq_true', ← Bool.not_eq_true, List.contains_iff_mem] at hother
    exact hother ha

/-- The naming patterns of units with different ASCII names on one line each. A pattern lists different names of
units, two at least unless it is that of a lone base, and no two patterns have one base, ignoring case. -/
theorem namingPatterns_sound (s : Searcher) (units : List AnalyzedUnit) (hn : (names units).Nodup)
    (hascii : ∀ n ∈ names units, Ascii n.toList) (hline : ∀ n ∈ names units, '\n' ∉ n.toList)
    (kind : ContextKind) :
    (s.Ready units → ∃ patterns, s.namingPatterns units kind = .ok patterns) ∧
      ∀ patterns, s.namingPatterns units kind = .ok patterns →
        (∀ p ∈ patterns, p.Lists units ∧ (2 ≤ p.members.length ∨ p.Lone s.vocabulary)) ∧
          (lowerBases patterns).Nodup := by
  refine ⟨fun hready => namingPatterns_answers hready kind, fun patterns h => ?_⟩
  cases kind with
  | mob =>
    obtain rfl := Except.ok.inj h
    have hall : ∀ p ∈ (names units).filterMap (s.variantPattern? units),
        p.kind = .mobVariants ∧ p.Lists units ∧ 2 ≤ p.members.length := by
      intro p hp
      obtain ⟨n, hknown, hp⟩ := List.mem_filterMap.mp hp
      exact lists_variantPattern hknown hp
    have hnone : ((names units).filterMap (s.variantPattern? units)).filter
        (fun p => p.kind == .lifecycleSuffixes) = [] :=
      List.filter_eq_nil_iff.mpr fun p hp => by simp [(hall p hp).1]
    refine ⟨fun p hp => (hall p hp).2.imp_right Or.inl, ?_⟩
    rw [lowerBases, hnone]
    exact List.nodup_nil
  | skillFile =>
    refine ⟨fun p hp => ?_, nodup_lowerBases_skillPatterns hn h⟩
    obtain ⟨starts, hstarts, rfl⟩ := skillPatterns_eq_ok h
    rw [List.mem_append, List.mem_append] at hp
    rcases hp with (hp | hp) | hp
    · exact (lists_startPatterns hn hstarts p hp).2.imp_right Or.inl
    · obtain ⟨base, hbase, rfl⟩ := List.mem_map.mp hp
      exact ⟨lists_lifecyclePattern hbase, two_le_lifecyclePattern hascii hline hbase⟩
    · obtain ⟨family, hfamily, rfl⟩ := List.mem_map.mp hp
      exact (lists_suffixPattern hn hfamily).imp_right Or.inl

/-- Two of four names differ in case alone. With the packaged suffixes each pattern has two members. -/
theorem namingPatterns_sound_frost :
    let s : Searcher := ⟨.packaged, {}⟩
    let units : List AnalyzedUnit :=
      [{ name := "Frost" }, { name := "FROST-tick" }, { name := "frost-Projectile" }, { name := "frost" }]
    (names units).Nodup ∧ (∀ n ∈ names units, Ascii n.toList) ∧ (∀ n ∈ names units, '\n' ∉ n.toList) ∧
      s.Ready units ∧ ∃ patterns, s.namingPatterns units .skillFile = .ok patterns ∧
        (∀ p ∈ patterns, p.Lists units ∧ 2 ≤ p.members.length) ∧ lowerBases patterns = ["frost"] := by
  intro s units
  have hn : (names units).Nodup := by decide
  have hascii : ∀ n ∈ names units, Ascii n.toList := by decide
  have hline : ∀ n ∈ names units, '\n' ∉ n.toList := by decide
  have hready : s.Ready units := ⟨DetectorSettings.numeric_usual, by decide⟩
  have hplain : PlainSuffixes s.vocabulary := ⟨by decide +kernel, by decide +kernel⟩
  obtain ⟨hanswers, hsound⟩ := namingPatterns_sound s units hn hascii hline .skillFile
  obtain ⟨patterns, hpatterns⟩ := hanswers hready
  have hbases : (s.namingPatterns units .skillFile).toOption.map lowerBases = some ["frost"] := by decide +kernel
  rw [hpatterns] at hbases
  refine ⟨hn, hascii, hline, hready, patterns, hpatterns, fun p hp => ?_, Option.some.inj hbases⟩
  obtain ⟨hlists, htwo⟩ := (hsound patterns hpatterns).1 p hp
  exact ⟨hlists, htwo.resolve_right fun hlone => hlone.suffixes hplain⟩

/-- With a suffix that has a dotless `ı`, the base of a name with a plain `i` stands alone in its pattern. -/
theorem namingPatterns_lone :
    let s : Searcher := ⟨{ Vocabulary.packaged with
      lifecycleSuffixes := Vocabulary.packaged.lifecycleSuffixes ++ ["Yakın"] }, {}⟩
    let units : List AnalyzedUnit := [{ name := "Od" }, { name := "Od-Yakin" }]
    (names units).Nodup ∧ (∀ n ∈ names units, Ascii n.toList) ∧ (∀ n ∈ names units, '\n' ∉ n.toList) ∧
      (s.namingPatterns units .skillFile).toOption.map (List.map NamingPattern.members) = some [["Od"]] :=
  ⟨by decide, by decide, by decide, by decide +kernel⟩

end Searcher

end SkillAtlas
