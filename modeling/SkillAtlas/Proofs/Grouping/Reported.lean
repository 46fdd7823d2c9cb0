import SkillAtlas.Proofs.Decimal.Order
import SkillAtlas.Proofs.Grouping.Answers
import SkillAtlas.Proofs.Grouping.Starts

/-!
# Groups that the naming patterns show

The naming patterns are read from all names, and the groups by common starts from the names that are free. A
start that two free names share is shared by them among all names too. So each such group is part of a pattern,
and the pattern is at least as sure, because the confidence in a common start grows with the number of names.
-/

namespace SkillAtlas

open AnalyzedUnit (names unclaimed)
open Decimal (Nearest ratOf?)

namespace Naming

variable {limit : Number} {ms ns members : List String} {start : String}

/-- Among more names no start is lost. The induction is on the names that are left out. -/
lemma sharedPairs_subset (h : ms.Sublist ns) : sharedPairs limit ms ⊆ sharedPairs limit ns := by
  induction h with
  | slnil => exact List.Subset.refl _
  | cons a _ ih => exact List.subset_append_of_subset_right _ ih
  | cons_cons a hrest ih =>
    refine List.append_subset.mpr ⟨fun pair hpair => ?_, List.subset_append_of_subset_right _ ih⟩
    obtain ⟨b, hb, hpair⟩ := List.mem_flatMap.mp hpair
    exact List.mem_append_left _ (List.mem_flatMap.mpr ⟨b, hrest.subset hb, hpair⟩)

/-- A family among some names is part of the family of the same start among more names. -/
lemma exists_startFamily_of_sublist (h : ms.Sublist ns) (hfamily : (start, members) ∈ startFamilies limit ms) :
    ∃ all, (start, all) ∈ startFamilies limit ns ∧ members ⊆ all ∧ members.length ≤ all.length := by
  obtain ⟨⟨n, hn⟩, hmembers⟩ := mem_startFamilies hfamily
  obtain ⟨all, hall⟩ := exists_startFamily (sharedPairs_subset h hn)
  have hsubset : members ⊆ all := fun m hm =>
    ((mem_startFamilies hall).2 m).mpr (sharedPairs_subset h ((hmembers m).mp hm))
  have hnodup : members.Nodup := Searcher.nodup_startFamilies limit ms _ hfamily
  exact ⟨all, hall, hsubset, (List.subperm_of_subset hnodup hsubset).length_le⟩

end Naming

section Steps

variable {base step top m n p q : ℚ}

/-- The base with so many steps, when each operation is rounded. -/
def Climbs (base step n q : ℚ) : Prop :=
  ∃ v w, Nearest n v ∧ Nearest (step * v) w ∧ Nearest (base + w) q

/-- More steps do not lead lower. -/
lemma Climbs.mono (hm : Climbs base step m p) (hn : Climbs base step n q) (hstep : 0 ≤ step) (h : m ≤ n) :
    p ≤ q := by
  obtain ⟨v, w, hv, hw, hp⟩ := hm
  obtain ⟨v', w', hv', hw', hq⟩ := hn
  have hcount : v ≤ v' := hv.mono hv' h
  have hsteps : w ≤ w' := hw.mono hw' (mul_le_mul_of_nonneg_left hcount hstep)
  exact hp.mono hq (by gcongr)

end Steps

/-- The value is a float, of a number above zero and at most one. -/
def Value.IsShare (a : Value) (r : ℚ) : Prop :=
  ∃ x, a = .float x ∧ ratOf? x = some r ∧ 0 < r ∧ r ≤ 1

/-- The confidences in a common start are shares of one. -/
structure DetectorSettings.Shares (d : DetectorSettings) (base step top : ℚ) : Prop where
  prefixBaseConfidence : d.prefixBaseConfidence.IsShare base
  prefixStepConfidence : d.prefixStepConfidence.IsShare step
  prefixMaxConfidence : d.prefixMaxConfidence.IsShare top

lemma DetectorSettings.shares_usual : ∃ base step top, ({} : DetectorSettings).Shares base step top := by
  have hbase : ratOf? 0.5 = some (1 / 2) := by decide +kernel
  have hstep : ratOf? 0.1 = some (3602879701896397 / 36028797018963968) := by decide +kernel
  have htop : ratOf? 0.9 = some (8106479329266893 / 9007199254740992) := by decide +kernel
  exact ⟨_, _, _, ⟨_, rfl, hbase, by norm_num, by norm_num⟩, ⟨_, rfl, hstep, by norm_num, by norm_num⟩,
    ⟨_, rfl, htop, by norm_num, by norm_num⟩⟩

namespace Searcher

variable {s : Searcher} {base step top : ℚ} {m n : ℕ}

/-- With floats as settings the confidence is the base with so many steps, but not above the top. -/
lemma startConfidence_eq_min {xb xs xt xn : Float} (hb : s.settings.prefixBaseConfidence = .float xb)
    (hc : s.settings.prefixStepConfidence = .float xs) (ht : s.settings.prefixMaxConfidence = .float xt)
    (hxn : floatOfInt n = .ok xn) : s.startConfidence (.int n) =
      .ok (if xb + xs * xn < xt then .float (xb + xs * xn) else .float xt) := by
  have hmul : s.settings.prefixStepConfidence.mul (.int n) = .ok (.float (xs * xn)) := by
    rw [hc]
    simp only [Value.mul, Value.number?, Value.integer?, Option.map_some, Value.onNumbers, Number.toFloat, hxn]
    rfl
  have hadd : s.settings.prefixBaseConfidence.add (.float (xs * xn)) = .ok (.float (xb + xs * xn)) := by
    rw [hb]
    rfl
  have hless : Value.less (.float (xb + xs * xn)) (.float xt) = .ok (decide (xb + xs * xn < xt)) := rfl
  simp only [startConfidence, hmul, bind, Except.bind, hadd, ht, Value.minOf, hless, pure, Except.pure,
    decide_eq_true_eq]

/-- The confidence in a common start of so many names. -/
lemma startConfidence_climbs (hs : s.settings.Shares base step top) (hpos : 0 < n) (hn : n < 2 ^ 63) :
    ∃ x q, s.startConfidence (.int n) = .ok (.float x) ∧ ratOf? x = some (min top q) ∧
      Climbs base step n q := by
  obtain ⟨xb, hb, hxb, hbpos, hble⟩ := hs.prefixBaseConfidence
  obtain ⟨xs, hc, hxs, hspos, hsle⟩ := hs.prefixStepConfidence
  obtain ⟨xt, ht, hxt, htpos, htle⟩ := hs.prefixMaxConfidence
  have hbig : Nearest (2 ^ 63) (2 ^ 63) :=
    Decimal.nearest_of_ratOf? (x := 9223372036854775808) (by decide +kernel) (by norm_num)
  have hn' : (n : ℚ) ≤ 2 ^ 63 := by exact_mod_cast hn.le
  have hroom : ∀ {r : ℚ}, r ≤ 1 + 2 ^ 63 → r < 2 ^ 1000 := fun h =>
    (h.trans_lt (by norm_num : (1 + 2 ^ 63 : ℚ) < 2 ^ 64)).trans_le (pow_le_pow_right₀ one_le_two (by norm_num))
  -- every intermediate result stays between the step and `2 ^ 63`, so that no operation overflows
  obtain ⟨xn, v, hxn, hv, hnear⟩ := nearest_floatOfInt (n := n) (hroom (by linarith))
  have hone : 1 ≤ v := Decimal.nearest_one.mono hnear (by exact_mod_cast hpos)
  have hvle : v ≤ 2 ^ 63 := hnear.mono hbig hn'
  have hproduct : step * v ≤ 2 ^ 63 := (mul_le_of_le_one_left (by linarith) hsle).trans hvle
  obtain ⟨w, hw, hsteps⟩ := Decimal.nearest_mul hxs hv hspos (by linarith) (hroom (by linarith))
  have hwle : w ≤ 2 ^ 63 := hsteps.mono hbig hproduct
  have hwpos : 0 < w :=
    hspos.trans_le ((Decimal.nearest_of_ratOf? hxs hspos).mono hsteps (le_mul_of_one_le_right hspos.le hone))
  obtain ⟨q, hq, hsum⟩ := Decimal.nearest_add hxb hw hbpos hwpos (hroom (by linarith))
  rw [startConfidence_eq_min hb hc ht hxn]
  have hlt := Decimal.lt_iff_of_ratOf? hq hxt
  split
  · rename_i h
    exact ⟨_, q, rfl, by rw [hq, min_eq_right (hlt.mp h).le], v, w, hnear, hsteps, hsum⟩
  · rename_i h
    exact ⟨_, q, rfl, by rw [hxt, min_eq_left (not_lt.mp (mt hlt.mpr h))], v, w, hnear, hsteps, hsum⟩

/-- The confidence in a common start does not go down when more names share it. -/
theorem startConfidence_mono (hs : s.settings.Shares base step top) (hpos : 0 < m) (hmn : m ≤ n)
    (hn : n < 2 ^ 63) : ∃ x y : Float, s.startConfidence (.int m) = .ok (.float x) ∧
      s.startConfidence (.int n) = .ok (.float y) ∧ x ≤ y := by
  obtain ⟨x, p, hx, hxr, hp⟩ := startConfidence_climbs hs hpos (hmn.trans_lt hn)
  obtain ⟨y, q, hy, hyr, hq⟩ := startConfidence_climbs hs (hpos.trans_le hmn) hn
  obtain ⟨-, -, -, hstep, -⟩ := hs.prefixStepConfidence
  have hle : p ≤ q := hp.mono hq hstep.le (by exact_mod_cast hmn)
  exact ⟨x, y, hx, hy, (Decimal.le_iff_of_ratOf? hxr hyr).mpr (min_le_min_left top hle)⟩

/-- Each family of a common start has a pattern. -/
lemma exists_startPattern {ns : List String} {patterns : List NamingPattern} {family : String × List String}
    {limit : Number} (hlimit : s.settings.namingPrefixMinLength.number? = some limit)
    (h : s.startPatterns ns = .ok patterns) (hfamily : family ∈ Naming.startFamilies limit ns) :
    ∃ p ∈ patterns, p.kind = .sharedPrefix ∧ p.anchor = family.1 ∧ p.members = family.2 ∧
      s.startConfidence (.int family.2.length) = .ok p.confidence := by
  rw [startPatterns, Naming.startFamiliesFor_eq hlimit] at h
  obtain ⟨p, hp, hof⟩ := Fault.exists_of_mapM h hfamily
  obtain ⟨confidence, hconfidence, hof⟩ := Fault.bind_eq_ok.mp hof
  obtain rfl := Except.ok.inj hof
  exact ⟨_, hp, rfl, rfl, rfl, hconfidence⟩

lemma length_freeNamed_le (remaining : List AnalyzedUnit) (claimed : List String)
    (family : String × List String) : (freeNamed remaining claimed family).length ≤ family.2.length :=
  (List.length_filterMap_le _ _).trans (List.length_filter_le _ _)

end Searcher

/-- The pattern shows the group: it is named after its start, has its members and is at least as sure. -/
structure NamingPattern.Shows (p : NamingPattern) (g : GroupProposal) : Prop where
  kind : p.kind = .sharedPrefix
  suggestedName : g.suggestedName = Naming.readable p.anchor
  members : g.memberNames ⊆ p.members
  confidence : ∃ x y : Float, g.confidence = .float x ∧ p.confidence = .float y ∧ x ≤ y

namespace Searcher

variable {s : Searcher} {base step top : ℚ} {units : List AnalyzedUnit}

/-- What a family among free names gives at its turn, the pattern of its start shows. -/
lemma shows_startTurn {claimed now : List String} {patterns : List NamingPattern} {family : String × List String}
    {f : Family} {g : GroupProposal} {limit : Number} (hs : s.settings.Shares base step top)
    (hlimit : s.settings.namingPrefixMinLength.number? = some limit) (hl : units.length < 2 ^ 63)
    (hpatterns : s.startPatterns (names units) = .ok patterns)
    (hfamily : family ∈ Naming.startFamilies limit (names (unclaimed claimed units)))
    (hf : s.startTurn (unclaimed claimed units) now family = some f) (hg : f.proposal = .ok g) :
    ∃ p ∈ patterns, p.Shows g := by
  obtain ⟨all, hall, hsubset, hlength⟩ := Naming.exists_startFamily_of_sublist
    (AnalyzedUnit.names_sublist List.filter_sublist) hfamily
  obtain ⟨p, hp, hkind, hanchor, hmembers, hconfidence⟩ := exists_startPattern hlimit hpatterns hall
  have htwo := two_le_of_gathered hf
  obtain rfl := gathered_eq_some hf
  dsimp only at hg htwo
  generalize hfree : freeNamed (unclaimed claimed units) now family = free at hg htwo
  obtain ⟨confidence, hof, hg⟩ := Fault.bind_eq_ok.mp hg
  obtain rfl := Except.ok.inj hg
  have hfew : free.length ≤ all.length := hfree ▸ (length_freeNamed_le _ _ _).trans hlength
  have hmany : all.length < 2 ^ 63 := by
    have hnodup : all.Nodup := nodup_startFamilies limit _ _ hall
    have hknown : all ⊆ names units := fun n hn =>
      Naming.mem_of_mem_sharedPairs (((Naming.mem_startFamilies hall).2 n).mp hn)
    have hle := (List.subperm_of_subset hnodup hknown).length_le
    rw [names, List.length_map] at hle
    exact hle.trans_lt hl
  obtain ⟨x, y, hx, hy, hle⟩ := startConfidence_mono hs (by omega) hfew hmany
  refine ⟨p, hp, hkind, by rw [hanchor], ?_, x, y, ?_, ?_, hle⟩
  · rw [hmembers]
    have hfamilyNames : names free ⊆ family.2 := hfree ▸ (names_freeNamed_sublist _ _ _).subset
    exact List.Subset.trans hfamilyNames hsubset
  · exact Except.ok.inj (hof.symm.trans hx)
  · exact Except.ok.inj (hconfidence.symm.trans hy)

/-- With the usual settings, the naming patterns of skills show every group by a common start, whatever is
claimed. -/
theorem residualPrefixes_shown (v : Vocabulary) (units : List AnalyzedUnit) (hl : units.length < 2 ^ 63)
    (claimed : List String) :
    let s : Searcher := ⟨v, {}⟩
    ∃ groups after patterns, (s.residualPrefixes units claimed).settle claimed = (.ok groups, after) ∧
      s.namingPatterns units .skillFile = .ok patterns ∧ ∀ g ∈ groups, ∃ p ∈ patterns, p.Shows g := by
  intro s
  obtain ⟨base, step, top, hshares⟩ := DetectorSettings.shares_usual
  have hready : s.Ready units := ⟨DetectorSettings.numeric_usual, hl⟩
  have hlimit : s.settings.namingPrefixMinLength.number? = some (.int 3) := rfl
  obtain ⟨groups, after, hsettle⟩ := (s.residualPrefixes_sound units claimed).settle_eq_ok hready
  obtain ⟨starts, hstarts⟩ := startPatterns_answers hready
  have hswept := swept_residualPrefixes hlimit hsettle
  refine ⟨groups, after, _, hsettle, by simp only [namingPatterns, skillPatterns, hstarts, bind, Except.bind]; rfl,
    fun g hg => ?_⟩
  obtain ⟨family, hfamily, now, f, -, -, hf, hfg⟩ := hswept.origin g hg
  obtain ⟨p, hp, hshows⟩ := shows_startTurn hshares hlimit hl hstarts hfamily hf hfg
  exact ⟨p, List.mem_append_left _ (List.mem_append_left _ hp), hshows⟩

/-- Of three units that summon one is claimed. The pattern of the three shows the group of the other two. -/
theorem residualPrefixes_shown_summons :
    let units : List AnalyzedUnit :=
      [{ name := "Summon_Skeleton" }, { name := "Summon_Bear" }, { name := "Heal" }, { name := "Summon-Zombie" }]
    let s : Searcher := ⟨default, {}⟩
    units.length < 2 ^ 63 ∧ ∃ groups after patterns,
      (s.residualPrefixes units ["Summon_Bear"]).settle ["Summon_Bear"] = (.ok groups, after) ∧
      s.namingPatterns units .skillFile = .ok patterns ∧
      groups.map GroupProposal.memberNames = [["Summon_Skeleton", "Summon-Zombie"]] ∧
      patterns.map NamingPattern.members = [["Summon_Skeleton", "Summon_Bear", "Summon-Zombie"]] ∧
      ∀ g ∈ groups, ∃ p ∈ patterns, p.Shows g := by
  intro units s
  have hl : units.length < 2 ^ 63 := by decide
  obtain ⟨groups, after, patterns, hsettle, hpatterns, hshown⟩ :=
    residualPrefixes_shown default units hl ["Summon_Bear"]
  have hgroups : ((s.residualPrefixes units ["Summon_Bear"]).settle ["Summon_Bear"]).1.toOption.map
      (List.map GroupProposal.memberNames) = some [["Summon_Skeleton", "Summon-Zombie"]] := by decide +kernel
  have hmembers : (s.namingPatterns units .skillFile).toOption.map (List.map NamingPattern.members) =
      some [["Summon_Skeleton", "Summon_Bear", "Summon-Zombie"]] := by decide +kernel
  rw [hsettle] at hgroups
  rw [hpatterns] at hmembers
  exact ⟨hl, groups, after, patterns, hsettle, hpatterns, Option.some.inj hgroups, Option.some.inj hmembers, hshown⟩

end Searcher

end SkillAtlas
