import Mathlib.Data.List.Flatten
import Mathlib.Data.List.Perm.Subperm
import SkillAtlas.Proofs.Analysis.Stages
import SkillAtlas.Proofs.Distinct
import SkillAtlas.Proofs.Naming.Starts
import SkillAtlas.Proofs.Units.Score

/-!
# Units with more lines

Distinct actions, guards and events are counted over all lines of a unit together, so what a line adds to
the score depends on the other lines. A line never takes anything away: with more lines there are at least as
many parts of each kind, whatever they have in common, and the score and the tier do not go down. The order
of the lines does not matter.
-/

namespace SkillAtlas

section Lists

variable {α β : Type} {xs ys : List α}

lemma subperm_filterMap (h : xs.Subperm ys) (f : α → Option β) : (xs.filterMap f).Subperm (ys.filterMap f) := by
  obtain ⟨zs, hperm, hsub⟩ := h
  exact ⟨zs.filterMap f, hperm.filterMap f, hsub.filterMap f⟩

lemma subperm_flatMap (h : xs.Subperm ys) (f : α → List β) : (xs.flatMap f).Subperm (ys.flatMap f) := by
  obtain ⟨zs, hperm, hsub⟩ := h
  exact ⟨zs.flatMap f, hperm.flatMap_right f, hsub.flatMap f⟩

lemma subperm_eraseDups [BEq α] [LawfulBEq α] (h : xs.Subperm ys) : xs.eraseDups.Subperm ys.eraseDups :=
  (nodup_eraseDups xs).subperm fun _ hx => List.mem_eraseDups.mpr (h.subset (List.mem_eraseDups.mp hx))

end Lists

namespace LineParts

/-- The parts that count are among others, repeats included. -/
structure Within (p q : LineParts) : Prop where
  actions : p.actions.Subperm q.actions
  guards : p.guards.Subperm q.guards
  lifecycle : p.lifecycle.Subperm q.lifecycle
  calls : p.calls.Subperm q.calls

lemma Within.append_right {p q : LineParts} (h : p.Within q) (own : LineParts) : (p ++ own).Within (q ++ own) where
  actions := h.actions.append (List.Subperm.refl _)
  guards := h.guards.append (List.Subperm.refl _)
  lifecycle := h.lifecycle.append (List.Subperm.refl _)
  calls := h.calls.append (List.Subperm.refl _)

end LineParts

namespace Line

/-- The parts of several lines are gathered line by line, each kind for itself. -/
lemma partsOfAll_eq (v : Vocabulary) (outside lines : List String) :
    partsOfAll v outside lines =
      { actions := lines.flatMap fun l => (parts v outside l).actions
        targets := lines.flatMap fun l => (parts v outside l).targets
        guards := lines.flatMap fun l => (parts v outside l).guards
        lifecycle := lines.flatMap fun l => (parts v outside l).lifecycle
        attributes := lines.flatMap fun l => (parts v outside l).attributes
        calls := lines.flatMap fun l => (parts v outside l).calls } := by
  unfold partsOfAll
  induction lines using List.reverseRecOn with
  | nil => rfl
  | append_singleton rest line ih =>
    rw [List.foldl_append, ih]
    simp only [List.flatMap_append, List.flatMap_singleton]
    rfl

lemma partsOfAll_within (v : Vocabulary) (outside : List String) {lines more : List String}
    (h : lines.Subperm more) : (partsOfAll v outside lines).Within (partsOfAll v outside more) := by
  rw [partsOfAll_eq, partsOfAll_eq]
  exact ⟨subperm_flatMap h _, subperm_flatMap h _, subperm_flatMap h _, subperm_flatMap h _⟩

end Line

/-- The settings are whole, and no weight is negative. -/
structure ComplexitySettings.Rising (w : ComplexitySettings) : Prop extends w.Whole where
  line_nonneg : 0 ≤ w.lineWeight.amount
  action_nonneg : 0 ≤ w.actionWeight.amount
  call_nonneg : 0 ≤ w.callWeight.amount
  guard_nonneg : 0 ≤ w.guardWeight.amount
  lifecycle_nonneg : 0 ≤ w.lifecycleWeight.amount
  bonus_nonneg : 0 ≤ w.complexActionBonus.amount

/-- Settings that leave every value as usual never lower a score. -/
lemma ComplexitySettings.rising_usual : ({} : ComplexitySettings).Rising where
  toWhole := whole_usual
  line_nonneg := by decide
  action_nonneg := by decide
  call_nonneg := by decide
  guard_nonneg := by decide
  lifecycle_nonneg := by decide
  bonus_nonneg := by decide

/-- A higher score gives no easier tier, in whatever order the limits are. -/
lemma tierOf_mono {w : ComplexitySettings} (hw : w.Whole) {m n : Int} (hmn : m ≤ n) {s t : Tier}
    (hs : tierOf w (.int m) = .ok s) (ht : tierOf w (.int n) = .ok t) : s.rank ≤ t.rank := by
  obtain ⟨b, i, a, htier⟩ := tierOf_eq hw
  obtain rfl := Except.ok.inj ((htier m).symm.trans hs)
  obtain rfl := Except.ok.inj ((htier n).symm.trans ht)
  -- a limit that is not above the lower score is not above the higher one either, so the limits go in turn
  by_cases hb : (Number.int m).less b = true
  · rw [if_pos hb]
    exact Nat.zero_le _
  rw [if_neg hb, if_neg fun h => hb (Number.less_of_le hmn h)]
  by_cases hi : (Number.int m).less i = true
  · rw [if_pos hi]
    split
    · exact Nat.le_refl _
    · split <;> decide
  rw [if_neg hi, if_neg fun h => hi (Number.less_of_le hmn h)]
  by_cases ha : (Number.int m).less a = true
  · rw [if_pos ha]
    split <;> decide
  rw [if_neg ha, if_neg fun h => ha (Number.less_of_le hmn h)]

lemma suggestCategory_perm (v : Vocabulary) (name : String) {actions others : List String}
    (h : actions.Perm others) : suggestCategory v name actions = suggestCategory v name others := by
  unfold suggestCategory categoryPoints actionPoints
  simp only [h.countP_eq]

namespace Analyzer

variable {a : Analyzer} {lines more : List Value}

lemma partsOf_within (a : Analyzer) (e : Entry) (h : lines.Subperm more) :
    (a.partsOf { e with lines } []).Within (a.partsOf { e with lines := more } []) :=
  (Line.partsOfAll_within a.vocabulary a.outside (subperm_filterMap h _)).append_right (e.ownParts [])

lemma scoreOf_le (hw : a.complexity.Rising) (e : Entry) (h : lines.Subperm more) :
    a.scoreOf { e with lines } ≤ a.scoreOf { e with lines := more } := by
  have hparts := a.partsOf_within e h
  have hactions := subperm_eraseDups hparts.actions
  have hline := Int.mul_le_mul_of_nonneg_right (Int.ofNat_le.mpr h.length_le) hw.line_nonneg
  have haction := Int.mul_le_mul_of_nonneg_right (Int.ofNat_le.mpr hactions.length_le) hw.action_nonneg
  have hbonus := Int.mul_le_mul_of_nonneg_right
    (Int.ofNat_le.mpr (hactions.countP_le a.vocabulary.isComplex)) hw.bonus_nonneg
  have hcall := Int.mul_le_mul_of_nonneg_right (Int.ofNat_le.mpr hparts.calls.length_le) hw.call_nonneg
  have hguard := Int.mul_le_mul_of_nonneg_right
    (Int.ofNat_le.mpr (subperm_eraseDups hparts.guards).length_le) hw.guard_nonneg
  have hlifecycle := Int.mul_le_mul_of_nonneg_right
    (Int.ofNat_le.mpr (subperm_eraseDups hparts.lifecycle).length_le) hw.lifecycle_nonneg
  unfold scoreOf ComplexitySettings.scoreOf
  dsimp only
  omega

/-- With more lines a unit has no lower score and no easier tier, and in another order of its lines it has the
same score, tier and category. The lines do not matter to whether there is a unit: a cooldown that cannot be told
is in the way with any lines, and nothing else is. -/
theorem analyze_more_lines (a : Analyzer) (hw : a.complexity.Rising) (e : Entry) (lines more : List Value)
    (h : lines.Subperm more) :
    (e.cooldown.isTold = false → (a.analyze { e with lines }).outcome = .error .badValue ∧
      (a.analyze { e with lines := more }).outcome = .error .badValue) ∧
    (e.cooldown.isTold = true → ∃ u v m n, (a.analyze { e with lines }).outcome = .ok u ∧
      (a.analyze { e with lines := more }).outcome = .ok v ∧
      u.score = .int m ∧ v.score = .int n ∧ m ≤ n ∧ u.tier.rank ≤ v.tier.rank ∧
      (lines.Perm more → m = n ∧ u.tier = v.tier ∧ u.category = v.category)) := by
  refine ⟨fun hc => ⟨(outcome_analyze a _).trans (unitOf_of_not_told hc),
    (outcome_analyze a _).trans (unitOf_of_not_told hc)⟩, fun hc => ?_⟩
  obtain ⟨u, hu, hscore, htier, hcategory⟩ := exists_unitOf hw.toWhole (e := { e with lines }) hc
  obtain ⟨v, hv, hscore', htier', hcategory'⟩ := exists_unitOf hw.toWhole (e := { e with lines := more }) hc
  have hle := a.scoreOf_le hw e h
  refine ⟨u, v, _, _, (outcome_analyze a _).trans hu, (outcome_analyze a _).trans hv, hscore, hscore', hle,
    tierOf_mono hw.toWhole hle htier htier', fun hperm => ?_⟩
  -- lines in another order are among each other in both ways
  have heq := Int.le_antisymm hle (a.scoreOf_le hw e hperm.symm.subperm)
  refine ⟨heq, Except.ok.inj (htier.symm.trans (heq ▸ htier')), ?_⟩
  have hactions := (subperm_eraseDups (a.partsOf_within e h).actions).antisymm
    (subperm_eraseDups (a.partsOf_within e hperm.symm.subperm).actions)
  rw [hcategory, hcategory', suggestCategory_perm _ _ hactions]

/-- A volley that also sounds is no easier than a lone hit. -/
theorem analyze_more_lines_volley :
    ∃ u v m n,
      ((⟨Vocabulary.packaged, {}, []⟩ : Analyzer).analyze
        { name := "Bolt", kind := .skillFile, lines := [.str "damage{a=5}"] }).outcome = .ok u ∧
      ((⟨Vocabulary.packaged, {}, []⟩ : Analyzer).analyze
        { name := "Bolt", kind := .skillFile
          lines := [.str "projectile{onHit=Burn}", .str "damage{a=5}", .str "sound{s=x}"] }).outcome = .ok v ∧
      u.score = .int m ∧ v.score = .int n ∧ m ≤ n ∧ u.tier.rank ≤ v.tier.rank ∧
      ([Value.str "damage{a=5}"].Perm
          [.str "projectile{onHit=Burn}", .str "damage{a=5}", .str "sound{s=x}"] →
        m = n ∧ u.tier = v.tier ∧ u.category = v.category) :=
  (analyze_more_lines ⟨Vocabulary.packaged, {}, []⟩ ComplexitySettings.rising_usual
    { name := "Bolt", kind := .skillFile } [.str "damage{a=5}"]
    [.str "projectile{onHit=Burn}", .str "damage{a=5}", .str "sound{s=x}"]
    (List.Sublist.subperm (.cons _ (.cons_cons _ (.cons _ .slnil))))).2 rfl

end Analyzer

end SkillAtlas
