import Mathlib.Tactic.Lemma
import SkillAtlas.Proofs.Grouping.Confidence
import SkillAtlas.Units.Analysis

/-!
# Settings under which every unit is scored

Weights that are whole numbers give a score that is one, however many lines and calls a unit has. Limits
that are numbers then give a tier, and so every entry gives a unit whose cooldown can be told.
-/

namespace SkillAtlas

/-- Weights are whole numbers, and limits of tiers are numbers. -/
structure ComplexitySettings.Whole (w : ComplexitySettings) : Prop where
  lineWeight : w.lineWeight.integer?.isSome
  actionWeight : w.actionWeight.integer?.isSome
  callWeight : w.callWeight.integer?.isSome
  guardWeight : w.guardWeight.integer?.isSome
  lifecycleWeight : w.lifecycleWeight.integer?.isSome
  complexActionBonus : w.complexActionBonus.integer?.isSome
  beginnerBelow : w.beginnerBelow.number?.isSome
  intermediateBelow : w.intermediateBelow.number?.isSome
  advancedBelow : w.advancedBelow.number?.isSome

/-- Settings that leave every value as usual are whole. -/
lemma ComplexitySettings.whole_usual : ({} : ComplexitySettings).Whole := by
  constructor <;> rfl

namespace Value

variable {v w : Value} {m n : Int}

/-- The whole number that a value is. A value that is none counts as 0. -/
def amount (v : Value) : Int :=
  v.integer?.getD 0

lemma integer?_eq_amount (h : v.integer?.isSome) : v.integer? = some v.amount := by
  obtain ⟨n, hn⟩ := Option.isSome_iff_exists.mp h
  rw [amount, hn]
  rfl

lemma number?_of_integer? (h : v.integer? = some n) : v.number? = some (.int n) := by
  cases v <;> simp_all [number?, integer?]

lemma add_eq (hv : v.integer? = some m) (hw : w.integer? = some n) : v.add w = .ok (.int (m + n)) := by
  unfold add
  rw [number?_of_integer? hv, number?_of_integer? hw]
  rfl

lemma mul_eq (hv : v.integer? = some m) (hw : w.integer? = some n) : v.mul w = .ok (.int (m * n)) := by
  unfold mul
  rw [number?_of_integer? hv, number?_of_integer? hw]
  rfl

lemma int_add_eq (m : Int) (h : v.integer?.isSome) : (int m).add v = .ok (int (m + v.amount)) :=
  add_eq rfl (integer?_eq_amount h)

lemma less_int_eq_ok (m : Int) (h : v.number?.isSome) : ∃ b, v.less (int m) = .ok b := by
  obtain ⟨n, hn⟩ := Option.isSome_iff_exists.mp h
  exact ⟨_, less_eq_ok hn rfl⟩

end Value

lemma weighted_eq (count : Int) {weight : Value} (h : weight.integer?.isSome) :
    weighted count weight = .ok (.int (count * weight.amount)) :=
  Value.mul_eq rfl (Value.integer?_eq_amount h)

/-- The score that weights which are whole numbers give to counts. -/
def ComplexitySettings.scoreOf (w : ComplexitySettings) (lines actions complex calls guards lifecycle : Int) :
    Int :=
  lines * w.lineWeight.amount + actions * w.actionWeight.amount + calls * w.callWeight.amount +
    guards * w.guardWeight.amount + lifecycle * w.lifecycleWeight.amount + complex * w.complexActionBonus.amount

section Score

variable {w : ComplexitySettings} (hw : w.Whole)

include hw

lemma baseScore_eq (lines actions calls guards lifecycle : Int) :
    baseScore w lines actions calls guards lifecycle =
      .ok (.int (w.scoreOf lines actions 0 calls guards lifecycle)) := by
  unfold baseScore
  rw [weighted_eq lines hw.lineWeight, weighted_eq actions hw.actionWeight, weighted_eq calls hw.callWeight,
    weighted_eq guards hw.guardWeight, weighted_eq lifecycle hw.lifecycleWeight, ComplexitySettings.scoreOf,
    Int.zero_mul, Int.add_zero]
  rfl

lemma foldlM_bonus_eq (complex : List String) (m : Int) :
    complex.foldlM (fun s _ => s.add w.complexActionBonus) (Value.int m) =
      .ok (.int (m + complex.length * w.complexActionBonus.amount)) := by
  induction complex generalizing m with
  | nil => simp [pure, Except.pure]
  | cons a rest ih =>
    rw [List.foldlM_cons, Value.int_add_eq m hw.complexActionBonus]
    refine (ih _).trans ?_
    rw [List.length_cons, Int.natCast_succ, Int.add_mul, Int.one_mul]
    congr 2
    omega

/-- The score of a unit is the sum of its counts, each times its weight. -/
lemma complexityScore_eq (v : Vocabulary) (lines : Int) (actions : List String)
    (calls guards lifecycle : Int) :
    complexityScore v w lines actions calls guards lifecycle =
      .ok (.int (w.scoreOf lines actions.length (actions.countP v.isComplex) calls guards lifecycle)) := by
  unfold complexityScore
  rw [baseScore_eq hw]
  refine (foldlM_bonus_eq hw _ _).trans ?_
  simp only [ComplexitySettings.scoreOf, List.countP_eq_length_filter, Int.zero_mul, Int.add_zero]

/-- The tier is that of the first limit above the score. -/
lemma tierOf_eq : ∃ beginner intermediate advanced : Number, ∀ score : Int, tierOf w (.int score) =
    .ok (if (Number.int score).less beginner then .beginner
      else if (Number.int score).less intermediate then .intermediate
      else if (Number.int score).less advanced then .advanced
      else .expert) := by
  obtain ⟨b, hb⟩ := Option.isSome_iff_exists.mp hw.beginnerBelow
  obtain ⟨i, hi⟩ := Option.isSome_iff_exists.mp hw.intermediateBelow
  obtain ⟨a, ha⟩ := Option.isSome_iff_exists.mp hw.advancedBelow
  refine ⟨b, i, a, fun score => ?_⟩
  have hscore : (Value.int score).number? = some (.int score) := rfl
  unfold tierOf
  rw [Value.less_eq_ok hscore hb, Value.less_eq_ok hscore hi, Value.less_eq_ok hscore ha]
  cases (Number.int score).less b <;> cases (Number.int score).less i <;>
    cases (Number.int score).less a <;> rfl

lemma tierOf_eq_ok (score : Int) : ∃ t, tierOf w (.int score) = .ok t := by
  obtain ⟨b, i, a, h⟩ := tierOf_eq hw
  exact ⟨_, h score⟩

end Score

namespace Analyzer

/-- The score that weights which are whole numbers give to an entry. Its own attributes do not count. -/
def scoreOf (a : Analyzer) (e : Entry) : Int :=
  let p := a.partsOf e []
  let actions := p.actions.eraseDups
  a.complexity.scoreOf e.lines.length actions.length (actions.countP a.vocabulary.isComplex) p.calls.length
    p.guards.eraseDups.length p.lifecycle.eraseDups.length

/-- An entry whose cooldown can be told gives a unit, with its score, the tier of the score and the category of
its actions. -/
lemma exists_unitOf {a : Analyzer} (hw : a.complexity.Whole) {e : Entry} (hc : e.cooldown.isTold = true) :
    ∃ u, a.unitOf e = .ok u ∧ u.score = .int (a.scoreOf e) ∧
      tierOf a.complexity (.int (a.scoreOf e)) = .ok u.tier ∧
      u.category = suggestCategory a.vocabulary e.name (a.partsOf e []).actions.eraseDups := by
  obtain ⟨own, hown⟩ : ∃ own, e.ownAttributes = .ok own := by
    unfold Entry.ownAttributes
    split
    · exact ⟨_, rfl⟩
    · exact ⟨_, by rw [Value.told_of_isTold hc]; rfl⟩
  have hscore : complexityScore a.vocabulary a.complexity e.lines.length (a.partsOf e own).actions.eraseDups
      (a.partsOf e own).calls.length (a.partsOf e own).guards.eraseDups.length
      (a.partsOf e own).lifecycle.eraseDups.length = .ok (.int (a.scoreOf e)) :=
    complexityScore_eq hw ..
  obtain ⟨tier, htier⟩ := tierOf_eq_ok hw (a.scoreOf e)
  obtain ⟨u, hu⟩ : ∃ u, a.unitOf e = .ok u :=
    ⟨_, by simp only [unitOf, hown, hscore, htier, bind, Except.bind]; rfl⟩
  refine ⟨u, hu, ?_⟩
  simp only [unitOf, hown, hscore, htier, bind, Except.bind] at hu
  obtain rfl := Except.ok.inj hu
  exact ⟨rfl, htier, rfl⟩

/-- The text of the cooldown is asked for before anything else that can fail. -/
lemma unitOf_of_not_told {a : Analyzer} {e : Entry} (hc : e.cooldown.isTold = false) :
    a.unitOf e = .error .badValue := by
  have hown : e.ownAttributes = .error .badValue := by
    unfold Entry.ownAttributes
    split
    · rename_i hnull
      rw [hnull] at hc
      cases hc
    · rw [Value.told_of_not_isTold hc]
      rfl
  rw [unitOf, hown]
  rfl

end Analyzer

end SkillAtlas
