import SkillAtlas.Proofs.Decimal.Sum
import SkillAtlas.Proofs.Template.Points

/-!
# Likeness under the usual weights

The usual weights add up to a hundred, so a likeness is a number of hundredths. Each part of the score is full
exactly if the records agree in it. The points for lines are whole, and full already if the records share
nearly all of their lines.

The points for lines are a share of thirty that is divided and rounded by way of floats. A share of at least
sixteen is a multiple of one place, to which a half is added exactly, so only the division is inexact: the
whole thirty is given from twenty-nine and a half on, less half of that place.
-/

namespace SkillAtlas

section Rounding

open Decimal (ratOf? Nearest IsPlace Rounds)

variable {x : Float} {r v w : ℚ} {m : ℕ}

lemma isPlace_of_between (h : 16 ≤ r) (h' : r < 32) : IsPlace r (-48) where
  least := by norm_num
  above := by norm_num; exact h'
  below _ := by norm_num; exact h

lemma nearest_of_between (m : ℕ) (hm : v = m * 2 ^ (-48 : ℤ)) (h : 16 ≤ v) (h' : v < 32) : Nearest v v := by
  subst hm
  exact Decimal.nearest_self (isPlace_of_between h h')

/-- A share between sixteen and thirty is rounded once, and a half is added to it exactly. -/
lemma nearest_half_of_between (hv : Nearest r v) (h : 16 ≤ r) (h' : r ≤ 30) (hw : Nearest (v + 1 / 2) w) :
    w = v + 1 / 2 ∧ (59 / 2 ≤ v ↔ 59 / 2 - 1 / 2 ^ 49 ≤ r) := by
  have hlow : 16 ≤ v := (nearest_of_between (16 * 2 ^ 48) (by norm_num) le_rfl (by norm_num)).mono hv h
  have hhigh : v ≤ 30 := hv.mono (nearest_of_between (30 * 2 ^ 48) (by norm_num) (by norm_num) (by norm_num)) h'
  -- the share and the sum are multiples of the same power of two
  obtain ⟨m, hm, hvm⟩ := hv.exists_rounds (isPlace_of_between h (by linarith))
  refine ⟨hw.unique (nearest_of_between (m + 2 ^ 47) ?_ (by linarith) (by linarith)), ?_⟩
  · rw [hvm]
    push_cast
    ring
  have hcount : 59 / 2 ≤ v ↔ 59 * 2 ^ 47 ≤ m := by
    have hscale : (59 / 2 : ℚ) = (59 * 2 ^ 47 : ℕ) * 2 ^ (-48 : ℤ) := by norm_num
    rw [hvm, hscale, mul_le_mul_iff_left₀ (by positivity), Nat.cast_le]
  have heven : Even (59 * 2 ^ 47) := by decide
  rw [hcount, hm.le_iff heven, le_div_iff₀ (by positivity)]
  norm_num

/-- A share below sixteen stays below thirty. -/
lemma nearest_half_of_lt (hv : Nearest r v) (h : r < 16) (hw : Nearest (v + 1 / 2) w) : w ≤ 33 / 2 := by
  have hsixteen : v ≤ 16 := hv.mono (nearest_of_between (16 * 2 ^ 48) (by norm_num) le_rfl (by norm_num)) h.le
  refine hw.mono (nearest_of_between (33 * 2 ^ 47) (by norm_num) (by norm_num) (by norm_num)) ?_
  linarith

/-- A share of thirty is rounded to a number of points, to all of them from a bound on. -/
theorem roundFloat_share (hx : ratOf? x = some v) (hv : Nearest r v) (h : r ≤ 30) :
    ∃ k : ℤ, Division.roundFloat x = .ok k ∧ 0 ≤ k ∧ k ≤ 30 ∧ (k = 30 ↔ 59 / 2 - 1 / 2 ^ 49 ≤ r) := by
  have hthirty : v ≤ 30 := hv.mono (nearest_of_between (30 * 2 ^ 48) (by norm_num) (by norm_num) (by norm_num)) h
  have hsmall : v + 1 / 2 < 2 ^ 1000 :=
    calc v + 1 / 2 < 2 ^ 5 := by linarith
      _ ≤ 2 ^ 1000 := pow_le_pow_right₀ one_le_two (by norm_num)
  obtain ⟨w, hw, hnearest⟩ := Decimal.nearest_add_half hx hv.nonneg hsmall
  have hfloor : Division.roundFloat x = .ok ⌊w⌋ := by
    unfold Division.roundFloat Decimal.floor?
    dsimp only
    rw [hw]
    rfl
  refine ⟨⌊w⌋, hfloor, Int.floor_nonneg.mpr hnearest.nonneg, ?_⟩
  rcases lt_or_ge r 16 with hlow | hhigh
  · have hle := nearest_half_of_lt hv hlow hnearest
    have hne : ⌊w⌋ < 30 := Int.floor_lt.mpr (by push_cast; linarith)
    exact ⟨hne.le, iff_of_false hne.ne (by norm_num; linarith)⟩
  · obtain ⟨rfl, hbound⟩ := nearest_half_of_between hv hhigh h hnearest
    have hle : ⌊v + 1 / 2⌋ ≤ 30 := Int.floor_le_iff.mpr (by push_cast; linarith)
    have hge : 30 ≤ ⌊v + 1 / 2⌋ ↔ 59 / 2 ≤ v := by
      rw [Int.le_floor]
      push_cast
      constructor <;> intro h <;> linarith
    refine ⟨hle, ?_⟩
    rw [← hbound, ← hge]
    omega

lemma quotient_count (p : ℕ) {n : ℕ} (hn : 0 < n) (h : (p / n : ℚ) < 2 ^ 1000) :
    Value.quotient (.count p) (.count n) = .ok (Decimal.ofRatio false p n) := by
  obtain ⟨v, hv, -⟩ := Decimal.nearest_ofRatio p hn h
  have hsign : (decide ((p : ℤ) < 0) != decide ((n : ℤ) < 0)) = false := by
    rw [decide_eq_false (by omega), decide_eq_false (by omega)]
    rfl
  have hzero : ((n : ℤ) == 0) = false := by
    rw [beq_eq_false_iff_ne]
    omega
  show (if ((n : ℤ) == 0) = true then Except.error Fault.divisionByZero else
    let x := Decimal.ofRatio (decide ((p : ℤ) < 0) != decide ((n : ℤ) < 0)) p n
    if x.isInf then .error .tooLarge else .ok x) = _
  rw [hzero, hsign, if_neg Bool.false_ne_true]
  dsimp only
  rw [Decimal.isInf_of_ratOf? hv, if_neg Bool.false_ne_true]

/-- A share is whole if at most one part in sixty is missing. From `2 ^ 48` parts on, the place of the quotient
lets a few more be missing. -/
lemma share_bound_iff {c n : ℕ} (hn : 0 < n) (hc : c ≤ n) :
    59 / 2 - 1 / 2 ^ 49 ≤ ((30 * c : ℕ) : ℚ) / n ↔ 60 * (n - c) ≤ n + n / 2 ^ 48 := by
  have hpos : (0 : ℚ) < n := by exact_mod_cast hn
  have hscale : 59 / 2 - 1 / 2 ^ 49 ≤ ((30 * c : ℕ) : ℚ) / n ↔
      ((59 * 2 ^ 48 * n : ℕ) : ℚ) ≤ (60 * 2 ^ 48 * c + n : ℕ) := by
    rw [le_div_iff₀ hpos]
    push_cast
    constructor <;> intro h <;> linarith
  rw [hscale, Nat.cast_le]
  omega

/-- Thirty points times a count of parts, divided by their number and rounded. -/
theorem rounded_share {c n : ℕ} (hn : 0 < n) (hc : c ≤ n) :
    ∃ k : ℤ, (Value.quotient (.count (30 * c)) (.count n)).bind Division.roundFloat = .ok k ∧ 0 ≤ k ∧ k ≤ 30 ∧
      (k = 30 ↔ 60 * (n - c) ≤ n + n / 2 ^ 48) := by
  have hpos : (0 : ℚ) < n := by exact_mod_cast hn
  have hthirty : ((30 * c : ℕ) / n : ℚ) ≤ 30 := by
    rw [div_le_iff₀ hpos]
    exact_mod_cast Nat.mul_le_mul_left 30 hc
  have hsmall : ((30 * c : ℕ) / n : ℚ) < 2 ^ 1000 :=
    calc ((30 * c : ℕ) / n : ℚ) < 2 ^ 5 := by linarith
      _ ≤ 2 ^ 1000 := pow_le_pow_right₀ one_le_two (by norm_num)
  obtain ⟨v, hv, hnearest⟩ := Decimal.nearest_ofRatio (30 * c) hn hsmall
  rw [quotient_count (30 * c) hn hsmall, ← share_bound_iff hn hc]
  exact roundFloat_share hv hnearest hthirty

end Rounding

/-- So many hundredths as a float. -/
def hundredths (points : ℕ) : Float :=
  Decimal.ofRatio false points 100

lemma hundredths_hundred : hundredths 100 = 1 :=
  rfl

lemma hundredths_seventy : hundredths 70 = 0.7 :=
  rfl

lemma hundredths_ne_one : ∀ points < 100, (hundredths points == 1) = false := by
  decide +kernel

lemma hundredths_eq_one_iff {points : ℕ} (h : points ≤ 100) : hundredths points == 1 ↔ points = 100 := by
  rcases h.lt_or_eq with hlt | rfl
  · rw [hundredths_ne_one points hlt]
    exact iff_of_false Bool.false_ne_true hlt.ne
  · exact iff_of_true rfl rfl

lemma quotient_hundred {points : ℕ} (h : points ≤ 100) :
    Value.quotient (.count points) (.int 100) = .ok (hundredths points) := by
  refine quotient_count points (by norm_num) ?_
  have hle : (points : ℚ) ≤ 100 := by exact_mod_cast h
  calc (points : ℚ) / (100 : ℕ) < 2 ^ 1 := by rw [div_lt_iff₀ (by norm_num)]; push_cast; linarith
    _ ≤ 2 ^ 1000 := pow_le_pow_right₀ one_le_two (by norm_num)

/-- Of the lines of the longer record, at most one in sixty is not shared. From `2 ^ 48` lines on, the place of
a quotient lets a few more be different. -/
def TemplateRecord.SharesNearlyAll (a b : TemplateRecord) : Prop :=
  let lines := max a.allLines.length b.allLines.length
  60 * (lines - SimilaritySettings.sharedCount a.allLines b.allLines) ≤ lines + lines / 2 ^ 48

namespace SimilaritySettings

variable {a b : TemplateRecord} {m n : String}

lemma usual_lineScore (ha : a.Textual) (hb : b.Textual) :
    ∃ lines : ℤ, lineScore {} a b = .ok (.int lines) ∧ 0 ≤ lines ∧ lines ≤ 30 ∧
      (lines = 30 ↔ a.allLines ≠ [] ∧ b.allLines ≠ [] ∧ a.SharesNearlyAll b) := by
  by_cases hnil : a.allLines = [] ∨ b.allLines = []
  · refine ⟨0, lineScoreBy_nil {} .float hnil, le_rfl, by norm_num, ?_⟩
    exact iff_of_false (by norm_num) fun h => hnil.elim h.1 h.2.1
  obtain ⟨hane, hbne⟩ := not_or.mp hnil
  have hlongest : 0 < max a.allLines.length b.allLines.length :=
    lt_max_of_lt_left (List.length_pos_of_ne_nil hane)
  have hshared : sharedCount a.allLines b.allLines ≤ max a.allLines.length b.allLines.length :=
    (sharedCount_le ha hb).trans (le_max_left _ _)
  obtain ⟨k, hk, hlow, hhigh, hall⟩ := rounded_share hlongest hshared
  refine ⟨k, ?_, hlow, hhigh, hall.trans ⟨fun h => ⟨hane, hbne, h⟩, fun h => h.2.2⟩⟩
  exact (lineScoreBy_eq whole_usual ha hb hane hbne).trans (congrArg (Except.map Value.int) hk)

lemma usual_namePoints (x y : List Char) : namePoints {} x y = 30 ↔ x = y := by
  have hpoints : namePoints {} x y = if x = y then (30 : ℤ)
    else if Text.occursIn x y || Text.occursIn y x then 20
    else min 15 ((Text.commonStart x y).length * 3) := rfl
  rw [hpoints]
  split_ifs with heq
  · exact iff_of_true rfl heq
  · exact iff_of_false (by decide) heq
  · exact iff_of_false (by omega) heq

lemma usual_categoryPoints : categoryPoints {} a b = 20 ↔ a.category.equal b.category = true := by
  have hpoints : categoryPoints {} a b = if a.category.equal b.category then 20 else 0 := rfl
  rw [hpoints]
  split_ifs with heq
  · exact iff_of_true rfl heq
  · exact iff_of_false (by decide) heq

lemma usual_sectionPoints : sectionPoints {} a b = 20 ↔ a.sectionCount = b.sectionCount := by
  have hdistance : distance a.sectionCount b.sectionCount = 0 ↔ a.sectionCount = b.sectionCount := by
    unfold distance
    omega
  unfold sectionPoints sectionScore
  rw [← hdistance]
  split
  · rename_i hzero
    exact iff_of_true rfl hzero
  · rename_i hone
    rw [hone]
    exact iff_of_false (by decide) (by decide)
  · rename_i hzero _
    exact iff_of_false (by decide) hzero

lemma usual_outerPoints (m n : String) (a b : TemplateRecord) :
    outerPoints {} m n a b = 70 ↔ Text.lowerChars m.toList = Text.lowerChars n.toList ∧
      a.category.equal b.category = true ∧ a.sectionCount = b.sectionCount := by
  obtain ⟨-, hname⟩ := namePoints_between fair_usual (Text.lowerChars m.toList) (Text.lowerChars n.toList)
  obtain ⟨-, hcategory⟩ := categoryPoints_between fair_usual a b
  obtain ⟨-, hsection⟩ := sectionPoints_between fair_usual a b
  change _ ≤ 30 at hname
  change _ ≤ 20 at hcategory
  change _ ≤ 20 at hsection
  rw [← usual_namePoints, ← usual_categoryPoints, ← usual_sectionPoints]
  unfold outerPoints
  omega

/-- Under the usual weights the points are hundredths. -/
lemma usual_likeness (hm : a.name = .str m) (hn : b.name = .str n) {lines : ℤ} (h : 0 ≤ lines) (h' : lines ≤ 30)
    (hl : lineScore {} a b = .ok (.int lines)) :
    ∃ points : ℕ, points ≤ 100 ∧ points = outerPoints {} m n a b + lines ∧
      likeness {} a b = .ok (hundredths points) := by
  obtain ⟨houter, houter'⟩ := outerPoints_between fair_usual m n a b
  have hseventy : (({} : SimilaritySettings).nameExact.amount + ({} : SimilaritySettings).categoryMatch.amount +
    ({} : SimilaritySettings).sectionEqual.amount) = 70 := rfl
  obtain ⟨points, hpoints⟩ := Int.eq_ofNat_of_zero_le (show 0 ≤ outerPoints {} m n a b + lines by omega)
  refine ⟨points, by omega, hpoints.symm, ?_⟩
  have hlikeness := likenessBy_eq whole_usual hm hn hl
  rw [hpoints] at hlikeness
  exact hlikeness.trans (quotient_hundred (by omega))

end SimilaritySettings

end SkillAtlas
