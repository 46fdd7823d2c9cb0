import SkillAtlas.Proofs.Decimal.Sum

/-!
# Floats in order, and their products

The mantissa of a float has all its digits unless its exponent is the least one. So floats are compared by
their exponents and then by their mantissas, and this is the order of their values. Floats without a value are
the infinities and what is no number. The mantissas of two floats are multiplied and their product is rounded
once, so the product of positive floats is the float nearest to the product of their values.
-/

namespace SkillAtlas.Decimal

open Float.Model (UnpackedFloat Format)
open Float.Model.UnpackedFloat

variable {x y : Float} {r s : ℚ} {m n : ℕ} {e f : ℤ}

lemma isPlace_of_digits (hm : m < 2 ^ 53) (he : -1074 ≤ e) (hfull : e ≠ -1074 → 2 ^ 52 ≤ m) :
    IsPlace (m * 2 ^ e) e where
  least := he
  above := by
    have hpow : (2 : ℚ) ^ (e + 53) = 2 ^ 53 * 2 ^ e := two_zpow_add e 53
    rw [hpow]
    exact mul_lt_mul_of_pos_right (by exact_mod_cast hm) (by positivity)
  below hne := by
    have hpow : (2 : ℚ) ^ (e + 52) = 2 ^ 52 * 2 ^ e := two_zpow_add e 52
    rw [hpow]
    exact mul_le_mul_of_nonneg_right (by exact_mod_cast hfull hne) (by positivity)

/-- The exponent of a float is the place of its value. -/
lemma isPlace_of_unpack {sign : Sign} {h : 0 < m} (hx : x.toModel.unpack = .finite sign m e h) :
    IsPlace (m * 2 ^ e) e := by
  let b : BitVec Format.binary64.numBits := x.toModel.toBits.toBitVec
  have hparts : x.toModel.unpack = unpack Format.binary64 b := rfl
  have hbias : (Format.binary64.exponentBias : ℤ) + (52 : ℕ) = 1075 := rfl
  rw [hparts] at hx
  clear_value b
  have hfraction : (unpackMantissa b).toNat < 2 ^ 52 := (unpackMantissa b).isLt
  have hzero : (unpackExponent b).toNat = 0 ↔ unpackExponent b = 0#11 := BitVec.toNat_inj (y := 0#11)
  unfold unpack at hx
  dsimp only at hx
  rw [hbias] at hx
  split at hx
  · split at hx <;> cases hx
  split at hx
  · rename_i hleast
    split at hx
    · cases hx
    · cases hx
      rw [hzero.mpr hleast]
      exact isPlace_of_digits (by omega) (by omega) (by omega)
  · rename_i hmore
    cases hx
    rw [toNat_one_append]
    have hpos : 0 < (unpackExponent b).toNat := Nat.pos_of_ne_zero fun hz => hmore (hzero.mp hz)
    exact isPlace_of_digits (by omega) (by omega) (by omega)

/-- Floats with a greater exponent are greater, and floats with one exponent are compared by their mantissas. -/
lemma compare_parts (hm : IsPlace (m * 2 ^ e) e) (hn : IsPlace (n * 2 ^ f) f) :
    (compare e f).then (compare m n) = compare (m * 2 ^ e : ℚ) (n * 2 ^ f) := by
  have hbelow : ∀ {k l : ℕ} {p q : ℤ}, IsPlace (k * 2 ^ p) p → IsPlace (l * 2 ^ q) q → p < q →
      (k * 2 ^ p : ℚ) < l * 2 ^ q := by
    intro k l p q hk hl hlt
    have hle : (2 : ℚ) ^ (p + 53) ≤ 2 ^ (q + 52) := two_zpow_mono (by omega)
    have hleast := hk.least
    exact hk.above.trans_le (hle.trans (hl.below (by omega)))
  rcases lt_trichotomy e f with hlt | rfl | hgt
  · rw [compare_lt_iff_lt.mpr hlt, compare_lt_iff_lt.mpr (hbelow hm hn hlt)]
    rfl
  · have hpos : (0 : ℚ) < 2 ^ e := by positivity
    rw [compare_eq_iff_eq.mpr rfl]
    rcases lt_trichotomy m n with hlt | rfl | hgt
    · rw [compare_lt_iff_lt.mpr hlt, compare_lt_iff_lt.mpr (mul_lt_mul_of_pos_right (by exact_mod_cast hlt) hpos)]
      rfl
    · simp
    · rw [compare_gt_iff_gt.mpr hgt, compare_gt_iff_gt.mpr (mul_lt_mul_of_pos_right (by exact_mod_cast hgt) hpos)]
      rfl
  · rw [compare_gt_iff_gt.mpr hgt, compare_gt_iff_gt.mpr (hbelow hn hm hgt)]
    rfl

lemma compare_neg (r s : ℚ) : compare (-r) (-s) = (compare r s).swap := by
  rw [← Std.OrientedOrd.eq_swap]
  rcases lt_trichotomy r s with hlt | rfl | hgt
  · rw [compare_gt_iff_gt.mpr hlt, compare_gt_iff_gt.mpr (neg_lt_neg hlt)]
  · rw [compare_eq_iff_eq.mpr rfl, compare_eq_iff_eq.mpr rfl]
  · rw [compare_lt_iff_lt.mpr hgt, compare_lt_iff_lt.mpr (neg_lt_neg hgt)]

lemma valueOf?_finite {sign : Sign} {h : 0 < m} :
    valueOf? (.finite sign m e h) = some (match sign with
      | .positive => m * 2 ^ e
      | .negative => -(m * 2 ^ e)) := by
  cases sign <;> simp [valueOf?, Sign.apply]

/-- Floats with values are compared as their values. -/
lemma compare_unpack (hx : ratOf? x = some r) (hy : ratOf? y = some s) :
    UnpackedFloat.compare x.toModel.unpack y.toModel.unpack = some (compare r s) := by
  have hxp := @isPlace_of_unpack (x := x)
  have hyp := @isPlace_of_unpack (x := y)
  rw [ratOf?_eq] at hx hy
  generalize x.toModel.unpack = u at hx hxp
  generalize y.toModel.unpack = w at hy hyp
  have hpos : ∀ {k : ℕ} (p : ℤ), 0 < k → (0 : ℚ) < k * 2 ^ p := fun p hk => by positivity
  match u, w with
  | .zero _, .zero _ =>
    obtain rfl := Option.some.inj hx
    obtain rfl := Option.some.inj hy
    rfl
  | .zero _, .finite .positive n f hn =>
    obtain rfl := Option.some.inj hx
    obtain rfl := Option.some.inj (valueOf?_finite.symm.trans hy)
    exact congrArg some (compare_lt_iff_lt.mpr (hpos f hn)).symm
  | .zero _, .finite .negative n f hn =>
    obtain rfl := Option.some.inj hx
    obtain rfl := Option.some.inj (valueOf?_finite.symm.trans hy)
    exact congrArg some (compare_gt_iff_gt.mpr (neg_neg_of_pos (hpos f hn))).symm
  | .finite .positive m e hm, .zero _ =>
    obtain rfl := Option.some.inj (valueOf?_finite.symm.trans hx)
    obtain rfl := Option.some.inj hy
    exact congrArg some (compare_gt_iff_gt.mpr (hpos e hm)).symm
  | .finite .negative m e hm, .zero _ =>
    obtain rfl := Option.some.inj (valueOf?_finite.symm.trans hx)
    obtain rfl := Option.some.inj hy
    exact congrArg some (compare_lt_iff_lt.mpr (neg_neg_of_pos (hpos e hm))).symm
  | .finite .positive m e hm, .finite .negative n f hn =>
    obtain rfl := Option.some.inj (valueOf?_finite.symm.trans hx)
    obtain rfl := Option.some.inj (valueOf?_finite.symm.trans hy)
    exact congrArg some (compare_gt_iff_gt.mpr ((neg_neg_of_pos (hpos f hn)).trans (hpos e hm))).symm
  | .finite .negative m e hm, .finite .positive n f hn =>
    obtain rfl := Option.some.inj (valueOf?_finite.symm.trans hx)
    obtain rfl := Option.some.inj (valueOf?_finite.symm.trans hy)
    exact congrArg some (compare_lt_iff_lt.mpr ((neg_neg_of_pos (hpos e hm)).trans (hpos f hn))).symm
  | .finite .positive m e hm, .finite .positive n f hn =>
    obtain rfl := Option.some.inj (valueOf?_finite.symm.trans hx)
    obtain rfl := Option.some.inj (valueOf?_finite.symm.trans hy)
    exact congrArg some (compare_parts (hxp rfl) (hyp rfl))
  | .finite .negative m e hm, .finite .negative n f hn =>
    obtain rfl := Option.some.inj (valueOf?_finite.symm.trans hx)
    obtain rfl := Option.some.inj (valueOf?_finite.symm.trans hy)
    show some ((compare e f).then (compare m n)).swap = some (compare (-(m * 2 ^ e) : ℚ) (-(n * 2 ^ f)))
    rw [compare_parts (hxp rfl) (hyp rfl), compare_neg]

theorem le_iff_of_ratOf? (hx : ratOf? x = some r) (hy : ratOf? y = some s) : x ≤ y ↔ r ≤ s := by
  show decide (UnpackedFloat.le x.toModel.unpack y.toModel.unpack = true) = true ↔ _
  rw [decide_eq_true_iff]
  rw [UnpackedFloat.le, compare_unpack hx hy, Option.any_some, Ordering.isLE_iff_ne_gt]
  exact compare_le_iff_le

theorem lt_iff_of_ratOf? (hx : ratOf? x = some r) (hy : ratOf? y = some s) : x < y ↔ r < s := by
  show decide (UnpackedFloat.lt x.toModel.unpack y.toModel.unpack = true) = true ↔ _
  rw [decide_eq_true_iff]
  rw [UnpackedFloat.lt, compare_unpack hx hy, beq_iff_eq, Option.some.injEq]
  exact compare_lt_iff_lt

theorem beq_iff_of_ratOf? (hx : ratOf? x = some r) (hy : ratOf? y = some s) : (x == y) = true ↔ r = s := by
  show UnpackedFloat.beq x.toModel.unpack y.toModel.unpack = true ↔ _
  rw [UnpackedFloat.beq, compare_unpack hx hy, beq_iff_eq, Option.some.injEq]
  exact compare_eq_iff_eq

lemma IsPlace.full (h : IsPlace (m * 2 ^ e) e) (he : e ≠ -1074) : 2 ^ 52 ≤ m := by
  refine h.le_rounded ?_ he
  rw [mul_div_cancel_right₀ _ (by positivity)]
  exact rounds_self m

/-- A positive float is the nearest one to its value. -/
lemma nearest_of_ratOf? (hx : ratOf? x = some r) (hr : 0 < r) : Nearest r r := by
  obtain ⟨m, e, hm, hu, rfl⟩ := unpack_of_pos hx hr
  exact nearest_self (isPlace_of_unpack hu)

/-- The exponent of a product is not above the place of its value. -/
lemma add_exponents_le (hm : 0 < m) (hn : 0 < n) (hme : IsPlace (m * 2 ^ e) e) (hnf : IsPlace (n * 2 ^ f) f) :
    e + f ≤ max (((m * n).log2 : ℤ) + (e + f) - 52) (-1074) := by
  by_cases hlog : 52 ≤ (m * n).log2
  · omega
  have hshort : m * n < 2 ^ 52 := (Nat.log2_lt (Nat.mul_pos hm hn).ne').mp (not_le.mp hlog)
  have he : e = -1074 := by
    by_contra hne
    have hle : m ≤ m * n := Nat.le_mul_of_pos_right m hn
    exact absurd (hme.full hne) (by omega)
  have hf : f = -1074 := by
    by_contra hne
    have hle : n ≤ m * n := Nat.le_mul_of_pos_left n hm
    exact absurd (hnf.full hne) (by omega)
  omega

/-- The product of positive floats is the nearest float to the product of their values. -/
theorem nearest_mul (hx : ratOf? x = some r) (hy : ratOf? y = some s) (hr : 0 < r) (hs : 0 < s)
    (h : r * s < 2 ^ 1000) : ∃ v, ratOf? (x * y) = some v ∧ Nearest (r * s) v := by
  obtain ⟨m, e, hm, hxu, rfl⟩ := unpack_of_pos hx hr
  obtain ⟨n, f, hn, hyu, rfl⟩ := unpack_of_pos hy hs
  have hproduct : x * y =
      ⟨Float.Model.pack (roundWithAccuracy Format.binary64 .positive (m * n) (e + f) .exact)⟩ := by
    show (⟨Float.Model.pack (UnpackedFloat.mul Format.binary64 x.toModel.unpack y.toModel.unpack)⟩ : Float) = _
    rw [hxu, hyu]
    rfl
  have hvalue : ((m * n : ℕ) * 2 ^ (e + f) : ℚ) = m * 2 ^ e * (n * 2 ^ f) := by
    rw [zpow_add₀ two_ne_zero, Nat.cast_mul]
    ring
  rw [← hvalue] at h ⊢
  rw [hproduct]
  exact nearest_roundWithAccuracy (Nat.mul_pos hm hn).ne'
    (add_exponents_le hm hn (isPlace_of_unpack hxu) (isPlace_of_unpack hyu)) h

lemma nearest_one : Nearest 1 1 :=
  nearest_of_ratOf? (x := 1) (by decide +kernel) one_pos

end SkillAtlas.Decimal

namespace SkillAtlas

open Decimal (Nearest ratOf?)

/-- A whole number that is not negative becomes the float nearest to it. -/
theorem nearest_floatOfInt {n : ℕ} (h : (n : ℚ) < 2 ^ 1000) :
    ∃ x v, floatOfInt n = .ok x ∧ ratOf? x = some v ∧ Nearest n v := by
  obtain ⟨v, hv, hnear⟩ := Decimal.nearest_ofRatio n Nat.one_pos (by simpa using h)
  have hratio : Decimal.ofRat ((n : ℤ) : ℚ) = Decimal.ofRatio false n 1 := by
    have hsign : decide ((n : ℤ) < 0) = false := decide_eq_false (by omega)
    rw [Decimal.ofRat, Rat.num_intCast, Rat.den_intCast, hsign, Int.natAbs_natCast]
  refine ⟨_, v, ?_, hv, by simpa using hnear⟩
  rw [floatOfInt, hratio, Decimal.isInf_of_ratOf? hv]
  rfl

end SkillAtlas
