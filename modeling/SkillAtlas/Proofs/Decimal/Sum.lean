import SkillAtlas.Proofs.Decimal.Nearest

/-!
# Sums of floats

The sum of two floats is computed from their mantissas, brought to one exponent: shifted to the place of its
last digit, the sum of the mantissas is rounded by the bits that fall out. So the sum of positive floats is
the float nearest to the sum of their values.
-/

namespace SkillAtlas.Decimal

open Float.Model (UnpackedFloat Format totalExponent)
open Float.Model.UnpackedFloat

section Shifts

/-- Shifted to the right, a mantissa keeps the last bit that falls out and whether any bit before was set. -/
lemma shiftRight_succ (m k : ℕ) :
    (⟨m, false, false⟩ : ExtendedMantissa) >>> (k + 1) =
      ⟨m / 2 ^ (k + 1), m / 2 ^ k % 2 != 0, m % 2 ^ k != 0⟩ := by
  induction k with
  | zero => simp [HShiftRight.hShiftRight, Nat.repeat, ExtendedMantissa.shiftRightOne, Nat.mod_one]
  | succ k ih =>
    have hstep : (⟨m, false, false⟩ : ExtendedMantissa) >>> (k + 1 + 1) =
        ((⟨m, false, false⟩ : ExtendedMantissa) >>> (k + 1)).shiftRightOne := rfl
    rw [hstep, ih, ExtendedMantissa.shiftRightOne]
    have hbits := Nat.mod_pow_succ (x := m) (b := 2) (k := k)
    have hsticky : (m / 2 ^ k % 2 != 0 || m % 2 ^ k != 0) = (m % 2 ^ (k + 1) != 0) := by
      rw [Bool.eq_iff_iff]
      simp only [Bool.or_eq_true, bne_iff_ne, hbits]
      have hpos := Nat.two_pow_pos k
      have hz : 2 ^ k * (m / 2 ^ k % 2) = 0 ↔ m / 2 ^ k % 2 = 0 := by
        rw [Nat.mul_eq_zero]
        omega
      omega
    rw [hsticky, Nat.div_div_eq_div_mul, ← Nat.pow_succ]

lemma roundedMantissa_eq (m : ℕ) (half sticky : Bool) :
    (⟨m, half, sticky⟩ : ExtendedMantissa).roundedMantissa =
      if half = false ∨ sticky = false ∧ m % 2 = 0 then m else m + 1 := by
  cases half
  · cases sticky <;> rfl
  · cases sticky
    · show m + m % 2 = _
      by_cases h : m % 2 = 0
      · simp [h]
      · simp [Nat.mod_two_ne_zero.mp h]
    · simp [ExtendedMantissa.roundedMantissa, ExtendedMantissa.accuracy, Accuracy.roundToNearestEven]

/-- The mantissa that is left is the nearest to the whole one. -/
lemma roundedMantissa_shiftRight (m k : ℕ) :
    ((⟨m, false, false⟩ : ExtendedMantissa) >>> k).roundedMantissa = roundDiv m (2 ^ k) := by
  cases k with
  | zero =>
    have hnone : (⟨m, false, false⟩ : ExtendedMantissa) >>> 0 = ⟨m, false, false⟩ := rfl
    rw [hnone, roundedMantissa_eq]
    simp [roundDiv, Nat.mod_one]
  | succ k =>
    rw [shiftRight_succ, roundedMantissa_eq, roundDiv_eq, Nat.mod_pow_succ]
    refine if_congr ?_ rfl rfl
    have hlow : m % 2 ^ k < 2 ^ k := Nat.mod_lt _ (Nat.two_pow_pos k)
    simp only [bne_eq_false_iff_eq, Nat.pow_succ]
    rcases Nat.mod_two_eq_zero_or_one (m / 2 ^ k) with hbit | hbit
    · rw [hbit]
      omega
    · rw [hbit]
      omega

end Shifts

section Rounding

lemma toNat_pack_finite {m : ℕ} {q : ℤ} (hpos : 0 < m) (hm : m < 2 ^ 53) (hq : -1074 ≤ q) (hq' : q ≤ 971) :
    (pack Format.binary64 (.finite .positive m q hpos)).toNat = bitsOf m q := by
  have hbias : (Format.binary64.exponentBias : ℤ) = 1023 := rfl
  have hplaces : (Format.binary64.mantissaBitsWithoutImplicit : ℤ) = 52 := rfl
  have hdigits : Format.binary64.mantissaBits = 53 := rfl
  unfold pack bitsOf
  dsimp only
  rw [hbias, hplaces, hdigits, show (q + 1023 + 52).toNat = (q + 1075).toNat by omega, show twoTo 52 = 2 ^ 52 from rfl]
  generalize he : (q + 1075).toNat = e
  rw [if_neg (show ¬ 2 ^ 11 ≤ e + 1 by omega)]
  by_cases hlow : m < 2 ^ 52
  · have hlog : m.log2 < 52 := (Nat.log2_lt hpos.ne').mpr hlow
    rw [if_neg (show ¬ m.log2 + 1 = 53 by omega), if_pos hlow]
    refine (toNat_packComponents _ _).trans ?_
    rw [BitVec.toNat_ofNat, BitVec.toNat_ofNat, Nat.mod_eq_of_lt hlow]
    omega
  · have hlog : m.log2 = 52 := (Nat.log2_eq_iff hpos.ne').mpr ⟨not_lt.mp hlow, hm⟩
    rw [if_pos (show m.log2 + 1 = 53 by omega), if_neg hlow]
    refine (toNat_packComponents _ _).trans ?_
    rw [BitVec.toNat_ofNat, BitVec.toNat_ofNat, Nat.mod_eq_of_lt (show e < 2 ^ 11 by omega)]
    omega

/-- The place of the last digit that a mantissa keeps. -/
lemma targetExponent_eq (m : ℕ) (e : ℤ) :
    Format.binary64.targetExponent (totalExponent m e) = max ((m.log2 : ℤ) + e - 52) (-1074) := by
  show max ((m.log2 : ℤ) + 1 + e - 53) (-1074) = _
  congr 1
  ring

lemma isPlace_target {m : ℕ} (hm : m ≠ 0) (e : ℤ) :
    IsPlace (m * 2 ^ e) (Format.binary64.targetExponent (totalExponent m e)) := by
  have hlow : (2 : ℚ) ^ m.log2 ≤ m := by exact_mod_cast Nat.log2_self_le hm
  have hhigh : (m : ℚ) < 2 ^ (m.log2 + 1) := by exact_mod_cast Nat.lt_log2_self
  rw [targetExponent_eq]
  refine ⟨le_max_right _ _, ?_, fun hq => ?_⟩
  · calc (m : ℚ) * 2 ^ e < 2 ^ (m.log2 + 1) * 2 ^ e := by gcongr
      _ = 2 ^ (e + (m.log2 + 1 : ℕ)) := (two_zpow_add _ _).symm
      _ ≤ _ := two_zpow_mono (by push_cast; omega)
  · calc (2 : ℚ) ^ (max ((m.log2 : ℤ) + e - 52) (-1074) + 52) = 2 ^ (e + (m.log2 : ℕ)) := by
          congr 1
          omega
      _ = 2 ^ m.log2 * 2 ^ e := two_zpow_add _ _
      _ ≤ m * 2 ^ e := by gcongr

lemma shiftToTargetExponent_eq (m : ℕ) (e : ℤ) :
    shiftToTargetExponent Format.binary64 m e .exact =
      let shift := (max ((m.log2 : ℤ) + e - 52) (-1074) - e).toNat
      ((⟨m, false, false⟩ : ExtendedMantissa) >>> shift, e + shift) := by
  unfold shiftToTargetExponent shiftToExponent
  rw [targetExponent_eq]
  rfl

lemma shiftToTargetExponent_self {m : ℕ} {q : ℤ} (hm : m < 2 ^ 53) (hq : -1074 ≤ q) :
    shiftToTargetExponent Format.binary64 m q .exact = (⟨m, false, false⟩, q) := by
  have hlog : m.log2 ≤ 52 := by
    by_cases hz : m = 0
    · rw [hz]
      decide
    · have hl := (Nat.log2_lt hz).mpr hm
      omega
  rw [shiftToTargetExponent_eq, show (max ((m.log2 : ℤ) + q - 52) (-1074) - q).toNat = 0 by omega]
  simp only [Nat.cast_zero, add_zero]
  rfl

lemma shiftToTargetExponent_carry {q : ℤ} (hq : -1074 ≤ q) :
    shiftToTargetExponent Format.binary64 (2 ^ 53) q .exact = (⟨2 ^ 52, false, false⟩, q + 1) := by
  rw [shiftToTargetExponent_eq, Nat.log2_two_pow,
    show (max (((53 : ℕ) : ℤ) + q - 52) (-1074) - q).toNat = 0 + 1 by omega]
  dsimp only
  rw [shiftRight_succ]
  rfl

/-- The bits of a mantissa that is rounded at a place are those of the whole number of steps. -/
lemma toNat_pack_roundWithAccuracy {m : ℕ} {e q : ℤ} (hq : q = max ((m.log2 : ℤ) + e - 52) (-1074))
    (he : e ≤ q) {r : ℕ} (hr : roundDiv m (2 ^ (q - e).toNat) = r) (hle : r ≤ 2 ^ 53) (hq' : q ≤ 970) :
    (pack Format.binary64 (roundWithAccuracy Format.binary64 .positive m e .exact)).toNat = bitsOf r q := by
  have hleast : -1074 ≤ q := hq ▸ le_max_right _ _
  unfold roundWithAccuracy
  rw [shiftToTargetExponent_eq, ← hq]
  dsimp only
  rw [roundedMantissa_shiftRight, hr, show e + ((q - e).toNat : ℤ) = q by omega]
  rcases hle.lt_or_eq with hlt | rfl
  · rw [shiftToTargetExponent_self hlt hleast]
    by_cases hz : r = 0
    · subst hz
      rfl
    · rw [dif_neg hz]
      exact toNat_pack_finite _ hlt hleast (by omega)
  -- rounded up to the next power of two, the mantissa is shifted once more
  · rw [shiftToTargetExponent_carry hleast]
    dsimp only
    rw [dif_neg (by norm_num), toNat_pack_finite _ (by norm_num) (by omega) (by omega)]
    unfold bitsOf
    rw [if_neg (by decide), if_neg (by decide), show (q + 1 + 1075).toNat = (q + 1075).toNat + 1 by omega]
    show ((q + 1075).toNat + 1) * 2 ^ 52 + 0 = (q + 1075).toNat * 2 ^ 52 + 2 ^ 52
    ring

lemma log2_shiftLeft {m : ℕ} (hm : m ≠ 0) (k : ℕ) : (m <<< k).log2 = m.log2 + k := by
  rw [Nat.shiftLeft_eq, Nat.log2_eq_iff (Nat.mul_ne_zero hm (Nat.two_pow_pos k).ne')]
  have hpos := Nat.two_pow_pos k
  refine ⟨?_, ?_⟩
  · rw [Nat.pow_add]
    exact Nat.mul_le_mul_right _ (Nat.log2_self_le hm)
  · rw [Nat.add_right_comm, Nat.pow_add]
    exact Nat.mul_lt_mul_of_pos_right Nat.lt_log2_self hpos

/-- Rounding a mantissa whose exponent is not above the place of its value gives the nearest float. -/
theorem nearest_roundWithAccuracy {m : ℕ} (hm : m ≠ 0) {e : ℤ} (he : e ≤ max ((m.log2 : ℤ) + e - 52) (-1074))
    (h : (m * 2 ^ e : ℚ) < 2 ^ 1000) :
    ∃ v, ratOf? ⟨Float.Model.pack (roundWithAccuracy Format.binary64 .positive m e .exact)⟩ = some v ∧
      Nearest (m * 2 ^ e) v := by
  have hplace := isPlace_target hm e
  rw [targetExponent_eq] at hplace
  generalize hq : max ((m.log2 : ℤ) + e - 52) (-1074) = q at hplace he
  generalize hr : roundDiv m (2 ^ (q - e).toNat) = r
  have hround := rounds_roundDiv m (Nat.two_pow_pos (q - e).toNat)
  have hquotient : (m : ℚ) / (2 ^ (q - e).toNat : ℕ) = m * 2 ^ e / 2 ^ q := by
    have hpow : (2 : ℚ) ^ (e + (q - e).toNat) = 2 ^ (q - e).toNat * 2 ^ e := two_zpow_add e _
    rw [show e + ((q - e).toNat : ℤ) = q by omega] at hpow
    rw [hpow, Nat.cast_pow, Nat.cast_ofNat, mul_div_mul_right _ _ (by positivity)]
  rw [hquotient, hr] at hround
  have hle := hplace.rounded_le hround
  have hq' := hplace.le_of_lt h
  refine ⟨r * 2 ^ q, ratOf?_of_bits hle hplace.least hq' (hplace.le_rounded hround) ?_, q, r, hplace, hround, rfl⟩
  exact toNat_pack_roundWithAccuracy hq.symm he hr hle hq'

lemma shiftLeft_mul_two_zpow (m : ℕ) {e f : ℤ} (h : f ≤ e) :
    ((m <<< (e - f).toNat : ℕ) : ℚ) * 2 ^ f = m * 2 ^ e := by
  have hpow : (2 : ℚ) ^ (f + (e - f).toNat) = 2 ^ (e - f).toNat * 2 ^ f := two_zpow_add f _
  rw [Nat.shiftLeft_eq, Nat.cast_mul, Nat.cast_pow, Nat.cast_ofNat, mul_assoc, ← hpow,
    show f + ((e - f).toNat : ℤ) = e by omega]

/-- Rounding a mantissa with its exponent gives the nearest float. -/
theorem nearest_round {m : ℕ} (hm : m ≠ 0) (e : ℤ) (h : (m * 2 ^ e : ℚ) < 2 ^ 1000) :
    ∃ v, ratOf? ⟨Float.Model.pack (UnpackedFloat.round Format.binary64 .positive m e)⟩ = some v ∧
      Nearest (m * 2 ^ e) v := by
  unfold UnpackedFloat.round decreaseExponent
  dsimp only
  rw [targetExponent_eq]
  generalize hq : max ((m.log2 : ℤ) + e - 52) (-1074) = q
  generalize hk : (e - q).toNat = k
  have hlog := log2_shiftLeft hm k
  have hpos : m <<< k ≠ 0 := by
    rw [Nat.shiftLeft_eq]
    exact Nat.mul_ne_zero hm (Nat.two_pow_pos k).ne'
  have hvalue : ((m <<< k : ℕ) : ℚ) * 2 ^ (e - k) = m * 2 ^ e := by
    have hshift := shiftLeft_mul_two_zpow m (show e - k ≤ e by omega)
    rwa [show (e - (e - (k : ℤ))).toNat = k by omega] at hshift
  rw [← hvalue] at h ⊢
  exact nearest_roundWithAccuracy hpos (by rw [hlog]; push_cast; omega) h

end Rounding

section Sums

/-- The value of a float in parts, if it has one. -/
def valueOf? : UnpackedFloat → Option ℚ
  | .finite s m e _ => some (s.apply m * 2 ^ e)
  | .zero _ => some 0
  | _ => none

lemma toNat_one_append (f : BitVec 52) : (1#1 ++ f).toNat = f.toNat + 2 ^ 52 := by
  rw [BitVec.toNat_append, ← Nat.shiftLeft_add_eq_or_of_lt f.isLt]
  show 2 ^ 52 + f.toNat = _
  ring

lemma cast_apply_ofBitVec (s : BitVec 1) (k : ℕ) :
    (((Sign.ofBitVec s).apply k : ℤ) : ℚ) = if (s.toNat == 1) = true then -(k : ℚ) else k := by
  have hs : s = 0#1 ∨ s = 1#1 := by
    revert s
    decide
  rcases hs with rfl | rfl <;> simp [Sign.ofBitVec, Sign.apply]

/-- A float has the value of its parts. -/
lemma ratOf?_eq (x : Float) : ratOf? x = valueOf? x.toModel.unpack := by
  let b : BitVec Format.binary64.numBits := x.toModel.toBits.toBitVec
  have hbits : x.toBits.toNat = b.toNat := rfl
  have hparts : x.toModel.unpack = unpack Format.binary64 b := rfl
  have hbias : (Format.binary64.exponentBias : ℤ) + (52 : ℕ) = 1075 := rfl
  unfold ratOf? Binary.ofFloat
  dsimp only
  rw [hparts, hbits, show twoTo 63 = 2 ^ 63 from rfl, show twoTo 52 = 2 ^ 52 from rfl,
    show twoTo 11 = 2 ^ 11 from rfl, ← toNat_unpackExponent, ← toNat_unpackMantissa, ← toNat_unpackSign]
  clear_value b
  have hone : (unpackExponent b).toNat = 2047 ↔ unpackExponent b = -1#11 := BitVec.toNat_inj (y := -1#11)
  have hzero : (unpackExponent b).toNat = 0 ↔ unpackExponent b = 0#11 := BitVec.toNat_inj (y := 0#11)
  unfold unpack
  dsimp only
  rw [hbias]
  simp only [beq_iff_eq, hone, hzero]
  by_cases hmax : unpackExponent b = -1#11
  · rw [if_pos hmax, if_pos hmax]
    split_ifs <;> rfl
  rw [if_neg hmax, if_neg hmax]
  by_cases hmin : unpackExponent b = 0#11
  · have hexponent : ((unpackExponent b).toNat : ℤ) - 1075 + 1 = -1074 := by rw [hzero.mpr hmin]; rfl
    rw [if_pos hmin, if_pos hmin, hexponent]
    by_cases hf : unpackMantissa b = 0#52
    · rw [dif_pos hf, hf]
      simp [valueOf?]
    · rw [dif_neg hf]
      dsimp only
      rw [mkRat_twoTo, valueOf?, cast_apply_ofBitVec, ite_mul, neg_mul]
  · rw [if_neg hmin, if_neg hmin]
    dsimp only
    rw [mkRat_twoTo, valueOf?, cast_apply_ofBitVec, toNat_one_append, ite_mul, neg_mul]

lemma unpack_of_pos {x : Float} {r : ℚ} (hx : ratOf? x = some r) (hr : 0 < r) :
    ∃ m e, ∃ h : 0 < m, x.toModel.unpack = .finite .positive m e h ∧ r = m * 2 ^ e := by
  rw [ratOf?_eq] at hx
  generalize x.toModel.unpack = u at hx
  match u with
  | .finite .positive m e h => exact ⟨m, e, h, rfl, (Option.some.inj hx).symm⟩
  | .finite .negative m e h =>
    obtain rfl : ((-m : ℤ) : ℚ) * 2 ^ e = r := Option.some.inj hx
    have hneg : ((-m : ℤ) : ℚ) * 2 ^ e ≤ 0 :=
      mul_nonpos_of_nonpos_of_nonneg (by push_cast; linarith [m.cast_nonneg (α := ℚ)]) (by positivity)
    exact absurd hr hneg.not_gt
  | .zero s => exact absurd hr (Option.some.inj hx).ge.not_gt

/-- The sum of positive floats is the nearest float to the sum of their values. -/
theorem nearest_add {x y : Float} {r s : ℚ} (hx : ratOf? x = some r) (hy : ratOf? y = some s) (hr : 0 < r)
    (hs : 0 < s) (h : r + s < 2 ^ 1000) : ∃ v, ratOf? (x + y) = some v ∧ Nearest (r + s) v := by
  obtain ⟨m, e, hm, hxu, rfl⟩ := unpack_of_pos hx hr
  obtain ⟨n, f, hn, hyu, rfl⟩ := unpack_of_pos hy hs
  generalize hp : min e f = p
  let total : ℕ := m <<< (e - p).toNat + n <<< (f - p).toNat
  have htotal : 0 < total := by
    refine Nat.add_pos_left ?_ _
    rw [Nat.shiftLeft_eq]
    exact Nat.mul_pos hm (Nat.two_pow_pos _)
  have hnormal : UnpackedFloat.normalize Format.binary64 (total : ℤ) p .positive =
      UnpackedFloat.round Format.binary64 .positive total p := by
    have hcompare : compare (total : ℤ) 0 = .gt := compare_gt_iff_gt.mpr (by exact_mod_cast htotal)
    rw [UnpackedFloat.normalize, hcompare]
    rfl
  have hsum : x + y = ⟨Float.Model.pack (UnpackedFloat.round Format.binary64 .positive total p)⟩ := by
    show (⟨Float.Model.pack (UnpackedFloat.add Format.binary64 x.toModel.unpack y.toModel.unpack)⟩ : Float) = _
    subst hp
    rw [hxu, hyu, ← hnormal]
    rfl
  have hvalue : (total * 2 ^ p : ℚ) = m * 2 ^ e + n * 2 ^ f := by
    rw [Nat.cast_add, add_mul, shiftLeft_mul_two_zpow m (by omega), shiftLeft_mul_two_zpow n (by omega)]
  rw [← hvalue] at h ⊢
  rw [hsum]
  exact nearest_round htotal.ne' p h

lemma isInf_of_ratOf? {x : Float} {r : ℚ} (h : ratOf? x = some r) : x.isInf = false := by
  rw [ratOf?_eq] at h
  show x.toModel.unpack.isInf = false
  generalize x.toModel.unpack = u at h
  cases u <;> first | rfl | cases h

lemma unpack_of_zero {x : Float} (hx : ratOf? x = some 0) : ∃ s, x.toModel.unpack = .zero s := by
  rw [ratOf?_eq] at hx
  generalize x.toModel.unpack = u at hx
  match u with
  | .zero s => exact ⟨s, rfl⟩
  | .finite s m e h =>
    have hzero : ((s.apply m : ℤ) : ℚ) = 0 :=
      (mul_eq_zero.mp (Option.some.inj hx)).resolve_right (by positivity)
    cases s <;> simp [Sign.apply, h.ne'] at hzero

/-- A float that is not negative and a half. -/
lemma nearest_add_half {x : Float} {r : ℚ} (hx : ratOf? x = some r) (hr : 0 ≤ r) (h : r + 1 / 2 < 2 ^ 1000) :
    ∃ v, ratOf? (x + 0.5) = some v ∧ Nearest (r + 1 / 2) v := by
  rcases hr.eq_or_lt with rfl | hpos
  · obtain ⟨s, hs⟩ := unpack_of_zero hx
    have hsum : ratOf? (x + 0.5) = some (1 / 2) := by
      show ratOf? ⟨Float.Model.pack
        (UnpackedFloat.add Format.binary64 x.toModel.unpack (0.5 : Float).toModel.unpack)⟩ = _
      rw [hs]
      cases s <;> decide +kernel
    have hplace : IsPlace ((2 ^ 52 : ℕ) * 2 ^ (-53 : ℤ)) (-53) := ⟨by norm_num, by norm_num, fun _ => by norm_num⟩
    have hvalue : (2 ^ 52 : ℕ) * 2 ^ (-53 : ℤ) = (0 + 1 / 2 : ℚ) := by norm_num
    refine ⟨0 + 1 / 2, by rw [hsum, zero_add], ?_⟩
    rw [← hvalue]
    exact nearest_self hplace
  · exact nearest_add hx (show ratOf? 0.5 = some (1 / 2) by decide +kernel) hpos (by norm_num) h

end Sums

end SkillAtlas.Decimal
