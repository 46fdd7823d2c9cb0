import Mathlib.Algebra.Group.Nat.Defs
import Mathlib.Tactic.ByContra
import SkillAtlas.Value.Arithmetic

/-!
# Numbers in the range of floats

A float is infinite only if all bits of its exponent are set. The float nearest to a quotient has such an
exponent only if the quotient is huge, so whole numbers of fewer than a thousand binary digits are read
as floats without a fault.
-/

namespace SkillAtlas.Decimal

open Float.Model (UnpackedFloat Format)
open Float.Model.UnpackedFloat

/-- Bits whose exponent has not all bits set stand for a zero, or for a finite float with that exponent or with
the least one. -/
lemma unpack_cases {spec : Format} {b : BitVec spec.numBits} (h : unpackExponent b ≠ -1#_) :
    (∃ s, unpack spec b = .zero s) ∨ ∃ s m e hm, unpack spec b = .finite s m e hm ∧
      e + (spec.exponentBias + spec.mantissaBitsWithoutImplicit) ≤ max 1 ((unpackExponent b).toNat : Int) := by
  unfold unpack
  rw [if_neg h]
  by_cases hz : unpackExponent b = 0#_
  · rw [if_pos hz]
    by_cases hm : unpackMantissa b = 0#_
    · rw [dif_pos hm]
      exact Or.inl ⟨_, rfl⟩
    · have hn : (unpackExponent b).toNat = 0 := by simp [hz]
      have hpos : 0 < (unpackMantissa b).toNat :=
        Nat.pos_of_ne_zero fun h0 => hm (BitVec.eq_of_toNat_eq (h0.trans (BitVec.toNat_zero ..).symm))
      rw [dif_neg hm]
      exact Or.inr ⟨_, _, _, hpos, rfl, by omega⟩
  · have hpos : 0 < (1#1 ++ unpackMantissa b).toNat := by simp
    rw [if_neg hz]
    exact Or.inr ⟨_, _, _, hpos, rfl, by omega⟩

lemma unpackExponent_of_isInf {spec : Format} {b : BitVec spec.numBits}
    (h : (unpack spec b).isInf = true) : unpackExponent b = -1#_ := by
  by_contra hne
  rcases unpack_cases hne with ⟨s, hb⟩ | ⟨s, m, e, hm, hb, -⟩ <;> rw [hb] at h
  · exact absurd h Bool.false_ne_true
  · exact absurd h Bool.false_ne_true

lemma unpackExponent_pack_finite {s : Sign} {m : Nat} {e : Int} (hm : 0 < m) (he : e + 1075 < 2047) :
    unpackExponent (pack Format.binary64 (.finite s m e hm)) ≠ -1#_ := by
  have hbias : (Format.binary64.exponentBias : Int) = 1023 := rfl
  have hbits : (Format.binary64.mantissaBitsWithoutImplicit : Int) = 52 := rfl
  unfold pack
  dsimp only
  rw [hbias, hbits]
  generalize hx : (e + 1023 + 52).toNat = x
  have hlt : x < 2047 := by omega
  rw [if_neg (show ¬2 ^ 11 ≤ x + 1 by omega)]
  split
  · rw [unpackExponent_packComponents]
    intro h
    have hn := congrArg BitVec.toNat h
    rw [BitVec.toNat_ofNat, Nat.mod_eq_of_lt (show x < 2 ^ 11 by omega)] at hn
    exact absurd (hn.trans (show (-1#11).toNat = 2047 from rfl)) (by omega)
  · rw [unpackExponent_packComponents]
    decide

/-- Packing what was unpacked sets all bits of the exponent only if they were set before. -/
lemma unpackExponent_pack_unpack {b : BitVec Format.binary64.numBits} (h : unpackExponent b ≠ -1#_) :
    unpackExponent (pack Format.binary64 (unpack Format.binary64 b)) ≠ -1#_ := by
  have hbias : (Format.binary64.exponentBias : Int) = 1023 := rfl
  have hbits : (Format.binary64.mantissaBitsWithoutImplicit : Int) = 52 := rfl
  have hlt : (unpackExponent b).toNat < 2047 := by
    have hb : (unpackExponent b).toNat < 2048 := (unpackExponent b).isLt
    have hn : (unpackExponent b).toNat ≠ 2047 := fun he => h (BitVec.eq_of_toNat_eq (by rw [he]; rfl))
    omega
  rcases unpack_cases h with ⟨s, hb⟩ | ⟨s, m, e, hm, hb, he⟩
  · rw [hb]
    show unpackExponent (packedZero Format.binary64 s) ≠ _
    rw [packedZero, unpackExponent_packComponents]
    decide
  · rw [hb]
    rw [hbias, hbits] at he
    exact unpackExponent_pack_finite hm (by omega)

/-- A float made of bits is finite unless all bits of its exponent are set. -/
lemma isInf_ofBits {n : Nat} (h : n / 2 ^ 52 % 2 ^ 11 ≠ 2047) : (Float.ofBits (.ofNat n)).isInf = false := by
  rw [Bool.eq_false_iff]
  intro hi
  refine unpackExponent_pack_unpack (fun he => h ?_) (unpackExponent_of_isInf hi)
  have hn := congrArg BitVec.toNat he
  rw [unpackExponent, BitVec.toNat_cast, BitVec.extractLsb_toNat, Nat.shiftRight_eq_div_pow,
    UInt64.toBitVec_ofNat'] at hn
  change n % 2 ^ 64 / 2 ^ 52 % 2 ^ 11 = 2047 at hn
  omega

/-- The magnitude of a float with bits below those of infinity is finite. -/
lemma isInf_ofMagnitude (negative : Bool) {bits : Nat} (h : bits < 2047 * 2 ^ 52) :
    (ofMagnitude negative bits).isInf = false := by
  have hmin : min bits (2047 * twoTo 52) = bits := Nat.min_eq_left (Nat.le_of_lt h)
  unfold ofMagnitude
  rw [hmin]
  apply isInf_ofBits
  cases negative with
  | false =>
    rw [if_neg (by decide)]
    omega
  | true =>
    rw [if_pos rfl, show twoTo 63 = 2 ^ 63 from rfl]
    omega

lemma roundDiv_le (num den : Nat) : roundDiv num den ≤ num / den + 1 := by
  unfold roundDiv
  dsimp only
  split <;> omega

/-- With the exponent that the digits of a quotient suggest, it has at most 54 digits before the point. -/
lemma scaled_div_lt (num : Nat) {den : Nat} (hden : 0 < den) {q : Int}
    (hq : (num.log2 : Int) - den.log2 - 53 ≤ q) :
    num * twoTo (-q).toNat / (den * twoTo q.toNat) < 2 ^ 54 := by
  have hpos : 0 < den * twoTo q.toNat := Nat.mul_pos hden (Nat.two_pow_pos _)
  rw [Nat.div_lt_iff_lt_mul hpos]
  have hnum : num < 2 ^ (num.log2 + 1) := Nat.lt_log2_self
  have hle : 2 ^ den.log2 ≤ den := Nat.log2_self_le (Nat.ne_of_gt hden)
  calc num * twoTo (-q).toNat < 2 ^ (num.log2 + 1) * 2 ^ (-q).toNat :=
        Nat.mul_lt_mul_of_pos_right hnum (Nat.two_pow_pos _)
    _ = 2 ^ (num.log2 + 1 + (-q).toNat) := (Nat.pow_add ..).symm
    _ ≤ 2 ^ (54 + den.log2 + q.toNat) := Nat.pow_le_pow_right (by decide) (by omega)
    _ = 2 ^ 54 * (2 ^ den.log2 * 2 ^ q.toNat) := by rw [Nat.pow_add, Nat.pow_add, Nat.mul_assoc]
    _ ≤ 2 ^ 54 * (den * twoTo q.toNat) :=
        Nat.mul_le_mul_left _ (Nat.mul_le_mul_right _ hle)

/-- A quotient with at most a thousand digits before the point is no infinity. -/
theorem isInf_ofRatio (negative : Bool) {num den : Nat} (hden : 0 < den)
    (h : num.log2 < den.log2 + 1000) : (ofRatio negative num den).isInf = false := by
  unfold ofRatio
  split
  · exact isInf_ofMagnitude negative (by decide)
  · dsimp only
    generalize hg : (if num * twoTo (-((num.log2 : Int) - den.log2 - 52)).toNat <
        twoTo 52 * (den * twoTo ((num.log2 : Int) - den.log2 - 52).toNat) then
      (num.log2 : Int) - den.log2 - 52 - 1 else (num.log2 : Int) - den.log2 - 52) = guess
    have hlow : (num.log2 : Int) - den.log2 - 53 ≤ guess := by
      rw [← hg]
      split <;> omega
    have hhigh : guess < 948 := by
      rw [← hg]
      split <;> omega
    generalize hq : max guess (-1074) = q
    have hdiv := scaled_div_lt num hden (show _ ≤ q by omega)
    have hround := roundDiv_le (num * twoTo (-q).toNat) (den * twoTo q.toNat)
    generalize roundDiv (num * twoTo (-q).toNat) (den * twoTo q.toNat) = m at hround ⊢
    have hm : m ≤ 2 ^ 54 := by omega
    have hexp : (q + 1075).toNat ≤ 2022 := by omega
    apply isInf_ofMagnitude
    split
    · omega
    · have hmul : (q + 1075).toNat * twoTo 52 ≤ 2022 * 2 ^ 52 := Nat.mul_le_mul_right _ hexp
      omega

end SkillAtlas.Decimal

namespace SkillAtlas

/-- A whole number of fewer than a thousand binary digits is read as a float. -/
theorem floatOfInt_eq_ok {n : Int} {digits : Nat} (hd : digits < 1000) (h : n.natAbs < 2 ^ digits) :
    ∃ x, floatOfInt n = .ok x := by
  have hlog : n.natAbs.log2 < (1 : Nat).log2 + 1000 := by
    by_cases hz : n.natAbs = 0
    · rw [hz]
      decide
    · have hl := (Nat.log2_lt hz).mpr h
      omega
  have hfin : (Decimal.ofRat n).isInf = false :=
    Decimal.isInf_ofRatio (decide (n < 0)) Nat.one_pos hlog
  exact ⟨_, by rw [floatOfInt, hfin]; rfl⟩

end SkillAtlas
