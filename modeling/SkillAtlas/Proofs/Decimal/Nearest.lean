import Mathlib
import SkillAtlas.Proofs.Decimal.Range

/-!
# The float nearest to a fraction

Near a fraction that is not negative, the floats are the multiples of a power of two, its place. A float that
is made of a quotient has the multiple that is nearest to the quotient, the even one if two are. Rounding
keeps the order of fractions, and leaves the values of floats as they are. What is known of the bits of floats
comes with the whole library only.
-/

namespace SkillAtlas.Decimal

open Float.Model (UnpackedFloat Format)
open Float.Model.UnpackedFloat

/-- The whole number is the nearest to a fraction, and the even one of two that are. -/
structure Rounds (t : ℚ) (m : ℕ) : Prop where
  low : (m : ℚ) - 1 / 2 ≤ t
  high : t ≤ m + 1 / 2
  even_of_tie : t = m - 1 / 2 ∨ t = m + 1 / 2 → Even m

section Rounds

variable {s t : ℚ} {k m n : ℕ}

lemma rounds_self (m : ℕ) : Rounds m m where
  low := by linarith
  high := by linarith
  even_of_tie h := by
    rcases h with h | h <;> linarith

lemma Rounds.mono (hs : Rounds s m) (ht : Rounds t n) (h : s ≤ t) : m ≤ n := by
  by_contra hlt
  have hsucc : ((n + 1 : ℕ) : ℚ) ≤ m := by exact_mod_cast not_le.mp hlt
  push_cast at hsucc
  -- both fractions lie halfway between the two numbers, which cannot both be even
  have hm := hs.low
  have hn := ht.high
  have heq : (m : ℚ) = n + 1 := by linarith
  have heven := hs.even_of_tie (Or.inl (by linarith))
  have heven' := ht.even_of_tie (Or.inr (by linarith))
  obtain rfl : m = n + 1 := by exact_mod_cast heq
  exact absurd heven' (by simpa [parity_simps] using heven)

lemma Rounds.le_iff (h : Rounds t m) (hk : Even k) : k ≤ m ↔ (k : ℚ) - 1 / 2 ≤ t := by
  constructor
  · intro hle
    have hcast : (k : ℚ) ≤ m := by exact_mod_cast hle
    have := h.low
    linarith
  · have hround : Rounds ((k : ℚ) - 1 / 2) k := ⟨le_rfl, by linarith, fun _ => hk⟩
    exact hround.mono h

lemma roundDiv_eq (num den : ℕ) :
    roundDiv num den =
      if 2 * (num % den) < den ∨ 2 * (num % den) = den ∧ num / den % 2 = 0 then num / den else num / den + 1 := by
  unfold roundDiv
  simp only [Bool.or_eq_true, decide_eq_true_eq, Bool.and_eq_true, beq_iff_eq]

lemma rounds_add (q : ℕ) {f : ℚ} (h : 0 ≤ f) (h' : f < 1) :
    Rounds (q + f) (if f < 1 / 2 ∨ f = 1 / 2 ∧ q % 2 = 0 then q else q + 1) := by
  by_cases hdown : f < 1 / 2 ∨ f = 1 / 2 ∧ q % 2 = 0
  · rw [if_pos hdown]
    have hle : f ≤ 1 / 2 := hdown.elim le_of_lt fun htie => htie.1.le
    refine ⟨by linarith, by linarith, fun htie => ?_⟩
    have hhalf : f = 1 / 2 := by rcases htie with htie | htie <;> linarith
    exact Nat.even_iff.mpr (hdown.resolve_left hhalf.not_lt).2
  · rw [if_neg hdown]
    obtain ⟨hge, hodd⟩ := not_or.mp hdown
    have hcast : ((q + 1 : ℕ) : ℚ) = q + 1 := Nat.cast_succ q
    refine ⟨by linarith, by linarith, fun htie => ?_⟩
    have hhalf : f = 1 / 2 := by rcases htie with htie | htie <;> linarith
    exact Nat.even_add_one.mpr fun heven => hodd ⟨hhalf, Nat.even_iff.mp heven⟩

lemma rounds_roundDiv (num : ℕ) {den : ℕ} (hden : 0 < den) : Rounds (num / den) (roundDiv num den) := by
  have hd : (0 : ℚ) < den := by exact_mod_cast hden
  have hdiv : (num : ℚ) / den = (num / den : ℕ) + (num % den : ℕ) / den := by
    rw [div_eq_iff hd.ne', add_mul, div_mul_cancel₀ _ hd.ne']
    exact_mod_cast (Nat.div_add_mod' num den).symm
  have hlt : ((num % den : ℕ) : ℚ) / den < 1 := by
    rw [div_lt_one hd]
    exact_mod_cast Nat.mod_lt num hden
  have hbelow : ((num % den : ℕ) : ℚ) / den < 1 / 2 ↔ 2 * (num % den) < den := by
    rw [div_lt_div_iff₀ hd two_pos, one_mul, mul_comm]
    exact_mod_cast Iff.rfl
  have htie : ((num % den : ℕ) : ℚ) / den = 1 / 2 ↔ 2 * (num % den) = den := by
    rw [div_eq_div_iff hd.ne' two_ne_zero, one_mul, mul_comm]
    exact_mod_cast Iff.rfl
  have hround := rounds_add (num / den) (by positivity) hlt
  simp only [hbelow, htie] at hround
  rwa [hdiv, roundDiv_eq]

end Rounds

/-- The floats near a fraction that is not negative are the multiples of this power of two. -/
structure IsPlace (r : ℚ) (q : ℤ) : Prop where
  least : -1074 ≤ q
  above : r < 2 ^ (q + 53)
  below : q ≠ -1074 → 2 ^ (q + 52) ≤ r

/-- The value is that of the float nearest to a fraction that is not negative. -/
def Nearest (r v : ℚ) : Prop :=
  ∃ (q : ℤ) (m : ℕ), IsPlace r q ∧ Rounds (r / 2 ^ q) m ∧ v = m * 2 ^ q

section Nearest

variable {r s v w : ℚ} {q : ℤ} {m : ℕ}

lemma two_zpow_add (q : ℤ) (k : ℕ) : (2 : ℚ) ^ (q + k) = 2 ^ k * 2 ^ q := by
  rw [zpow_add₀ two_ne_zero, zpow_natCast, mul_comm]

lemma two_zpow_mono {p q : ℤ} (h : p ≤ q) : (2 : ℚ) ^ p ≤ 2 ^ q :=
  zpow_le_zpow_right₀ one_le_two h

lemma IsPlace.rounded_le (h : IsPlace r q) (hm : Rounds (r / 2 ^ q) m) : m ≤ 2 ^ 53 := by
  refine hm.mono (rounds_self _) ?_
  have hpow : (2 : ℚ) ^ (q + 53) = 2 ^ 53 * 2 ^ q := two_zpow_add q 53
  rw [div_le_iff₀ (by positivity), Nat.cast_pow, Nat.cast_ofNat, ← hpow]
  exact h.above.le

lemma IsPlace.le_rounded (h : IsPlace r q) (hm : Rounds (r / 2 ^ q) m) (hq : q ≠ -1074) : 2 ^ 52 ≤ m := by
  refine (rounds_self _).mono hm ?_
  have hpow : (2 : ℚ) ^ (q + 52) = 2 ^ 52 * 2 ^ q := two_zpow_add q 52
  rw [le_div_iff₀ (by positivity), Nat.cast_pow, Nat.cast_ofNat, ← hpow]
  exact h.below hq

/-- The nearest float to a greater fraction is no smaller. -/
theorem Nearest.mono (hr : Nearest r v) (hs : Nearest s w) (h : r ≤ s) : v ≤ w := by
  obtain ⟨p, m, hp, hm, rfl⟩ := hr
  obtain ⟨q, n, hq, hn, rfl⟩ := hs
  rcases lt_trichotomy p q with hlt | rfl | hgt
  · have hm' : (m : ℚ) ≤ 2 ^ 53 := by exact_mod_cast hp.rounded_le hm
    have hn' : (2 ^ 52 : ℚ) ≤ n := by exact_mod_cast hq.le_rounded hn (by have := hp.least; omega)
    calc (m : ℚ) * 2 ^ p ≤ 2 ^ 53 * 2 ^ p := by gcongr
      _ = 2 ^ (p + 53) := (two_zpow_add p 53).symm
      _ ≤ 2 ^ (q + 52) := two_zpow_mono (by omega)
      _ = 2 ^ 52 * 2 ^ q := two_zpow_add q 52
      _ ≤ n * 2 ^ q := by gcongr
  · have hle : m ≤ n := hm.mono hn (by gcongr)
    gcongr
  · have hbelow := hp.below (by have := hq.least; omega)
    have hpow : (2 : ℚ) ^ (q + 53) ≤ 2 ^ (p + 52) := two_zpow_mono (by omega)
    have habove := hq.above
    linarith

theorem Nearest.unique (hv : Nearest r v) (hw : Nearest r w) : v = w :=
  le_antisymm (hv.mono hw le_rfl) (hw.mono hv le_rfl)

lemma Nearest.nonneg (h : Nearest r v) : 0 ≤ v := by
  obtain ⟨q, m, -, -, rfl⟩ := h
  positivity

lemma IsPlace.le {p : ℤ} (hp : IsPlace r p) (hq : IsPlace r q) : q ≤ p := by
  by_contra hlt
  have hbelow := hq.below (by have := hp.least; omega)
  have hpow : (2 : ℚ) ^ (p + 53) ≤ 2 ^ (q + 52) := two_zpow_mono (by omega)
  have habove := hp.above
  linarith

lemma IsPlace.unique {p : ℤ} (hp : IsPlace r p) (hq : IsPlace r q) : p = q :=
  le_antisymm (hq.le hp) (hp.le hq)

lemma Nearest.exists_rounds (h : Nearest r v) (hq : IsPlace r q) :
    ∃ m : ℕ, Rounds (r / 2 ^ q) m ∧ v = m * 2 ^ q := by
  obtain ⟨p, m, hp, hm, rfl⟩ := h
  obtain rfl := hp.unique hq
  exact ⟨m, hm, rfl⟩

lemma nearest_self (h : IsPlace (m * 2 ^ q) q) : Nearest (m * 2 ^ q) (m * 2 ^ q) :=
  ⟨q, m, h, by rw [mul_div_cancel_right₀ _ (by positivity)]; exact rounds_self m, rfl⟩

end Nearest

section Bits

lemma toNat_unpackExponent (b : BitVec Format.binary64.numBits) :
    (unpackExponent b).toNat = b.toNat / 2 ^ 52 % 2 ^ 11 := by
  rw [unpackExponent_def, BitVec.extractLsb'_toNat, Nat.shiftRight_eq_div_pow]

lemma toNat_unpackMantissa (b : BitVec Format.binary64.numBits) :
    (unpackMantissa b).toNat = b.toNat % 2 ^ 52 := by
  rw [unpackMantissa_def, BitVec.extractLsb'_toNat, Nat.shiftRight_zero]

lemma toNat_unpackSign (b : BitVec Format.binary64.numBits) : (unpackSign b).toNat = b.toNat / 2 ^ 63 := by
  rw [unpackSign_def, BitVec.extractLsb'_toNat, Nat.shiftRight_eq_div_pow]
  have hlt : b.toNat < 2 ^ 64 := b.isLt
  exact Nat.mod_eq_of_lt (show b.toNat / 2 ^ 63 < 2 ^ 1 by omega)

lemma toNat_packComponents (e : BitVec 11) (f : BitVec 52) :
    (packComponents Format.binary64 .positive e f).toNat = e.toNat * 2 ^ 52 + f.toNat := by
  have hexponent := toNat_unpackExponent (packComponents Format.binary64 .positive e f)
  have hmantissa := toNat_unpackMantissa (packComponents Format.binary64 .positive e f)
  have hsign := toNat_unpackSign (packComponents Format.binary64 .positive e f)
  rw [unpackExponent_packComponents] at hexponent
  rw [unpackMantissa_packComponents] at hmantissa
  rw [unpackSign_packComponents] at hsign
  have hzero : Sign.positive.toBitVec.toNat = 0 := rfl
  rw [hexponent, hmantissa]
  omega

/-- The bits of a magnitude that is not infinite are those that it is made of. -/
lemma toBits_ofMagnitude {bits : ℕ} (h : bits < 2047 * 2 ^ 52) :
    (ofMagnitude false bits).toBits.toNat = bits := by
  have hmin : min bits (2047 * twoTo 52) = bits := Nat.min_eq_left (Nat.le_of_lt h)
  have hbits : (BitVec.ofNat 64 bits).toNat = bits := by
    rw [BitVec.toNat_ofNat, Nat.mod_eq_of_lt (by omega)]
  have hvalid : Format.binary64.Valid (BitVec.ofNat 64 bits) := by
    refine ⟨fun he => absurd (congrArg BitVec.toNat he) ?_⟩
    rw [toNat_unpackExponent, hbits]
    exact fun he => absurd (he.trans (show (-1#11).toNat = 2047 from rfl)) (by omega)
  unfold ofMagnitude
  rw [hmin, if_neg Bool.false_ne_true, Nat.zero_add]
  show (pack Format.binary64 (unpack Format.binary64 (BitVec.ofNat 64 bits))).toNat = bits
  rw [pack_unpack_of_valid hvalid, hbits]

lemma cast_twoTo (k : ℕ) : (twoTo k : ℚ) = 2 ^ k := by
  rw [twoTo, Nat.pow_eq, Nat.cast_pow, Nat.cast_ofNat]

lemma mkRat_twoTo (m : ℕ) (e : ℤ) : mkRat (m * twoTo e.toNat) (twoTo (-e).toNat) = m * 2 ^ e := by
  rw [Rat.mkRat_eq_div]
  push_cast
  rw [cast_twoTo, cast_twoTo]
  obtain ⟨k, rfl | rfl⟩ := e.eq_nat_or_neg
  · simp
  · simp [div_eq_mul_inv]

/-- The bits of a positive float: a digit in front of the point is left out, and carries by itself. -/
def bitsOf (m : ℕ) (q : ℤ) : ℕ :=
  if m < twoTo 52 then m else (q + 1075).toNat * twoTo 52 + (m - twoTo 52)

lemma ratOf?_of_fields {x : Float} {e f : ℕ} (he : e < 2047) (hf : f < 2 ^ 52)
    (h : x.toBits.toNat = e * 2 ^ 52 + f) :
    ratOf? x = some (if e = 0 then (f : ℚ) * 2 ^ (-1074 : ℤ) else ((f + 2 ^ 52 : ℕ) : ℚ) * 2 ^ ((e : ℤ) - 1075)) := by
  have hfield : x.toBits.toNat / twoTo 52 % twoTo 11 = e := by
    rw [h]
    show (e * 2 ^ 52 + f) / 2 ^ 52 % 2 ^ 11 = e
    omega
  have hfraction : x.toBits.toNat % twoTo 52 = f := by
    rw [h]
    show (e * 2 ^ 52 + f) % 2 ^ 52 = f
    omega
  have hsign : (x.toBits.toNat / twoTo 63 == 1) = false := by
    rw [h, beq_eq_false_iff_ne]
    show (e * 2 ^ 52 + f) / 2 ^ 63 ≠ 1
    omega
  unfold ratOf? Binary.ofFloat
  simp only [hfield, hfraction, hsign, beq_iff_eq, if_neg he.ne]
  by_cases hz : e = 0
  · rw [if_pos hz, if_pos hz]
    simp only [Bool.false_eq_true, if_false, mkRat_twoTo]
  · rw [if_neg hz, if_neg hz]
    simp only [Bool.false_eq_true, if_false, mkRat_twoTo, show twoTo 52 = 2 ^ 52 from rfl]

/-- A float with the bits of a mantissa and an exponent has their value, also if the mantissa carries. -/
lemma ratOf?_of_bits {x : Float} {m : ℕ} {q : ℤ} (hm : m ≤ 2 ^ 53) (hq : -1074 ≤ q) (hq' : q ≤ 970)
    (hnormal : q ≠ -1074 → 2 ^ 52 ≤ m) (h : x.toBits.toNat = bitsOf m q) :
    ratOf? x = some ((m : ℚ) * 2 ^ q) := by
  obtain ⟨e, rfl⟩ : ∃ e : ℕ, q = e - 1075 := ⟨(q + 1075).toNat, by omega⟩
  have hbits : bitsOf m (e - 1075) = if m < 2 ^ 52 then m else e * 2 ^ 52 + (m - 2 ^ 52) := by
    unfold bitsOf
    rw [show ((e : ℤ) - 1075 + 1075).toNat = e by omega]
    rfl
  rw [hbits] at h
  rcases lt_or_ge m (2 ^ 52) with hlow | hlow
  · rw [if_pos hlow] at h
    obtain rfl : e = 1 := by
      by_contra hne
      exact absurd (hnormal (by omega)) (not_le.mpr hlow)
    have hfields := ratOf?_of_fields (e := 0) (by norm_num) hlow (h.trans (by omega))
    rwa [if_pos rfl] at hfields
  · rw [if_neg (not_lt.mpr hlow)] at h
    rcases hm.lt_or_eq with hlt | rfl
    · have hfields := ratOf?_of_fields (show e < 2047 by omega) (show m - 2 ^ 52 < 2 ^ 52 by omega) h
      rwa [if_neg (by omega), Nat.sub_add_cancel hlow] at hfields
    · have hfields := ratOf?_of_fields (show e + 1 < 2047 by omega) (show 0 < 2 ^ 52 by norm_num)
        (h.trans (by omega))
      have hcarry : (2 : ℚ) ^ (((e + 1 : ℕ) : ℤ) - 1075) = 2 * 2 ^ ((e : ℤ) - 1075) := by
        rw [show ((e + 1 : ℕ) : ℤ) - 1075 = (e - 1075) + (1 : ℕ) by push_cast; ring, two_zpow_add, pow_one]
      rw [hfields, if_neg (by omega), hcarry]
      push_cast
      ring_nf

end Bits

section Quotients

variable {num den : ℕ}

/-- The place of the last binary digit of a quotient of positive numbers. -/
def placeOf (num den : ℕ) : ℤ :=
  let guess : ℤ := (num.log2 : ℤ) - den.log2 - 52
  max (if num * twoTo (-guess).toNat < twoTo 52 * (den * twoTo guess.toNat) then guess - 1 else guess) (-1074)

lemma ofRatio_eq (h : num ≠ 0) (den : ℕ) :
    let q := placeOf num den
    ofRatio false num den =
      ofMagnitude false (bitsOf (roundDiv (num * twoTo (-q).toNat) (den * twoTo q.toNat)) q) := by
  unfold ofRatio
  rw [if_neg (by simpa using h)]
  rfl

lemma scaled_div (num den : ℕ) (q : ℤ) :
    ((num * twoTo (-q).toNat : ℕ) : ℚ) / (den * twoTo q.toNat : ℕ) = num / den / 2 ^ q := by
  push_cast
  rw [cast_twoTo, cast_twoTo]
  obtain ⟨k, rfl | rfl⟩ := q.eq_nat_or_neg
  · simp [div_div]
  · simp [div_mul_eq_mul_div]

/-- A quotient lies between the powers of two that the digits of its parts suggest. -/
lemma quotient_between (hnum : num ≠ 0) (hden : 0 < den) {guess : ℤ}
    (hg : guess = (num.log2 : ℤ) - den.log2 - 52) :
    (2 : ℚ) ^ (guess + 51) ≤ num / den ∧ (num / den : ℚ) < 2 ^ (guess + 53) := by
  have hd : (0 : ℚ) < den := by exact_mod_cast hden
  have hnum_lt : (num : ℚ) < 2 ^ (num.log2 + 1) := by exact_mod_cast Nat.lt_log2_self
  have hnum_le : (2 : ℚ) ^ num.log2 ≤ num := by exact_mod_cast Nat.log2_self_le hnum
  have hden_lt : (den : ℚ) < 2 ^ (den.log2 + 1) := by exact_mod_cast Nat.lt_log2_self
  have hden_le : (2 : ℚ) ^ den.log2 ≤ den := by exact_mod_cast Nat.log2_self_le hden.ne'
  constructor
  · rw [le_div_iff₀ hd]
    calc (2 : ℚ) ^ (guess + 51) * den ≤ 2 ^ (guess + 51) * 2 ^ (den.log2 + 1) := by gcongr
      _ = 2 ^ num.log2 := by
        rw [← zpow_natCast, ← zpow_add₀ two_ne_zero, ← zpow_natCast]
        congr 1
        push_cast
        omega
      _ ≤ num := hnum_le
  · rw [div_lt_iff₀ hd]
    calc (num : ℚ) < 2 ^ (num.log2 + 1) := hnum_lt
      _ = 2 ^ (guess + 53) * 2 ^ den.log2 := by
        rw [← zpow_natCast, ← zpow_natCast, ← zpow_add₀ two_ne_zero]
        congr 1
        push_cast
        omega
      _ ≤ 2 ^ (guess + 53) * den := by gcongr

lemma isPlace_placeOf (hnum : num ≠ 0) (hden : 0 < den) : IsPlace (num / den) (placeOf num den) := by
  unfold placeOf
  generalize hg : (num.log2 : ℤ) - den.log2 - 52 = guess
  obtain ⟨hlow, hhigh⟩ := quotient_between hnum hden hg.symm
  have hpow : (2 : ℚ) ^ (guess + 52) = 2 ^ 52 * 2 ^ guess := two_zpow_add guess 52
  have hcompare : num * twoTo (-guess).toNat < twoTo 52 * (den * twoTo guess.toNat) ↔
      (num / den : ℚ) < 2 ^ (guess + 52) := by
    have hpos : (0 : ℚ) < (den * twoTo guess.toNat : ℕ) := by
      exact_mod_cast Nat.mul_pos hden (Nat.two_pow_pos _)
    rw [hpow, ← div_lt_iff₀ (by positivity), ← scaled_div, div_lt_iff₀ hpos, ← cast_twoTo, ← Nat.cast_mul,
      Nat.cast_lt]
  -- whether the first digit stands one place lower than suggested
  dsimp only
  by_cases h : num * twoTo (-guess).toNat < twoTo 52 * (den * twoTo guess.toNat)
  · rw [if_pos h]
    refine ⟨le_max_right _ _, lt_of_lt_of_le (hcompare.mp h) (two_zpow_mono (by omega)), fun hq => ?_⟩
    rwa [show max (guess - 1) (-1074) + 52 = guess + 51 by omega]
  · rw [if_neg h]
    refine ⟨le_max_right _ _, lt_of_lt_of_le hhigh (two_zpow_mono (by omega)), fun hq => ?_⟩
    rw [show max guess (-1074) + 52 = guess + 52 by omega]
    exact not_lt.mp fun hlt => h (hcompare.mpr hlt)

lemma bitsOf_lt {m : ℕ} {q : ℤ} (hm : m ≤ 2 ^ 53) (hq : q ≤ 970) : bitsOf m q < 2047 * 2 ^ 52 := by
  unfold bitsOf
  rw [show twoTo 52 = 2 ^ 52 from rfl]
  split
  · omega
  · have hmul : (q + 1075).toNat * 2 ^ 52 ≤ 2045 * 2 ^ 52 := Nat.mul_le_mul_right _ (by omega)
    omega

/-- The place of a fraction that is not huge leaves room for the exponent. -/
lemma IsPlace.le_of_lt {r : ℚ} {q : ℤ} (h : IsPlace r q) (hr : r < 2 ^ 1000) : q ≤ 970 := by
  by_contra hlt
  have hbelow := h.below (by omega)
  have hpow : (2 : ℚ) ^ ((1000 : ℕ) : ℤ) ≤ 2 ^ (q + 52) := two_zpow_mono (by omega)
  rw [zpow_natCast] at hpow
  exact absurd (hpow.trans hbelow) (not_le.mpr hr)

/-- The float that is made of a quotient is the nearest one. -/
theorem nearest_ofRatio (num : ℕ) {den : ℕ} (hden : 0 < den) (h : (num / den : ℚ) < 2 ^ 1000) :
    ∃ v, ratOf? (ofRatio false num den) = some v ∧ Nearest (num / den) v := by
  by_cases hnum : num = 0
  · subst hnum
    have hplace : IsPlace ((0 : ℕ) / den) (-1074) := ⟨le_rfl, by rw [Nat.cast_zero, zero_div]; positivity, by simp⟩
    refine ⟨(0 : ℕ) * 2 ^ (-1074 : ℤ), ?_, -1074, 0, hplace, by simpa using rounds_self 0, rfl⟩
    exact ratOf?_of_bits (by norm_num) le_rfl (by norm_num) (by simp) (toBits_ofMagnitude (by norm_num))
  · have hplace := isPlace_placeOf hnum hden
    have heq := ofRatio_eq hnum den
    generalize placeOf num den = q at hplace heq
    have hround := rounds_roundDiv (num * twoTo (-q).toNat) (Nat.mul_pos hden (Nat.two_pow_pos q.toNat))
    rw [show den * 2 ^ q.toNat = den * twoTo q.toNat from rfl, scaled_div] at hround
    dsimp only at heq
    generalize roundDiv (num * twoTo (-q).toNat) (den * twoTo q.toNat) = m at hround heq
    have hm := hplace.rounded_le hround
    have hq := hplace.le_of_lt h
    refine ⟨m * 2 ^ q, ?_, q, m, hplace, hround, rfl⟩
    rw [heq]
    exact ratOf?_of_bits hm hplace.least hq (hplace.le_rounded hround) (toBits_ofMagnitude (bitsOf_lt hm hq))

end Quotients

end SkillAtlas.Decimal
