import SkillAtlas.Grouping.CallChain
import SkillAtlas.Grouping.CommonStart
import SkillAtlas.Proofs.Decimal.Range

/-!
# Settings under which every search answers

A search fails only where it computes with a setting: a limit has to be a number, and the confidence in a
common start has to stay within the range of floats. With settings that are numbers every family that a
search finds is put into words.
-/

namespace SkillAtlas

open AnalyzedUnit (names)

/-- The number is a float, or whole with at most so many binary digits. -/
def Number.Within (digits : Nat) (m : Number) : Prop :=
  ∀ n, m = .int n → n.natAbs < 2 ^ digits

namespace Value

/-- The value is a number of at most so many binary digits, or a float. -/
def IsNumber (digits : Nat) (v : Value) : Prop :=
  ∃ m, v.number? = some m ∧ m.Within digits

variable {c d : Nat} {a b : Value} {m n : Number}

lemma isNumber_float (d : Nat) (x : Float) : (Value.float x).IsNumber d :=
  ⟨.float x, rfl, by simp [Number.Within]⟩

lemma IsNumber.mono (h : a.IsNumber c) (hcd : c ≤ d) : a.IsNumber d := by
  obtain ⟨m, hm, hw⟩ := h
  exact ⟨m, hm, fun n hn => Nat.lt_of_lt_of_le (hw n hn) (Nat.pow_le_pow_right (by decide) hcd)⟩

lemma toFloat_eq_ok (hd : d < 1000) (h : m.Within d) : ∃ x, m.toFloat = .ok x := by
  cases m with
  | float x => exact ⟨x, rfl⟩
  | int n => exact floatOfInt_eq_ok hd (h n rfl)

/-- An operation on numbers gives a number, if it keeps the digits of whole numbers within a bound. -/
lemma onNumbers_isNumber {whole : Int → Int → Int} {real : Float → Float → Float} (hc : c < 1000)
    (hwhole : ∀ k l : Int, k.natAbs < 2 ^ c → l.natAbs < 2 ^ c → (whole k l).natAbs < 2 ^ d)
    (hm : m.Within c) (hn : n.Within c) :
    ∃ v, onNumbers whole real m n = .ok v ∧ v.IsNumber d := by
  obtain ⟨x, hx⟩ := toFloat_eq_ok hc hm
  obtain ⟨y, hy⟩ := toFloat_eq_ok hc hn
  have hfloat : (m.toFloat >>= fun x => n.toFloat >>= fun y => pure (Value.float (real x y))) =
      .ok (.float (real x y)) := by
    rw [hx, hy]
    rfl
  cases m with
  | float => exact ⟨_, hfloat, isNumber_float d _⟩
  | int k =>
    cases n with
    | float => exact ⟨_, hfloat, isNumber_float d _⟩
    | int l =>
      refine ⟨_, rfl, .int (whole k l), rfl, fun j hj => ?_⟩
      obtain rfl := Number.int.inj hj
      exact hwhole k l (hm k rfl) (hn l rfl)

lemma mul_isNumber (hc : c < 1000) (ha : a.IsNumber c) (hb : b.IsNumber c) :
    ∃ v, a.mul b = .ok v ∧ v.IsNumber (c + c) := by
  obtain ⟨m, hm, hwm⟩ := ha
  obtain ⟨n, hn, hwn⟩ := hb
  unfold mul
  rw [hm, hn]
  refine onNumbers_isNumber hc (fun k l hk hl => ?_) hwm hwn
  rw [Int.natAbs_mul, Nat.pow_add]
  exact Nat.mul_lt_mul'' hk hl

lemma add_isNumber (hc : c < 1000) (ha : a.IsNumber c) (hb : b.IsNumber c) :
    ∃ v, a.add b = .ok v ∧ v.IsNumber (c + 1) := by
  obtain ⟨m, hm, hwm⟩ := ha
  obtain ⟨n, hn, hwn⟩ := hb
  unfold add
  rw [hm, hn]
  refine onNumbers_isNumber hc (fun k l hk hl => ?_) hwm hwn
  have hle := Int.natAbs_add_le k l
  rw [Nat.pow_succ]
  omega

lemma less_eq_ok (ha : a.number? = some m) (hb : b.number? = some n) : less a b = .ok (m.less n) := by
  cases a <;> cases b <;> simp_all [less, number?, integer?]

end Value

/-- The limits are numbers, and confidences in a common start stay within the range of floats. -/
structure DetectorSettings.Numeric (d : DetectorSettings) : Prop where
  documentPrefixMinLength : d.documentPrefixMinLength.number?.isSome
  namingPrefixMinLength : d.namingPrefixMinLength.number?.isSome
  groupNameMinPrefix : d.groupNameMinPrefix.number?.isSome
  prefixBaseConfidence : d.prefixBaseConfidence.IsNumber 200
  prefixStepConfidence : d.prefixStepConfidence.IsNumber 200
  prefixMaxConfidence : d.prefixMaxConfidence.IsNumber 200

/-- Settings that leave every value as usual are numeric. -/
lemma DetectorSettings.numeric_usual : ({} : DetectorSettings).Numeric where
  documentPrefixMinLength := rfl
  namingPrefixMinLength := rfl
  groupNameMinPrefix := rfl
  prefixBaseConfidence := Value.isNumber_float 200 _
  prefixStepConfidence := Value.isNumber_float 200 _
  prefixMaxConfidence := Value.isNumber_float 200 _

/-- The settings are numeric, and there are no more units than a list can hold. -/
def Searcher.Ready (s : Searcher) (units : List AnalyzedUnit) : Prop :=
  s.settings.Numeric ∧ units.length < 2 ^ 63

namespace Searcher

variable {s : Searcher}

lemma startConfidence_eq_ok (h : s.settings.Numeric) {count : Nat} (hc : count < 2 ^ 63) :
    ∃ v, s.startConfidence (.int count) = .ok v := by
  have hcount : (Value.int count).IsNumber 200 := by
    refine ⟨.int count, rfl, fun n hn => ?_⟩
    obtain rfl := Number.int.inj hn
    exact Nat.lt_trans hc (Nat.pow_lt_pow_right (by decide) (by decide))
  obtain ⟨steps, hsteps, hs⟩ := Value.mul_isNumber (by decide) h.prefixStepConfidence hcount
  obtain ⟨sum, hsum, m, hm, -⟩ := Value.add_isNumber (by decide)
    (h.prefixBaseConfidence.mono (by decide)) hs
  obtain ⟨n, hn, -⟩ := h.prefixMaxConfidence
  have hless := Value.less_eq_ok hm hn
  exact ⟨_, by simp only [startConfidence, Value.minOf, hsteps, hsum, hless, bind, Except.bind]; rfl⟩

lemma groupName_eq_ok (h : s.settings.groupNameMinPrefix.number?.isSome) (ns : List String)
    (fallback : String) : ∃ name, s.groupName ns fallback = .ok name := by
  obtain ⟨limit, hl⟩ := Option.isSome_iff_exists.mp h
  unfold groupName
  dsimp only
  rw [hl]
  dsimp only
  split
  · exact ⟨_, rfl⟩
  · exact ⟨_, rfl⟩

lemma startFamiliesFor_eq_ok (h : s.settings.Numeric) (ns : List String) :
    ∃ families, Naming.startFamiliesFor s.settings.namingPrefixMinLength ns = .ok families := by
  obtain ⟨limit, hl⟩ := Option.isSome_iff_exists.mp h.namingPrefixMinLength
  unfold Naming.startFamiliesFor
  rw [hl]
  split
  · exact ⟨_, rfl⟩
  · exact ⟨_, rfl⟩
  · exact ⟨_, rfl⟩

end Searcher

end SkillAtlas
