import Mathlib.Tactic.Linarith
import Mathlib.Data.Rat.Floor
import SkillAtlas.Proofs.Template.Symmetry
import SkillAtlas.Proofs.Units.Score

/-!
# The points of two records

Under weights that are whole numbers the score of two records of texts is one as well: the sum of the points
for names, categories, numbers of sections and shared lines. Divided exactly, no part exceeds its weight
if the lower marks of names and sections do not, so the likeness is a fraction between 0 and 1.
-/

namespace SkillAtlas

lemma Value.minOf_eq {v w : Value} {m n : Int} (hv : v.integer? = some m) (hw : w.integer? = some n) :
    ∃ u, v.minOf w = .ok u ∧ u.integer? = some (min m n) := by
  have hless : w.less v = .ok (decide (n < m)) := less_eq_ok (number?_of_integer? hw) (number?_of_integer? hv)
  unfold minOf
  rw [hless]
  by_cases h : n < m
  · exact ⟨w, by simp [h, bind, Except.bind, pure, Except.pure], by rw [hw, min_eq_right h.le]⟩
  · exact ⟨v, by simp [h, bind, Except.bind, pure, Except.pure], by rw [hv, min_eq_left (not_lt.mp h)]⟩

/-- Whole numbers are divided exactly, and nothing else is divided. -/
def Division.exact : Division ℚ where
  quotient v w :=
    match v.integer?, w.integer? with
    | some m, some n => if n = 0 then .error .divisionByZero else .ok (m / n)
    | _, _ => .error .wrongKind
  roundHalfUp q := .ok ⌊q + 1 / 2⌋

namespace SimilaritySettings

/-- The weights are whole numbers. -/
structure Whole (s : SimilaritySettings) : Prop where
  nameExact : s.nameExact.integer?.isSome
  nameSubstring : s.nameSubstring.integer?.isSome
  namePrefixCap : s.namePrefixCap.integer?.isSome
  namePrefixPerChar : s.namePrefixPerChar.integer?.isSome
  categoryMatch : s.categoryMatch.integer?.isSome
  sectionEqual : s.sectionEqual.integer?.isSome
  sectionNear : s.sectionNear.integer?.isSome
  lineOverlap : s.lineOverlap.integer?.isSome

lemma whole_usual : ({} : SimilaritySettings).Whole := by
  constructor <;> rfl

/-- The points for two names in small letters. -/
def namePoints (s : SimilaritySettings) (x y : List Char) : Int :=
  if x = y then s.nameExact.amount
  else if Text.occursIn x y || Text.occursIn y x then s.nameSubstring.amount
  else min s.namePrefixCap.amount ((Text.commonStart x y).length * s.namePrefixPerChar.amount)

/-- The points for the categories of two records. -/
def categoryPoints (s : SimilaritySettings) (a b : TemplateRecord) : Int :=
  if a.category.equal b.category then s.categoryMatch.amount else 0

/-- The points for the numbers of sections of two records. -/
def sectionPoints (s : SimilaritySettings) (a b : TemplateRecord) : Int :=
  (s.sectionScore a b).amount

/-- The points of two records with these names for everything but their lines. -/
def outerPoints (s : SimilaritySettings) (m n : String) (a b : TemplateRecord) : Int :=
  s.namePoints (Text.lowerChars m.toList) (Text.lowerChars n.toList) + s.categoryPoints a b + s.sectionPoints a b

/-- The points of two records that are alike in everything. -/
def maxPoints (s : SimilaritySettings) : Int :=
  s.nameExact.amount + s.categoryMatch.amount + s.sectionEqual.amount + s.lineOverlap.amount

/-- Without lines there are no points for them, also if neither record has any. -/
lemma lineScoreBy_nil (s : SimilaritySettings) {α : Type} (d : Division α) {a b : TemplateRecord}
    (h : a.allLines = [] ∨ b.allLines = []) : s.lineScoreBy d a b = .ok (.int 0) := by
  unfold lineScoreBy
  exact if_pos (by simpa using h)

section Whole

variable {s : SimilaritySettings} (hs : s.Whole) {a b : TemplateRecord} {m n : String}

include hs

lemma textScore_eq (x y : List Char) : ∃ v, s.textScore x y = .ok v ∧ v.integer? = some (s.namePoints x y) := by
  unfold textScore namePoints
  by_cases heq : x = y
  · rw [if_pos (by simpa using heq), if_pos heq]
    exact ⟨_, rfl, Value.integer?_eq_amount hs.nameExact⟩
  rw [if_neg (by simpa using heq), if_neg heq]
  split
  · exact ⟨_, rfl, Value.integer?_eq_amount hs.nameSubstring⟩
  · have hpoints : (Value.count (Text.commonStart x y).length).mul s.namePrefixPerChar =
        .ok (.int ((Text.commonStart x y).length * s.namePrefixPerChar.amount)) :=
      Value.mul_eq rfl (Value.integer?_eq_amount hs.namePrefixPerChar)
    rw [hpoints]
    exact Value.minOf_eq (Value.integer?_eq_amount hs.namePrefixCap) rfl

lemma maxScore_eq : s.maxScore = .ok (.int s.maxPoints) := by
  unfold maxScore
  rw [Value.add_eq (Value.integer?_eq_amount hs.nameExact) (Value.integer?_eq_amount hs.categoryMatch)]
  show ((Value.int _).add s.sectionEqual).bind _ = _
  rw [Value.add_eq rfl (Value.integer?_eq_amount hs.sectionEqual)]
  exact Value.add_eq rfl (Value.integer?_eq_amount hs.lineOverlap)

lemma integer?_sectionScore (a b : TemplateRecord) : (s.sectionScore a b).integer? = some (s.sectionPoints a b) := by
  refine Value.integer?_eq_amount ?_
  unfold sectionScore
  split
  · exact hs.sectionEqual
  · exact hs.sectionNear
  · rfl

variable {α : Type} {d : Division α}

lemma lineScoreBy_eq (ha : a.Textual) (hb : b.Textual) (h : a.allLines ≠ []) (h' : b.allLines ≠ []) :
    s.lineScoreBy d a b =
      ((d.quotient (.int (s.lineOverlap.amount * sharedCount a.allLines b.allLines))
        (.count (max a.allLines.length b.allLines.length))).bind d.roundHalfUp).map .int := by
  have hkeys : (!(a.allLines.all Value.isKey && b.allLines.all Value.isKey)) = false := by
    rw [ha.all_isKey, hb.all_isKey]
    rfl
  unfold lineScoreBy
  dsimp only
  rw [if_neg (by simpa using ⟨h, h'⟩), hkeys, if_neg Bool.false_ne_true,
    Value.mul_eq (Value.integer?_eq_amount hs.lineOverlap) rfl]
  dsimp only [bind, Except.bind]
  cases d.quotient (.int (s.lineOverlap.amount * sharedCount a.allLines b.allLines))
      (.count (max a.allLines.length b.allLines.length)) with
  | error e => rfl
  | ok q =>
    show (d.roundHalfUp q).bind (fun k => .ok (.int k)) = (d.roundHalfUp q).map Value.int
    cases d.roundHalfUp q <;> rfl

lemma scoreBy_eq (hm : a.name = .str m) (hn : b.name = .str n) {lines : Int}
    (hl : s.lineScoreBy d a b = .ok (.int lines)) :
    s.scoreBy d a b = .ok (.int (s.outerPoints m n a b + lines)) := by
  obtain ⟨v, hv, hnames⟩ := textScore_eq hs (Text.lowerChars m.toList) (Text.lowerChars n.toList)
  have hsections := integer?_sectionScore hs a b
  unfold scoreBy outerPoints categoryPoints
  rw [hm, hn, nameScore_str, hv]
  dsimp only [bind, Except.bind]
  split
  · rw [Value.add_eq hnames (Value.integer?_eq_amount hs.categoryMatch)]
    dsimp only
    rw [Value.add_eq rfl hsections, hl]
    exact Value.add_eq rfl rfl
  · rw [Value.add_eq hnames hsections, hl, add_zero]
    exact Value.add_eq rfl rfl

lemma likenessBy_eq (hm : a.name = .str m) (hn : b.name = .str n) {lines : Int}
    (hl : s.lineScoreBy d a b = .ok (.int lines)) :
    s.likenessBy d a b = d.quotient (.int (s.outerPoints m n a b + lines)) (.int s.maxPoints) := by
  unfold likenessBy
  rw [scoreBy_eq hs hm hn hl, maxScore_eq hs]
  rfl

end Whole

/-- The weights are whole numbers and none is negative, lower marks do not exceed the higher ones, and
something can be scored. -/
structure Fair (s : SimilaritySettings) : Prop extends s.Whole where
  nameExact_nonneg : 0 ≤ s.nameExact.amount
  nameSubstring_nonneg : 0 ≤ s.nameSubstring.amount
  namePrefixCap_nonneg : 0 ≤ s.namePrefixCap.amount
  namePrefixPerChar_nonneg : 0 ≤ s.namePrefixPerChar.amount
  categoryMatch_nonneg : 0 ≤ s.categoryMatch.amount
  sectionEqual_nonneg : 0 ≤ s.sectionEqual.amount
  sectionNear_nonneg : 0 ≤ s.sectionNear.amount
  lineOverlap_nonneg : 0 ≤ s.lineOverlap.amount
  nameSubstring_le : s.nameSubstring.amount ≤ s.nameExact.amount
  namePrefixCap_le : s.namePrefixCap.amount ≤ s.nameExact.amount
  sectionNear_le : s.sectionNear.amount ≤ s.sectionEqual.amount
  maxPoints_pos : 0 < s.maxPoints

lemma fair_usual : ({} : SimilaritySettings).Fair :=
  { whole_usual with
    nameExact_nonneg := by decide
    nameSubstring_nonneg := by decide
    namePrefixCap_nonneg := by decide
    namePrefixPerChar_nonneg := by decide
    categoryMatch_nonneg := by decide
    sectionEqual_nonneg := by decide
    sectionNear_nonneg := by decide
    lineOverlap_nonneg := by decide
    nameSubstring_le := by decide
    namePrefixCap_le := by decide
    sectionNear_le := by decide
    maxPoints_pos := by decide }

section Fair

variable {s : SimilaritySettings} (hs : s.Fair) {a b : TemplateRecord}

include hs

lemma namePoints_between (x y : List Char) : 0 ≤ s.namePoints x y ∧ s.namePoints x y ≤ s.nameExact.amount := by
  unfold namePoints
  split
  · exact ⟨hs.nameExact_nonneg, le_rfl⟩
  split
  · exact ⟨hs.nameSubstring_nonneg, hs.nameSubstring_le⟩
  · have hshare : 0 ≤ (Text.commonStart x y).length * s.namePrefixPerChar.amount :=
      mul_nonneg (Int.natCast_nonneg _) hs.namePrefixPerChar_nonneg
    exact ⟨le_min hs.namePrefixCap_nonneg hshare, (min_le_left _ _).trans hs.namePrefixCap_le⟩

lemma categoryPoints_between (a b : TemplateRecord) :
    0 ≤ s.categoryPoints a b ∧ s.categoryPoints a b ≤ s.categoryMatch.amount := by
  unfold categoryPoints
  split
  · exact ⟨hs.categoryMatch_nonneg, le_rfl⟩
  · exact ⟨le_rfl, hs.categoryMatch_nonneg⟩

lemma sectionPoints_between (a b : TemplateRecord) :
    0 ≤ s.sectionPoints a b ∧ s.sectionPoints a b ≤ s.sectionEqual.amount := by
  unfold sectionPoints sectionScore
  split
  · exact ⟨hs.sectionEqual_nonneg, le_rfl⟩
  · exact ⟨hs.sectionNear_nonneg, hs.sectionNear_le⟩
  · exact ⟨le_rfl, hs.sectionEqual_nonneg⟩

lemma outerPoints_between (m n : String) (a b : TemplateRecord) : 0 ≤ s.outerPoints m n a b ∧
    s.outerPoints m n a b ≤ s.nameExact.amount + s.categoryMatch.amount + s.sectionEqual.amount := by
  obtain ⟨hname, hname'⟩ := namePoints_between hs (Text.lowerChars m.toList) (Text.lowerChars n.toList)
  obtain ⟨hcategory, hcategory'⟩ := categoryPoints_between hs a b
  obtain ⟨hsection, hsection'⟩ := sectionPoints_between hs a b
  unfold outerPoints
  omega

/-- Rounded to a whole number, a part of a weight stays between nothing and the weight. -/
lemma exact_lineScore_between (ha : a.Textual) (hb : b.Textual) :
    ∃ lines : Int, s.lineScoreBy .exact a b = .ok (.int lines) ∧ 0 ≤ lines ∧
      lines ≤ s.lineOverlap.amount := by
  by_cases hnil : a.allLines = [] ∨ b.allLines = []
  · exact ⟨0, lineScoreBy_nil s .exact hnil, le_rfl, hs.lineOverlap_nonneg⟩
  obtain ⟨hane, hbne⟩ := not_or.mp hnil
  rw [lineScoreBy_eq hs.toWhole ha hb hane hbne]
  have hlongest : 0 < max a.allLines.length b.allLines.length :=
    lt_max_of_lt_left (List.length_pos_of_ne_nil hane)
  have hshared : sharedCount a.allLines b.allLines ≤ max a.allLines.length b.allLines.length :=
    (sharedCount_le ha hb).trans (le_max_left _ _)
  have hweight := hs.lineOverlap_nonneg
  generalize max a.allLines.length b.allLines.length = n at hlongest hshared
  generalize sharedCount a.allLines b.allLines = c at hshared
  generalize s.lineOverlap.amount = w at hweight
  have hquotient : Division.exact.quotient (.int (w * c)) (.count n) = .ok ((w * c : ℤ) / (n : ℤ)) :=
    if_neg (by omega)
  have hn : (0 : ℚ) < n := by exact_mod_cast hlongest
  have hle : ((w * c : ℤ) : ℚ) / (n : ℤ) ≤ w := by
    rw [div_le_iff₀ (by exact_mod_cast hn)]
    exact_mod_cast Int.mul_le_mul_of_nonneg_left (by exact_mod_cast hshared) hweight
  have hnonneg : (0 : ℚ) ≤ ((w * c : ℤ) : ℚ) / (n : ℤ) := by
    have hnum : 0 ≤ w * c := mul_nonneg hweight (Int.natCast_nonneg c)
    exact div_nonneg (by exact_mod_cast hnum) (by exact_mod_cast hn.le)
  rw [hquotient]
  refine ⟨_, rfl, Int.floor_nonneg.mpr (by linarith), Int.floor_le_iff.mpr (by linarith)⟩

/-- Divided exactly, the likeness of two records is a fraction between 0 and 1, and the same in the other
order. -/
theorem exact_likeness_between (ha : a.Textual) (hb : b.Textual) :
    ∃ q, s.likenessBy .exact a b = .ok q ∧ s.likenessBy .exact b a = .ok q ∧ 0 ≤ q ∧ q ≤ 1 := by
  obtain ⟨m, hm⟩ := ha.name
  obtain ⟨n, hn⟩ := hb.name
  obtain ⟨lines, hlines, hlow, hhigh⟩ := exact_lineScore_between hs ha hb
  obtain ⟨houter, houter'⟩ := outerPoints_between hs m n a b
  have hlikeness := likenessBy_eq hs.toWhole hm hn hlines
  have hpos := hs.maxPoints_pos
  have hscore : s.outerPoints m n a b + lines ≤ s.maxPoints := by
    unfold maxPoints
    omega
  generalize hp : s.outerPoints m n a b + lines = points at hlikeness hscore
  have hquotient : Division.exact.quotient (.int points) (.int s.maxPoints) = .ok ((points : ℚ) / s.maxPoints) :=
    if_neg (by omega)
  have hmax : (0 : ℚ) < s.maxPoints := by exact_mod_cast hpos
  have hpoints : 0 ≤ points := by omega
  refine ⟨points / s.maxPoints, hlikeness.trans hquotient, ?_, ?_, ?_⟩
  · exact (likenessBy_comm s .exact hb ha).trans (hlikeness.trans hquotient)
  · exact div_nonneg (by exact_mod_cast hpoints) hmax.le
  · rw [div_le_one hmax]
    exact_mod_cast hscore

end Fair

theorem exact_likeness_between_storms :
    ∃ q, likenessBy {} .exact (.plain "Storm" ["x", "x", "y"]) (.plain "Stormy" ["x"]) = .ok q ∧
      likenessBy {} .exact (.plain "Stormy" ["x"]) (.plain "Storm" ["x", "x", "y"]) = .ok q ∧ 0 ≤ q ∧ q ≤ 1 :=
  exact_likeness_between fair_usual (TemplateRecord.textual_plain ..) (TemplateRecord.textual_plain ..)

end SimilaritySettings

end SkillAtlas
