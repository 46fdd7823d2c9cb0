import SkillAtlas.Proofs.Template.Usual

/-!
# Records that are alike in everything

Under the usual weights the likeness of two records is whole exactly if their names, categories and numbers of
sections agree and they share nearly all of their lines: one line in sixty may differ, and then the numbers of
lines may. A record without lines gets no points for them, not even from a record that is equal to it.
-/

namespace SkillAtlas

/-- Two sections are equal: their names are, and their lines one by one. -/
structure TemplateSection.Same (s t : TemplateSection) : Prop where
  name : s.name.same t.name
  lines : Value.sameItems s.lines t.lines

namespace TemplateRecord

/-- Two records are equal in all their fields. -/
structure Same (a b : TemplateRecord) : Prop where
  name : a.name.same b.name
  category : a.category.same b.category
  difficulty : a.difficulty.same b.difficulty
  cooldown : a.cooldown.same b.cooldown
  skillLines : Value.sameItems a.skillLines b.skillLines
  sections : List.Forall₂ TemplateSection.Same a.sections b.sections

/-- The names agree in small letters, the categories and the numbers of sections as well, and there are lines
that are nearly all shared. -/
structure Alike (a b : TemplateRecord) : Prop where
  name : ComparedName.ofValue a.name = ComparedName.ofValue b.name
  category : a.category = b.category
  sectionCount : a.sectionCount = b.sectionCount
  ne_nil : a.allLines ≠ []
  ne_nil' : b.allLines ≠ []
  shared : a.SharesNearlyAll b

end TemplateRecord

namespace SimilaritySettings

variable {a b : TemplateRecord}

/-- The likeness is whole exactly for records that are alike in everything. -/
theorem likeness_eq_one_iff (ha : a.Textual) (hb : b.Textual) :
    ∃ x, likeness {} a b = .ok x ∧ (x == 1 ↔ a.Alike b) := by
  obtain ⟨m, hm⟩ := ha.name
  obtain ⟨n, hn⟩ := hb.name
  obtain ⟨lines, hlines, hlow, hhigh, hall⟩ := usual_lineScore ha hb
  obtain ⟨points, hle, hsum, hlikeness⟩ := usual_likeness hm hn hlow hhigh hlines
  refine ⟨_, hlikeness, (hundredths_eq_one_iff hle).trans ?_⟩
  obtain ⟨-, houter⟩ := outerPoints_between fair_usual m n a b
  change _ ≤ 70 at houter
  have hparts : points = 100 ↔ outerPoints {} m n a b = 70 ∧ lines = 30 := by omega
  have hname : ComparedName.ofValue a.name = ComparedName.ofValue b.name ↔
      Text.lowerChars m.toList = Text.lowerChars n.toList := by
    rw [hm, hn, ofValue_str, ofValue_str]
    simp
  rw [hparts, usual_outerPoints, hall, ← hname, equal_category_iff ha hb]
  constructor
  · rintro ⟨⟨hname, hcategory, hsections⟩, hane, hbne, hshared⟩
    exact ⟨hname, hcategory, hsections, hane, hbne, hshared⟩
  · intro h
    exact ⟨⟨h.name, h.category, h.sectionCount⟩, h.ne_nil, h.ne_nil', h.shared⟩

end SimilaritySettings

namespace TemplateRecord

variable {a b : TemplateRecord}

open SimilaritySettings

/-- Records that are alike in everything can differ in the number of their lines only. -/
lemma Alike.differences_eq (h : a.Alike b) (ha : a.Textual) (hb : b.Textual) :
    differences a b = .ok (if a.allLines.length = b.allLines.length then []
      else [s!"Skill lines: {a.allLines.length} vs {b.allLines.length}"]) := by
  obtain ⟨category, hnil, heq⟩ := ha.differences_eq hb
  obtain rfl := hnil.mpr ((equal_category_iff ha hb).mpr h.category)
  rw [heq, if_pos h.sectionCount, List.nil_append, List.append_nil]

/-- Of fewer than sixty lines none differs. -/
lemma Alike.perm (h : a.Alike b) (ha : a.Textual) (hb : b.Textual) (hlt : a.allLines.length < 60)
    (hlt' : b.allLines.length < 60) : a.allLines.Perm b.allLines := by
  have hle := sharedCount_le ha hb
  have hshared := h.shared
  rw [perm_iff_sharedCount ha hb]
  unfold SharesNearlyAll at hshared
  dsimp only at hshared
  omega

/-- A whole likeness says that the records are alike in everything. Then only the numbers of their lines can
differ, and of records with fewer than sixty lines the lines are the same up to their order. -/
theorem differences_of_likeness_one (ha : a.Textual) (hb : b.Textual) :
    ∃ x, likeness {} a b = .ok x ∧ (x == 1 ↔ a.Alike b) ∧
      (x == 1 → differences a b = .ok (if a.allLines.length = b.allLines.length then []
        else [s!"Skill lines: {a.allLines.length} vs {b.allLines.length}"])) ∧
      (x == 1 → a.allLines.length < 60 → b.allLines.length < 60 →
        differences a b = .ok [] ∧ a.allLines.Perm b.allLines) := by
  obtain ⟨x, hx, hone⟩ := likeness_eq_one_iff ha hb
  refine ⟨x, hx, hone, fun h => (hone.mp h).differences_eq ha hb, fun h hlt hlt' => ?_⟩
  have hperm := (hone.mp h).perm ha hb hlt hlt'
  exact ⟨((hone.mp h).differences_eq ha hb).trans (congrArg Except.ok (if_pos hperm.length_eq)), hperm⟩

theorem differences_of_likeness_one_storm :
    ∃ x, likeness {} (plain "Storm" ["x", "y"]) (plain "STORM" ["y", "x"]) = .ok x ∧ x == 1 ∧
      differences (plain "Storm" ["x", "y"]) (plain "STORM" ["y", "x"]) = .ok [] ∧
      (plain "Storm" ["x", "y"]).allLines.Perm (plain "STORM" ["y", "x"]).allLines := by
  have hshared : sharedCount (plain "Storm" ["x", "y"]).allLines (plain "STORM" ["y", "x"]).allLines = 2 := by
    rw [allLines_plain, allLines_plain, sharedCount_map_str]
    decide +kernel
  have halike : (plain "Storm" ["x", "y"]).Alike (plain "STORM" ["y", "x"]) := by
    have hname : ComparedName.ofValue (.str "Storm") = ComparedName.ofValue (.str "STORM") := by
      have hlower : Text.lowerChars "Storm".toList = Text.lowerChars "STORM".toList := by decide +kernel
      rw [ofValue_str, ofValue_str, hlower]
    refine ⟨hname, rfl, rfl, by decide, by decide, ?_⟩
    unfold SharesNearlyAll
    rw [hshared]
    decide
  obtain ⟨x, hx, hone, -, hsame⟩ :=
    differences_of_likeness_one (textual_plain "Storm" ["x", "y"]) (textual_plain "STORM" ["y", "x"])
  exact ⟨x, hx, hone.mpr halike, hsame (hone.mpr halike) (by decide) (by decide)⟩

/-- Sixty lines are taken for fifty-nine of them. -/
theorem likeness_sixty_lines :
    let a := plain "Storm" (.replicate 60 "x")
    let b := plain "Storm" (.replicate 59 "x")
    (∃ x, likeness {} a b = .ok x ∧ x == 1) ∧ differences a b = .ok ["Skill lines: 60 vs 59"] ∧
      ¬a.allLines.Perm b.allLines := by
  intro a b
  have hshared : sharedCount a.allLines b.allLines = 59 := by
    rw [allLines_plain, allLines_plain, sharedCount_map_str]
    decide +kernel
  have halike : a.Alike b := by
    refine ⟨rfl, rfl, rfl, by decide, by decide, ?_⟩
    unfold SharesNearlyAll
    rw [hshared]
    decide
  have ha : a.Textual := textual_plain "Storm" (.replicate 60 "x")
  have hb : b.Textual := textual_plain "Storm" (.replicate 59 "x")
  obtain ⟨x, hx, hone⟩ := likeness_eq_one_iff ha hb
  refine ⟨⟨x, hx, hone.mpr halike⟩, ?_, fun h => ?_⟩
  · rw [halike.differences_eq ha hb]
    exact congrArg Except.ok (by decide +kernel)
  · exact absurd h.length_eq (by decide)

lemma sameItems_map_str {ls : List String} {ys : List Value} :
    Value.sameItems (ls.map .str) ys = true ↔ ys = ls.map .str := by
  induction ls generalizing ys with
  | nil => cases ys <;> simp [Value.sameItems]
  | cons l ls ih =>
    cases ys with
    | nil => simp [Value.sameItems]
    | cons y ys => simp [Value.sameItems, Value.same_str, ih]

lemma same_orNull {c : Option String} {v : Value} : (orNull c).same v = true ↔ v = orNull c := by
  cases c with
  | none => cases v <;> simp [orNull, Value.same]
  | some s => exact Value.same_str

lemma eq_of_same_sections {ss ts : List TemplateSection} (hs : ∀ s ∈ ss, s.Textual)
    (h : List.Forall₂ TemplateSection.Same ss ts) : ts = ss := by
  induction h with
  | nil => rfl
  | @cons s t ss ts hst _ ih =>
    obtain ⟨⟨n, hn⟩, ⟨ls, hls⟩⟩ := hs s List.mem_cons_self
    obtain ⟨hname, hlines⟩ := hst
    rw [hn, Value.same_str] at hname
    rw [hls, sameItems_map_str] at hlines
    have hsection : t = s := by
      cases s
      cases t
      simp_all
    rw [hsection, ih fun s hs' => hs s (List.mem_cons_of_mem _ hs')]

/-- Only the difficulty and the cooldown of a record that is equal to one of texts may be other values. -/
lemma Same.eq (h : a.Same b) (ha : a.Textual) :
    b.name = a.name ∧ b.category = a.category ∧ b.skillLines = a.skillLines ∧ b.sections = a.sections := by
  obtain ⟨m, hm⟩ := ha.name
  obtain ⟨c, hc⟩ := ha.category
  obtain ⟨ls, hls⟩ := ha.skillLines
  have hname := h.name
  have hcategory := h.category
  have hlines := h.skillLines
  rw [hm, Value.same_str, ← hm] at hname
  rw [hc, same_orNull, ← hc] at hcategory
  rw [hls, sameItems_map_str, ← hls] at hlines
  exact ⟨hname, hcategory, hlines, eq_of_same_sections ha.sections h.sections⟩

lemma sharesNearlyAll_of_perm (ha : a.Textual) (hb : b.Textual) (h : a.allLines.Perm b.allLines) :
    a.SharesNearlyAll b := by
  unfold SharesNearlyAll
  dsimp only
  rw [(perm_iff_sharedCount ha hb).mp h, Nat.sub_self]
  exact Nat.zero_le _

/-- A record is as like as can be to one that is equal to it if it has lines. Without any it lacks the points
for them. -/
theorem likeness_of_same (ha : a.Textual) (h : a.Same b) :
    likeness {} a b = .ok (if a.allLines.isEmpty then 0.7 else 1) := by
  obtain ⟨m, hm⟩ := ha.name
  obtain ⟨hname, hcategory, hskillLines, hsections⟩ := h.eq ha
  have hb : b.Textual :=
    ⟨hname ▸ ha.name, hcategory ▸ ha.category, hskillLines ▸ ha.skillLines, hsections ▸ ha.sections⟩
  have hlines : b.allLines = a.allLines := by rw [allLines, hskillLines, hsections, allLines]
  have hcount : a.sectionCount = b.sectionCount := by rw [sectionCount, ← hsections, sectionCount]
  have houter : outerPoints {} m m a b = 70 :=
    (usual_outerPoints m m a b).mpr ⟨rfl, (equal_category_iff ha hb).mpr hcategory.symm, hcount⟩
  by_cases hnil : a.allLines = []
  · obtain ⟨points, -, hsum, hlikeness⟩ :=
      usual_likeness hm (hname.trans hm) le_rfl (by norm_num) (lineScoreBy_nil {} .float (Or.inl hnil))
    obtain rfl : points = 70 := by omega
    rw [hlikeness, hundredths_seventy, if_pos (List.isEmpty_iff.mpr hnil)]
  · obtain ⟨score, hscore, hlow, hhigh, hall⟩ := usual_lineScore ha hb
    have hshared : a.SharesNearlyAll b := sharesNearlyAll_of_perm ha hb (hlines ▸ .refl _)
    obtain rfl : score = 30 := hall.mpr ⟨hnil, hlines ▸ hnil, hshared⟩
    obtain ⟨points, -, hsum, hlikeness⟩ := usual_likeness hm (hname.trans hm) hlow hhigh hscore
    obtain rfl : points = 100 := by omega
    rw [hlikeness, hundredths_hundred, if_neg (mt List.isEmpty_iff.mp hnil)]

theorem likeness_of_same_spark :
    let a := { plain "Spark" ["damage"] with cooldown := .int 5 }
    let b := { plain "Spark" ["damage"] with cooldown := .float 5 }
    a.Same b ∧ likeness {} a b = .ok 1 := by
  intro a b
  have hsame : a.Same b := by
    refine ⟨?_, ?_, ?_, ?_, ?_, .nil⟩ <;> decide +kernel
  have ha : a.Textual := ⟨⟨_, rfl⟩, ⟨none, rfl⟩, ⟨["damage"], rfl⟩, by simp [a, plain]⟩
  exact ⟨hsame, likeness_of_same ha hsame⟩

/-- A record without lines is not as like as can be to itself. -/
theorem likeness_without_lines :
    (plain "Spark" []).Same (plain "Spark" []) ∧
      likeness {} (plain "Spark" []) (plain "Spark" []) = .ok 0.7 ∧ ¬(0.7 : Float) == 1 := by
  have hscore : lineScore {} (plain "Spark" []) (plain "Spark" []) = .ok (.int 0) :=
    lineScoreBy_nil {} .float (Or.inl rfl)
  have houter : outerPoints {} "Spark" "Spark" (plain "Spark" []) (plain "Spark" []) = 70 :=
    (usual_outerPoints ..).mpr ⟨rfl, by decide +kernel, rfl⟩
  obtain ⟨points, -, hsum, hlikeness⟩ := usual_likeness rfl rfl le_rfl (by norm_num) hscore
  obtain rfl : points = 70 := by omega
  refine ⟨⟨?_, ?_, ?_, ?_, ?_, .nil⟩, hlikeness, ?_⟩ <;> decide +kernel

end TemplateRecord

end SkillAtlas
