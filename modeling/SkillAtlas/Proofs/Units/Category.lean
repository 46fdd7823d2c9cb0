import Mathlib.Data.List.Infix
import SkillAtlas.Proofs.Text.Pieces
import SkillAtlas.Proofs.Units.Growth

/-!
# Which category is suggested

The categories of a table are gone through in turn, and only one with more points than all before it takes their
place. So the first of those with the most points is suggested, and the usual category if none has any. More
keywords give a category more points and the others no other ones: it may take the place of the category that
was suggested, and no other one may.
-/

namespace SkillAtlas

/-- The points of keywords: three for each action that holds one of them, and five for each of them that the
name holds in small letters. -/
def keywordPoints (name : String) (actions keywords : List String) : Nat :=
  3 * (actions.countP fun a => ∃ k ∈ keywords, k.toList <:+: a.toList) +
    5 * keywords.countP fun k => k.toList <:+: (Text.lower name).toList

lemma categoryPoints_eq (name : String) (actions keywords : List String) :
    categoryPoints keywords (Text.lower name) actions = keywordPoints name actions keywords := by
  have hholds (text k : String) : Text.contains text k = decide (k.toList <:+: text.toList) := by
    rw [Bool.eq_iff_iff, Text.contains_iff, decide_eq_true_eq]
  have hany (a : String) : keywords.any (Text.contains a) = decide (∃ k ∈ keywords, k.toList <:+: a.toList) := by
    rw [Bool.eq_iff_iff, List.any_eq_true, decide_eq_true_eq]
    simp only [Text.contains_iff]
  rw [categoryPoints, actionPoints, namePoints, keywordPoints]
  simp only [hany, funext fun k => hholds (Text.lower name) k]

/-- More keywords never have fewer points. -/
lemma keywordPoints_mono (name : String) (actions : List String) {keywords more : List String}
    (h : keywords.Subperm more) : keywordPoints name actions keywords ≤ keywordPoints name actions more := by
  have hactions : (actions.countP fun a => ∃ k ∈ keywords, k.toList <:+: a.toList) ≤
      actions.countP fun a => ∃ k ∈ more, k.toList <:+: a.toList := by
    refine List.countP_mono_left fun a _ ha => ?_
    obtain ⟨k, hk, hka⟩ := of_decide_eq_true ha
    exact decide_eq_true ⟨k, h.subset hk, hka⟩
  have hname := h.countP_le fun k => decide (k.toList <:+: (Text.lower name).toList)
  unfold keywordPoints
  omega

/-- What is suggested of a table: the usual category if none has points, and else the first of those with the
most points. -/
inductive Suggested (points : List String → Nat) (table : List (String × List String)) : String → Prop where
  | usual (h : ∀ c ∈ table, points c.2 = 0) : Suggested points table usualCategory
  | best {before after : List (String × List String)} {c : String} {keywords : List String}
      (htable : table = before ++ (c, keywords) :: after) (hpos : 0 < points keywords)
      (hbefore : ∀ d ∈ before, points d.2 < points keywords)
      (hafter : ∀ d ∈ after, points d.2 ≤ points keywords) : Suggested points table c

section Tables

variable {points : List String → Nat} {before after : List (String × List String)}

/-- From a best one so far on, either it stays, or the first of those with the most points takes its place. -/
lemma bestCategory_cases (points : List String → Nat) (best : String × Nat) (table : List (String × List String)) :
    (bestCategory points best table = best.1 ∧ ∀ c ∈ table, points c.2 ≤ best.2) ∨
      ∃ before c keywords after, table = before ++ (c, keywords) :: after ∧
        bestCategory points best table = c ∧ best.2 < points keywords ∧
        (∀ d ∈ before, points d.2 < points keywords) ∧ ∀ d ∈ after, points d.2 ≤ points keywords := by
  induction table generalizing best with
  | nil => exact Or.inl ⟨rfl, by simp⟩
  | cons entry rest ih =>
    obtain ⟨c, keywords⟩ := entry
    rw [bestCategory]
    by_cases hmore : best.2 < points keywords
    · rw [if_pos hmore]
      rcases ih (c, points keywords) with ⟨he, hle⟩ | ⟨before, d, words, after, rfl, he, hlt, hbefore, hafter⟩
      · exact Or.inr ⟨[], c, keywords, rest, rfl, he, hmore, by simp, hle⟩
      · exact Or.inr ⟨(c, keywords) :: before, d, words, after, rfl, he, hmore.trans hlt,
          List.forall_mem_cons.mpr ⟨hlt, hbefore⟩, hafter⟩
    · rw [if_neg hmore]
      rcases ih best with ⟨he, hle⟩ | ⟨before, d, words, after, rfl, he, hlt, hbefore, hafter⟩
      · exact Or.inl ⟨he, List.forall_mem_cons.mpr ⟨not_lt.mp hmore, hle⟩⟩
      · exact Or.inr ⟨(c, keywords) :: before, d, words, after, rfl, he, hlt,
          List.forall_mem_cons.mpr ⟨(not_lt.mp hmore).trans_lt hlt, hbefore⟩, hafter⟩

lemma suggested_bestCategory (points : List String → Nat) (table : List (String × List String)) :
    Suggested points table (bestCategory points (usualCategory, 0) table) := by
  rcases bestCategory_cases points (usualCategory, 0) table with
    ⟨he, hle⟩ | ⟨before, c, keywords, after, htable, he, hpos, hbefore, hafter⟩
  · rw [he]
    exact .usual fun c hc => Nat.le_zero.mp (hle c hc)
  · rw [he]
    exact .best htable hpos hbefore hafter

/-- A best one so far that has more points is suggested in the end, or what would be suggested without it. -/
lemma bestCategory_of_le {best other : String × Nat} (h : best.2 ≤ other.2) (table : List (String × List String)) :
    bestCategory points other table = bestCategory points best table ∨
      bestCategory points other table = other.1 := by
  induction table generalizing best with
  | nil => exact Or.inr rfl
  | cons entry rest ih =>
    obtain ⟨c, keywords⟩ := entry
    rw [bestCategory, bestCategory]
    by_cases hother : other.2 < points keywords
    · rw [if_pos hother, if_pos (h.trans_lt hother)]
      exact Or.inl rfl
    · rw [if_neg hother]
      split
      · exact ih (not_lt.mp hother)
      · exact ih h

/-- More points for one entry of a table change nothing that is before it. -/
lemma bestCategory_of_more (best : String × Nat) {c : String} {keywords more : List String}
    (h : points keywords ≤ points more) :
    bestCategory points best (before ++ (c, more) :: after) =
        bestCategory points best (before ++ (c, keywords) :: after) ∨
      bestCategory points best (before ++ (c, more) :: after) = c := by
  induction before generalizing best with
  | nil =>
    rw [List.nil_append, List.nil_append, bestCategory, bestCategory]
    by_cases hmore : best.2 < points more
    · rw [if_pos hmore]
      split
      · exact bestCategory_of_le h after
      · exact bestCategory_of_le hmore.le after
    · rw [if_neg hmore, if_neg fun hlt => hmore (hlt.trans_le h)]
      exact Or.inl rfl
  | cons entry rest ih =>
    rw [List.cons_append, List.cons_append, bestCategory, bestCategory]
    exact ih _

end Tables

/-- The first category of the table with the most points is suggested, and the usual one if none has points.
The order of the actions does not matter, and more keywords for one category leave what is suggested or lead to
this category. -/
theorem suggestCategory_suggested (v : Vocabulary) (name : String) (actions : List String) :
    Suggested (keywordPoints name actions) v.categories (suggestCategory v name actions) ∧
      (∀ others, actions.Perm others → suggestCategory v name others = suggestCategory v name actions) ∧
      ∀ before c keywords more after, v.categories = before ++ (c, keywords) :: after → keywords.Subperm more →
        suggestCategory { v with categories := before ++ (c, more) :: after } name actions =
            suggestCategory v name actions ∨
          suggestCategory { v with categories := before ++ (c, more) :: after } name actions = c := by
  have hsuggest (w : Vocabulary) : suggestCategory w name actions =
      bestCategory (keywordPoints name actions) (usualCategory, 0) w.categories := by
    rw [suggestCategory]
    simp only [categoryPoints_eq]
  refine ⟨?_, fun others h => suggestCategory_perm v name h.symm, ?_⟩
  · rw [hsuggest]
    exact suggested_bestCategory _ _
  · intro before c keywords more after htable hmore
    rw [hsuggest, hsuggest, htable]
    exact bestCategory_of_more _ (keywordPoints_mono name actions hmore)

/-- A keyword that is added to the later of two categories as good as each other leads to it. -/
theorem suggestCategory_suggested_frost :
    let v : Vocabulary := { (default : Vocabulary) with categories := [("combat", ["bolt"]), ("ice", ["frost"])] }
    let w : Vocabulary := { v with categories := [("combat", ["bolt"]), ("ice", ["frost", "free"])] }
    Suggested (keywordPoints "FrostBolt" ["freeze", "damage"]) v.categories "combat" ∧
      suggestCategory v "FrostBolt" ["damage", "freeze"] = "combat" ∧
      suggestCategory w "FrostBolt" ["freeze", "damage"] = "ice" := by
  intro v w
  have hcombat : suggestCategory v "FrostBolt" ["freeze", "damage"] = "combat" := by decide +kernel
  obtain ⟨hbest, hperm, hmore⟩ := suggestCategory_suggested v "FrostBolt" ["freeze", "damage"]
  have hw := hmore [("combat", ["bolt"])] "ice" ["frost"] ["frost", "free"] [] rfl
    (List.Sublist.subperm (.cons_cons _ (.cons _ .slnil)))
  have hne : suggestCategory w "FrostBolt" ["freeze", "damage"] ≠ "combat" := by decide +kernel
  refine ⟨hcombat ▸ hbest, ?_, ?_⟩
  · rw [hperm ["damage", "freeze"] (.swap _ _ _), hcombat]
  · exact hw.resolve_left (hcombat ▸ hne)

end SkillAtlas
