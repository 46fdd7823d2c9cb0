import SkillAtlas.Proofs.Text.Joined

/-!
# The case of ASCII letters

A letter of ASCII and its small letter are of the same classes of characters, match the same patterns when
case is ignored, and have the same small form. So a text and the text in which all letters of ASCII are small
are trimmed alike and have the same small letters, whatever other letters stand in them.
-/

namespace SkillAtlas.Text

/-- What is asked of a character of a text, apart from which one it is. -/
structure CharKind where
  blank : Bool
  word : Bool
  digit : Bool
  small : List Char
  ignorable : Bool
  cased : Bool
deriving DecidableEq

/-- The kind of a character. -/
def kind (c : Char) : CharKind where
  blank := isBlank c
  word := isWord c
  digit := isDigit c
  small := smallOf c
  ignorable := caseIgnorable.contains c
  cased := cased.contains c

section Characters

variable {m : Char}

/-- A character that changes under `toLower` is a capital of ASCII. -/
lemma toLower_cases (c : Char) :
    c.toLower = c ∨ ∃ i < 26, c = Char.ofNat (i + 65) ∧ c.toLower = Char.ofNat (i + 97) := by
  by_cases hc : c.toNat < 128
  · exact forall_ascii (P := fun c => c.toLower = c ∨
      ∃ i < 26, c = Char.ofNat (i + 65) ∧ c.toLower = Char.ofNat (i + 97)) (by decide +kernel) hc
  · exact Or.inl (toLower_of_not_ascii hc)

/-- A letter of ASCII and its small letter are of one kind. -/
lemma kind_toLower (c : Char) : kind c.toLower = kind c := by
  have hletters : ∀ i < 26, kind (Char.ofNat (i + 97)) = kind (Char.ofNat (i + 65)) := by
    simp only [kind, CharSet.contains_eq_any]
    decide +kernel
  rcases toLower_cases c with hself | ⟨i, hi, hc, hlow⟩
  · rw [hself]
  · rw [hlow, hc, hletters i hi]

lemma isBlank_small (c : Char) : isBlank c.toLower = isBlank c :=
  (CharKind.mk.inj (kind_toLower c)).1

lemma isWord_small (c : Char) : isWord c.toLower = isWord c :=
  (CharKind.mk.inj (kind_toLower c)).2.1

lemma isDigit_small (c : Char) : isDigit c.toLower = isDigit c :=
  (CharKind.mk.inj (kind_toLower c)).2.2.1

lemma smallOf_small (c : Char) : smallOf c.toLower = smallOf c :=
  (CharKind.mk.inj (kind_toLower c)).2.2.2.1

lemma ignorable_small (c : Char) : caseIgnorable.contains c.toLower = caseIgnorable.contains c :=
  (CharKind.mk.inj (kind_toLower c)).2.2.2.2.1

lemma cased_small (c : Char) : cased.contains c.toLower = cased.contains c :=
  (CharKind.mk.inj (kind_toLower c)).2.2.2.2.2

lemma toLower_beq (hm : m.isAlpha = false) (c : Char) : (c.toLower == m) = (c == m) := by
  rw [Bool.eq_iff_iff, beq_iff_eq, beq_iff_eq, toLower_eq_iff hm]

lemma mark_cases (hm : m.isAlpha = false) (c : Char) :
    (c = m ∧ m.toLower = m) ∨ (c ≠ m ∧ c.toLower ≠ m) := by
  by_cases hc : c = m
  · exact Or.inl ⟨hc, (toLower_eq_iff hm m).mpr rfl⟩
  · exact Or.inr ⟨hc, fun he => hc ((toLower_eq_iff hm c).mp he)⟩

/-- A pattern matches a letter of ASCII in both cases or in none. -/
lemma alike_small (p c : Char) : alike p c.toLower = alike p c := by
  by_cases hc : c.toNat < 128
  · obtain ⟨-, hplain, -, -, hcase, hcode, -⟩ := regular_of_ascii hc
    by_cases hp : hasCase p = true
    · rw [alike, alike, if_pos hp, if_pos hp, hcode]
    · rw [alike, alike, if_neg hp, if_neg hp]
      by_cases hc : hasCase c = true
      · have hne : ∀ d, hasCase d = true → (p == d) = false :=
          fun d hd => beq_eq_false_iff_ne.mpr fun he => hp (he ▸ hd)
        rw [hne c hc, hne _ (hcase.trans hc)]
      · rw [hplain (Bool.not_eq_true _ ▸ hc)]
  · rw [toLower_of_not_ascii hc]

end Characters

section Texts

variable {p : Char → Bool}

lemma dropWhile_small (hp : ∀ c, p c.toLower = p c) (cs : List Char) :
    (cs.map Char.toLower).dropWhile p = (cs.dropWhile p).map Char.toLower := by
  rw [List.dropWhile_map, Function.comp_def]
  simp only [hp]

lemma takeWhile_small (hp : ∀ c, p c.toLower = p c) (cs : List Char) :
    (cs.map Char.toLower).takeWhile p = (cs.takeWhile p).map Char.toLower := by
  rw [List.takeWhile_map, Function.comp_def]
  simp only [hp]

lemma trimChars_small (cs : List Char) : trimChars (cs.map Char.toLower) = (trimChars cs).map Char.toLower := by
  simp only [trimChars, dropWhile_small isBlank_small, ← List.map_reverse]

lemma dropAlike?_small (ps cs : List Char) :
    dropAlike? ps (cs.map Char.toLower) = (dropAlike? ps cs).map (List.map Char.toLower) := by
  induction ps generalizing cs with
  | nil => rfl
  | cons p ps ih =>
    cases cs with
    | nil => rfl
    | cons c rest =>
      rw [List.map_cons, dropAlike?, dropAlike?, alike_small, ih]
      split <;> rfl

lemma meetsLetter_small (cs : List Char) : meetsLetter (cs.map Char.toLower) = meetsLetter cs := by
  rw [meetsLetter, meetsLetter, dropWhile_small ignorable_small]
  cases cs.dropWhile caseIgnorable.contains with
  | nil => rfl
  | cons c rest => exact cased_small c

lemma lowerAfter_small (before cs : List Char) :
    lowerAfter (before.map Char.toLower) (cs.map Char.toLower) = lowerAfter before cs := by
  induction cs generalizing before with
  | nil => rfl
  | cons c rest ih =>
    rw [List.map_cons, lowerAfter, lowerAfter, toLower_beq (by decide), smallOf_small, meetsLetter_small,
      meetsLetter_small, ← List.map_cons, ih]

/-- The small letters of a text do not depend on the case of its letters of ASCII. -/
lemma lowerChars_small (cs : List Char) : lowerChars (cs.map Char.toLower) = lowerChars cs :=
  lowerAfter_small [] cs

lemma lower_small (cs : List Char) : lower (.ofList (cs.map Char.toLower)) = lower (.ofList cs) := by
  rw [lower, lower, String.toList_ofList, String.toList_ofList, lowerChars_small]

end Texts

end SkillAtlas.Text
