import SkillAtlas.Proofs.Line.Reading
import SkillAtlas.Proofs.Text.CaseForms
import SkillAtlas.Proofs.Vocabulary.Reading

/-!
# Actions at the front of a line

A line has an action if its first word is one, and the first word ends at the first character that is no
letter, number or underscore. So an action that is one word is read wherever it stands at the front of a line,
in either case. An action of the table that is not one word is read in no line.
-/

namespace SkillAtlas

open Text (IsMark isBlank isWord lower lowerAfter lowerChars smallOf)

namespace Text

/-- What holds of every code point in the ranges of a set holds of its characters. -/
lemma CharSet.forall_of_ranges {s : CharSet} {P : Char → Prop}
    (h : ∀ r ∈ s.ranges.toList, ∀ i < r.2 + 1 - r.1, P (Char.ofNat (r.1 + i))) {c : Char}
    (hc : s.contains c = true) : P c := by
  obtain ⟨r, hr, hfirst, hlast⟩ := CharSet.contains_iff.mp hc
  have hP := h r (Array.mem_toList_iff.mpr hr) (c.toNat - r.1) (by omega)
  rwa [Nat.add_sub_cancel' hfirst, Char.ofNat_toNat] at hP

/-- The character ends a word, and the small letters of the word do not depend on it. -/
structure EndsWord (c : Char) : Prop where
  isMark : IsMark c
  small : smallOf c = [c]
  not_isWord : isWord c = false

lemma endsWord_of_isBlank {c : Char} (h : isBlank c = true) : EndsWord c := by
  have hall : ∀ r ∈ blank.ranges.toList, ∀ i < r.2 + 1 - r.1,
      IsMark (Char.ofNat (r.1 + i)) ∧ smallOf (Char.ofNat (r.1 + i)) = [Char.ofNat (r.1 + i)] ∧
        isWord (Char.ofNat (r.1 + i)) = false := by
    simp only [IsMark, smallOf, mapCase_eq, isWord, CharSet.contains_eq_any]
    decide +kernel
  refine CharSet.forall_of_ranges (s := blank) (fun r hr i hi => ?_) h
  obtain ⟨hmark, hsmall, hword⟩ := hall r hr i hi
  exact ⟨hmark, hsmall, hword⟩

lemma endsWord_brace : EndsWord '{' where
  isMark := by
    rw [IsMark, CharSet.contains_eq_any, CharSet.contains_eq_any]
    decide +kernel
  small := by decide
  not_isWord := by decide

end Text

/-- A table of words is read in small letters. -/
lemma Vocabulary.lower_of_mem_words {es : Entries} {key word : String} (h : word ∈ words es key) :
    lower word = word := by
  obtain ⟨t, -, rfl⟩ := List.mem_map.mp (List.mem_eraseDups.mp h)
  exact Text.lower_lower t

namespace Line

/-- A text of letters, numbers and underscores only. -/
def OneWord (s : String) : Prop :=
  s ≠ "" ∧ ∀ c ∈ s.toList, isWord c = true

instance (s : String) : Decidable (OneWord s) :=
  decidable_of_iff ((s != "" && s.toList.all isWord) = true) (by simp [OneWord])

/-- An action may end here: the line ends, or a blank stands here, or the arguments start. -/
def EndsAction (rest : List Char) : Prop :=
  ∀ c ∈ rest.head?, isBlank c = true ∨ c = '{'

variable {v : Vocabulary} {a : String} {cs word rest : List Char}

/-- What stands behind an action ends it in small letters too. -/
lemma lowerChars_append_ends (hrest : EndsAction rest) (word : List Char) :
    ∃ tail, lowerChars (word ++ rest) = lowerChars word ++ tail ∧ ∀ c ∈ tail.head?, isWord c = false := by
  cases rest with
  | nil => exact ⟨[], by rw [List.append_nil, List.append_nil], by simp⟩
  | cons c rest =>
    have hc : Text.EndsWord c := by
      rcases hrest c rfl with hblank | rfl
      · exact Text.endsWord_of_isBlank hblank
      · exact Text.endsWord_brace
    -- the tail starts with the small form of the character that ends the action, which is the character
    refine ⟨lowerAfter (word.reverse ++ []) (c :: rest), Text.lowerAfter_append_mark hc.isMark [] word rest, ?_⟩
    rw [lowerAfter, Text.ne_sigma_of_smallOf hc.small, if_neg Bool.false_ne_true, hc.small]
    intro d hd
    obtain rfl := Option.some.inj hd
    exact hc.not_isWord

lemma isBlank_of_isWord {c : Char} (h : isWord c = true) : isBlank c = false := by
  rw [Bool.eq_false_iff]
  intro hblank
  rw [(Text.endsWord_of_isBlank hblank).not_isWord] at h
  exact Bool.false_ne_true h

lemma isWord_of_firstWord? (h : firstWord? cs = some word) : word ≠ [] ∧ ∀ c ∈ word, isWord c = true := by
  obtain ⟨body, hrun⟩ : ∃ body, run? isWord body = some word := ⟨_, h⟩
  unfold run? at hrun
  split at hrun
  · simp at hrun
  · rename_i run hne
    obtain rfl := Option.some.inj hrun
    exact ⟨hne, fun c hc => List.mem_takeWhile_imp hc⟩

/-- An action that is not one word is read in no line. -/
lemma not_mem_actions (h : ¬OneWord a) (v : Vocabulary) (outside : List String) (line : String) :
    a ∉ (parts v outside line).actions := by
  intro ha
  unfold parts actionOf at ha
  dsimp only at ha
  split at ha
  · rename_i word hfirst
    obtain ⟨hne, hword⟩ := isWord_of_firstWord? hfirst
    split at ha
    · rw [List.mem_singleton.mp ha] at h
      refine h ⟨fun he => hne ?_, by rwa [String.toList_ofList]⟩
      rw [← String.toList_ofList (l := word), he]
      rfl
    · simp at ha
  · simp at ha

/-- A line starts with an action that is one word, in either case: it is read. -/
lemma actions_of_oneWord (hword : OneWord a) (hsmall : lower a = a) (ha : a ∈ v.actions) {line : String}
    (htrim : Text.trimChars line.toList = word ++ rest) (hlow : lowerChars word = a.toList)
    (hrest : EndsAction rest) (outside : List String) : (parts v outside line).actions = [a] := by
  obtain ⟨tail, hline, htail⟩ := lowerChars_append_ends hrest word
  have hne : a.toList ≠ [] := fun he => hword.1 (String.toList_eq_nil_iff.mp he)
  have haction : v.isAction a = true := by
    rw [Vocabulary.isAction, hsmall]
    exact List.contains_iff_mem.mpr ha
  have hfirst : firstWord? (a.toList ++ tail) = some a.toList :=
    firstWord?_append hne hword.2 (fun c hc => isBlank_of_isWord (hword.2 c hc)) htail
  unfold parts actionOf
  simp only [htrim, hline, hlow, hfirst, String.ofList_toList]
  exact if_pos haction

/-- An action of a vocabulary that is read from a table is read at the front of every line that starts with it,
in either case, if it is one word; if not, no line has it. -/
theorem actions_parts {value : Value} {v : Vocabulary} (hv : Vocabulary.ofValue value = .ok v) {a : String}
    (ha : a ∈ v.actions) (outside : List String) :
    (OneWord a → ∀ (line : String) (word rest : List Char), Text.trimChars line.toList = word ++ rest →
      lowerChars word = a.toList → EndsAction rest → (parts v outside line).actions = [a]) ∧
    (¬OneWord a → ∀ line, a ∉ (parts v outside line).actions) := by
  constructor
  · intro hword line word rest htrim hlow hrest
    have hsmall : lower a = a := by
      rw [(Vocabulary.ofValue_eq_ok.mp hv).2.2] at ha
      exact Vocabulary.lower_of_mem_words ha
    exact actions_of_oneWord hword hsmall ha htrim hlow hrest outside
  · exact fun hword line => not_mem_actions hword v outside line

lemma damage_mem_packaged : "damage" ∈ Vocabulary.packaged.actions :=
  Vocabulary.mem_words (by decide +kernel) (by decide +kernel)

lemma particles_mem_packaged : "effect:particles" ∈ Vocabulary.packaged.actions :=
  Vocabulary.mem_words (by decide +kernel) (by decide +kernel)

theorem actions_parts_damage :
    (parts Vocabulary.packaged [] "Damage\x7ba=5\x7d @target").actions = ["damage"] ∧
      ∀ line, "effect:particles" ∉ (parts Vocabulary.packaged [] line).actions := by
  constructor
  · refine (actions_parts Vocabulary.ofValue_packagedEntries damage_mem_packaged []).1 (by decide) _ "Damage".toList
      "\x7ba=5\x7d @target".toList (by decide +kernel) (by decide +kernel) fun c hc => Or.inr ?_
    exact (Option.some.inj hc).symm
  · exact (actions_parts Vocabulary.ofValue_packagedEntries particles_mem_packaged []).2 (by decide)

/-- The packaged table lists an action that is not read, though a line is nothing but this action. -/
theorem actions_parts_particles :
    Vocabulary.ofValue (.map Vocabulary.packagedEntries) = .ok Vocabulary.packaged ∧
      "effect:particles" ∈ Vocabulary.packaged.actions ∧ Text.trim "effect:particles" = "effect:particles" ∧
      "effect:particles" ∉ (parts Vocabulary.packaged [] "effect:particles").actions :=
  ⟨Vocabulary.ofValue_packagedEntries, particles_mem_packaged, by decide +kernel,
    not_mem_actions (by decide) Vocabulary.packaged [] "effect:particles"⟩

end Line

end SkillAtlas
