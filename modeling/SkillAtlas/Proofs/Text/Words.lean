import Mathlib.Data.List.Chain
import Mathlib.Data.List.DropRight
import SkillAtlas.Proofs.Line.Reading
import SkillAtlas.Proofs.Text.Joined

/-!
# Words of texts

A text that is put together from words with one space between neighbours is cut into these words again. Whether a
text is of this form can be read off its blanks: each is a space, and none stands at an end or beside another one.
So a text that is written anew with the same blanks is of this form if the first one is. Words start at the start of
a text and behind its blanks.
-/

namespace SkillAtlas.Text

/-- Some characters, none of them blank. -/
structure Unbroken (w : List Char) : Prop where
  ne_nil : w ≠ []
  not_blank : ∀ c ∈ w, isBlank c = false

/-- Words with one space between neighbours, and nothing at the ends. -/
def SpacedOnce (cs : List Char) : Prop :=
  ∃ words : List (List Char), (∀ w ∈ words, Unbroken w) ∧ cs = joinWith [' '] words

lemma isBlank_space : isBlank ' ' = true := by
  rw [isBlank, CharSet.contains_eq_any]
  decide

section Cutting

variable {b c : Char} {w cs rest before : List Char} {words : List (List Char)}

lemma wordsFrom_cons_of_not_blank (hc : isBlank c = false) (before rest : List Char) :
    wordsFrom before (c :: rest) = wordsFrom (c :: before) rest := by
  simp only [wordsFrom, hc, Bool.false_eq_true, if_false]

/-- At a blank the word before it is complete. -/
lemma wordsFrom_cons_of_blank (hb : isBlank b = true) (before rest : List Char) :
    wordsFrom before (b :: rest) = wordsFrom before [] ++ wordsOf rest := by
  simp only [wordsFrom, hb, if_true]
  split <;> rfl

lemma wordsFrom_append (hw : ∀ c ∈ w, isBlank c = false) (before rest : List Char) :
    wordsFrom before (w ++ rest) = wordsFrom (w.reverse ++ before) rest := by
  induction w generalizing before with
  | nil => rfl
  | cons c more ih =>
    obtain ⟨hc, hmore⟩ := List.forall_mem_cons.mp hw
    rw [List.cons_append, wordsFrom_cons_of_not_blank hc, ih hmore, List.reverse_cons, List.append_assoc,
      List.singleton_append]

lemma wordsFrom_append_of_blank (hb : isBlank b = true) (before cs rest : List Char) :
    wordsFrom before (cs ++ b :: rest) = wordsFrom before cs ++ wordsOf rest := by
  induction cs generalizing before with
  | nil => exact wordsFrom_cons_of_blank hb before rest
  | cons c more ih =>
    rw [List.cons_append]
    by_cases hc : isBlank c = true
    · rw [wordsFrom_cons_of_blank hc, wordsFrom_cons_of_blank hc, List.append_assoc]
      exact congrArg _ (ih [])
    · rw [wordsFrom_cons_of_not_blank (Bool.not_eq_true _ ▸ hc), ih,
        wordsFrom_cons_of_not_blank (Bool.not_eq_true _ ▸ hc)]

lemma wordsOf_cons_of_blank (hb : isBlank b = true) (rest : List Char) : wordsOf (b :: rest) = wordsOf rest :=
  wordsFrom_cons_of_blank hb [] rest

/-- What is gathered before the first blank is a word if it is anything. -/
lemma unbroken_of_mem_wordsFrom (hbefore : ∀ c ∈ before, isBlank c = false) (h : w ∈ wordsFrom before cs) :
    Unbroken w := by
  have hclosed : ∀ before : List Char, (∀ c ∈ before, isBlank c = false) → ∀ w ∈ wordsFrom before [],
      Unbroken w := by
    intro before hbefore w hw
    rw [wordsFrom] at hw
    split at hw
    · exact absurd hw List.not_mem_nil
    · rename_i hne
      obtain rfl := List.mem_singleton.mp hw
      exact ⟨by simpa using hne, fun c hc => hbefore c (List.mem_reverse.mp hc)⟩
  induction cs generalizing before with
  | nil => exact hclosed before hbefore w h
  | cons c rest ih =>
    by_cases hc : isBlank c = true
    · rw [wordsFrom_cons_of_blank hc] at h
      rcases List.mem_append.mp h with h | h
      · exact hclosed before hbefore w h
      · exact ih (by simp) h
    · rw [Bool.not_eq_true] at hc
      rw [wordsFrom_cons_of_not_blank hc] at h
      exact ih (List.forall_mem_cons.mpr ⟨hc, hbefore⟩) h

lemma unbroken_of_mem_wordsOf (h : w ∈ wordsOf cs) : Unbroken w :=
  unbroken_of_mem_wordsFrom (by simp) h

lemma Unbroken.wordsOf_eq (h : Unbroken w) : wordsOf w = [w] := by
  have hgathered := wordsFrom_append h.not_blank [] []
  rw [List.append_nil, List.append_nil] at hgathered
  rw [wordsOf, hgathered, wordsFrom, if_neg (by simpa using h.ne_nil), List.reverse_reverse]

/-- The words hold every character that is not blank, in the order of the text. -/
lemma flatten_wordsFrom (before cs : List Char) :
    (wordsFrom before cs).flatten = before.reverse ++ cs.filter fun c => !isBlank c := by
  have hclosed (before : List Char) : (wordsFrom before []).flatten = before.reverse := by
    cases before <;> simp [wordsFrom]
  induction cs generalizing before with
  | nil => rw [hclosed, List.filter_nil, List.append_nil]
  | cons c rest ih =>
    by_cases hc : isBlank c = true
    · rw [wordsFrom_cons_of_blank hc, List.flatten_append, hclosed, wordsOf, ih, List.filter_cons_of_neg (by simp [hc])]
      rfl
    · rw [Bool.not_eq_true] at hc
      rw [wordsFrom_cons_of_not_blank hc, ih, List.reverse_cons, List.filter_cons_of_pos (by simp [hc]),
        List.append_assoc, List.singleton_append]

lemma flatten_wordsOf (cs : List Char) : (wordsOf cs).flatten = cs.filter fun c => !isBlank c :=
  flatten_wordsFrom [] cs

lemma mem_of_mem_wordsOf (hw : w ∈ wordsOf cs) (hc : c ∈ w) : c ∈ cs := by
  have hmem : c ∈ (wordsOf cs).flatten := List.mem_flatten.mpr ⟨w, hw, hc⟩
  rw [flatten_wordsOf] at hmem
  exact List.mem_of_mem_filter hmem

/-- Behind its first character, each word is made of what follows the first character of the text. -/
lemma mem_of_mem_tail_word (hw : w ∈ wordsOf (c :: rest)) {d : Char} (hd : d ∈ w.tail) : d ∈ rest := by
  by_cases hc : isBlank c = true
  · rw [wordsOf_cons_of_blank hc] at hw
    exact mem_of_mem_wordsOf hw (List.mem_of_mem_tail hd)
  · have hflat := flatten_wordsOf (c :: rest)
    rw [List.filter_cons_of_pos (by simpa using hc)] at hflat
    cases hwords : wordsOf (c :: rest) with
    | nil => simp [hwords] at hw
    | cons v more =>
      have hv : v ∈ wordsOf (c :: rest) := hwords ▸ List.mem_cons_self
      obtain ⟨e, front, rfl⟩ := List.exists_cons_of_ne_nil (unbroken_of_mem_wordsOf hv).ne_nil
      rw [hwords, List.flatten_cons, List.cons_append, List.cons.injEq] at hflat
      have hlater : d ∈ front ++ more.flatten := by
        rw [hwords] at hw
        rcases List.mem_cons.mp hw with rfl | hw
        · exact List.mem_append_left _ hd
        · exact List.mem_append_right _ (List.mem_flatten.mpr ⟨w, hw, List.mem_of_mem_tail hd⟩)
      rw [hflat.2] at hlater
      exact List.mem_of_mem_filter hlater

lemma mem_joinWith (hc : c ≠ ' ') {parts : List (List Char)} : c ∈ joinWith [' '] parts ↔ ∃ p ∈ parts, c ∈ p := by
  unfold joinWith
  induction parts with
  | nil => simp
  | cons p rest ih =>
    cases rest with
    | nil => simp
    | cons q more =>
      rw [List.intercalate_cons_cons, List.mem_append, List.mem_append, ih, List.mem_singleton]
      simp [hc]

/-- The words of parts with spaces between them are those of the parts. -/
lemma wordsOf_joinWith (parts : List (List Char)) : wordsOf (joinWith [' '] parts) = parts.flatMap wordsOf := by
  unfold joinWith
  induction parts with
  | nil => rfl
  | cons p rest ih =>
    cases rest with
    | nil => rw [List.intercalate_singleton, List.flatMap_singleton]
    | cons q more =>
      rw [List.intercalate_cons_cons, List.append_assoc, List.singleton_append, wordsOf,
        wordsFrom_append_of_blank isBlank_space, ih, List.flatMap_cons]
      rfl

lemma wordsOf_joinWith_words (h : ∀ w ∈ words, Unbroken w) : wordsOf (joinWith [' '] words) = words := by
  rw [wordsOf_joinWith]
  induction words with
  | nil => rfl
  | cons w rest ih =>
    obtain ⟨hw, hrest⟩ := List.forall_mem_cons.mp h
    rw [List.flatMap_cons, hw.wordsOf_eq, ih hrest, List.singleton_append]

lemma spacedOnce_iff : SpacedOnce cs ↔ joinWith [' '] (wordsOf cs) = cs := by
  constructor
  · rintro ⟨words, hwords, rfl⟩
    rw [wordsOf_joinWith_words hwords]
  · intro h
    exact ⟨wordsOf cs, fun w hw => unbroken_of_mem_wordsOf hw, h.symm⟩

end Cutting

section Blanks

variable {c : Char} {cs : List Char} {words : List (List Char)}

/-- Every blank is a space between two characters that are not blank. What comes before the text, if only its
start, may count as blank. -/
def spacedFrom (blankBefore : Bool) : List Char → Bool
  | [] => !blankBefore
  | c :: rest => if isBlank c then c == ' ' && !blankBefore && spacedFrom true rest else spacedFrom false rest

/-- The first character of a word. -/
lemma not_blank_of_head?_joinWith (h : ∀ w ∈ words, Unbroken w) (hc : c ∈ (joinWith [' '] words).head?) :
    isBlank c = false := by
  cases words with
  | nil => simp [joinWith, List.intercalate] at hc
  | cons w rest =>
    have hw := h w List.mem_cons_self
    obtain ⟨d, more, rfl⟩ := List.exists_cons_of_ne_nil hw.ne_nil
    have hd : c = d := by
      cases rest with
      | nil => simpa [joinWith, eq_comm] using hc
      | cons v last => simpa [joinWith, List.intercalate_cons_cons, eq_comm] using hc
    rw [hd]
    exact hw.not_blank d List.mem_cons_self

/-- A word goes before a text of words if a space comes in between and some word follows. -/
lemma joinWith_cons_wordsOf_iff {w rest : List Char} :
    joinWith [' '] (w :: wordsOf rest) = w ++ c :: rest ↔
      c = ' ' ∧ rest ≠ [] ∧ joinWith [' '] (wordsOf rest) = rest := by
  cases hwords : wordsOf rest with
  | nil =>
    have hnil : joinWith [' '] [] = [] := rfl
    rw [joinWith, List.intercalate_singleton, hnil]
    constructor
    · intro h
      exact absurd (congrArg List.length h) (by simp)
    · rintro ⟨-, hne, he⟩
      exact absurd he.symm hne
  | cons v more =>
    have hne : rest ≠ [] := by
      rintro rfl
      exact absurd hwords (by simp [wordsOf, wordsFrom])
    rw [joinWith, List.intercalate_cons_cons, List.append_assoc, List.append_cancel_left_eq,
      List.singleton_append, List.cons.injEq, eq_comm]
    simp [hne, joinWith]

/-- The induction is on what is still to be cut; `before` is the current word, last character first. -/
lemma joinWith_wordsFrom_iff {before : List Char} (hne : before ≠ [] ∨ cs ≠ []) :
    joinWith [' '] (wordsFrom before cs) = before.reverse ++ cs ↔ spacedFrom before.isEmpty cs = true := by
  induction cs generalizing before with
  | nil =>
    have hbefore : before.isEmpty = false := by simpa using hne
    simp [wordsFrom, spacedFrom, hbefore, joinWith]
  | cons c rest ih =>
    by_cases hc : isBlank c = true
    · rw [wordsFrom_cons_of_blank hc, spacedFrom, if_pos hc]
      cases before with
      | nil =>
        -- no text of words starts with a blank
        have hstart : joinWith [' '] (wordsOf rest) ≠ c :: rest := fun he => by
          have hfirst : isBlank c = false :=
            not_blank_of_head?_joinWith (fun w hw => unbroken_of_mem_wordsOf hw) (by rw [he]; rfl)
          exact absurd hc (by simp [hfirst])
        simpa [wordsFrom] using hstart
      | cons d more =>
        have hclosed : wordsFrom (d :: more) [] = [(d :: more).reverse] := rfl
        rw [hclosed, List.singleton_append, joinWith_cons_wordsOf_iff]
        by_cases hrest : rest = []
        · simp [hrest, spacedFrom]
        · have hlater : joinWith [' '] (wordsOf rest) = rest ↔ spacedFrom true rest = true := ih (Or.inr hrest)
          simp [hrest, hlater]
    · rw [Bool.not_eq_true] at hc
      have hstep : joinWith [' '] (wordsFrom (c :: before) rest) = (c :: before).reverse ++ rest ↔
          spacedFrom false rest = true := ih (Or.inl (List.cons_ne_nil _ _))
      rw [wordsFrom_cons_of_not_blank hc, spacedFrom, hc, if_neg Bool.false_ne_true]
      rwa [List.reverse_cons, List.append_assoc, List.singleton_append] at hstep

lemma spacedOnce_iff_spacedFrom (hne : cs ≠ []) : SpacedOnce cs ↔ spacedFrom true cs = true := by
  rw [spacedOnce_iff]
  exact joinWith_wordsFrom_iff (Or.inr hne)

lemma not_blank_of_spacedFrom_concat {blankBefore : Bool} (h : spacedFrom blankBefore (cs ++ [c]) = true) :
    isBlank c = false := by
  induction cs generalizing blankBefore with
  | nil =>
    by_contra hc
    simp [spacedFrom, hc] at h
  | cons d rest ih =>
    rw [List.cons_append, spacedFrom] at h
    split at h
    · exact ih (Bool.and_eq_true_iff.mp h).2
    · exact ih h

end Blanks

section Trimming

variable {c : Char} {cs : List Char}

lemma trimChars_eq_rdropWhile (cs : List Char) : trimChars cs = (cs.dropWhile isBlank).rdropWhile isBlank :=
  rfl

/-- A text between blanks is what is left of it without blanks at its ends. -/
lemma exists_blanks (cs : List Char) : ∃ front back : List Char, cs = front ++ (trimChars cs ++ back) ∧
    (∀ b ∈ front, isBlank b = true) ∧ ∀ b ∈ back, isBlank b = true := by
  refine ⟨cs.takeWhile isBlank, (cs.dropWhile isBlank).rtakeWhile isBlank, ?_,
    fun b hb => List.mem_takeWhile_imp hb, fun b hb => List.mem_rtakeWhile_imp hb⟩
  rw [trimChars_eq_rdropWhile, List.rdropWhile_append_rtakeWhile, List.takeWhile_append_dropWhile]

lemma trimChars_sublist (cs : List Char) : (trimChars cs).Sublist cs :=
  (List.rdropWhile_prefix isBlank _).sublist.trans (List.dropWhile_sublist _)

lemma trimChars_trimChars (cs : List Char) : trimChars (trimChars cs) = trimChars cs := by
  have hstart : trimChars cs <+: cs.dropWhile isBlank := List.rdropWhile_prefix isBlank _
  have hfirst : (trimChars cs).dropWhile isBlank = trimChars cs := by
    refine List.dropWhile_eq_self_iff.mpr fun hne => ?_
    rw [hstart.getElem hne]
    exact List.dropWhile_get_zero_not isBlank cs (hne.trans_le hstart.length_le)
  rw [trimChars_eq_rdropWhile (trimChars cs), hfirst, trimChars_eq_rdropWhile, List.rdropWhile_idempotent]

/-- Nothing but blanks is left out at the ends. -/
lemma mem_trimChars (hc : isBlank c = false) : c ∈ trimChars cs ↔ c ∈ cs := by
  obtain ⟨front, back, he, hfront, hback⟩ := exists_blanks cs
  have hnot : c ∉ front ∧ c ∉ back :=
    ⟨fun h => by simp [hfront c h] at hc, fun h => by simp [hback c h] at hc⟩
  conv_rhs => rw [he]
  simp [hnot]

lemma wordsOf_append_blanks {back : List Char} (h : ∀ b ∈ back, isBlank b = true) (cs : List Char) :
    wordsOf (cs ++ back) = wordsOf cs := by
  induction back generalizing cs with
  | nil => rw [List.append_nil]
  | cons b rest ih =>
    obtain ⟨hb, hrest⟩ := List.forall_mem_cons.mp h
    have hnone : wordsOf rest = [] := ih hrest []
    rw [wordsOf, wordsFrom_append_of_blank hb, hnone, List.append_nil]
    rfl

lemma wordsOf_blanks_append {front : List Char} (h : ∀ b ∈ front, isBlank b = true) (cs : List Char) :
    wordsOf (front ++ cs) = wordsOf cs := by
  induction front with
  | nil => rfl
  | cons b more ih =>
    obtain ⟨hb, hmore⟩ := List.forall_mem_cons.mp h
    rw [List.cons_append, wordsOf_cons_of_blank hb, ih hmore]

lemma wordsOf_trimChars (cs : List Char) : wordsOf (trimChars cs) = wordsOf cs := by
  obtain ⟨front, back, he, hfront, hback⟩ := exists_blanks cs
  conv_rhs => rw [he, wordsOf_blanks_append hfront, wordsOf_append_blanks hback]

/-- Words with single spaces between them have no blanks at their ends. -/
lemma SpacedOnce.trimChars_eq (h : SpacedOnce cs) : trimChars cs = cs := by
  refine trimChars_eq_self (fun c hc => ?_) fun c hc => ?_
  · obtain ⟨words, hwords, rfl⟩ := h
    exact not_blank_of_head?_joinWith hwords hc
  · obtain ⟨front, rfl⟩ := List.getLast?_eq_some_iff.mp hc
    exact not_blank_of_spacedFrom_concat ((spacedOnce_iff_spacedFrom (by simp)).mp h)

end Trimming

section Starts

variable {P : Char → Prop} {c : Char} {w cs rest before : List Char}

/-- Every character that stands behind a blank satisfies `P`. -/
def BehindBlanks (P : Char → Prop) (cs : List Char) : Prop :=
  cs.IsChain fun b c => isBlank b = true → P c

lemma behindBlanks_cons :
    BehindBlanks P (c :: rest) ↔ (isBlank c = true → ∀ d ∈ rest.head?, P d) ∧ BehindBlanks P rest := by
  rw [BehindBlanks, List.isChain_cons, BehindBlanks]
  tauto

lemma behindBlanks_append (hw : ∀ c ∈ w, isBlank c = false) :
    BehindBlanks P (w ++ rest) ↔ BehindBlanks P rest := by
  induction w with
  | nil => rfl
  | cons c more ih =>
    obtain ⟨hc, hmore⟩ := List.forall_mem_cons.mp hw
    rw [List.cons_append, behindBlanks_cons, ih hmore, hc]
    simp

/-- The induction is on what is still to be cut; `before` is the current word, last character first. -/
lemma forall_head_wordsFrom_iff (hP : ∀ b, isBlank b = true → P b) (hbefore : ∀ c ∈ before, isBlank c = false) :
    (∀ w ∈ wordsFrom before cs, ∀ c ∈ w.head?, P c) ↔
      (∀ c ∈ (before.reverse ++ cs).head?, P c) ∧ BehindBlanks P cs := by
  have hclosed (before : List Char) :
      (∀ w ∈ wordsFrom before [], ∀ c ∈ w.head?, P c) ↔ ∀ c ∈ before.reverse.head?, P c := by
    cases before <;> simp [wordsFrom]
  induction cs generalizing before with
  | nil =>
    rw [List.append_nil, hclosed]
    exact (and_iff_left List.isChain_nil).symm
  | cons c rest ih =>
    by_cases hc : isBlank c = true
    · have hlater : (∀ w ∈ wordsOf rest, ∀ d ∈ w.head?, P d) ↔
          (∀ d ∈ rest.head?, P d) ∧ BehindBlanks P rest := ih (by simp)
      have hfirst : (∀ d ∈ (before.reverse ++ c :: rest).head?, P d) ↔ ∀ d ∈ before.reverse.head?, P d := by
        rw [List.head?_append]
        cases before.reverse with
        | nil => simp [hP c hc]
        | cons d more => rfl
      rw [wordsFrom_cons_of_blank hc, List.forall_mem_append, hclosed, hlater, hfirst, behindBlanks_cons]
      simp [hc]
    · rw [Bool.not_eq_true] at hc
      have hstep : (∀ w ∈ wordsFrom (c :: before) rest, ∀ d ∈ w.head?, P d) ↔
          (∀ d ∈ ((c :: before).reverse ++ rest).head?, P d) ∧ BehindBlanks P rest :=
        ih (List.forall_mem_cons.mpr ⟨hc, hbefore⟩)
      rw [wordsFrom_cons_of_not_blank hc, hstep, behindBlanks_cons, List.reverse_cons, List.append_assoc,
        List.singleton_append]
      simp [hc]

/-- Words start at the start of the text and behind blanks. -/
lemma forall_head_wordsOf_iff (hP : ∀ b, isBlank b = true → P b) :
    (∀ w ∈ wordsOf cs, ∀ c ∈ w.head?, P c) ↔ (∀ c ∈ cs.head?, P c) ∧ BehindBlanks P cs :=
  forall_head_wordsFrom_iff hP (by simp)

end Starts

section Respelling

/-- A text written anew: blanks are kept, and for every other character there are some that are not blank. -/
inductive Respelled : List Char → List Char → Prop
  | nil : Respelled [] []
  | blank {b : Char} {xs ys : List Char} (hb : isBlank b = true) (h : Respelled xs ys) :
    Respelled (b :: xs) (b :: ys)
  | spelled {c : Char} {w xs ys : List Char} (hc : isBlank c = false) (hw : Unbroken w) (h : Respelled xs ys) :
    Respelled (c :: xs) (w ++ ys)

variable {w xs ys xs' ys' : List Char}

namespace Respelled

lemma append (h : Respelled xs ys) (h' : Respelled xs' ys') : Respelled (xs ++ xs') (ys ++ ys') := by
  induction h with
  | nil => exact h'
  | blank hb _ ih => exact blank hb ih
  | spelled hc hw _ ih =>
    rw [List.append_assoc]
    exact spelled hc hw ih

lemma reverse (h : Respelled xs ys) : Respelled xs.reverse ys.reverse := by
  induction h with
  | nil => exact nil
  | blank hb _ ih =>
    rw [List.reverse_cons, List.reverse_cons]
    exact ih.append (blank hb nil)
  | @spelled c w xs ys hc hw _ ih =>
    have hback : Unbroken w.reverse := ⟨by simpa using hw.ne_nil, fun d hd => hw.not_blank d (by simpa using hd)⟩
    have hlast : Respelled [c] w.reverse := by simpa using spelled hc hback nil
    rw [List.reverse_cons, List.reverse_append]
    exact ih.append hlast

lemma dropWhile (h : Respelled xs ys) : Respelled (xs.dropWhile isBlank) (ys.dropWhile isBlank) := by
  induction h with
  | nil => exact nil
  | blank hb _ ih => rwa [List.dropWhile_cons_of_pos hb, List.dropWhile_cons_of_pos hb]
  | @spelled c w xs ys hc hw h _ =>
    obtain ⟨d, more, rfl⟩ := List.exists_cons_of_ne_nil hw.ne_nil
    rw [List.dropWhile_cons_of_neg (by simp [hc]), List.cons_append,
      List.dropWhile_cons_of_neg (by simp [hw.not_blank d])]
    exact spelled hc hw h

lemma trimChars (h : Respelled xs ys) : Respelled (trimChars xs) (trimChars ys) :=
  h.dropWhile.reverse.dropWhile.reverse

lemma joinWith {parts others : List (List Char)} (h : List.Forall₂ Respelled parts others) :
    Respelled (joinWith [' '] parts) (joinWith [' '] others) := by
  unfold Text.joinWith
  induction h with
  | nil => exact nil
  | @cons p q rest more hp hrest ih =>
    cases hrest with
    | nil => simpa using hp
    | cons hnext hlater =>
      rw [List.intercalate_cons_cons, List.intercalate_cons_cons, List.append_assoc, List.append_assoc]
      exact hp.append (blank isBlank_space ih)

lemma eq_nil_iff (h : Respelled xs ys) : xs = [] ↔ ys = [] := by
  cases h with
  | nil => rfl
  | blank => simp
  | spelled _ hw => simp [hw.ne_nil]

end Respelled

lemma spacedFrom_append {blankBefore : Bool} (hw : Unbroken w) :
    spacedFrom blankBefore (w ++ xs) = spacedFrom false xs := by
  have hrest : ∀ more : List Char, (∀ c ∈ more, isBlank c = false) →
      spacedFrom false (more ++ xs) = spacedFrom false xs := by
    intro more hmore
    induction more with
    | nil => rfl
    | cons c more ih =>
      obtain ⟨hc, hlater⟩ := List.forall_mem_cons.mp hmore
      rw [List.cons_append, spacedFrom, hc, if_neg Bool.false_ne_true, ih hlater]
  obtain ⟨c, more, rfl⟩ := List.exists_cons_of_ne_nil hw.ne_nil
  obtain ⟨hc, hmore⟩ := List.forall_mem_cons.mp hw.not_blank
  rw [List.cons_append, spacedFrom, hc, if_neg Bool.false_ne_true, hrest more hmore]

lemma Respelled.spacedFrom_eq (h : Respelled xs ys) (blankBefore : Bool) :
    spacedFrom blankBefore xs = spacedFrom blankBefore ys := by
  induction h generalizing blankBefore with
  | nil => rfl
  | blank hb _ ih => rw [spacedFrom, spacedFrom, if_pos hb, if_pos hb, ih]
  | spelled hc hw _ ih => rw [spacedFrom_append hw, spacedFrom, hc, if_neg Bool.false_ne_true, ih]

/-- Single spaces between words are a matter of the blanks alone. -/
lemma Respelled.spacedOnce_iff (h : Respelled xs ys) : SpacedOnce xs ↔ SpacedOnce ys := by
  by_cases hxs : xs = []
  · rw [hxs, h.eq_nil_iff.mp hxs]
  · have hys : ys ≠ [] := fun he => hxs (h.eq_nil_iff.mpr he)
    rw [spacedOnce_iff_spacedFrom hxs, spacedOnce_iff_spacedFrom hys, h.spacedFrom_eq]

end Respelling

end SkillAtlas.Text
