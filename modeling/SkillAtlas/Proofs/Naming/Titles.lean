import SkillAtlas.Naming.Readable
import SkillAtlas.Proofs.Text.CaseForms
import SkillAtlas.Proofs.Text.Words

/-!
# Words with capitals

A word of a display name has the capital form of its first letter and small letters behind it. A text of words is
its own display form if all words are so already; but a text in capitals throughout is taken for one word, and it
has to be in small letters, too, behind its first letter.
-/

namespace SkillAtlas.Naming

open Text (SpacedOnce Unbroken capitalOf gap isBlank joinWith lowerAfter lowerChars partsBy smallOf trimChars
  upperChars wordsOf)

section Letters

variable {c d : Char} {w cs rest : List Char}

/-- Every character is its own capital. -/
def InCapitals (cs : List Char) : Prop :=
  ∀ c ∈ cs, capitalOf c = [c]

/-- Every character is its own small letter. -/
def InSmall (cs : List Char) : Prop :=
  ∀ c ∈ cs, smallOf c = [c]

/-- The small form of the character is in capitals, too. -/
def Caseless (c : Char) : Prop :=
  InCapitals (smallOf c)

/-- Only the first letter of the word can be a capital: what its capital form goes on with is small. -/
def OneCapital (w : List Char) : Prop :=
  ∀ c ∈ w.head?, InSmall (capitalOf c).tail

instance (cs : List Char) : Decidable (InCapitals cs) :=
  decidable_of_iff (cs.all (fun c => capitalOf c == [c]) = true) (by simp [InCapitals])

instance (cs : List Char) : Decidable (InSmall cs) :=
  decidable_of_iff (cs.all (fun c => smallOf c == [c]) = true) (by simp [InSmall])

instance (c : Char) : Decidable (Caseless c) :=
  inferInstanceAs (Decidable (InCapitals _))

lemma upperChars_eq_self_iff : upperChars cs = cs ↔ InCapitals cs := by
  constructor
  · intro h c hc
    rw [← h, upperChars, List.mem_flatMap] at hc
    obtain ⟨d, -, hc⟩ := hc
    exact Text.capitalOf_of_mem_capitalOf hc
  · intro h
    rw [upperChars, List.flatMap_congr h, List.flatMap_singleton']

lemma lowerAfter_eq_self_iff {before : List Char} : lowerAfter before cs = cs ↔ InSmall cs := by
  constructor
  · intro h c hc
    rw [← h] at hc
    exact Text.smallOf_of_mem_lowerAfter hc
  · intro h
    exact Text.lowerAfter_eq_self h before

lemma inSmall_lowerChars (cs : List Char) : InSmall (lowerChars cs) := fun _ hc =>
  Text.smallOf_of_mem_lowerAfter hc

lemma inSmall_append {as bs : List Char} : InSmall (as ++ bs) ↔ InSmall as ∧ InSmall bs :=
  List.forall_mem_append

/-- What a character becomes in small letters, wherever it stands. -/
structure SmallForm (c : Char) (form : List Char) : Prop where
  ne_nil : form ≠ []
  kept : gap.contains c = true → form = [c]
  same : ∀ d ∈ form, gap.contains d = gap.contains c
  caseless : (∀ d ∈ form.head?, capitalOf d = [d]) ↔ Caseless c

lemma smallForm_smallOf (c : Char) : SmallForm c (smallOf c) where
  ne_nil := Text.smallOf_ne_nil c
  kept := (Text.gap_smallOf c).1
  same := (Text.gap_smallOf c).2
  caseless := by
    have hone : c = '\u0130' ∨ ∃ d, smallOf c = [d] := by
      by_cases hc : c.toNat < 128
      · exact Or.inr ⟨_, if_pos hc⟩
      · refine or_iff_not_imp_left.mpr fun hdot => ⟨_, Text.smallOf_beyond hc hdot⟩
    rcases hone with rfl | ⟨d, hd⟩
    -- the two characters that a capital I with a dot becomes start with a letter that has a capital
    · have hletter : smallOf '\u0130' = ['i', '\u0307'] ∧ capitalOf 'i' ≠ ['i'] := by decide
      simp [Caseless, InCapitals, hletter]
    · simp [Caseless, InCapitals, hd]

lemma smallForm_sigma : SmallForm 'Σ' ['σ'] ∧ SmallForm 'Σ' ['ς'] := by
  have hgap : gap.contains 'Σ' = false ∧ gap.contains 'σ' = false ∧ gap.contains 'ς' = false := by
    simp only [Text.CharSet.contains_eq_any]
    decide
  have hcase : smallOf 'Σ' = ['σ'] ∧ capitalOf 'σ' ≠ ['σ'] ∧ capitalOf 'ς' ≠ ['ς'] := by
    simp only [smallOf, capitalOf, Text.mapCase_eq, ← Array.find?_toList]
    decide +kernel
  have hletter : ¬Caseless 'Σ' := by simp [Caseless, InCapitals, hcase]
  exact ⟨⟨by simp, by simp [hgap], by simp [hgap], by simp [hcase, hletter]⟩,
    ⟨by simp, by simp [hgap], by simp [hgap], by simp [hcase, hletter]⟩⟩

/-- Small letters are taken character by character. -/
lemma exists_smallForm (before : List Char) (c : Char) (rest : List Char) :
    ∃ form, SmallForm c form ∧ lowerAfter before (c :: rest) = form ++ lowerAfter (c :: before) rest := by
  rw [lowerAfter]
  split
  · rename_i hc
    rw [eq_of_beq hc]
    split
    · exact ⟨_, smallForm_sigma.2, rfl⟩
    · exact ⟨_, smallForm_sigma.1, rfl⟩
  · exact ⟨_, smallForm_smallOf c, rfl⟩

lemma titled_cons (c : Char) (rest : List Char) : titled (c :: rest) = capitalOf c ++ lowerChars rest := by
  simp [titled, upperChars]

lemma titled_cons_eq_self_iff : titled (c :: rest) = c :: rest ↔ capitalOf c = [c] ∧ InSmall rest := by
  rw [titled_cons]
  constructor
  · intro h
    obtain ⟨d, more, hd⟩ := List.exists_cons_of_ne_nil (Text.capitalOf_ne_nil c)
    have hdc : d = c := by
      rw [hd] at h
      exact (List.cons.inj h).1
    have hcapital : capitalOf c = [c] := Text.capitalOf_of_mem_capitalOf (c := c) (by rw [hd, hdc]; simp)
    rw [hcapital] at h
    exact ⟨hcapital, lowerAfter_eq_self_iff.mp (List.cons.inj h).2⟩
  · rintro ⟨hc, hrest⟩
    rw [hc, lowerChars, lowerAfter_eq_self_iff.mpr hrest, List.singleton_append]

lemma titled_titled_iff (w : List Char) : titled (titled w) = titled w ↔ OneCapital w := by
  cases w with
  | nil => simp [titled, OneCapital]
  | cons c rest =>
    obtain ⟨d, more, hd⟩ := List.exists_cons_of_ne_nil (Text.capitalOf_ne_nil c)
    have hcapital : capitalOf d = [d] := Text.capitalOf_of_mem_capitalOf (c := c) (by rw [hd]; simp)
    have hone : OneCapital (c :: rest) ↔ InSmall more := by simp [OneCapital, hd]
    rw [hone, titled_cons, hd, List.cons_append, titled_cons_eq_self_iff, inSmall_append]
    exact ⟨fun h => h.2.1, fun h => ⟨hcapital, h, inSmall_lowerChars rest⟩⟩

end Letters

section Words

variable {c : Char} {w cs rest : List Char} {words : List (List Char)}

/-- A word without blanks, dashes and underscores. -/
structure Solid (w : List Char) : Prop where
  ne_nil : w ≠ []
  no_gap : ∀ c ∈ w, gap.contains c = false

lemma Solid.unbroken (h : Solid w) : Unbroken w :=
  ⟨h.ne_nil, fun c hc => Text.isBlank_of_not_gap (h.no_gap c hc)⟩

lemma isSeparator_of_not_gap (h : gap.contains c = false) : isSeparator c = false := by
  rw [Text.contains_gap, Bool.or_eq_false_iff] at h
  exact h.1

lemma gap_lowerAfter {before : List Char} (h : ∀ c ∈ cs, gap.contains c = false) :
    ∀ d ∈ lowerAfter before cs, gap.contains d = false := by
  induction cs generalizing before with
  | nil => simp [lowerAfter]
  | cons c rest ih =>
    obtain ⟨hc, hrest⟩ := List.forall_mem_cons.mp h
    obtain ⟨form, hform, he⟩ := exists_smallForm before c rest
    rw [he]
    exact List.forall_mem_append.mpr ⟨fun d hd => (hform.same d hd).trans hc, ih hrest⟩

lemma Solid.titled (h : Solid w) : Solid (titled w) := by
  obtain ⟨c, rest, rfl⟩ := List.exists_cons_of_ne_nil h.ne_nil
  obtain ⟨hc, hrest⟩ := List.forall_mem_cons.mp h.no_gap
  rw [titled_cons]
  exact ⟨by simp [Text.capitalOf_ne_nil], List.forall_mem_append.mpr
    ⟨fun d hd => ((Text.gap_capitalOf c).2 d hd).trans hc, gap_lowerAfter hrest⟩⟩

lemma isSeparator_of_mem_spaced (h : c ∈ spaced cs) : isSeparator c = false := by
  have hcapital : ∀ d : Char, isCapital d = true → isSeparator d = false := by
    intro d hd
    rw [isSeparator, Bool.or_eq_false_iff, beq_eq_false_iff_ne, beq_eq_false_iff_ne]
    constructor
    · rintro rfl
      exact absurd hd (by decide)
    · rintro rfl
      exact absurd hd (by decide)
  rw [spaced, List.mem_flatMap] at h
  obtain ⟨d, -, hd⟩ := h
  split at hd
  · rcases List.mem_cons.mp hd with rfl | hd
    · decide
    · rw [List.mem_singleton.mp hd]
      exact hcapital d ‹_›
  · split at hd
    · rw [List.mem_singleton.mp hd]
      decide
    · rw [List.mem_singleton.mp hd]
      exact Bool.not_eq_true _ ▸ ‹_›

lemma solid_of_mem_wordsOf (hsep : ∀ c ∈ cs, isSeparator c = false) (h : w ∈ wordsOf cs) : Solid w := by
  have hw := Text.unbroken_of_mem_wordsOf h
  refine ⟨hw.ne_nil, fun c hc => ?_⟩
  rw [Text.contains_gap, Bool.or_eq_false_iff]
  exact ⟨hsep c (Text.mem_of_mem_wordsOf h hc), hw.not_blank c hc⟩

lemma solid_of_mem_wordsOf_spaced (h : w ∈ wordsOf (spaced cs)) : Solid w :=
  solid_of_mem_wordsOf (fun _ hc => isSeparator_of_mem_spaced hc) h

/-- Spaces are put in, and nothing else is changed. -/
lemma filter_spaced (h : ∀ c ∈ w, gap.contains c = false) : (spaced w).filter (fun c => !isBlank c) = w := by
  induction w with
  | nil => rfl
  | cons c rest ih =>
    obtain ⟨hc, hrest⟩ := List.forall_mem_cons.mp h
    rw [spaced, List.flatMap_cons, List.filter_append, ← spaced, ih hrest]
    simp [isSeparator_of_not_gap hc, Text.isBlank_of_not_gap hc, Text.isBlank_space, apply_ite]

lemma flatten_wordsOf_spaced (h : Solid w) : (wordsOf (spaced w)).flatten = w := by
  rw [Text.flatten_wordsOf, filter_spaced h.no_gap]

lemma spaced_joinWith (words : List (List Char)) :
    spaced (joinWith [' '] words) = joinWith [' '] (words.map spaced) := by
  unfold joinWith
  induction words with
  | nil => rfl
  | cons w rest ih =>
    cases rest with
    | nil => simp
    | cons v more =>
      have hspace : spaced [' '] = [' '] := by decide
      rw [List.intercalate_cons_cons, spaced, List.flatMap_append, List.flatMap_append, ← spaced, ← spaced, ← spaced,
        hspace, ih, List.map_cons, List.map_cons, List.map_cons, List.intercalate_cons_cons]

lemma readableWords_joinWith (words : List (List Char)) :
    readableWords (joinWith [' '] words) =
      joinWith [' '] ((words.flatMap fun w => wordsOf (spaced w)).map titled) := by
  rw [readableWords, spaced_joinWith, Text.wordsOf_joinWith, List.flatMap_map]

lemma not_isCapital_of_smallOf (h : smallOf c = [c]) : isCapital c = false := by
  rw [Bool.eq_false_iff]
  intro hc
  have hascii : c.toNat < 128 :=
    Text.ascii_of_le (p := 'Z') (of_decide_eq_true (Bool.and_eq_true_iff.mp hc).2) (by decide)
  have hchanged : ∀ n < 128, isCapital (Char.ofNat n) = true → (Char.ofNat n).toLower ≠ Char.ofNat n := by
    decide +kernel
  rw [smallOf, if_pos hascii] at h
  exact Text.forall_ascii (P := fun c => isCapital c = true → c.toLower ≠ c) hchanged hascii hc
    (List.cons.inj h).1

/-- A word that has its capital and small letters already is not cut. -/
lemma wordsOf_spaced_of_titled (hw : Solid w) (h : titled w = w) : wordsOf (spaced w) = [w] := by
  obtain ⟨c, rest, rfl⟩ := List.exists_cons_of_ne_nil hw.ne_nil
  obtain ⟨hc, hrest⟩ := List.forall_mem_cons.mp hw.no_gap
  have hsmall := (titled_cons_eq_self_iff.mp h).2
  have hkept : spaced rest = rest := by
    have hsingle : ∀ d ∈ rest, (if isCapital d = true then [' ', d] else if isSeparator d = true then [' '] else [d]) =
        [d] := fun d hd => by
      rw [not_isCapital_of_smallOf (hsmall d hd), isSeparator_of_not_gap (hrest d hd)]
      rfl
    rw [spaced, List.flatMap_congr hsingle, List.flatMap_singleton']
  rw [spaced, List.flatMap_cons, ← spaced, hkept, isSeparator_of_not_gap hc]
  split
  · rw [List.cons_append, Text.wordsOf_cons_of_blank Text.isBlank_space]
    exact hw.unbroken.wordsOf_eq
  · exact hw.unbroken.wordsOf_eq

end Words

section Kept

variable {w cs : List Char} {words : List (List Char)}

lemma length_le_length_flatMap {f : List Char → List (List Char)} (hf : ∀ w ∈ words, f w ≠ []) :
    words.length ≤ (words.flatMap f).length := by
  induction words with
  | nil => simp
  | cons w rest ih =>
    obtain ⟨hw, hrest⟩ := List.forall_mem_cons.mp hf
    have hpos := List.length_pos_of_ne_nil hw
    have hlater := ih hrest
    rw [List.flatMap_cons, List.length_append, List.length_cons]
    omega

/-- Words that are each cut into at least one, and come out as they were, are each cut into one. -/
lemma eq_singleton_of_map_flatMap {f : List Char → List (List Char)} {g : List Char → List Char}
    (hf : ∀ w ∈ words, f w ≠ []) (h : (words.flatMap f).map g = words) :
    ∀ w ∈ words, ∃ v, f w = [v] ∧ g v = w := by
  induction words with
  | nil => simp
  | cons w rest ih =>
    obtain ⟨hw, hrest⟩ := List.forall_mem_cons.mp hf
    obtain ⟨v, more, hv⟩ := List.exists_cons_of_ne_nil hw
    rw [List.flatMap_cons, hv, List.cons_append, List.map_cons, List.map_append, List.cons.injEq] at h
    -- counting the words leaves no room for a second piece
    have hcount := congrArg List.length h.2
    have hlater := length_le_length_flatMap hrest
    rw [List.length_append, List.length_map, List.length_map] at hcount
    obtain rfl : more = [] := List.eq_nil_of_length_eq_zero (by omega)
    exact List.forall_mem_cons.mpr ⟨⟨v, hv, h.1⟩, ih hrest h.2⟩

/-- A text of words is kept if each word has its capital and small letters. -/
lemma readableWords_eq_self_iff (hwords : ∀ w ∈ words, Solid w) :
    readableWords (joinWith [' '] words) = joinWith [' '] words ↔ ∀ w ∈ words, titled w = w := by
  rw [readableWords_joinWith]
  constructor
  · intro h
    have hpieces : ∀ v ∈ (words.flatMap fun w => wordsOf (spaced w)).map titled, Unbroken v := by
      intro v hv
      obtain ⟨piece, hpiece, rfl⟩ := List.mem_map.mp hv
      obtain ⟨w, -, hcut⟩ := List.mem_flatMap.mp hpiece
      exact (solid_of_mem_wordsOf_spaced hcut).titled.unbroken
    have hsame := congrArg wordsOf h
    rw [Text.wordsOf_joinWith_words hpieces, Text.wordsOf_joinWith_words fun w hw => (hwords w hw).unbroken] at hsame
    have hne : ∀ w ∈ words, wordsOf (spaced w) ≠ [] := by
      intro w hw hnone
      have hflat := flatten_wordsOf_spaced (hwords w hw)
      rw [hnone] at hflat
      exact (hwords w hw).ne_nil hflat.symm
    intro w hw
    obtain ⟨v, hv, htitled⟩ := eq_singleton_of_map_flatMap hne hsame w hw
    have hflat := flatten_wordsOf_spaced (hwords w hw)
    rw [hv, List.flatten_singleton] at hflat
    rwa [hflat] at htitled
  · intro h
    rw [List.flatMap_congr fun w hw => wordsOf_spaced_of_titled (hwords w hw) (h w hw), List.flatMap_singleton',
      List.map_congr_left h, List.map_id']

lemma partsBy_eq_singleton (h : '_' ∉ cs) : partsBy (· == '_') cs = [cs] := by
  induction cs with
  | nil => rfl
  | cons c rest ih =>
    obtain ⟨hc, hrest⟩ := List.ne_and_not_mem_of_not_mem_cons h
    rw [partsBy, if_neg (by simpa using hc.symm), ih hrest]

/-- A text in capitals is kept if all letters but the first are small letters, too. -/
lemma readableCapitals_eq_self_iff (hspaced : SpacedOnce cs) (hunder : '_' ∉ cs) :
    readableCapitals cs = cs ↔ InSmall cs.tail := by
  have hone : joinWith [' '] ([cs].map smallTail) = smallTail cs := List.intercalate_singleton
  rw [readableCapitals, partsBy_eq_singleton hunder, hone]
  cases cs with
  | nil => simp [smallTail, trimChars, InSmall]
  | cons c rest =>
    rw [smallTail, List.tail_cons]
    constructor
    · intro h d hd
      have hsub := Text.trimChars_sublist (c :: lowerChars rest)
      rw [h, List.cons_sublist_cons] at hsub
      exact inSmall_lowerChars rest d (hsub.subset hd)
    · intro h
      rw [lowerChars, lowerAfter_eq_self_iff.mpr h, hspaced.trimChars_eq]

lemma readableChars_of_inCapitals (h : InCapitals cs) : readableChars cs = readableCapitals cs := by
  rw [readableChars, if_pos (by simpa using (upperChars_eq_self_iff.mpr h).symm)]

lemma readableChars_of_not_inCapitals (h : ¬InCapitals cs) : readableChars cs = readableWords cs := by
  refine if_neg fun he => h (upperChars_eq_self_iff.mp ?_)
  exact (eq_of_beq he).symm

/-- What a text of words with single spaces and without separators has to fulfil to be its own display form. -/
lemma readableChars_eq_self_iff (hspaced : SpacedOnce cs) (hdash : '-' ∉ cs) (hunder : '_' ∉ cs) :
    readableChars cs = cs ↔
      (InCapitals cs → InSmall cs.tail) ∧ (¬InCapitals cs → ∀ w ∈ wordsOf cs, titled w = w) := by
  by_cases h : InCapitals cs
  · rw [readableChars_of_inCapitals h, readableCapitals_eq_self_iff hspaced hunder]
    simp [h]
  · have hsep : ∀ c ∈ cs, isSeparator c = false := by
      intro c hc
      rw [isSeparator, Bool.or_eq_false_iff, beq_eq_false_iff_ne, beq_eq_false_iff_ne]
      exact ⟨fun he => hdash (he ▸ hc), fun he => hunder (he ▸ hc)⟩
    have hwords := readableWords_eq_self_iff fun w hw => solid_of_mem_wordsOf hsep hw
    rw [Text.spacedOnce_iff.mp hspaced] at hwords
    rw [readableChars_of_not_inCapitals h, hwords]
    simp [h]

end Kept

end SkillAtlas.Naming
