import SkillAtlas.Proofs.Naming.Titles
import SkillAtlas.Proofs.Text.LetterCase

/-!
# Names that are displayed

A display name has no dashes and no underscores, single spaces between its words, and it is its own display form.
A name that is not in capitals is cut at its separators, blanks and capitals, which leaves little to ask of it. A
name in capitals is cut at its underscores alone, and what else it has stays in the display form. In both cases an
ASCII name is spelled as before: blanks, dashes and underscores come and go and letters change their case, but none is
added, lost or moved.
-/

namespace SkillAtlas.Naming

open Text (Ascii BehindBlanks Respelled SpacedOnce Unbroken capitalOf gap isBlank joinWith lowerAfter lowerChars
  partsBy trimChars wordsOf)

section Parts

variable {c : Char} {cs : List Char} {P : Char → Prop}

/-- The text with spaces for its underscores. -/
def blanked (cs : List Char) : List Char :=
  cs.map fun c => if c == '_' then ' ' else c

lemma partsBy_ne_nil (cs : List Char) : partsBy (· == '_') cs ≠ [] := by
  cases cs with
  | nil => simp [partsBy]
  | cons c rest =>
    rw [partsBy]
    split
    · simp
    · split <;> simp

lemma exists_partsBy_cons (hc : c ≠ '_') (rest : List Char) : ∃ part parts,
    partsBy (· == '_') rest = part :: parts ∧ partsBy (· == '_') (c :: rest) = (c :: part) :: parts := by
  obtain ⟨part, parts, he⟩ := List.exists_cons_of_ne_nil (partsBy_ne_nil rest)
  exact ⟨part, parts, he, by rw [partsBy, if_neg (by simpa using hc), he]⟩

lemma partsBy_cons_mark (rest : List Char) : partsBy (· == '_') ('_' :: rest) = [] :: partsBy (· == '_') rest :=
  if_pos rfl

lemma joinWith_partsBy (cs : List Char) : joinWith [' '] (partsBy (· == '_') cs) = blanked cs := by
  induction cs with
  | nil => rfl
  | cons c rest ih =>
    by_cases hc : c = '_'
    · subst hc
      obtain ⟨part, parts, he⟩ := List.exists_cons_of_ne_nil (partsBy_ne_nil rest)
      rw [partsBy_cons_mark, he, joinWith, List.intercalate_cons_cons, ← joinWith, ← he, ih]
      rfl
    · obtain ⟨part, parts, he, hcons⟩ := exists_partsBy_cons hc rest
      have hmap : blanked (c :: rest) = c :: blanked rest := by simp [blanked, hc]
      rw [hcons, hmap, ← ih, he]
      cases parts <;> simp [joinWith, List.intercalate_cons_cons]

/-- Cutting leaves out the underscores alone. -/
lemma flatten_partsBy (cs : List Char) : (partsBy (· == '_') cs).flatten = cs.filter (· != '_') := by
  induction cs with
  | nil => rfl
  | cons c rest ih =>
    by_cases hc : c = '_'
    · subst hc
      rw [partsBy_cons_mark, List.flatten_cons, List.nil_append, ih]
      rfl
    · obtain ⟨part, parts, he, hcons⟩ := exists_partsBy_cons hc rest
      rw [hcons, List.filter_cons_of_pos (by simpa using hc), ← ih, he, List.flatten_cons, List.flatten_cons,
        List.cons_append]

lemma exists_part_iff : (∃ p ∈ partsBy (· == '_') cs, c ∈ p) ↔ c ∈ cs ∧ c ≠ '_' := by
  rw [← List.mem_flatten, flatten_partsBy, List.mem_filter, bne_iff_ne]

lemma isBlank_underscore : isBlank '_' = false := by
  rw [isBlank, Text.CharSet.contains_eq_any]
  decide

/-- An underscore is no blank, so nothing is asked of what the parts behind underscores start with. -/
lemma behindBlanks_iff_parts (hP : P '_') :
    BehindBlanks P cs ↔ ∀ p ∈ partsBy (· == '_') cs, BehindBlanks P p := by
  induction cs with
  | nil => simp [partsBy, BehindBlanks]
  | cons c rest ih =>
    by_cases hc : c = '_'
    · subst hc
      have hnil : BehindBlanks P [] := List.isChain_nil
      rw [Text.behindBlanks_cons, ih, partsBy_cons_mark, List.forall_mem_cons, isBlank_underscore]
      simp [hnil]
    · obtain ⟨part, parts, he, hcons⟩ := exists_partsBy_cons hc rest
      have hnext : (∀ d ∈ rest.head?, P d) ↔ ∀ d ∈ part.head?, P d := by
        cases rest with
        | nil =>
          obtain ⟨rfl, -⟩ := List.cons.inj he
          rfl
        | cons e more =>
          by_cases hmarked : e = '_'
          · subst hmarked
            rw [partsBy_cons_mark] at he
            obtain ⟨rfl, -⟩ := List.cons.inj he
            simp [hP]
          · obtain ⟨later, others, -, hmore⟩ := exists_partsBy_cons hmarked more
            rw [hmore] at he
            obtain ⟨rfl, -⟩ := List.cons.inj he
            simp
      rw [Text.behindBlanks_cons, ih, hcons, he, List.forall_mem_cons, List.forall_mem_cons,
        Text.behindBlanks_cons, hnext, and_assoc]

end Parts

section Capitals

variable {c m : Char} {p w cs before : List Char}

/-- A gap is the small form of itself alone. -/
lemma SmallForm.mem_iff {form : List Char} (h : SmallForm c form) (hm : gap.contains m = true) :
    m ∈ form ↔ m = c := by
  constructor
  · intro hmem
    rw [h.kept ((h.same m hmem).symm.trans hm)] at hmem
    exact List.mem_singleton.mp hmem
  · rintro rfl
    simp [h.kept hm]

lemma mem_lowerAfter_of_gap (hm : gap.contains m = true) : m ∈ lowerAfter before cs ↔ m ∈ cs := by
  induction cs generalizing before with
  | nil => simp [lowerAfter]
  | cons c rest ih =>
    obtain ⟨form, hform, he⟩ := exists_smallForm before c rest
    rw [he, List.mem_append, List.mem_cons, hform.mem_iff hm, ih]

lemma mem_smallTail_of_gap (hm : gap.contains m = true) : m ∈ smallTail p ↔ m ∈ p := by
  cases p with
  | nil => rfl
  | cons c rest => rw [smallTail, List.mem_cons, List.mem_cons, lowerChars, mem_lowerAfter_of_gap hm]

lemma SmallForm.isBlank_eq {form : List Char} (h : SmallForm c form) (hm : m ∈ form) : isBlank m = isBlank c := by
  by_cases hc : gap.contains c = true
  · rw [h.kept hc] at hm
    rw [List.mem_singleton.mp hm]
  · rw [Bool.not_eq_true] at hc
    rw [Text.isBlank_of_not_gap hc, Text.isBlank_of_not_gap ((h.same m hm).trans hc)]

lemma respelled_lowerAfter (before cs : List Char) : Respelled cs (lowerAfter before cs) := by
  induction cs generalizing before with
  | nil => exact .nil
  | cons c rest ih =>
    obtain ⟨form, hform, he⟩ := exists_smallForm before c rest
    rw [he]
    by_cases hc : isBlank c = true
    · rw [hform.kept (Text.gap_of_isBlank hc)]
      exact .blank hc (ih _)
    · rw [Bool.not_eq_true] at hc
      exact .spelled hc ⟨hform.ne_nil, fun d hd => (hform.isBlank_eq hd).trans hc⟩ (ih _)

lemma respelled_smallTail (p : List Char) : Respelled p (smallTail p) := by
  cases p with
  | nil => exact .nil
  | cons c rest =>
    rw [smallTail]
    by_cases hc : isBlank c = true
    · exact .blank hc (respelled_lowerAfter [] rest)
    · have hself : Unbroken [c] := ⟨by simp, by simpa using hc⟩
      exact Respelled.spelled (by simpa using hc) hself (respelled_lowerAfter [] rest)

lemma head_lowerAfter_iff :
    (∀ d ∈ (lowerAfter before cs).head?, capitalOf d = [d]) ↔ ∀ c ∈ cs.head?, Caseless c := by
  cases cs with
  | nil => simp [lowerAfter]
  | cons c rest =>
    obtain ⟨form, hform, he⟩ := exists_smallForm before c rest
    have hhead : (form ++ lowerAfter (c :: before) rest).head? = form.head? :=
      List.head?_append_of_ne_nil _ hform.ne_nil
    rw [he, hhead, hform.caseless]
    simp

lemma behindBlanks_lowerAfter_iff :
    BehindBlanks (fun d => capitalOf d = [d]) (lowerAfter before cs) ↔ BehindBlanks Caseless cs := by
  induction cs generalizing before with
  | nil => exact iff_of_true List.isChain_nil List.isChain_nil
  | cons c rest ih =>
    obtain ⟨form, hform, he⟩ := exists_smallForm before c rest
    rw [he, Text.behindBlanks_cons]
    by_cases hc : isBlank c = true
    · rw [hform.kept (Text.gap_of_isBlank hc), List.singleton_append, Text.behindBlanks_cons,
        head_lowerAfter_iff, ih]
    · rw [Bool.not_eq_true] at hc
      rw [Text.behindBlanks_append fun d hd => (hform.isBlank_eq hd).trans hc, ih]
      simp [hc]

lemma behindBlanks_smallTail_iff :
    BehindBlanks (fun d => capitalOf d = [d]) (smallTail p) ↔ BehindBlanks Caseless p := by
  cases p with
  | nil => exact iff_of_true List.isChain_nil List.isChain_nil
  | cons c rest =>
    rw [smallTail, Text.behindBlanks_cons, Text.behindBlanks_cons, lowerChars, head_lowerAfter_iff,
      behindBlanks_lowerAfter_iff]

lemma caseless_underscore : Caseless '_' := by
  decide

lemma wordsOf_readableCapitals (cs : List Char) :
    wordsOf (readableCapitals cs) = (partsBy (· == '_') cs).flatMap fun p => wordsOf (smallTail p) := by
  rw [readableCapitals, Text.wordsOf_trimChars, Text.wordsOf_joinWith, List.flatMap_map]

/-- The words start with capitals if no letter with case stands behind a blank: the parts start with capitals as
the name is in capitals, and what stands behind a blank has become small. -/
lemma forall_head_readableCapitals_iff (hcs : InCapitals cs) :
    (∀ w ∈ wordsOf (readableCapitals cs), ∀ d ∈ w.head?, capitalOf d = [d]) ↔ BehindBlanks Caseless cs := by
  have hblank : ∀ b, isBlank b = true → capitalOf b = [b] := fun b hb =>
    (Text.gap_capitalOf b).1 (Text.gap_of_isBlank hb)
  have hpart : ∀ p ∈ partsBy (· == '_') cs, ((∀ w ∈ wordsOf (smallTail p), ∀ d ∈ w.head?, capitalOf d = [d]) ↔
      BehindBlanks Caseless p) := by
    intro p hp
    have hstart : ∀ d ∈ (smallTail p).head?, capitalOf d = [d] := by
      cases p with
      | nil => simp [smallTail]
      | cons c rest => simpa [smallTail] using hcs c (exists_part_iff.mp ⟨_, hp, List.mem_cons_self⟩).1
    rw [Text.forall_head_wordsOf_iff hblank, behindBlanks_smallTail_iff]
    exact and_iff_right hstart
  rw [wordsOf_readableCapitals, List.forall_mem_flatMap, behindBlanks_iff_parts caseless_underscore]
  exact forall₂_congr hpart

/-- Behind their first letters the words are in small letters. -/
lemma titled_eq_self_iff_of_mem (hw : w ∈ wordsOf (readableCapitals cs)) :
    titled w = w ↔ ∀ d ∈ w.head?, capitalOf d = [d] := by
  rw [wordsOf_readableCapitals, List.mem_flatMap] at hw
  obtain ⟨p, -, hw⟩ := hw
  obtain ⟨d, more, rfl⟩ := List.exists_cons_of_ne_nil (Text.unbroken_of_mem_wordsOf hw).ne_nil
  have hsmall : InSmall more := by
    cases p with
    | nil => simp [smallTail, wordsOf, Text.wordsFrom] at hw
    | cons c rest => exact fun e he => inSmall_lowerChars rest e (Text.mem_of_mem_tail_word hw he)
  rw [titled_cons_eq_self_iff]
  simp [hsmall]

/-- The display form of a name in capitals has the dashes of the name, and its spaces are those of the name and
its underscores. -/
lemma readableCapitals_form (cs : List Char) :
    '_' ∉ readableCapitals cs ∧ trimChars (readableCapitals cs) = readableCapitals cs ∧
      ('-' ∈ readableCapitals cs ↔ '-' ∈ cs) ∧
        (SpacedOnce (readableCapitals cs) ↔ SpacedOnce (trimChars (blanked cs))) := by
  have hmark : ∀ m, gap.contains m = true → isBlank m = false →
      (m ∈ readableCapitals cs ↔ m ∈ cs ∧ m ≠ '_') := by
    intro m hm hblank
    have hspace : m ≠ ' ' := by
      rintro rfl
      exact Bool.false_ne_true (hblank.symm.trans Text.isBlank_space)
    rw [readableCapitals, Text.mem_trimChars hblank, Text.mem_joinWith hspace, ← exists_part_iff]
    simp [mem_smallTail_of_gap hm]
  have hdash : isBlank '-' = false := by
    rw [isBlank, Text.CharSet.contains_eq_any]
    decide
  refine ⟨?_, Text.trimChars_trimChars _, ?_, ?_⟩
  · rw [hmark '_' (by simp [Text.contains_gap]) isBlank_underscore]
    simp
  · rw [hmark '-' (by simp [Text.contains_gap]) hdash]
    simp
  · have hparts : List.Forall₂ Respelled (partsBy (· == '_') cs) ((partsBy (· == '_') cs).map smallTail) :=
      List.forall₂_map_right_iff.mpr (List.forall₂_same.mpr fun p _ => respelled_smallTail p)
    have hwhole := (Respelled.joinWith hparts).trimChars
    rw [joinWith_partsBy] at hwhole
    exact hwhole.spacedOnce_iff.symm

lemma readableChars_readableCapitals_iff (hcs : InCapitals cs) (hdash : '-' ∉ cs)
    (hspaced : SpacedOnce (readableCapitals cs)) :
    readableChars (readableCapitals cs) = readableCapitals cs ↔ BehindBlanks Caseless cs ∧
      (InCapitals (readableCapitals cs) → InSmall (readableCapitals cs).tail) := by
  obtain ⟨hunder, -, hdashes, -⟩ := readableCapitals_form cs
  have hword : ∀ w ∈ wordsOf (readableCapitals cs), (titled w = w ↔ ∀ d ∈ w.head?, capitalOf d = [d]) :=
    fun w hw => titled_eq_self_iff_of_mem hw
  have hwords : (∀ w ∈ wordsOf (readableCapitals cs), titled w = w) ↔ BehindBlanks Caseless cs :=
    (forall₂_congr hword).trans (forall_head_readableCapitals_iff hcs)
  rw [readableChars_eq_self_iff hspaced (fun h => hdash (hdashes.mp h)) hunder, hwords]
  constructor
  · rintro ⟨hsmall, hrest⟩
    refine ⟨?_, hsmall⟩
    by_cases h : InCapitals (readableCapitals cs)
    · exact (forall_head_readableCapitals_iff hcs).mp fun w hw d hd =>
        h d (Text.mem_of_mem_wordsOf hw (List.mem_of_mem_head? hd))
    · exact hrest h
  · rintro ⟨hcaseless, hsmall⟩
    exact ⟨hsmall, fun _ => hcaseless⟩

end Capitals

section Titles

variable {cs : List Char}

lemma wordsOf_readableWords (cs : List Char) : wordsOf (readableWords cs) = (wordsOf (spaced cs)).map titled := by
  refine Text.wordsOf_joinWith_words fun w hw => ?_
  obtain ⟨v, hv, rfl⟩ := List.mem_map.mp hw
  exact (solid_of_mem_wordsOf_spaced hv).titled.unbroken

/-- The display form of a name that is not in capitals has no separators and single spaces. -/
lemma readableWords_form (cs : List Char) :
    SpacedOnce (readableWords cs) ∧ '-' ∉ readableWords cs ∧ '_' ∉ readableWords cs := by
  have hgap : ∀ m, m ≠ ' ' → gap.contains m = true → m ∉ readableWords cs := by
    intro m hspace hm hmem
    obtain ⟨w, hw, hmw⟩ := (Text.mem_joinWith hspace).mp hmem
    obtain ⟨v, hv, rfl⟩ := List.mem_map.mp hw
    exact Bool.false_ne_true (((solid_of_mem_wordsOf_spaced hv).titled.no_gap m hmw).symm.trans hm)
  refine ⟨Text.spacedOnce_iff.mpr ?_, hgap '-' (by decide) (by simp [Text.contains_gap]),
    hgap '_' (by decide) (by simp [Text.contains_gap])⟩
  rw [wordsOf_readableWords]
  rfl

lemma readableChars_readableWords_iff (cs : List Char) :
    readableChars (readableWords cs) = readableWords cs ↔ (∀ w ∈ wordsOf (spaced cs), OneCapital w) ∧
      (InCapitals (readableWords cs) → InSmall (readableWords cs).tail) := by
  obtain ⟨hspaced, hdash, hunder⟩ := readableWords_form cs
  rw [readableChars_eq_self_iff hspaced hdash hunder, wordsOf_readableWords, List.forall_mem_map,
    forall₂_congr fun w _ => titled_titled_iff w]
  constructor
  · rintro ⟨hsmall, hrest⟩
    refine ⟨fun w hw => ?_, hsmall⟩
    by_cases h : InCapitals (readableWords cs)
    -- what a capital form goes on with stands behind the first letter of the name
    · intro c hc d hd
      obtain ⟨more, rfl⟩ := List.head?_eq_some_iff.mp hc
      have hword : titled (c :: more) ∈ wordsOf (readableWords cs) :=
        wordsOf_readableWords cs ▸ List.mem_map_of_mem hw
      have htail : d ∈ (titled (c :: more)).tail := by
        rw [titled_cons, List.tail_append_of_ne_nil (Text.capitalOf_ne_nil c)]
        exact List.mem_append_left _ hd
      cases hshown : readableWords cs with
      | nil => simp [hshown, wordsOf, Text.wordsFrom] at hword
      | cons e rest =>
        rw [hshown] at hword hsmall h
        exact hsmall h d (Text.mem_of_mem_tail_word hword htail)
    · exact hrest h w hw
  · rintro ⟨hone, hsmall⟩
    exact ⟨hsmall, fun _ => hone⟩

end Titles

/-- A name in capitals is cut into words as other names are: it has no dash, its underscores and blanks stand
alone, and no letter with case stands behind a blank. -/
structure CutAsWords (cs : List Char) : Prop where
  no_dash : '-' ∉ cs
  spaced_once : SpacedOnce (trimChars (blanked cs))
  caseless : BehindBlanks Caseless cs

/-- A display name: no dash and no underscore, single spaces between its words and none at its ends, and it is its
own display form. -/
structure IsDisplayName (s : String) : Prop where
  no_dash : '-' ∉ s.toList
  no_underscore : '_' ∉ s.toList
  spaced_once : SpacedOnce s.toList
  kept : readable s = s

/-- A display form never has an underscore, nor a blank at its ends. Dashes and wrong spaces in it are those of a
name in capitals, which is cut at its underscores alone. It is a display name if such a name is cut as other names
are, if the words of another name start with letters that have one capital, and if the form is not in capitals
itself, as one of single letters is: that would be taken for one word. -/
theorem readable_isDisplayName_iff (name : String) :
    let cs := name.toList
    let shown := (readable name).toList
    '_' ∉ shown ∧ trimChars shown = shown ∧ ('-' ∈ shown ↔ InCapitals cs ∧ '-' ∈ cs) ∧
      (SpacedOnce shown ↔ (InCapitals cs → SpacedOnce (trimChars (blanked cs)))) ∧
        (IsDisplayName (readable name) ↔ (InCapitals cs → CutAsWords cs) ∧
          (¬InCapitals cs → ∀ w ∈ wordsOf (spaced cs), OneCapital w) ∧ (InCapitals shown → InSmall shown.tail)) := by
  intro cs shown
  have hshown : shown = readableChars cs := String.toList_ofList
  have hkept : readable (readable name) = readable name ↔ readableChars shown = shown := by
    rw [hshown, readable, readable, String.ofList_inj, String.toList_ofList]
  have hdisplay : IsDisplayName (readable name) ↔
      '-' ∉ shown ∧ '_' ∉ shown ∧ SpacedOnce shown ∧ readableChars shown = shown :=
    ⟨fun h => ⟨h.no_dash, h.no_underscore, h.spaced_once, hkept.mp h.kept⟩,
      fun ⟨hdash, hunder, hspaced, hown⟩ => ⟨hdash, hunder, hspaced, hkept.mpr hown⟩⟩
  rw [hdisplay, hshown]
  by_cases hcs : InCapitals cs
  · obtain ⟨hunder, htrim, hdash, hspaced⟩ := readableCapitals_form cs
    rw [readableChars_of_inCapitals hcs]
    refine ⟨hunder, htrim, by simp [hdash, hcs], by simp [hspaced, hcs], ?_⟩
    simp only [hcs, not_true_eq_false, true_imp_iff, false_imp_iff, true_and, hdash, hspaced, hunder,
      not_false_eq_true]
    constructor
    · rintro ⟨hno, hone, hown⟩
      obtain ⟨hcaseless, hsmall⟩ := (readableChars_readableCapitals_iff hcs hno (hspaced.mpr hone)).mp hown
      exact ⟨⟨hno, hone, hcaseless⟩, hsmall⟩
    · rintro ⟨hcut, hsmall⟩
      exact ⟨hcut.no_dash, hcut.spaced_once, (readableChars_readableCapitals_iff hcs hcut.no_dash
        (hspaced.mpr hcut.spaced_once)).mpr ⟨hcut.caseless, hsmall⟩⟩
  · obtain ⟨hspaced, hdash, hunder⟩ := readableWords_form cs
    rw [readableChars_of_not_inCapitals hcs]
    refine ⟨hunder, hspaced.trimChars_eq, by simp [hdash, hcs], by simp [hspaced, hcs], ?_⟩
    simp only [hcs, not_false_eq_true, true_imp_iff, false_imp_iff, true_and, hspaced, hdash, hunder]
    exact readableChars_readableWords_iff cs

/-- A dash in capitals is kept, and two words of one letter become one word the second time. -/
theorem readable_not_isDisplayName :
    ¬IsDisplayName (readable "FIRE-BALL") ∧ ¬IsDisplayName (readable "a-b") := by
  have hfire : readable "FIRE-BALL" = "Fire-ball" := by decide +kernel
  have hletters : readable "a-b" = "A B" ∧ readable "A B" = "A b" := by decide +kernel
  rw [hfire, hletters.1]
  exact ⟨fun h => h.no_dash (by decide), fun h => absurd (hletters.2.symm.trans h.kept) (by decide)⟩

example : readable "ZOMBIE_BOMBER" = "Zombie Bomber" ∧ readable "fireBall-cast" = "Fire Ball Cast" := by
  decide +kernel

/-- What a text is spelled with besides blanks, dashes and underscores. -/
def spelling (cs : List Char) : List Char :=
  cs.filter fun c => !gap.contains c

section Spelling

variable {cs : List Char}

lemma spelling_append (as bs : List Char) : spelling (as ++ bs) = spelling as ++ spelling bs :=
  List.filter_append as bs

lemma spelling_of_blanks (h : ∀ c ∈ cs, isBlank c = true) : spelling cs = [] :=
  List.filter_eq_nil_iff.mpr fun c hc => by simp [Text.gap_of_isBlank (h c hc)]

lemma spelling_filter {keep : Char → Bool} (h : ∀ c, keep c = false → gap.contains c = true) (cs : List Char) :
    spelling (cs.filter keep) = spelling cs := by
  rw [spelling, spelling, List.filter_filter]
  refine List.filter_congr fun c _ => ?_
  cases hkeep : keep c with
  | true => exact Bool.and_true _
  | false => simp [h c hkeep]

lemma spelling_trimChars (cs : List Char) : spelling (trimChars cs) = spelling cs := by
  obtain ⟨front, back, he, hfront, hback⟩ := Text.exists_blanks cs
  conv_rhs => rw [he, spelling_append, spelling_append, spelling_of_blanks hfront, spelling_of_blanks hback]
  rw [List.nil_append, List.append_nil]

lemma spelling_joinWith (parts : List (List Char)) : spelling (joinWith [' '] parts) = spelling parts.flatten := by
  have hspace : spelling [' '] = [] := spelling_of_blanks (by simp [Text.isBlank_space])
  unfold joinWith
  induction parts with
  | nil => rfl
  | cons p rest ih =>
    cases rest with
    | nil => rw [List.intercalate_singleton, List.flatten_singleton]
    | cons q more =>
      rw [List.intercalate_cons_cons, spelling_append, spelling_append, hspace, List.append_nil, ih,
        ← spelling_append]
      rfl

lemma spelling_spaced (cs : List Char) : spelling (spaced cs) = spelling cs := by
  have hspace : gap.contains ' ' = true := Text.gap_of_isBlank Text.isBlank_space
  induction cs with
  | nil => rfl
  | cons c rest ih =>
    have hc : spelling (if isCapital c then [' ', c] else if isSeparator c then [' '] else [c]) = spelling [c] := by
      have hgap : gap.contains c = (isSeparator c || isBlank c) := Text.contains_gap c
      by_cases hsep : isSeparator c = true
      · simp [spelling, hgap, hsep, hspace, apply_ite]
      · simp [spelling, hsep, hspace, apply_ite]
    rw [spaced, List.flatMap_cons, spelling_append, hc, ← spaced, ih, ← spelling_append, List.singleton_append]

end Spelling

section SmallLetters

variable {p w cs : List Char}

lemma gap_small (c : Char) : gap.contains c.toLower = gap.contains c := by
  rw [Text.contains_gap, Text.contains_gap, Text.toLower_beq (by decide), Text.toLower_beq (by decide),
    Text.isBlank_small]

lemma spelling_small (cs : List Char) : spelling (cs.map Char.toLower) = (spelling cs).map Char.toLower := by
  rw [spelling, List.filter_map, Function.comp_def]
  simp only [gap_small, spelling]

lemma small_lowerChars (h : Ascii cs) : (lowerChars cs).map Char.toLower = cs.map Char.toLower := by
  rw [Text.lowerChars_ascii h, List.map_map]
  exact List.map_congr_left fun c hc => Text.toLower_toLower (h c hc)

lemma small_smallTail (h : Ascii p) : (smallTail p).map Char.toLower = p.map Char.toLower := by
  cases p with
  | nil => rfl
  | cons c rest => rw [smallTail, List.map_cons, small_lowerChars h.of_cons.2, List.map_cons]

lemma small_titled (h : Ascii w) : (titled w).map Char.toLower = w.map Char.toLower := by
  cases w with
  | nil => rfl
  | cons c rest =>
    obtain ⟨hc, hrest⟩ := h.of_cons
    have hback : c.toUpper.toLower = c.toLower :=
      Text.forall_ascii (P := fun c => c.toUpper.toLower = c.toLower) (by decide +kernel) hc
    rw [titled_cons, Text.capitalOf_ascii hc, List.singleton_append, List.map_cons, hback, small_lowerChars hrest,
      List.map_cons]

/-- Parts of a name are joined with their spelling, whatever capitals they were given. -/
lemma small_spelling_joinWith {form : List Char → List Char} {parts : List (List Char)}
    (h : ∀ p ∈ parts, (form p).map Char.toLower = p.map Char.toLower) :
    (spelling (joinWith [' '] (parts.map form))).map Char.toLower = (spelling parts.flatten).map Char.toLower := by
  have hsmall : (parts.map form).flatten.map Char.toLower = parts.flatten.map Char.toLower := by
    rw [List.map_flatten, List.map_flatten, List.map_map]
    exact congrArg List.flatten (List.map_congr_left h)
  rw [spelling_joinWith, ← spelling_small, hsmall, spelling_small]

lemma small_spelling_readableCapitals (h : Ascii cs) :
    (spelling (readableCapitals cs)).map Char.toLower = (spelling cs).map Char.toLower := by
  have hparts : ∀ p ∈ partsBy (· == '_') cs, (smallTail p).map Char.toLower = p.map Char.toLower :=
    fun p hp => small_smallTail fun c hc => h c (exists_part_iff.mp ⟨p, hp, hc⟩).1
  have hmark : ∀ c : Char, (c != '_') = false → gap.contains c = true := fun c hc => by
    simp [Text.contains_gap, bne_eq_false_iff_eq.mp hc]
  rw [readableCapitals, spelling_trimChars, small_spelling_joinWith hparts, flatten_partsBy, spelling_filter hmark]

lemma ascii_spaced (h : Ascii cs) : Ascii (spaced cs) := by
  refine List.forall_mem_flatMap.mpr fun c hc => ?_
  have hascii := h c hc
  split
  · simp [hascii]
  · split <;> simp [hascii]

lemma small_spelling_readableWords (h : Ascii cs) :
    (spelling (readableWords cs)).map Char.toLower = (spelling cs).map Char.toLower := by
  have hwords : ∀ w ∈ wordsOf (spaced cs), (titled w).map Char.toLower = w.map Char.toLower :=
    fun w hw => small_titled fun c hc => ascii_spaced h c (Text.mem_of_mem_wordsOf hw hc)
  have hblank : ∀ c : Char, (!isBlank c) = false → gap.contains c = true := fun c hc =>
    Text.gap_of_isBlank (by simpa using hc)
  rw [readableWords, small_spelling_joinWith hwords, Text.flatten_wordsOf, spelling_filter hblank, spelling_spaced]

end SmallLetters

/-- The display form of an ASCII name has the letters and digits of the name, in their order and no others. Beyond
ASCII this is not so: the capital of a letter can be two letters. -/
theorem readable_keeps_spelling (name : String) (h : Ascii name.toList) :
    lowerChars (spelling (readable name).toList) = lowerChars (spelling name.toList) := by
  have hsmall : (spelling (readableChars name.toList)).map Char.toLower =
      (spelling name.toList).map Char.toLower := by
    by_cases hcapitals : InCapitals name.toList
    · rw [readableChars_of_inCapitals hcapitals, small_spelling_readableCapitals h]
    · rw [readableChars_of_not_inCapitals hcapitals, small_spelling_readableWords h]
  -- small letters do not depend on the case of ASCII letters
  rw [readable, String.toList_ofList, ← Text.lowerChars_small, hsmall, Text.lowerChars_small]

theorem readable_keeps_spelling_fireBall :
    let name := "-fireBall\t2_HIT "
    Ascii name.toList ∧ readable name = "Fire Ball 2 H I T" ∧
      lowerChars (spelling (readable name).toList) = lowerChars (spelling name.toList) ∧
      lowerChars (spelling name.toList) = "fireball2hit".toList := by
  intro name
  have hascii : Ascii name.toList := by decide
  exact ⟨hascii, by decide +kernel, readable_keeps_spelling name hascii, by decide +kernel⟩

end SkillAtlas.Naming
