import Mathlib.Data.List.TakeWhile
import SkillAtlas.Text.Basic
import SkillAtlas.Text.CaseMap
import SkillAtlas.Text.Casing
import SkillAtlas.Text.Word

/-!
# ASCII text

On ASCII text a pattern of small letters matches exactly the texts whose small letters it is, and words,
blanks and digits are those of ASCII.
-/

namespace SkillAtlas.Text

/-- All characters are ASCII. -/
def Ascii (cs : List Char) : Prop :=
  ∀ c ∈ cs, c.toNat < 128

instance (cs : List Char) : Decidable (Ascii cs) :=
  decidable_of_iff (cs.all (fun c => decide (c.toNat < 128)) = true) (by simp [Ascii])

/-- All characters are small letters of ASCII. -/
def SmallLetters (cs : List Char) : Prop :=
  ∀ c ∈ cs, c.isLower = true

instance (cs : List Char) : Decidable (SmallLetters cs) :=
  decidable_of_iff (cs.all Char.isLower = true) List.all_eq_true

lemma forall_ascii {P : Char → Prop} (h : ∀ n < 128, P (Char.ofNat n)) {c : Char} (hc : c.toNat < 128) :
    P c := by
  have hs := h c.toNat hc
  rwa [Char.ofNat_toNat] at hs

section Characters

variable {c p : Char}

lemma smallCode_ascii (hc : c.toNat < 128) : smallCode c = c.toLower.toNat := by
  simp [smallCode, smallOf, hc]

/-- Two ASCII characters of one family are the same. -/
lemma eq_of_sameFamily {m n : Nat} (hm : m < 128) (hn : n < 128) (h : sameFamily m n = true) : m = n := by
  simp [sameFamily, letterFamilies] at h
  omega

/-- A small letter has case and is part of a word, and a character behaves as its small letter does, which is the
character itself or a small letter. -/
def Regular (c : Char) : Prop :=
  (c.isLower = true → hasCase c = true ∧ c.toLower = c ∧ isWord c = true) ∧
    (hasCase c = false → c.toLower = c) ∧ c.toLower.toNat < 128 ∧ isWord c.toLower = isWord c ∧
    hasCase c.toLower = hasCase c ∧ smallCode c.toLower = smallCode c ∧
    (c.toLower = c ∨ c.toLower.isLower = true)

instance (c : Char) : Decidable (Regular c) :=
  inferInstanceAs (Decidable (_ ∧ _))

lemma regular_of_ascii (hc : c.toNat < 128) : Regular c :=
  forall_ascii (by decide +kernel) hc

lemma toLower_ascii (hc : c.toNat < 128) : c.toLower.toNat < 128 :=
  (regular_of_ascii hc).2.2.1

lemma isWord_toLower (hc : c.toNat < 128) : isWord c.toLower = isWord c :=
  (regular_of_ascii hc).2.2.2.1

lemma toLower_eq_or_isLower (hc : c.toNat < 128) : c.toLower = c ∨ c.toLower.isLower = true :=
  (regular_of_ascii hc).2.2.2.2.2.2

lemma ascii_of_le (h : c ≤ p) (hp : p.toNat < 128) : c.toNat < 128 :=
  Nat.lt_of_le_of_lt (UInt32.le_iff_toNat_le.mp h) hp

lemma ascii_of_isLower (hp : p.isLower = true) : p.toNat < 128 := by
  have hle : p ≤ 'z' := of_decide_eq_true (Bool.and_eq_true_iff.mp hp).2
  exact ascii_of_le hle (by decide)

lemma hasCase_of_isLower (hp : p.isLower = true) : hasCase p = true :=
  ((regular_of_ascii (ascii_of_isLower hp)).1 hp).1

lemma toLower_of_isLower (hp : p.isLower = true) : p.toLower = p :=
  ((regular_of_ascii (ascii_of_isLower hp)).1 hp).2.1

lemma toLower_toLower (hc : c.toNat < 128) : c.toLower.toLower = c.toLower := by
  rcases toLower_eq_or_isLower hc with hself | hlower
  · rw [hself, hself]
  · exact toLower_of_isLower hlower

lemma isWord_of_isLower (hp : p.isLower = true) : isWord p = true :=
  ((regular_of_ascii (ascii_of_isLower hp)).1 hp).2.2

lemma toLower_of_not_ascii {c : Char} (hc : ¬c.toNat < 128) : c.toLower = c := by
  have hle : ¬c.val ≤ 'Z'.val := fun h => hc (ascii_of_le (p := 'Z') h (by decide))
  exact dif_neg fun h => hle h.2

/-- A character that is no letter of ASCII is the small letter of no other one. -/
lemma toLower_eq_iff (hm : p.isAlpha = false) (c : Char) : c.toLower = p ↔ c = p := by
  obtain ⟨hupper, hlower⟩ : p.isUpper = false ∧ p.isLower = false := Bool.or_eq_false_iff.mp hm
  have hself : p.toLower = p := dif_neg (of_decide_eq_false hupper)
  by_cases hc : c.toNat < 128
  · rcases toLower_eq_or_isLower hc with he | hsmall
    · rw [he]
    · constructor
      · rintro rfl
        exact absurd (hsmall.symm.trans hlower) (by decide)
      · rintro rfl
        exact hself
  · rw [toLower_of_not_ascii hc]

/-- A small letter matches the ASCII letters whose small form it is. -/
lemma alike_iff (hp : p.isLower = true) (hc : c.toNat < 128) : alike p c = true ↔ c.toLower = p := by
  have hpa := ascii_of_isLower hp
  have hcodes : smallCode p = p.toNat ∧ smallCode c = c.toLower.toNat :=
    ⟨by rw [smallCode_ascii hpa, toLower_of_isLower hp], smallCode_ascii hc⟩
  rw [alike, if_pos (hasCase_of_isLower hp), hcodes.1, hcodes.2, Bool.or_eq_true, beq_iff_eq]
  constructor
  · rintro (he | hf)
    · exact (Char.toNat_inj.mp he).symm
    · exact (Char.toNat_inj.mp (eq_of_sameFamily hpa (toLower_ascii hc) hf)).symm
  · rintro rfl
    exact Or.inl rfl

/-- ASCII characters that match have one small form. -/
lemma toLower_eq_of_alike (hp : p.toNat < 128) (hc : c.toNat < 128) (h : alike p c = true) :
    c.toLower = p.toLower := by
  rw [alike] at h
  split at h
  · rw [smallCode_ascii hp, smallCode_ascii hc, Bool.or_eq_true, beq_iff_eq] at h
    have hcode : p.toLower.toNat = c.toLower.toNat :=
      h.elim id (eq_of_sameFamily (toLower_ascii hp) (toLower_ascii hc))
    exact (Char.toNat_inj.mp hcode).symm
  · rw [beq_iff_eq.mp h]

/-- A pattern may as well be written in small letters. -/
lemma alike_toLower (hp : p.toNat < 128) (c : Char) : alike p.toLower c = alike p c := by
  obtain ⟨-, hplain, -, -, hcase, hcode, -⟩ := regular_of_ascii hp
  rw [alike, alike, hcase, hcode]
  by_cases h : hasCase p = true
  · rw [if_pos h, if_pos h]
  · rw [if_neg h, if_neg h, hplain (Bool.not_eq_true _ ▸ h)]

/-- A mark without case matches itself alone. -/
lemma alike_of_not_hasCase (hp : hasCase p = false) : alike p c = true ↔ c = p := by
  rw [alike, hp, if_neg Bool.false_ne_true, beq_iff_eq, eq_comm]

end Characters

section Patterns

variable {a cs rest : List Char} {d : Char}

lemma SmallLetters.of_cons {p : Char} {ps : List Char} (h : SmallLetters (p :: ps)) :
    p.isLower = true ∧ SmallLetters ps :=
  List.forall_mem_cons.mp h

lemma Ascii.of_cons {c : Char} (h : Ascii (c :: cs)) : c.toNat < 128 ∧ Ascii cs :=
  List.forall_mem_cons.mp h

/-- What a pattern of small letters passes over is a text with these small letters. -/
lemma dropAlike?_eq_some (ha : SmallLetters a) (hcs : Ascii cs) :
    dropAlike? a cs = some rest ↔ ∃ front, cs = front ++ rest ∧ front.map Char.toLower = a := by
  induction a generalizing cs with
  | nil =>
    rw [dropAlike?, Option.some_inj]
    constructor
    · rintro rfl
      exact ⟨[], rfl, rfl⟩
    · rintro ⟨front, rfl, hf⟩
      rw [List.map_eq_nil_iff.mp hf, List.nil_append]
  | cons p ps ih =>
    obtain ⟨hp, hps⟩ := ha.of_cons
    cases cs with
    | nil => simp [dropAlike?]
    | cons c more =>
      obtain ⟨hc, hmore⟩ := hcs.of_cons
      rw [dropAlike?]
      by_cases halike : alike p c = true
      · have hlow : c.toLower = p := (alike_iff hp hc).mp halike
        rw [if_pos halike, ih hps hmore]
        constructor
        · rintro ⟨front, rfl, hf⟩
          exact ⟨c :: front, rfl, by rw [List.map_cons, hlow, hf]⟩
        · rintro ⟨front, he, hf⟩
          cases front with
          | nil => simp at hf
          | cons b front =>
            simp only [List.cons_append, List.cons.injEq, List.map_cons] at he hf
            exact ⟨front, he.2, hf.2⟩
      · rw [if_neg halike]
        constructor
        · simp
        · rintro ⟨front, he, hf⟩
          cases front with
          | nil => simp at hf
          | cons b front =>
            simp only [List.cons_append, List.cons.injEq, List.map_cons] at he hf
            obtain rfl := he.1
            exact absurd ((alike_iff hp hc).mpr hf.1) halike

/-- What an ASCII pattern passes over is the pattern, ignoring case. -/
lemma exists_append_of_dropAlike? (ha : Ascii a) (hcs : Ascii cs) (h : dropAlike? a cs = some rest) :
    ∃ front, cs = front ++ rest ∧ front.map Char.toLower = a.map Char.toLower := by
  induction a generalizing cs with
  | nil =>
    obtain rfl : cs = rest := Option.some.inj h
    exact ⟨[], rfl, rfl⟩
  | cons p ps ih =>
    obtain ⟨hp, hps⟩ := ha.of_cons
    cases cs with
    | nil => simp [dropAlike?] at h
    | cons c more =>
      obtain ⟨hc, hmore⟩ := hcs.of_cons
      rw [dropAlike?] at h
      split at h
      · rename_i halike
        obtain ⟨front, rfl, hfront⟩ := ih hps hmore h
        exact ⟨c :: front, rfl, by rw [List.map_cons, List.map_cons, hfront, toLower_eq_of_alike hp hc halike]⟩
      · simp at h

lemma dropAlike?_toLower (ha : Ascii a) (cs : List Char) :
    dropAlike? (a.map Char.toLower) cs = dropAlike? a cs := by
  induction a generalizing cs with
  | nil => rfl
  | cons p ps ih =>
    obtain ⟨hp, hps⟩ := ha.of_cons
    cases cs with
    | nil => rfl
    | cons c more => rw [List.map_cons, dropAlike?, dropAlike?, alike_toLower hp, ih hps]

lemma dropAlike?_append (a b cs : List Char) :
    dropAlike? (a ++ b) cs = (dropAlike? a cs).bind (dropAlike? b) := by
  induction a generalizing cs with
  | nil => rfl
  | cons p ps ih =>
    cases cs with
    | nil => rfl
    | cons c more =>
      simp only [List.cons_append, dropAlike?, ih]
      split <;> rfl

/-- The word at the front of a text and what comes after the mark behind it. -/
def wordBefore? (mark : Char) (cs : List Char) : Option (List Char × List Char) :=
  match cs.dropWhile isWord with
  | [] => none
  | c :: rest => if c = mark then some (cs.takeWhile isWord, rest) else none

lemma wordBefore?_append {mark : Char} {word : List Char} (hw : ∀ c ∈ word, isWord c = true)
    (hd : isWord d = false) :
    wordBefore? mark (word ++ d :: rest) = if d = mark then some (word, rest) else none := by
  have hdrop : (word ++ d :: rest).dropWhile isWord = d :: rest := by
    rw [List.dropWhile_append_of_pos hw, List.dropWhile_cons_of_neg (by simp [hd])]
  have htake : (word ++ d :: rest).takeWhile isWord = word := by
    rw [List.takeWhile_append_of_pos hw, List.takeWhile_cons_of_neg (by simp [hd]), List.append_nil]
  rw [wordBefore?, hdrop, htake]

lemma wordBefore?_eq_some {mark : Char} {word : List Char} (hm : isWord mark = false) :
    wordBefore? mark cs = some (word, rest) ↔
      cs = word ++ mark :: rest ∧ ∀ c ∈ word, isWord c = true := by
  constructor
  · intro h
    have hsplit := List.takeWhile_append_dropWhile (p := isWord) (l := cs)
    unfold wordBefore? at h
    cases hd : cs.dropWhile isWord with
    | nil => simp [hd] at h
    | cons c more =>
      rw [hd] at h hsplit
      dsimp only at h
      split at h
      · rename_i hc
        simp only [Option.some.injEq, Prod.mk.injEq] at h
        refine ⟨by rw [← h.1, ← h.2, ← hc, hsplit], fun c hc => ?_⟩
        rw [← h.1] at hc
        exact List.mem_takeWhile_imp hc
      · simp at h
  · rintro ⟨rfl, hw⟩
    rw [wordBefore?_append hw hm, if_pos rfl]

/-- No mark stands right behind the first word, if another one does. -/
lemma wordBefore?_append_eq_none {mark : Char} {as bs : List Char} (hm : isWord mark = false)
    (has : mark ∉ as) (hd : isWord d = false) (hne : d ≠ mark) : wordBefore? mark (as ++ d :: bs) = none := by
  refine Option.eq_none_iff_forall_ne_some.mpr fun ⟨word, rest⟩ h => ?_
  obtain ⟨he, hword⟩ := (wordBefore?_eq_some hm).mp h
  rcases List.append_eq_append_iff.mp he with ⟨more, hw, hrest⟩ | ⟨more, ha, hrest⟩
  · cases more with
    | nil => exact hne (List.cons.inj hrest).1
    | cons c more =>
      obtain rfl := (List.cons.inj hrest).1
      have hmem : d ∈ word := hw ▸ List.mem_append_right _ List.mem_cons_self
      exact absurd (hword d hmem) (by simp [hd])
  · cases more with
    | nil => exact hne (List.cons.inj hrest).1.symm
    | cons c more =>
      obtain rfl := (List.cons.inj hrest).1
      exact has (ha ▸ List.mem_append_right _ List.mem_cons_self)

lemma wordBefore?_eq_none {mark : Char} (hm : isWord mark = false) (hcs : mark ∉ cs) :
    wordBefore? mark cs = none := by
  refine Option.eq_none_iff_forall_ne_some.mpr fun ⟨word, rest⟩ h => hcs ?_
  rw [((wordBefore?_eq_some hm).mp h).1]
  exact List.mem_append_right _ List.mem_cons_self

lemma isWord_of_map_toLower {front : List Char} (hf : Ascii front)
    (ha : SmallLetters (front.map Char.toLower)) : ∀ c ∈ front, isWord c = true := by
  intro c hc
  rw [← isWord_toLower (hf c hc)]
  exact isWord_of_isLower (ha _ (List.mem_map_of_mem hc))

/-- A pattern of small letters with a mark behind it matches a word that has these small letters and the mark
behind it. -/
lemma dropAlike?_marked {mark : Char} (ha : SmallLetters a) (hcs : Ascii cs) (hw : isWord mark = false)
    (hm : hasCase mark = false) :
    dropAlike? (a ++ [mark]) cs = (wordBefore? mark cs).bind fun found =>
      if found.1.map Char.toLower = a then some found.2 else none := by
  have hmark : ∀ more rest, dropAlike? [mark] more = some rest ↔ more = mark :: rest := by
    intro more rest
    cases more with
    | nil => simp [dropAlike?]
    | cons c more =>
      rw [dropAlike?]
      split
      · rename_i hc
        rw [(alike_of_not_hasCase hm).mp hc]
        simp [dropAlike?]
      · rename_i hc
        rw [alike_of_not_hasCase hm] at hc
        simp [hc]
  refine Option.ext fun rest => ?_
  rw [dropAlike?_append, Option.bind_eq_some_iff, Option.bind_eq_some_iff]
  constructor
  · rintro ⟨more, hmore, hrest⟩
    obtain ⟨front, rfl, hfront⟩ := (dropAlike?_eq_some ha hcs).mp hmore
    rw [(hmark more rest).mp hrest] at hcs ⊢
    have hword : ∀ c ∈ front, isWord c = true :=
      isWord_of_map_toLower (fun c hc => hcs c (List.mem_append_left _ hc)) (hfront ▸ ha)
    exact ⟨(front, rest), (wordBefore?_eq_some hw).mpr ⟨rfl, hword⟩, if_pos hfront⟩
  · rintro ⟨⟨word, more⟩, hfound, hrest⟩
    obtain ⟨rfl, -⟩ := (wordBefore?_eq_some hw).mp hfound
    dsimp only at hrest
    split at hrest
    · rename_i hword
      obtain rfl := Option.some.inj hrest
      exact ⟨mark :: more, (dropAlike?_eq_some ha hcs).mpr ⟨word, rfl, hword⟩, (hmark _ _).mpr rfl⟩
    · simp at hrest

end Patterns

end SkillAtlas.Text
