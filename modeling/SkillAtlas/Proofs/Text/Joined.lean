import Mathlib.Data.List.Basic
import SkillAtlas.Proofs.Text.Ascii

/-!
# Small letters of texts that are put together

What stands around a sigma decides which small letter is written for it, but not how many are written: the small
letters of a text are as long as those of its parts together, and a name with more after it never has the small
letters of the name. A mark such as a dash ends a word, so the small letters of a text that goes on after a mark
are those of the text, and then those of the rest.
-/

namespace SkillAtlas.Text

/-- Ranges held in a list can be looked through by evaluation. -/
lemma CharSet.contains_eq_any (s : CharSet) (c : Char) :
    s.contains c = s.ranges.toList.any fun r => r.1.ble c.toNat && c.toNat.ble r.2 := by
  rw [contains, Array.any_toList]
  simp only [← Nat.ble_eq, Bool.decide_eq_true]

/-- Case rules neither pass over the character nor take it for a letter. -/
def IsMark (c : Char) : Prop :=
  caseIgnorable.contains c = false ∧ cased.contains c = false

variable {c : Char} {as bs cs : List Char}

lemma Ascii.of_append (h : Ascii (as ++ bs)) : Ascii as ∧ Ascii bs :=
  List.forall_mem_append.mp h

lemma meetsLetter_append_mark (hc : IsMark c) (as bs : List Char) :
    meetsLetter (as ++ c :: bs) = meetsLetter as := by
  have hstop : (c :: bs).dropWhile caseIgnorable.contains = c :: bs :=
    List.dropWhile_cons_of_neg (by simp [hc.1])
  rw [meetsLetter, meetsLetter, List.dropWhile_append, hstop]
  cases as.dropWhile caseIgnorable.contains with
  | nil => simpa using hc.2
  | cons d rest => rfl

lemma lowerAfter_append_mark (hc : IsMark c) (before as bs : List Char) :
    lowerAfter before (as ++ c :: bs) =
      lowerAfter before as ++ lowerAfter (as.reverse ++ before) (c :: bs) := by
  induction as generalizing before with
  | nil => rfl
  | cons a rest ih =>
    rw [List.cons_append, lowerAfter, lowerAfter, ih, meetsLetter_append_mark hc, List.reverse_cons,
      List.append_assoc, List.singleton_append]
    split <;> simp

lemma lowerChars_append_mark (hc : IsMark c) (hbs : Ascii (c :: bs)) (as : List Char) :
    lowerChars (as ++ c :: bs) = lowerChars as ++ (c :: bs).map Char.toLower := by
  rw [lowerChars, lowerAfter_append_mark hc, lowerAfter_ascii hbs, lowerChars]

lemma smallOf_ne_nil (c : Char) : smallOf c ≠ [] := by
  unfold smallOf
  split
  · simp
  · split <;> simp

lemma lowerChars_eq_nil_iff : lowerChars cs = [] ↔ cs = [] := by
  cases cs with
  | nil => simp [lowerChars, lowerAfter]
  | cons c rest =>
    rw [lowerChars, lowerAfter]
    split <;> simp [smallOf_ne_nil c]

lemma toList_lower (s : String) : (lower s).toList = lowerChars s.toList :=
  String.toList_ofList

lemma lower_eq_lower_iff {s t : String} : lower s = lower t ↔ lowerChars s.toList = lowerChars t.toList :=
  String.ofList_inj

/-- An ASCII text whose small letters fall into two parts falls into two parts itself. -/
lemma exists_append_of_lowerChars (hcs : Ascii cs) (h : lowerChars cs = as ++ bs) :
    ∃ front tail, cs = front ++ tail ∧ front.map Char.toLower = as ∧ tail.map Char.toLower = bs := by
  rw [lowerChars_ascii hcs] at h
  exact List.map_eq_append_iff.mp h

section Lengths

lemma length_lowerAfter_cons (before : List Char) (c : Char) (rest : List Char) :
    (lowerAfter before (c :: rest)).length =
      (lowerAfter [] [c]).length + (lowerAfter (c :: before) rest).length := by
  rw [lowerAfter, lowerAfter, lowerAfter]
  by_cases hs : (c == 'Σ') = true
  · rw [if_pos hs, if_pos hs]
    simp only [List.length_cons, List.length_nil]
    omega
  · rw [if_neg hs, if_neg hs]
    simp only [List.length_append, List.length_nil]
    omega

lemma length_lowerAfter (before cs : List Char) : (lowerAfter before cs).length = (lowerChars cs).length := by
  unfold lowerChars
  induction cs generalizing before with
  | nil => rfl
  | cons c rest ih => rw [length_lowerAfter_cons before, length_lowerAfter_cons [] c rest, ih (c :: before), ih [c]]

lemma length_lowerChars_append (as bs : List Char) :
    (lowerChars (as ++ bs)).length = (lowerChars as).length + (lowerChars bs).length := by
  induction as with
  | nil => simp [lowerChars, lowerAfter]
  | cons a rest ih =>
    have hcons (xs : List Char) : (lowerChars (a :: xs)).length = (lowerChars [a]).length + (lowerChars xs).length := by
      rw [← length_lowerAfter [a] xs]
      exact length_lowerAfter_cons [] a xs
    rw [List.cons_append, hcons (rest ++ bs), hcons rest, ih, Nat.add_assoc]

/-- A name with more after it has other small letters, if what follows has any. -/
lemma lower_append_ne {s t : String} (h : lowerChars t.toList ≠ []) : lower (s ++ t) ≠ lower s := by
  intro he
  have hl : lowerChars (s.toList ++ t.toList) = lowerChars s.toList := by
    have hc := String.ofList_injective he
    rwa [String.toList_append] at hc
  have hlen := congrArg List.length hl
  rw [length_lowerChars_append] at hlen
  have hpos := List.length_pos_of_ne_nil h
  omega

end Lengths

end SkillAtlas.Text
