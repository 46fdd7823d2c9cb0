import Mathlib.Data.List.Infix
import SkillAtlas.Text.Basic

/-!
# Pieces of texts

A pattern occurs in a text if the text holds it as one piece, and what two texts both start with is the
greatest text that starts both. What several texts start with is so for all of them, in whatever order they are
compared.
-/

namespace SkillAtlas.Text

lemma occursIn_iff {p cs : List Char} : occursIn p cs = true ↔ p <:+: cs := by
  induction cs with
  | nil => rw [occursIn, List.isEmpty_iff, List.infix_nil]
  | cons c rest ih => rw [occursIn, Bool.or_eq_true, ih, List.isPrefixOf_iff_prefix, List.infix_cons_iff]

lemma contains_iff {text p : String} : contains text p = true ↔ p.toList <:+: text.toList :=
  occursIn_iff

lemma atEnd_iff {cs : List Char} : atEnd cs = true ↔ cs = [] ∨ cs = ['\n'] := by
  unfold atEnd
  split <;> simp_all

/-- A text starts two others exactly if it starts what they both start with. -/
lemma prefix_commonStart_iff {p as bs : List Char} : p <+: commonStart as bs ↔ p <+: as ∧ p <+: bs := by
  induction as generalizing p bs with
  | nil => cases bs <;> simp +contextual [commonStart]
  | cons a as ih =>
    cases bs with
    | nil => simp +contextual [commonStart]
    | cons b bs =>
      rw [commonStart]
      cases p with
      | nil => simp
      | cons c p =>
        by_cases hab : a = b
        · subst hab
          rw [if_pos (beq_self_eq_true a), List.cons_prefix_cons, ih, List.cons_prefix_cons,
            List.cons_prefix_cons]
          tauto
        · rw [if_neg (by simpa using hab), List.cons_prefix_cons, List.cons_prefix_cons]
          constructor
          · intro h
            exact absurd (List.prefix_nil.mp h) (List.cons_ne_nil _ _)
          · rintro ⟨⟨rfl, -⟩, ⟨rfl, -⟩⟩
            exact absurd rfl hab

lemma commonStart_prefix_left (as bs : List Char) : commonStart as bs <+: as :=
  (prefix_commonStart_iff.mp List.prefix_rfl).1

lemma commonStart_prefix_right (as bs : List Char) : commonStart as bs <+: bs :=
  (prefix_commonStart_iff.mp List.prefix_rfl).2

lemma commonStart_comm (as bs : List Char) : commonStart as bs = commonStart bs as := by
  have hstart (as bs : List Char) : commonStart as bs <+: commonStart bs as :=
    prefix_commonStart_iff.mpr ⟨commonStart_prefix_right as bs, commonStart_prefix_left as bs⟩
  exact (hstart as bs).eq_of_length_le (hstart bs as).length_le

/-- A text starts all of several texts exactly if it starts what they all start with. The induction is on the
texts that are still to be compared. -/
lemma prefix_commonStartOfAll_iff {p : List Char} {texts : List (List Char)} (h : texts ≠ []) :
    p <+: commonStartOfAll texts ↔ ∀ t ∈ texts, p <+: t := by
  obtain ⟨first, rest, rfl⟩ := List.exists_cons_of_ne_nil h
  rw [commonStartOfAll, List.forall_mem_cons]
  clear h
  induction rest generalizing first with
  | nil => simp
  | cons t rest ih => rw [List.foldl_cons, ih, prefix_commonStart_iff, List.forall_mem_cons, and_assoc]

/-- The more texts there are, the less they start with together. -/
lemma commonStartOfAll_of_subset {part texts : List (List Char)} (hne : part ≠ []) (h : part ⊆ texts) :
    commonStartOfAll texts <+: commonStartOfAll part := by
  have htexts : texts ≠ [] := fun he => hne (List.subset_nil.mp (he ▸ h))
  have hstarts := (prefix_commonStartOfAll_iff htexts).mp List.prefix_rfl
  exact (prefix_commonStartOfAll_iff hne).mpr fun t ht => hstarts t (h ht)

/-- Neither the order of the texts nor how often each is given matters. -/
lemma commonStartOfAll_congr {texts others : List (List Char)} (h : ∀ t, t ∈ texts ↔ t ∈ others) :
    commonStartOfAll texts = commonStartOfAll others := by
  by_cases hnil : texts = []
  · subst hnil
    rw [List.eq_nil_iff_forall_not_mem.mpr fun t ht => List.not_mem_nil ((h t).mpr ht)]
  · obtain ⟨t, ht⟩ := List.exists_mem_of_ne_nil texts hnil
    have hle := commonStartOfAll_of_subset hnil fun t => (h t).mp
    have hge := commonStartOfAll_of_subset (List.ne_nil_of_mem ((h t).mp ht)) fun t => (h t).mpr
    exact hge.eq_of_length_le hle.length_le

lemma commonStartOfAll_perm {texts others : List (List Char)} (h : texts.Perm others) :
    commonStartOfAll texts = commonStartOfAll others :=
  commonStartOfAll_congr fun _ => h.mem_iff

end SkillAtlas.Text
