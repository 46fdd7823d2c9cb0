import Mathlib.Data.Multiset.UnionInter
import SkillAtlas.Proofs.Template.Textual
import SkillAtlas.Proofs.Text.Pieces
import SkillAtlas.Template.Similarity

/-!
# Likeness does not depend on the order

Each part of the score of two records of texts is the same for them in the other order, whatever the weights
are and however quotients are taken. The lines that two records share are those in the intersection of their
multisets of lines.
-/

namespace SkillAtlas

namespace SimilaritySettings

section Shared

lemma any_same_map_str {x : String} {ys : List String} :
    (ys.map Value.str).any (Value.str x).same = true ↔ x ∈ ys := by
  simp only [List.any_map, List.any_eq_true, Function.comp_apply, Value.same_str, Value.str.injEq, exists_eq_right]

lemma eraseP_same_map_str (x : String) (ys : List String) :
    (ys.map Value.str).eraseP (Value.str x).same = (ys.erase x).map Value.str := by
  have hsame : (Value.str x).same ∘ Value.str = fun y => x == y := by
    funext y
    rw [Function.comp_apply, Bool.eq_iff_iff, Value.same_str, Value.str.injEq, beq_iff_eq, eq_comm]
  rw [List.eraseP_map, hsame, List.erase_eq_eraseP]

/-- The texts that two lists share are those in the intersection of their multisets. -/
theorem sharedCount_map_str (xs ys : List String) :
    sharedCount (xs.map .str) (ys.map .str) = Multiset.card ((xs : Multiset String) ∩ ys) := by
  induction xs generalizing ys with
  | nil => simp [sharedCount]
  | cons x xs ih =>
    rw [List.map_cons, sharedCount, ← Multiset.cons_coe]
    by_cases hx : x ∈ ys
    · rw [if_pos (any_same_map_str.mpr hx), eraseP_same_map_str, ih, Multiset.cons_inter_of_pos _ hx,
        Multiset.card_cons, Multiset.coe_erase]
    · rw [if_neg (mt any_same_map_str.mp hx), ih, Multiset.cons_inter_of_neg _ hx]

variable {a b : TemplateRecord}

lemma sharedCount_comm (ha : a.Textual) (hb : b.Textual) :
    sharedCount a.allLines b.allLines = sharedCount b.allLines a.allLines := by
  obtain ⟨xs, hxs⟩ := ha.allLines
  obtain ⟨ys, hys⟩ := hb.allLines
  rw [hxs, hys, sharedCount_map_str, sharedCount_map_str, Multiset.inter_comm]

lemma sharedCount_le (ha : a.Textual) (hb : b.Textual) : sharedCount a.allLines b.allLines ≤ a.allLines.length := by
  obtain ⟨xs, hxs⟩ := ha.allLines
  obtain ⟨ys, hys⟩ := hb.allLines
  rw [hxs, hys, sharedCount_map_str, List.length_map, ← Multiset.coe_card]
  exact Multiset.card_le_card Multiset.inter_le_left

/-- Lists share all their texts exactly if each is an order of the other. -/
lemma perm_iff_sharedCount (ha : a.Textual) (hb : b.Textual) :
    a.allLines.Perm b.allLines ↔
      sharedCount a.allLines b.allLines = max a.allLines.length b.allLines.length := by
  obtain ⟨xs, hxs⟩ := ha.allLines
  obtain ⟨ys, hys⟩ := hb.allLines
  rw [hxs, hys, sharedCount_map_str, List.length_map, List.length_map,
    List.map_perm_map_iff fun _ _ h => Value.str.inj h, ← Multiset.coe_eq_coe, ← Multiset.coe_card,
    ← Multiset.coe_card]
  constructor
  · intro h
    rw [h, max_self, le_antisymm Multiset.inter_le_left (Multiset.le_inter le_rfl le_rfl)]
  · intro h
    have hleft : (xs : Multiset String) ∩ ys = xs :=
      Multiset.eq_of_le_of_card_le Multiset.inter_le_left (h ▸ le_max_left _ _)
    have hright : (xs : Multiset String) ∩ ys = ys :=
      Multiset.eq_of_le_of_card_le Multiset.inter_le_right (h ▸ le_max_right _ _)
    exact hleft.symm.trans hright

end Shared

section Symmetry

variable (s : SimilaritySettings) {a b : TemplateRecord}

lemma ofValue_str (n : String) : ComparedName.ofValue (.str n) = .ok (.text (Text.lowerChars n.toList)) := by
  unfold ComparedName.ofValue
  split
  · rename_i hempty
    have hn : n = "" := by simpa [Value.isTruthy] using hempty
    rw [hn]
    rfl
  · rfl

lemma nameScore_str (m n : String) :
    s.nameScore (.str m) (.str n) = s.textScore (Text.lowerChars m.toList) (Text.lowerChars n.toList) := by
  rw [nameScore, ofValue_str, ofValue_str]
  rfl

lemma textScore_comm (x y : List Char) : s.textScore x y = s.textScore y x := by
  have heq : (x == y) = (y == x) := Bool.beq_comm
  unfold textScore
  rw [heq, Text.commonStart_comm x y, Bool.or_comm (Text.occursIn x y)]

lemma equal_category_iff (ha : a.Textual) (hb : b.Textual) :
    a.category.equal b.category = true ↔ a.category = b.category := by
  obtain ⟨c, hc⟩ := ha.category
  obtain ⟨d, hd⟩ := hb.category
  rw [hc, hd]
  cases c <;> cases d <;> simp [TemplateRecord.orNull, Value.equal, Value.same]

lemma sectionScore_comm (a b : TemplateRecord) : s.sectionScore a b = s.sectionScore b a := by
  unfold sectionScore distance
  rw [Nat.add_comm]

variable {α : Type} (d : Division α)

lemma lineScoreBy_comm (ha : a.Textual) (hb : b.Textual) : s.lineScoreBy d a b = s.lineScoreBy d b a := by
  unfold lineScoreBy
  dsimp only
  rw [sharedCount_comm ha hb, Nat.max_comm, Bool.or_comm a.allLines.isEmpty,
    Bool.and_comm (a.allLines.all Value.isKey)]

theorem likenessBy_comm (ha : a.Textual) (hb : b.Textual) : s.likenessBy d a b = s.likenessBy d b a := by
  obtain ⟨m, hm⟩ := ha.name
  obtain ⟨n, hn⟩ := hb.name
  have hname : s.nameScore a.name b.name = s.nameScore b.name a.name := by
    rw [hm, hn, nameScore_str, nameScore_str, textScore_comm]
  have hcategory : a.category.equal b.category = b.category.equal a.category := by
    rw [Bool.eq_iff_iff, equal_category_iff ha hb, equal_category_iff hb ha, eq_comm]
  unfold likenessBy scoreBy
  rw [hname, hcategory, sectionScore_comm, lineScoreBy_comm s d ha hb]

end Symmetry

end SimilaritySettings

end SkillAtlas
