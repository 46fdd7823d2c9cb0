import Mathlib.Data.Rat.Cast.Order
import SkillAtlas.Naming.Family
import SkillAtlas.Proofs.Text.Pieces

/-!
# Names that start alike

What two names share starts both of them, and whatever starts both is no longer. Two names whose shared
start is long enough are in the family of this start, and a family holds no other names.
-/

namespace SkillAtlas

/-- A smaller whole number is below the limit if a greater one is. -/
lemma Number.less_of_le {m n : Int} {limit : Number} (hmn : m ≤ n) (h : (Number.int n).less limit = true) :
    (Number.int m).less limit = true := by
  cases limit with
  | int k =>
    simp only [Number.less, decide_eq_true_eq] at h ⊢
    exact lt_of_le_of_lt hmn h
  | float x =>
    simp only [Number.less] at h ⊢
    cases hr : Decimal.ratOf? x with
    | none => simpa [hr] using h
    | some r =>
      simp only [hr, decide_eq_true_eq] at h ⊢
      exact lt_of_le_of_lt (Int.cast_le.mpr hmn) h

/-- Under a key of the pairs stand the values that the pairs give it. -/
lemma mem_groupedByKey {pairs : List (String × String)} {k : String} {ns : List String} :
    (k, ns) ∈ groupedByKey pairs ↔
      (∃ n, (k, n) ∈ pairs) ∧ ns = (pairs.filter fun p => p.1 == k).map Prod.snd := by
  simp only [groupedByKey, List.mem_map, List.mem_eraseDups, Prod.mk.injEq, Prod.exists]
  constructor
  · rintro ⟨k, ⟨_, n, hn, rfl⟩, rfl, rfl⟩
    exact ⟨⟨n, hn⟩, rfl⟩
  · rintro ⟨⟨n, hn⟩, rfl⟩
    exact ⟨k, ⟨k, n, hn, rfl⟩, rfl, rfl⟩

namespace Naming

section Trim

variable {cs ds : List Char}

lemma length_trimSeparatorChars (cs : List Char) :
    (trimSeparatorChars cs).length ≤ cs.length ∧ cs.length ≤ (trimSeparatorChars cs).length + 1 := by
  induction cs with
  | nil => simp [trimSeparatorChars]
  | cons c rest ih =>
    rw [trimSeparatorChars]
    split
    · simp
    · simp only [List.length_cons]
      omega

/-- What is left of a text on one line without a separator at its end starts the text. -/
lemma trimSeparatorChars_prefix (h : '\n' ∉ cs) : trimSeparatorChars cs <+: cs := by
  induction cs with
  | nil => exact List.prefix_rfl
  | cons c rest ih =>
    have hrest : '\n' ∉ rest := fun hm => h (List.mem_cons_of_mem c hm)
    rw [trimSeparatorChars]
    split
    · rename_i hend
      have hnil : rest = [] := by
        refine (Text.atEnd_iff.mp (Bool.and_eq_true_iff.mp hend).2).resolve_right fun he => hrest ?_
        simp [he]
      simp [hnil]
    · exact (List.prefix_cons_inj c).mpr (ih hrest)

/-- A longer start stays as long when both lose a separator. -/
lemma length_trimSeparatorChars_le (h : cs <+: ds) :
    (trimSeparatorChars cs).length ≤ (trimSeparatorChars ds).length := by
  rcases eq_or_lt_of_le h.length_le with he | hlt
  · rw [h.eq_of_length he]
  · have hcs := length_trimSeparatorChars cs
    have hds := length_trimSeparatorChars ds
    omega

end Trim

section Shared

variable {limit : Number} {ns : List String} {a b n start : String}

lemma isShort_int {k : Int} : isShort (.int k) start = false ↔ k ≤ start.length := by
  simp [isShort, Number.less]

lemma isShort_of_le (hle : a.length ≤ b.length) (h : isShort limit b = true) : isShort limit a = true :=
  Number.less_of_le (Int.ofNat_le.mpr hle) h

lemma sharedStart_comm (a b : String) : sharedStart a b = sharedStart b a := by
  rw [sharedStart, sharedStart, Text.commonStart_comm]

/-- Two names on one line start with what they share. -/
lemma sharedStart_prefix (ha : '\n' ∉ a.toList) :
    (sharedStart a b).toList <+: a.toList ∧ (sharedStart a b).toList <+: b.toList := by
  have hleft := Text.commonStart_prefix_left a.toList b.toList
  have htrim := trimSeparatorChars_prefix fun hm => ha (hleft.subset hm)
  rw [sharedStart, String.toList_ofList]
  exact ⟨htrim.trans hleft, htrim.trans (Text.commonStart_prefix_right _ _)⟩

/-- What starts two names is no longer than what they share, when both lose a separator. -/
lemma length_trimSeparator_le (ha : start.toList <+: a.toList) (hb : start.toList <+: b.toList) :
    (trimSeparator start).length ≤ (sharedStart a b).length := by
  rw [trimSeparator, sharedStart, String.length_ofList, String.length_ofList]
  exact length_trimSeparatorChars_le (Text.prefix_commonStart_iff.mpr ⟨ha, hb⟩)

lemma mem_sharedPair : (start, n) ∈ sharedPair limit a b ↔
    isShort limit (sharedStart a b) = false ∧ start = sharedStart a b ∧ (n = a ∨ n = b) := by
  unfold sharedPair
  dsimp only
  split
  · simp_all
  · simp_all
    tauto

/-- A start with a name is among the pairs if the name shares it with another of the names. -/
lemma exists_of_mem_sharedPairs (h : (start, n) ∈ sharedPairs limit ns) :
    ∃ a ∈ ns, ∃ b ∈ ns, (start, n) ∈ sharedPair limit a b := by
  induction ns with
  | nil => simp [sharedPairs] at h
  | cons a rest ih =>
    rw [sharedPairs, List.mem_append, List.mem_flatMap] at h
    rcases h with ⟨b, hb, hpair⟩ | h
    · exact ⟨a, List.mem_cons_self, b, List.mem_cons_of_mem a hb, hpair⟩
    · obtain ⟨c, hc, d, hd, hpair⟩ := ih h
      exact ⟨c, List.mem_cons_of_mem a hc, d, List.mem_cons_of_mem a hd, hpair⟩

lemma mem_of_mem_sharedPairs (h : (start, n) ∈ sharedPairs limit ns) : n ∈ ns := by
  obtain ⟨a, ha, b, hb, hpair⟩ := exists_of_mem_sharedPairs h
  rcases (mem_sharedPair.mp hpair).2.2 with rfl | rfl
  · exact ha
  · exact hb

lemma mem_sharedPairs (ha : a ∈ ns) (hb : b ∈ ns) (hab : a ≠ b)
    (hlong : isShort limit (sharedStart a b) = false) :
    (sharedStart a b, a) ∈ sharedPairs limit ns := by
  induction ns with
  | nil => simp at ha
  | cons c rest ih =>
    rw [sharedPairs, List.mem_append, List.mem_flatMap]
    rcases List.mem_cons.mp ha with rfl | hra <;> rcases List.mem_cons.mp hb with rfl | hrb
    · exact absurd rfl hab
    · exact Or.inl ⟨b, hrb, mem_sharedPair.mpr ⟨hlong, rfl, Or.inl rfl⟩⟩
    · rw [sharedStart_comm] at hlong ⊢
      exact Or.inl ⟨a, hra, mem_sharedPair.mpr ⟨hlong, rfl, Or.inr rfl⟩⟩
    · exact Or.inr (ih hra hrb)

/-- A family of names that start alike: the start, with all names that share it with another one. -/
lemma mem_startFamilies {members : List String} (h : (start, members) ∈ startFamilies limit ns) :
    (∃ n, (start, n) ∈ sharedPairs limit ns) ∧ ∀ n, n ∈ members ↔ (start, n) ∈ sharedPairs limit ns := by
  obtain ⟨⟨k, ms⟩, hmem, he⟩ := List.mem_map.mp h
  obtain ⟨rfl, rfl⟩ := Prod.mk.inj he
  obtain ⟨hkey, rfl⟩ := mem_groupedByKey.mp hmem
  exact ⟨hkey, fun n => by simp⟩

lemma exists_startFamily (h : (start, n) ∈ sharedPairs limit ns) :
    ∃ members, (start, members) ∈ startFamilies limit ns :=
  ⟨_, List.mem_map.mpr ⟨(start, _), mem_groupedByKey.mpr ⟨⟨n, h⟩, rfl⟩, rfl⟩⟩

/-- With a limit that is a number, fewer than two names need no exception. -/
lemma startFamiliesFor_eq {v : Value} (h : v.number? = some limit) (ns : List String) :
    startFamiliesFor v ns = .ok (startFamilies limit ns) := by
  unfold startFamiliesFor
  split
  · rfl
  · simp [startFamilies, sharedPairs, groupedByKey]
  · rw [h]

end Shared

end Naming

end SkillAtlas
