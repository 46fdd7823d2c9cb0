import SkillAtlas.Naming.Family
import SkillAtlas.Proofs.Text.Joined
import SkillAtlas.Vocabulary.Packaged

/-!
# Names with suffixes

A suffix with a separator at its front tells the base of a name, up to case. The families of suffixes are
those of the bases that the names tell, each with all that is named after the base.
-/

namespace SkillAtlas.Naming

open Text (Ascii IsMark lower lowerChars lower_eq_lower_iff)

lemma isMark_of_isSeparator {c : Char} (h : isSeparator c = true) : IsMark c := by
  have hc : c = '-' ∨ c = '_' := by simpa [isSeparator] using h
  rw [IsMark, Text.CharSet.contains_eq_any, Text.CharSet.contains_eq_any]
  rcases hc with rfl | rfl
  · decide +kernel
  · decide +kernel

/-- An ASCII suffix with a separator at its front. -/
def Hangs (suffix : String) : Prop :=
  Ascii suffix.toList ∧ suffix.toList.head?.any isSeparator = true

instance (suffix : String) : Decidable (Hangs suffix) :=
  inferInstanceAs (Decidable (_ ∧ _))

lemma hangs_of_packaged : ∀ suffix ∈ Packaged.namingSuffixes, Hangs suffix := by
  decide

/-- The name is a base with one of the suffixes, ignoring case. -/
def TellsBase (suffixes : List String) (base name : String) : Prop :=
  base ≠ "" ∧ ∃ suffix ∈ suffixes, lower name = lower (base ++ suffix)

/-- The name is the base, or goes on with a separator after it, ignoring case. -/
def Follows (base name : String) : Prop :=
  lower name = lower base ∨ ∃ mark ∈ ["-", "_"], (lower (base ++ mark)).toList <+: (lower name).toList

section

variable {suffixes ns : List String} {suffix base other name : String} {families : List (String × List String)}
  {family : String × List String} {bases : List String}

lemma lowerChars_append_hangs (h : Hangs suffix) (cs : List Char) :
    lowerChars (cs ++ suffix.toList) = lowerChars cs ++ lowerChars suffix.toList := by
  obtain ⟨hascii, hmark⟩ := h
  cases hs : suffix.toList with
  | nil => simp [hs] at hmark
  | cons c rest =>
    rw [hs] at hascii hmark
    have hc := isMark_of_isSeparator (by simpa using hmark)
    rw [Text.lowerChars_append_mark hc hascii, Text.lowerChars_ascii hascii]

/-- An ASCII name that is a base with a suffix, ignoring case, falls into two such parts. -/
lemma exists_append_of_hangs (hsuffix : Hangs suffix) (hname : Ascii name.toList) (hne : base ≠ "")
    (h : lower name = lower (base ++ suffix)) :
    ∃ front tail, front ≠ [] ∧ name.toList = front ++ tail ∧ lowerChars front = lowerChars base.toList ∧
      lowerChars tail = lowerChars suffix.toList := by
  rw [lower_eq_lower_iff, String.toList_append, lowerChars_append_hangs hsuffix] at h
  obtain ⟨front, tail, hcs, hfront, htail⟩ := Text.exists_append_of_lowerChars hname h
  obtain ⟨hascii, hasciiTail⟩ := (hcs ▸ hname).of_append
  rw [← Text.lowerChars_ascii hascii] at hfront
  rw [← Text.lowerChars_ascii hasciiTail] at htail
  refine ⟨front, tail, ?_, hcs, hfront, htail⟩
  rintro rfl
  exact hne (String.toList_eq_nil_iff.mp (Text.lowerChars_eq_nil_iff.mp hfront.symm))

lemma length_lowerChars {cs : List Char} (h : Ascii cs) : (lowerChars cs).length = cs.length := by
  rw [Text.lowerChars_ascii h, List.length_map]

lemma isNamedAfter_iff : isNamedAfter base name = true ↔ Follows base name := by
  have hdash : Hangs "-" := by decide
  have hline : Hangs "_" := by decide
  have hmark : lowerChars "-".toList = ['-'] ∧ lowerChars "_".toList = ['_'] := ⟨by decide, by decide⟩
  simp only [isNamedAfter, Follows, Bool.or_eq_true, beq_iff_eq, List.isPrefixOf_iff_prefix, lower_eq_lower_iff,
    List.exists_mem_cons_iff, List.not_mem_nil, false_and, exists_false, or_false, Text.toList_lower,
    String.toList_append, lowerChars_append_hangs hdash, lowerChars_append_hangs hline, hmark, or_assoc]

lemma isNamedAfter_congr (h : lower base = lower other) : isNamedAfter base = isNamedAfter other := by
  funext name
  rw [isNamedAfter, isNamedAfter, lower_eq_lower_iff.mp h]

lemma lowerChars_suffix_iff {cs small : List Char} (hcs : Ascii cs) :
    small <:+ lowerChars cs ↔ ∃ front tail, cs = front ++ tail ∧ lowerChars tail = small := by
  constructor
  · rintro ⟨start, h⟩
    obtain ⟨front, tail, rfl, -, htail⟩ := Text.exists_append_of_lowerChars hcs h.symm
    exact ⟨front, tail, rfl, by rw [Text.lowerChars_ascii hcs.of_append.2, htail]⟩
  · rintro ⟨front, tail, rfl, rfl⟩
    rw [Text.lowerChars_ascii hcs, Text.lowerChars_ascii hcs.of_append.2, List.map_append]
    exact List.suffix_append _ _

/-- Cutting off a suffix leaves what stands before its letters. -/
lemma suffixBase?_eq_some (hsuffix : Hangs suffix) (hname : Ascii name.toList) :
    suffixBase? suffix name = some base ↔
      base ≠ "" ∧ ∃ tail, name.toList = base.toList ++ tail ∧ lowerChars tail = lowerChars suffix.toList := by
  have hempty : suffix.isEmpty = false := by
    rw [← Bool.not_eq_true, String.isEmpty_iff]
    rintro rfl
    exact absurd hsuffix (by decide)
  have hcut : ∀ front tail, name.toList = front ++ tail → lowerChars tail = lowerChars suffix.toList →
      name.toList.take (name.toList.length - suffix.length) = front := by
    intro front tail hcs htail
    have hlen := congrArg List.length htail
    rw [length_lowerChars (hcs ▸ hname).of_append.2, length_lowerChars hsuffix.1, String.length_toList] at hlen
    rw [hcs, List.length_append, hlen, Nat.add_sub_cancel, List.take_left]
  have hends : (lowerChars suffix.toList).isSuffixOf (lowerChars name.toList) = true ↔ _ :=
    List.isSuffixOf_iff_suffix.trans (lowerChars_suffix_iff hname)
  simp only [suffixBase?, hempty, Bool.false_or, Bool.not_eq_true']
  constructor
  · intro h
    split at h
    · simp at h
    · rename_i hsome
      obtain ⟨front, tail, hcs, htail⟩ := hends.mp (by simpa using hsome)
      rw [hcut front tail hcs htail] at h
      split at h
      · simp at h
      · rename_i hne
        obtain rfl := Option.some.inj h
        exact ⟨by simpa using hne, tail, by simpa using hcs, htail⟩
  · rintro ⟨hne, tail, hcs, htail⟩
    rw [hends.mpr ⟨_, tail, hcs, htail⟩, hcut _ tail hcs htail]
    simp [hne]

/-- What is cut off tells the base. -/
lemma tellsBase_of_suffixBase? (hsuffix : Hangs suffix) (hmem : suffix ∈ suffixes) (hname : Ascii name.toList)
    (h : suffixBase? suffix name = some base) : TellsBase suffixes base name := by
  obtain ⟨hne, tail, hcs, htail⟩ := (suffixBase?_eq_some hsuffix hname).mp h
  refine ⟨hne, suffix, hmem, lower_eq_lower_iff.mpr ?_⟩
  have hparts := (hcs ▸ hname).of_append
  rw [String.toList_append, lowerChars_append_hangs hsuffix, ← htail, Text.lowerChars_ascii hname,
    Text.lowerChars_ascii hparts.1, Text.lowerChars_ascii hparts.2, hcs, List.map_append]

/-- A base that a name tells is cut off with one of the suffixes, up to case. -/
lemma exists_suffixBase? (hsuffix : ∀ suffix ∈ suffixes, Hangs suffix) (hname : Ascii name.toList)
    (h : TellsBase suffixes base name) :
    ∃ suffix ∈ suffixes, ∃ found, suffixBase? suffix name = some found ∧ lower found = lower base := by
  obtain ⟨hne, suffix, hmem, hlower⟩ := h
  have hhangs := hsuffix suffix hmem
  obtain ⟨front, tail, hfrontNe, hcs, hfront, htail⟩ := exists_append_of_hangs hhangs hname hne hlower
  refine ⟨suffix, hmem, .ofList front, (suffixBase?_eq_some hhangs hname).mpr ⟨?_, tail, ?_, htail⟩, ?_⟩
  · simpa using hfrontNe
  · rw [String.toList_ofList, hcs]
  · rw [lower_eq_lower_iff, String.toList_ofList, hfront]

/-- The names that belong to a base. -/
def followers (ns : List String) (base : String) : List String :=
  ns.filter (isNamedAfter base)

lemma mem_followers : name ∈ followers ns base ↔ name ∈ ns ∧ Follows base name := by
  rw [followers, List.mem_filter, isNamedAfter_iff]

lemma followers_congr (h : lower base = lower other) : followers ns base = followers ns other := by
  rw [followers, followers, isNamedAfter_congr h]

/-- One more base adds nothing, or the family of the base, if it is a new one of two names. -/
lemma addSuffixFamily_cases (ns : List String) (families : List (String × List String)) (base : String) :
    (addSuffixFamily ns families base = families ∧
      ((∃ f ∈ families, lower f.1 = lower base) ∨ (followers ns base).length < 2)) ∨
    addSuffixFamily ns families base = families ++ [(base, followers ns base)] ∧
      (∀ f ∈ families, lower f.1 ≠ lower base) ∧ 2 ≤ (followers ns base).length := by
  unfold addSuffixFamily followers
  dsimp only
  split
  · rename_i hseen
    exact Or.inl ⟨rfl, Or.inl (by simpa using hseen)⟩
  · rename_i hnew
    split
    · rename_i hfew
      exact Or.inl ⟨rfl, Or.inr hfew⟩
    · rename_i htwo
      exact Or.inr ⟨rfl, by simpa using hnew, Nat.not_lt.mp htwo⟩

/-- The families are those of bases, with all names that belong to them. The induction is on the bases. -/
lemma mem_foldl_addSuffixFamily (h : family ∈ bases.foldl (addSuffixFamily ns) families) :
    family ∈ families ∨ family.1 ∈ bases ∧ family.2 = followers ns family.1 ∧ 2 ≤ family.2.length := by
  induction bases generalizing families with
  | nil => exact Or.inl h
  | cons base rest ih =>
    rcases ih h with hmem | ⟨hbase, hnames⟩
    · rcases addSuffixFamily_cases ns families base with ⟨he, -⟩ | ⟨he, -, htwo⟩
      · exact Or.inl (he ▸ hmem)
      · rw [he, List.mem_append, List.mem_singleton] at hmem
        rcases hmem with hmem | rfl
        · exact Or.inl hmem
        · exact Or.inr ⟨List.mem_cons_self, rfl, htwo⟩
    · exact Or.inr ⟨List.mem_cons_of_mem base hbase, hnames⟩

/-- No two families have one base, ignoring case. -/
lemma nodup_foldl_addSuffixFamily (h : (families.map fun f => lower f.1).Nodup) :
    ((bases.foldl (addSuffixFamily ns) families).map fun f => lower f.1).Nodup := by
  induction bases generalizing families with
  | nil => exact h
  | cons base rest ih =>
    refine ih ?_
    rcases addSuffixFamily_cases ns families base with ⟨he, -⟩ | ⟨he, hnew, -⟩
    · rwa [he]
    · rw [he, List.map_append, List.map_singleton]
      refine List.nodup_append.mpr ⟨h, by simp, List.forall_mem_map.mpr fun f hf other hother => ?_⟩
      rw [List.mem_singleton.mp hother]
      exact hnew f hf

lemma subset_foldl_addSuffixFamily : families ⊆ bases.foldl (addSuffixFamily ns) families := by
  induction bases generalizing families with
  | nil => exact List.Subset.refl _
  | cons base rest ih =>
    refine List.Subset.trans ?_ ih
    rcases addSuffixFamily_cases ns families base with ⟨he, -⟩ | ⟨he, -⟩
    · rw [he]
      exact List.Subset.refl _
    · rw [he]
      exact List.subset_append_left _ _

/-- Each base has a family up to case, unless fewer than two names belong to it. -/
lemma exists_foldl_addSuffixFamily (h : base ∈ bases) :
    (∃ f ∈ bases.foldl (addSuffixFamily ns) families, lower f.1 = lower base) ∨
      (followers ns base).length < 2 := by
  induction bases generalizing families with
  | nil => simp at h
  | cons b rest ih =>
    rw [List.foldl_cons]
    rcases List.mem_cons.mp h with rfl | hrest
    · rcases addSuffixFamily_cases ns families base with ⟨he, ⟨f, hf, hlower⟩ | hfew⟩ | ⟨he, -⟩
      · exact Or.inl ⟨f, subset_foldl_addSuffixFamily (he.symm ▸ hf), hlower⟩
      · exact Or.inr hfew
      · have hmem : (base, followers ns base) ∈ addSuffixFamily ns families base := by
          rw [he]
          exact List.mem_append_right _ List.mem_cons_self
        exact Or.inl ⟨(base, followers ns base), subset_foldl_addSuffixFamily hmem, rfl⟩
    · exact ih hrest

section Families

variable (hsuffix : ∀ suffix ∈ suffixes, Hangs suffix) (hns : ∀ n ∈ ns, Ascii n.toList)

include hsuffix hns

/-- A family is that of a base which one of the names tells. -/
lemma mem_suffixFamilies (h : family ∈ suffixFamilies suffixes ns) :
    (∃ n ∈ ns, TellsBase suffixes family.1 n) ∧ family.2 = followers ns family.1 := by
  rcases mem_foldl_addSuffixFamily h with hnil | ⟨hbase, hnames, -⟩
  · simp at hnil
  · obtain ⟨suffix, hmem, hbase⟩ := List.mem_flatMap.mp hbase
    obtain ⟨n, hn, hbase⟩ := List.mem_filterMap.mp hbase
    exact ⟨⟨n, hn, tellsBase_of_suffixBase? (hsuffix suffix hmem) hmem (hns n hn) hbase⟩, hnames⟩

/-- The names that belong to a base which a name tells are a family, if there are two. -/
lemma exists_suffixFamily (hname : name ∈ ns) (h : TellsBase suffixes base name) :
    (∃ family ∈ suffixFamilies suffixes ns, family.2 = followers ns base) ∨ (followers ns base).length < 2 := by
  obtain ⟨suffix, hmem, found, hfound, hlower⟩ := exists_suffixBase? hsuffix (hns name hname) h
  have hbase : found ∈ suffixes.flatMap fun s => ns.filterMap (suffixBase? s) :=
    List.mem_flatMap.mpr ⟨suffix, hmem, List.mem_filterMap.mpr ⟨name, hname, hfound⟩⟩
  have hcovered : (∃ f ∈ suffixFamilies suffixes ns, lower f.1 = lower found) ∨ (followers ns found).length < 2 :=
    exists_foldl_addSuffixFamily hbase
  rw [← followers_congr hlower]
  rcases hcovered with ⟨f, hf, hsame⟩ | hfew
  · exact Or.inl ⟨f, hf, (mem_suffixFamilies hsuffix hns hf).2.trans (followers_congr hsame)⟩
  · exact Or.inr hfew

end Families

end

end SkillAtlas.Naming
