import SkillAtlas.Naming.Affix
import SkillAtlas.Proofs.Naming.Suffixes
import SkillAtlas.Proofs.Text.Pieces

/-!
# Names of satellites

A suffix of letters holds no separator, so only the last separator of a name can stand before it. The base of
a satellite is what comes before this separator.
-/

namespace SkillAtlas.Naming

open Text (Ascii SmallLetters lower lowerChars lower_eq_lower_iff)

/-- A text of ASCII letters. -/
def Letters (cs : List Char) : Prop :=
  Ascii cs ∧ SmallLetters (cs.map Char.toLower)

instance (cs : List Char) : Decidable (Letters cs) :=
  inferInstanceAs (Decidable (_ ∧ _))

lemma letters_of_packaged : ∀ suffix ∈ Packaged.lifecycleSuffixes, Letters suffix.toList := by
  decide

/-- The name is the base with a separator and one of the suffixes, ignoring case. -/
def IsSatellite (suffixes : List String) (base name : String) : Prop :=
  ∃ suffix ∈ suffixes, ∃ mark ∈ ["-", "_"], lower name = lower (base ++ mark ++ suffix)

section Parts

variable {suffixes : List (List Char)} {front tail suffix : List Char} {c : Char}

lemma not_isLower_of_isSeparator (h : isSeparator c = true) : c.toLower.isLower = false := by
  have hc : c = '-' ∨ c = '_' := by simpa [isSeparator] using h
  rcases hc with rfl | rfl
  · decide
  · decide

lemma isSeparator_toLower (hc : c.toNat < 128) : isSeparator c.toLower = isSeparator c := by
  rcases Text.toLower_eq_or_isLower hc with hself | hlower
  · rw [hself]
  · have hbefore : isSeparator c = false :=
      Bool.eq_false_iff.mpr fun h => Bool.eq_false_iff.mp (not_isLower_of_isSeparator h) hlower
    have hafter : isSeparator c.toLower = false :=
      Bool.eq_false_iff.mpr fun h => Bool.eq_false_iff.mp (not_isLower_of_isSeparator h)
        ((Text.toLower_of_isLower hlower).symm ▸ hlower)
    rw [hbefore, hafter]

/-- On one line only a text that is a suffix, ignoring case, is one of the suffixes. -/
lemma isOneOf_iff (hletters : ∀ s ∈ suffixes, Letters s) (htail : Ascii tail) (hline : '\n' ∉ tail) :
    isOneOf suffixes tail = true ↔ ∃ s ∈ suffixes, tail.map Char.toLower = s.map Char.toLower := by
  rw [isOneOf, List.any_eq_true]
  refine exists_congr fun s => and_congr_right fun hs => ?_
  obtain ⟨hascii, hsmall⟩ := hletters s hs
  rw [← Text.dropAlike?_toLower hascii, Option.any_eq_true]
  constructor
  · rintro ⟨rest, hdrop, hend⟩
    obtain ⟨front, rfl, hfront⟩ := (Text.dropAlike?_eq_some hsmall htail).mp hdrop
    have hnil : rest = [] := by
      refine (Text.atEnd_iff.mp hend).resolve_right fun he => hline ?_
      simp [he]
    rw [hnil, List.append_nil, hfront]
  · intro h
    exact ⟨[], (Text.dropAlike?_eq_some hsmall htail).mpr ⟨tail, (List.append_nil tail).symm, h⟩, rfl⟩

/-- A text with a separator is no suffix. -/
lemma isOneOf_eq_false (hletters : ∀ s ∈ suffixes, Letters s) (htail : Ascii tail) (hline : '\n' ∉ tail)
    (hc : c ∈ tail) (hmark : isSeparator c = true) : isOneOf suffixes tail = false := by
  rw [← Bool.not_eq_true, isOneOf_iff hletters htail hline]
  rintro ⟨s, hs, h⟩
  have hlower := (hletters s hs).2 c.toLower (h ▸ List.mem_map_of_mem hc)
  simp [not_isLower_of_isSeparator hmark] at hlower

/-- The base ends at the separator before the suffix, and not at one before it. The induction is on the base. -/
lemma satelliteBase?_append (hletters : ∀ s ∈ suffixes, Letters s) (hne : front ≠ [])
    (hmark : isSeparator c = true) (hascii : Ascii (front ++ c :: tail)) (hline : '\n' ∉ front ++ c :: tail)
    (hs : suffix ∈ suffixes) (h : tail.map Char.toLower = suffix.map Char.toLower) :
    satelliteBase? suffixes (front ++ c :: tail) = some front := by
  induction front with
  | nil => exact absurd rfl hne
  | cons a more ih =>
    obtain ⟨ha, hascii⟩ := Text.Ascii.of_cons hascii
    rw [List.cons_append, List.mem_cons, not_or] at hline
    have hnot : (a == '\n') = false := by simpa using fun he => hline.1 he.symm
    cases more with
    | nil =>
      have hrest : '\n' ∉ tail := fun hm => hline.2 (List.mem_cons_of_mem c hm)
      have hends : isOneOf suffixes tail = true := (isOneOf_iff hletters hascii.of_cons.2 hrest).mpr ⟨suffix, hs, h⟩
      simp [satelliteBase?, hnot, hmark, hends]
    | cons b rest =>
      have hrest : '\n' ∉ rest ++ c :: tail := fun hm => hline.2 (List.mem_cons_of_mem b hm)
      have hends : isOneOf suffixes (rest ++ c :: tail) = false :=
        isOneOf_eq_false hletters hascii.of_cons.2 hrest (by simp) hmark
      have hlater := ih (by simp) hascii hline.2
      rw [List.cons_append] at hlater
      rw [List.cons_append, List.cons_append, satelliteBase?, hlater]
      simp [hnot, hends]

/-- A base stands before a separator and a suffix. The induction is on the name. -/
lemma satelliteBase?_eq_some {cs : List Char} (h : satelliteBase? suffixes cs = some front) :
    ∃ c tail, cs = front ++ c :: tail ∧ isSeparator c = true ∧ isOneOf suffixes tail = true := by
  induction cs generalizing front with
  | nil => simp [satelliteBase?] at h
  | cons a rest ih =>
    cases rest with
    | nil => simp [satelliteBase?] at h
    | cons c tail =>
      rw [satelliteBase?] at h
      split at h
      · simp at h
      · dsimp only at h
        split at h
        · rename_i hends
          obtain rfl := Option.some.inj h
          obtain ⟨hmark, hone⟩ := Bool.and_eq_true_iff.mp hends
          exact ⟨c, tail, rfl, hmark, hone⟩
        · obtain ⟨more, hmore, rfl⟩ := Option.map_eq_some_iff.mp h
          obtain ⟨d, after, he, hmark, hone⟩ := ih hmore
          exact ⟨d, after, by rw [he, List.cons_append], hmark, hone⟩

/-- On one line a text that matches an ASCII suffix is the suffix, ignoring case. -/
lemma exists_of_isOneOf (hascii : ∀ s ∈ suffixes, Ascii s) (htail : Ascii tail) (hline : '\n' ∉ tail)
    (h : isOneOf suffixes tail = true) : ∃ s ∈ suffixes, tail.map Char.toLower = s.map Char.toLower := by
  obtain ⟨s, hs, hdrop⟩ := List.any_eq_true.mp h
  obtain ⟨rest, hrest, hend⟩ := (Option.any_eq_true _ _).mp hdrop
  obtain ⟨front, rfl, hfront⟩ := Text.exists_append_of_dropAlike? (hascii s hs) htail hrest
  have hnil : rest = [] := by
    refine (Text.atEnd_iff.mp hend).resolve_right fun he => hline ?_
    simp [he]
  exact ⟨s, hs, by rw [hnil, List.append_nil, hfront]⟩

end Parts

variable {v : Vocabulary} {base name : String}

lemma exists_mark {mark : String} (hmark : mark ∈ ["-", "_"]) :
    ∃ d, mark.toList = [d] ∧ isSeparator d = true ∧ d.toNat < 128 := by
  rcases (by simpa using hmark : mark = "-" ∨ mark = "_") with rfl | rfl
  · exact ⟨'-', by decide⟩
  · exact ⟨'_', by decide⟩

/-- From the name of a satellite its base is read, up to case. -/
lemma exists_lifecycleBase? (hv : v.lifecycleSuffixes = Packaged.lifecycleSuffixes) (hne : base ≠ "")
    (hascii : Ascii name.toList) (hline : '\n' ∉ name.toList) (h : IsSatellite v.lifecycleSuffixes base name) :
    ∃ found, lifecycleBase? v name = some found ∧ lower found = lower base := by
  obtain ⟨suffix, hsuffix, mark, hmark, hlower⟩ := h
  rw [hv] at hsuffix
  have hletters := letters_of_packaged suffix hsuffix
  obtain ⟨d, hd, hsep, hdascii⟩ := exists_mark hmark
  have hjoined : (mark ++ suffix).toList = d :: suffix.toList := by
    rw [String.toList_append, hd, List.singleton_append]
  have hjoinedAscii : Ascii (d :: suffix.toList) := List.forall_mem_cons.mpr ⟨hdascii, hletters.1⟩
  have hhangs : Hangs (mark ++ suffix) := by
    rw [Hangs, hjoined]
    exact ⟨hjoinedAscii, by simpa using hsep⟩
  rw [String.append_assoc] at hlower
  obtain ⟨front, tail, hfrontNe, hcs, hfront, htail⟩ := exists_append_of_hangs hhangs hascii hne hlower
  rw [hcs] at hascii hline
  rw [hjoined, Text.lowerChars_ascii hascii.of_append.2, Text.lowerChars_ascii hjoinedAscii] at htail
  -- the tail is a separator with the letters of the suffix
  obtain ⟨c, more, rfl, hc, hmore⟩ := List.map_eq_cons_iff.mp htail
  have hcsep : isSeparator c = true := by
    rw [← isSeparator_toLower hascii.of_append.2.of_cons.1, hc, isSeparator_toLower hdascii, hsep]
  have hsuffixes : satelliteSuffixes v = Packaged.lifecycleSuffixes.map String.toList := by
    rw [satelliteSuffixes, hv]
    rfl
  refine ⟨.ofList front, ?_, by rw [lower_eq_lower_iff, String.toList_ofList, hfront]⟩
  have hfound := satelliteBase?_append (List.forall_mem_map.mpr letters_of_packaged) hfrontNe hcsep hascii hline
    (List.mem_map_of_mem hsuffix) hmore
  rw [lifecycleBase?, hsuffixes, hcs, hfound, Option.map_some]

/-- There are suffixes of satellites, and all are ASCII. -/
structure PlainSuffixes (v : Vocabulary) : Prop where
  nonempty : v.lifecycleSuffixes ≠ []
  ascii : ∀ suffix ∈ v.lifecycleSuffixes, Ascii suffix.toList

/-- A name from which a base is read is the name of a satellite of the base, in every spelling of the base. -/
lemma isSatellite_of_lifecycleBase? (hv : PlainSuffixes v) (hascii : Ascii name.toList)
    (hline : '\n' ∉ name.toList) {other : String} (hother : Ascii other.toList)
    (h : lifecycleBase? v name = some base) (hsame : lower other = lower base) :
    IsSatellite v.lifecycleSuffixes other name := by
  obtain ⟨front, hfront, rfl⟩ := Option.map_eq_some_iff.mp h
  obtain ⟨c, tail, hcs, hmark, hone⟩ := satelliteBase?_eq_some hfront
  rw [hcs] at hascii hline
  obtain ⟨hasciiFront, hasciiRest⟩ := hascii.of_append
  have hsuffixes : satelliteSuffixes v = v.lifecycleSuffixes.map String.toList := by
    rw [satelliteSuffixes, if_neg (by simpa using hv.nonempty)]
  rw [hsuffixes] at hone
  obtain ⟨s, hs, htail⟩ := exists_of_isOneOf (List.forall_mem_map.mpr hv.ascii) hasciiRest.of_cons.2
    (fun hm => hline (List.mem_append_right _ (List.mem_cons_of_mem c hm))) hone
  obtain ⟨suffix, hsuffix, rfl⟩ := List.mem_map.mp hs
  rw [lower_eq_lower_iff, String.toList_ofList, Text.lowerChars_ascii hother, Text.lowerChars_ascii hasciiFront]
    at hsame
  have hjoin : ∀ mark : String, mark.toList = [c] → lower name = lower (other ++ mark ++ suffix) := by
    intro mark hmark
    have hlist : (other ++ mark ++ suffix).toList = other.toList ++ c :: suffix.toList := by
      rw [String.toList_append, String.toList_append, hmark, List.append_assoc, List.singleton_append]
    have hjoined : Ascii (other ++ mark ++ suffix).toList := by
      rw [hlist]
      exact List.forall_mem_append.mpr ⟨hother, List.forall_mem_cons.mpr ⟨hasciiRest.of_cons.1, hv.ascii _ hsuffix⟩⟩
    rw [lower_eq_lower_iff, Text.lowerChars_ascii hjoined, hcs, Text.lowerChars_ascii hascii, hlist, List.map_append,
      List.map_append, List.map_cons, List.map_cons, hsame, htail]
  rcases (by simpa [isSeparator] using hmark : c = '-' ∨ c = '_') with rfl | rfl
  · exact ⟨suffix, hsuffix, "-", by simp, hjoin "-" rfl⟩
  · exact ⟨suffix, hsuffix, "_", by simp, hjoin "_" rfl⟩

end SkillAtlas.Naming
