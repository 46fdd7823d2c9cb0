import SkillAtlas.Line.Parts
import SkillAtlas.Proofs.Text.Joined
import SkillAtlas.Vocabulary.Packaged

/-!
# Contexts of calls

A call by name is a call of a unit of the document or of a unit that is defined elsewhere; a call through an
attribute has the attribute as its context. Every packaged attribute starts with an `o`, in either case and
in every script that knows the letter, and so none of its contexts is that of a call by name.
-/

namespace SkillAtlas

open Text (alike dropAlike? hasCase lowerChars lowerAfter sameFamily smallCode smallOf)

namespace Text

lemma sameFamily_o (n : Nat) : sameFamily 0x6F n = false := by
  simp [sameFamily, letterFamilies]

/-- What matches an `o` has small letters that start with an `o`. -/
lemma head?_lowerChars_of_alike {c : Char} (h : alike 'o' c = true) (rest : List Char) :
    (lowerChars (c :: rest)).head? = some 'o' := by
  have hcase : hasCase 'o' = true := by decide
  have hcode : smallCode c = 0x6F := by
    have hsmall : smallCode 'o' = 0x6F := by decide
    rw [alike, hcase, if_pos rfl, hsmall, sameFamily_o, Bool.or_false, beq_iff_eq] at h
    exact h.symm
  have hhead : (smallOf c).headD c = 'o' := by
    have hnat : ((smallOf c).headD c).toNat = 'o'.toNat := hcode
    exact Char.ext (UInt32.toNat_inj.mp hnat)
  have hsigma : (c == 'Σ') = false := by
    refine beq_eq_false_iff_ne.mpr ?_
    rintro rfl
    exact absurd hhead (by decide +kernel)
  unfold lowerChars
  rw [lowerAfter, hsigma, if_neg Bool.false_ne_true]
  cases hs : smallOf c with
  | nil => exact absurd hs (smallOf_ne_nil c)
  | cons d more =>
    rw [hs, List.headD_cons] at hhead
    rw [hhead]
    rfl

end Text

namespace Line

lemma mem_findFrom {α : Type} {find : Finder α} {before : Option Char} {skip : Nat} {cs : List Char} {a : α}
    (h : a ∈ findFrom find before skip cs) : ∃ b ds n, find b ds = some (a, n) := by
  induction cs generalizing before skip with
  | nil => simp [findFrom] at h
  | cons c rest ih =>
    unfold findFrom at h
    split at h
    · exact ih h
    · split at h
      · rename_i hfound
        rcases List.mem_cons.mp h with rfl | hr
        · exact ⟨_, _, _, hfound⟩
        · exact ih hr
      · exact ih h

/-- The call through an attribute that starts with `o` has a context that starts with `o`. -/
lemma context_callback {a cs answered name : List Char} {n : Nat} (ha : a.head? = some 'o')
    (h : (valueOf? a cs).map (fun (name, n) => ((cs.take a.length, name), n)) = some ((answered, name), n)) :
    (lowerChars answered).head? = some 'o' := by
  cases a with
  | nil => simp at ha
  | cons p more =>
    obtain rfl : p = 'o' := by simpa using ha
    cases cs with
    | nil => simp [valueOf?, dropAlike?] at h
    | cons c rest =>
      have halike : alike 'o' c = true := by
        by_contra hne
        simp [valueOf?, dropAlike?, hne] at h
      obtain ⟨⟨name', n'⟩, -, he⟩ := Option.map_eq_some_iff.mp h
      simp only [Prod.mk.injEq] at he
      rw [← he.1.1, List.length_cons, List.take_succ_cons]
      exact Text.head?_lowerChars_of_alike halike _

end Line

/-- The packaged attributes that name a unit are read in small letters. -/
lemma Vocabulary.exists_of_mem_callbackAttributes {a : String} (h : a ∈ packaged.callbackAttributes) :
    ∃ w ∈ Packaged.callbackAttributes, a.toList = Text.lowerChars w.toList := by
  have htable : Entries.named? packagedEntries "callback_attributes" =
      some (listOfTexts Packaged.callbackAttributes) := by
    simp [packagedEntries, Entries.named?, Entries.get?, Value.same]
  have hwords : a ∈ words packagedEntries "callback_attributes" := h
  rw [words, texts, htable] at hwords
  simp only [Option.map_some, Option.getD_some, textsOf, listOfTexts, List.mem_eraseDups, List.mem_map,
    List.mem_filterMap] at hwords
  obtain ⟨w, ⟨_, ⟨t, ht, rfl⟩, hw⟩, rfl⟩ := hwords
  obtain rfl := Option.some.inj hw
  exact ⟨t, ht, String.toList_ofList⟩

/-- Every attribute that names a unit starts with `o`. -/
def Vocabulary.AnswersOn (v : Vocabulary) : Prop :=
  ∀ a ∈ v.callbackAttributes, a.toList.head? = some 'o'

lemma Vocabulary.packaged_answersOn : Vocabulary.packaged.AnswersOn := by
  have hstarts : ∀ w ∈ Packaged.callbackAttributes, (Text.lowerChars w.toList).head? = some 'o' := by
    decide +kernel
  intro a ha
  obtain ⟨w, hw, he⟩ := exists_of_mem_callbackAttributes ha
  rw [he]
  exact hstarts w hw

namespace Line

lemma context_callbackCalls {v : Vocabulary} (hv : v.AnswersOn) {cs : List Char} {c : Call}
    (h : c ∈ callbackCalls v.callbackAttributes cs) : c.context.toList.head? = some 'o' := by
  unfold callbackCalls at h
  obtain ⟨⟨answered, name⟩, hfound, rfl⟩ := List.mem_map.mp h
  obtain ⟨before, ds, n, hfind⟩ := mem_findFrom hfound
  unfold callback at hfind
  split at hfind
  · obtain ⟨a, ha, hvalue⟩ := List.exists_of_findSome?_eq_some hfind
    have hstart : a.head? = some 'o' := by
      obtain ⟨t, ht, rfl⟩ := List.mem_map.mp ((List.mergeSort_perm _ _).mem_iff.mp ha)
      exact hv t ht
    rw [String.toList_ofList]
    exact context_callback hstart hvalue
  · simp at hfind

end Line

end SkillAtlas
