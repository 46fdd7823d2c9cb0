import SkillAtlas.Proofs.Value.Shape
import SkillAtlas.Vocabulary.Packaged

/-!
# Reading checked vocabularies

The reader of a vocabulary takes tables for lists of texts, and categories for a mapping to such lists. A value
that has the shape of a vocabulary is built so in every place that the reader looks at, so the reader does not
fail on it, and gives what its texts alone give.
-/

namespace SkillAtlas

lemma Fault.mapM_eq_map {α β : Type} {f : α → Except Fault β} {g : α → β} {xs : List α}
    (h : ∀ x ∈ xs, f x = .ok (g x)) : xs.mapM f = .ok (xs.map g) := by
  induction xs with
  | nil => rfl
  | cons x rest ih =>
    obtain ⟨hx, hrest⟩ := List.forall_mem_cons.mp h
    rw [List.mapM_cons, hx, ih hrest]
    rfl

namespace Vocabulary

section Items

variable (words : List String)

lemma textsOf_listOfTexts : textsOf (listOfTexts words) = words := by
  induction words with
  | nil => rfl
  | cons w rest ih => exact congrArg (w :: ·) ih

lemma readItems_plain : readItems plainItem (listOfTexts words) = .ok words := by
  show (words.map Value.str).mapM plainItem = _
  rw [List.mapM_map]
  exact (Fault.mapM_eq_map fun _ _ => rfl).trans (congrArg Except.ok (List.map_id words))

lemma readItems_small : readItems smallItem (listOfTexts words) = .ok (words.map Text.lower) := by
  show (words.map Value.str).mapM smallItem = _
  rw [List.mapM_map]
  exact Fault.mapM_eq_map fun _ _ => rfl

lemma readFields_listOfTexts : readFields (listOfTexts words) = .ok words.eraseDups := by
  have hkeys : (words.map Value.str).all Value.isKey = true := by
    rw [List.all_map]
    exact List.all_eq_true.mpr fun _ _ => rfl
  have hplain : (words.map Value.str).mapM plainItem = .ok words := readItems_plain words
  show (if (words.map Value.str).all Value.isKey then _ else _) = _
  rw [if_pos hkeys, hplain]
  rfl

lemma readCategory_listOfTexts {name : Value} (h : name.isTold = true) :
    readCategory (name, listOfTexts words) = .ok (name.text, words.map Text.lower) := by
  have hwords : (words.map Value.str).mapM (fun k => k.told.map Text.lower) = .ok (words.map Text.lower) := by
    rw [List.mapM_map]
    exact Fault.mapM_eq_map fun _ _ => rfl
  rw [readCategory, Value.told_of_isTold h]
  show (do return (name.text, ← (words.map Value.str).mapM fun k => k.told.map Text.lower) : Except Fault _) = _
  rw [hwords]
  rfl

lemma readCategory_of_not_told {e : Value × Value} (h : e.1.isTold = false) :
    readCategory e = .error .badValue := by
  rw [readCategory, Value.told_of_not_isTold h]
  rfl

end Items

section Tables

variable {es : Entries} {key : String} {words : List String} {v : Value}

lemma texts_of_named? (h : es.named? key = some (listOfTexts words)) : texts es key = words := by
  rw [texts, h]
  exact textsOf_listOfTexts words

/-- A table that is there holds texts. -/
lemma named?_of_texts (h : ∀ w, es.named? key = some w → Shape.texts.Describes w) :
    es.named? key = none ∨ es.named? key = some (listOfTexts (texts es key)) := by
  cases hfound : es.named? key with
  | none => exact Or.inl rfl
  | some w =>
    obtain ⟨words, rfl⟩ := Shape.describes_texts.mp (h w hfound)
    exact Or.inr (congrArg (some <| listOfTexts ·) (texts_of_named? hfound).symm)

/-- A table that has to be there is read item by item. -/
lemma tableAt_texts (hkey : (es.named? key).isSome) (h : ∀ w, es.named? key = some w → Shape.texts.Describes w) :
    tableAt es key = .ok (listOfTexts (texts es key)) := by
  rcases named?_of_texts h with hnone | hsome
  · simp [hnone] at hkey
  · rw [tableAt, hsome]

lemma readItemsOr_plain (h : ∀ w, es.named? key = some w → Shape.texts.Describes w) (usual : List String) :
    readItemsOr plainItem usual es key = .ok (((es.named? key).map textsOf).getD usual) := by
  unfold readItemsOr
  rcases named?_of_texts h with hnone | hsome
  · rw [hnone]
    rfl
  · rw [hsome]
    exact (readItems_plain _).trans (congrArg Except.ok (textsOf_listOfTexts _).symm)

lemma readItemsOr_small (h : ∀ w, es.named? key = some w → Shape.texts.Describes w) :
    readItemsOr smallItem [] es key = .ok ((texts es key).map Text.lower) := by
  unfold readItemsOr
  rcases named?_of_texts h with hnone | hsome
  · rw [texts, hnone]
    rfl
  · rw [hsome]
    exact readItems_small _

lemma readTextOr_of_someText (h : ∀ w, es.named? key = some w → Shape.someText.Describes w) (usual : String) :
    readTextOr usual es key = .ok (match es.named? key with
      | some (.str s) => s
      | _ => usual) := by
  unfold readTextOr
  cases hfound : es.named? key with
  | none => rfl
  | some w =>
    obtain ⟨s, rfl, -⟩ := Shape.describes_someText.mp (h w hfound)
    rfl

/-- The names of all categories can be told. -/
def CategoriesTold (es : Entries) : Prop :=
  ∀ cs, es.named? "categories" = some (.map cs) → ∀ e ∈ cs, e.1.isTold = true

lemma readCategories_cases {cs : Entries} (h : ∀ e ∈ cs, Shape.texts.Describes e.2) :
    (∀ e ∈ cs, e.1.isTold = true) ∧
        readCategories (.map cs) = .ok (cs.map fun e => (e.1.text, (textsOf e.2).map Text.lower)) ∨
      (∃ e ∈ cs, e.1.isTold = false) ∧ readCategories (.map cs) = .error .badValue := by
  rw [readCategories]
  induction cs with
  | nil => exact Or.inl ⟨by simp, rfl⟩
  | cons e rest ih =>
    obtain ⟨hfirst, hrest⟩ := List.forall_mem_cons.mp h
    obtain ⟨name, keywords⟩ := e
    rw [List.mapM_cons]
    cases ht : name.isTold with
    | false => exact Or.inr ⟨⟨_, List.mem_cons_self, ht⟩, by rw [readCategory_of_not_told ht]; rfl⟩
    | true =>
      obtain ⟨words, hwords⟩ := Shape.describes_texts.mp hfirst
      obtain rfl : keywords = listOfTexts words := hwords
      rw [readCategory_listOfTexts words ht]
      rcases ih hrest with ⟨htold, hread⟩ | ⟨⟨e, he, hnot⟩, hfails⟩
      · refine Or.inl ⟨List.forall_mem_cons.mpr ⟨ht, htold⟩, ?_⟩
        rw [hread, List.map_cons, textsOf_listOfTexts]
        rfl
      · exact Or.inr ⟨⟨e, List.mem_cons_of_mem _ he, hnot⟩, by rw [hfails]; rfl⟩

lemma readTable_cases (hkey : (es.named? "categories").isSome)
    (h : ∀ w, es.named? "categories" = some w → (Shape.mapTo .texts).Describes w) :
    ∃ table, tableAt es "categories" = .ok table ∧
      (CategoriesTold es ∧ readCategories table = .ok (categoriesOf es "categories") ∨
        ¬ CategoriesTold es ∧ readCategories table = .error .badValue) := by
  obtain ⟨w, hfound⟩ := Option.isSome_iff_exists.mp hkey
  obtain ⟨cs, rfl, hcs⟩ := Shape.describes_mapTo.mp (h w hfound)
  refine ⟨.map cs, by rw [tableAt, hfound], ?_⟩
  have htold : CategoriesTold es ↔ ∀ e ∈ cs, e.1.isTold = true := by
    simp [CategoriesTold, hfound]
  have hcategories : categoriesOf es "categories" =
      cs.map fun e => (e.1.text, (textsOf e.2).map Text.lower) := by
    rw [categoriesOf, hfound]
    rfl
  rw [htold, hcategories]
  refine (readCategories_cases hcs).imp_right fun ⟨⟨e, he, hnot⟩, hfails⟩ => ⟨fun hall => ?_, hfails⟩
  rw [hall e he] at hnot
  cases hnot

/-- The reader does not fail on a value with the shape of a vocabulary, unless the name of a category cannot be
told. -/
theorem fromTables_cases (h : shape.Describes (.map es)) :
    CategoriesTold es ∧ fromTables es = .ok (ofEntries es) ∨
      ¬ CategoriesTold es ∧ fromTables es = .error .badValue := by
  obtain ⟨_, he, hrequired, hfields⟩ := Shape.describes_record.mp h
  obtain rfl := Value.map.inj he
  obtain ⟨table, htable, hcategories⟩ := readTable_cases (hrequired "categories" (by simp))
    (hfields ("categories", .mapTo .texts) (by simp))
  have hactions := tableAt_texts (hrequired "actions" (by simp)) (hfields ("actions", .texts) (by simp))
  have hselectors := tableAt_texts (hrequired "target_selectors" (by simp))
    (hfields ("target_selectors", .texts) (by simp))
  have hevents := tableAt_texts (hrequired "lifecycle_events" (by simp))
    (hfields ("lifecycle_events", .texts) (by simp))
  have hfieldNames := tableAt_texts (hrequired "mob_fields" (by simp)) (hfields ("mob_fields", .texts) (by simp))
  have hcomplex := readItemsOr_small (hfields ("complex_actions", .texts) (by simp))
  have hcallbacks := readItemsOr_small (hfields ("callback_attributes", .texts) (by simp))
  have hkeywords := readItemsOr_small (hfields ("skill_line_keywords", .texts) (by simp))
  have hsuffixes := readItemsOr_plain (hfields ("lifecycle_suffixes", .texts) (by simp)) usualSuffixes
  have hnaming := readItemsOr_plain (hfields ("naming_suffixes", .texts) (by simp)) []
  have hmarker := readTextOr_of_someText (hfields ("variant_marker", .someText) (by simp)) usualMarker
  rcases hcategories with ⟨htold, hcategories⟩ | ⟨hnot, hcategories⟩
  · refine Or.inl ⟨htold, ?_⟩
    simp only [fromTables, bind, Except.bind, htable, hcategories, hactions, hselectors, hevents, hfieldNames,
      hcomplex, hcallbacks, hkeywords, hsuffixes, hnaming, hmarker, readFields_listOfTexts, readItems_small]
    rfl
  · refine Or.inr ⟨hnot, ?_⟩
    simp only [fromTables, bind, Except.bind, htable, hcategories]

end Tables

variable {v : Value} {w : Vocabulary}

/-- What a value is refused for can be told, and the names of its categories if it is not refused. -/
structure Tellable (v : Value) : Prop where
  violations : ¬ shape.Untold v
  categories : shape.Describes v → CategoriesTold v.entries

lemma ofValue_of_describes (h : shape.Describes v) : ofValue v = fromTables v.entries := by
  obtain ⟨es, rfl, -⟩ := Shape.describes_record.mp h
  rw [ofValue, Shape.violation?_eq_none_iff.mpr h]
  rfl

/-- A value gives a vocabulary if it has the shape of one and its names can be told, and then the one that its
texts give. -/
theorem ofValue_eq_ok :
    ofValue v = .ok w ↔ shape.Describes v ∧ CategoriesTold v.entries ∧ w = ofEntries v.entries := by
  by_cases h : shape.Describes v
  · have hmap : shape.Describes (.map v.entries) := by
      obtain ⟨es, rfl, -⟩ := Shape.describes_record.mp h
      exact h
    rw [ofValue_of_describes h]
    rcases fromTables_cases hmap with ⟨htold, hread⟩ | ⟨hnot, hread⟩
    · rw [hread]
      simp [h, htold, eq_comm]
    · rw [hread]
      simp [hnot]
  · refine iff_of_false (fun hread => ?_) fun hall => h hall.1
    unfold ofValue at hread
    split at hread
    · cases hread
    · cases hread
    · rename_i hnone
      exact h (Shape.violation?_eq_none_iff.mp hnone)

/-- The packaged tables give the packaged vocabulary. -/
lemma ofValue_packagedEntries : ofValue (.map packagedEntries) = .ok packaged := by
  have hshape : (shape.violations (.map packagedEntries)).flatten.isEmpty = true := by decide +kernel
  have htold : CategoriesTold packagedEntries := by
    intro cs hcs e he
    have hall : ((packagedEntries.named? "categories").map Value.entries).all
        (fun cs => cs.all fun e => e.1.isTold) = true := by decide +kernel
    rw [hcs] at hall
    exact List.all_eq_true.mp hall e he
  exact ofValue_eq_ok.mpr ⟨List.isEmpty_iff.mp hshape, htold, rfl⟩

/-- Any other value is refused with its first violation. -/
theorem ofValue_eq_error (ht : Tellable v) (h : ¬shape.Describes v) :
    ∃ violation, ofValue v = .error (.settings (.invalidVocabulary violation)) := by
  unfold ofValue
  cases hviolation : shape.violation? v with
  | error f => exact absurd (Shape.violation?_eq_error_iff.mp hviolation).2 ht.violations
  | ok found =>
    cases found with
    | some violation => exact ⟨violation, rfl⟩
    | none => exact absurd (Shape.violation?_eq_none_iff.mp hviolation) h

/-- What cannot be told is asked for, in an account of the violations or for the names. -/
theorem ofValue_of_not_tellable (h : ¬ Tellable v) : ofValue v = .error .badValue := by
  by_cases hv : shape.Untold v
  · unfold ofValue
    rw [Shape.violation?_eq_error_iff.mpr ⟨rfl, hv⟩]
  · have hd : shape.Describes v ∧ ¬ CategoriesTold v.entries := by
      by_contra hno
      exact h ⟨hv, fun hd => by_contra fun hnot => hno ⟨hd, hnot⟩⟩
    obtain ⟨es, rfl, -⟩ := Shape.describes_record.mp hd.1
    rw [ofValue_of_describes hd.1]
    exact ((fromTables_cases hd.1).resolve_left fun htold => hd.2 htold.1).2

end Vocabulary

end SkillAtlas
