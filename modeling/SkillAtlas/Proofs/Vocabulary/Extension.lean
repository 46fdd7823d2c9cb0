import SkillAtlas.Proofs.Value.Layers
import SkillAtlas.Proofs.Value.Shape
import SkillAtlas.Proofs.Vocabulary.Overrides

/-!
# A user's tables extend the packaged vocabulary

Tables that are accepted take nothing away. A table keeps its packaged words, in front and in their order,
and of the user's words gets those that it lacks; categories keep their places with their keywords, and new
ones come after them.
-/

namespace SkillAtlas.Vocabulary

/-- The words that tables give under a key: those of a list, or none if the key is not there. -/
def Adds (os : Entries) (key : String) (given : List String) : Prop :=
  os.named? key = none ∧ given = [] ∨ os.named? key = some (listOfTexts given)

/-- The table keeps what it held, in front and in order, has only given words after it, and lacks none of
them. -/
structure Grows (kept given table : List String) : Prop where
  added : ∃ more, table = kept ++ more ∧ more.Sublist given
  complete : ∀ w ∈ given, w ∈ table

namespace Grows

variable {kept given table : List String}

lemma rfl : Grows kept [] kept :=
  ⟨⟨[], (List.append_nil kept).symm, List.Sublist.refl _⟩, by simp⟩

lemma mem_iff (h : Grows kept given table) {w : String} : w ∈ table ↔ w ∈ kept ∨ w ∈ given := by
  obtain ⟨more, htable, hmore⟩ := h.added
  constructor
  · intro hw
    rw [htable] at hw
    exact (List.mem_append.mp hw).imp_right fun hw => hmore.subset hw
  · rintro (hw | hw)
    · rw [htable]
      exact List.mem_append_left _ hw
    · exact h.complete w hw

lemma map (h : Grows kept given table) (f : String → String) :
    Grows (kept.map f) (given.map f) (table.map f) := by
  obtain ⟨more, htable, hmore⟩ := h.added
  refine ⟨⟨more.map f, by rw [htable, List.map_append], hmore.map f⟩, fun w hw => ?_⟩
  obtain ⟨u, hu, rfl⟩ := List.mem_map.mp hw
  exact List.mem_map_of_mem (h.complete u hu)

lemma eraseDups (h : Grows kept given table) : Grows kept.eraseDups given table.eraseDups := by
  obtain ⟨more, htable, hmore⟩ := h.added
  refine ⟨⟨(more.removeAll kept).eraseDups, by rw [htable, List.eraseDups_append], ?_⟩, fun w hw => ?_⟩
  · exact (eraseDups_sublist _).trans (List.filter_sublist.trans hmore)
  · exact List.mem_eraseDups.mpr (h.complete w hw)

end Grows

section Tables

variable {base os es : Entries} {key : String} {kept : List String}

/-- Under a key at which texts stand and must stand, the given texts are joined to them. -/
lemma joined_under (hd : os.Distinct) (h : Value.overlaidEntries base os = .ok es)
    (hb : base.named? key = some (listOfTexts kept))
    (hs : ∀ v, es.named? key = some v → Shape.texts.Describes v) :
    ∃ given merged, Adds os key given ∧ es.named? key = some (listOfTexts merged) ∧
      (given = [] ∧ merged = kept ∨ merged = (kept ++ given).eraseDups) := by
  have hlayered := Value.named?_overlaidEntries hd h key
  rw [hb] at hlayered
  cases ht : os.named? key with
  | none =>
    rw [ht] at hlayered
    exact ⟨[], kept, Or.inl ⟨ht, rfl⟩, hlayered, Or.inl ⟨rfl, rfl⟩⟩
  | some t =>
    rw [ht] at hlayered
    obtain ⟨v, hv, hfound⟩ := hlayered
    obtain ⟨merged, rfl⟩ := Shape.describes_texts.mp (hs v hfound)
    obtain ⟨given, rfl, hmerged⟩ := Value.overlaid_texts hv
    exact ⟨given, merged, Or.inr ht, hfound, Or.inr hmerged⟩

lemma grows_under (hd : os.Distinct) (h : Value.overlaidEntries base os = .ok es) (hn : kept.Nodup)
    (hb : base.named? key = some (listOfTexts kept))
    (hs : ∀ v, es.named? key = some v → Shape.texts.Describes v) :
    ∃ given merged, Adds os key given ∧ es.named? key = some (listOfTexts merged) ∧ Grows kept given merged := by
  obtain ⟨given, merged, hadds, hfound, ⟨rfl, rfl⟩ | hmerged⟩ := joined_under hd h hb hs
  · exact ⟨[], merged, hadds, hfound, .rfl⟩
  · refine ⟨given, merged, hadds, hfound, ⟨(given.removeAll kept).eraseDups, ?_, ?_⟩, fun w hw => ?_⟩
    · rw [hmerged, List.eraseDups_append, eraseDups_of_nodup hn]
    · exact (eraseDups_sublist _).trans List.filter_sublist
    · rw [hmerged]
      exact List.mem_eraseDups.mpr (List.mem_append_right kept hw)

end Tables

/-- A table of words: its key, where it stands, and the form in which it holds its words. -/
structure Table where
  key : String
  words : Vocabulary → List String
  form : String → String

/-- The tables in which words are only looked up. -/
def searchedTables : List Table := [
  ⟨"actions", actions, Text.lower⟩, ⟨"target_selectors", targetSelectors, Text.lower⟩,
  ⟨"lifecycle_events", lifecycleEvents, Text.lower⟩, ⟨"complex_actions", complexActions, Text.lower⟩]

/-- The tables whose order counts. -/
def orderedTables : List Table := [
  ⟨"callback_attributes", callbackAttributes, Text.lower⟩, ⟨"lifecycle_suffixes", lifecycleSuffixes, id⟩,
  ⟨"naming_suffixes", namingSuffixes, id⟩, ⟨"mob_fields", mobFields, id⟩,
  ⟨"skill_line_keywords", skillLineKeywords, Text.lower⟩]

lemma named?_searched :
    ∀ t ∈ searchedTables, ∃ kept, Entries.named? packagedEntries t.key = some (listOfTexts kept) := by
  simp only [searchedTables, List.forall_mem_cons, List.not_mem_nil, false_implies, implies_true, and_true]
  refine ⟨⟨Packaged.actions, ?_⟩, ⟨Packaged.targetSelectors, ?_⟩, ⟨Packaged.lifecycleEvents, ?_⟩,
    ⟨Packaged.complexActions, ?_⟩⟩ <;>
  simp [packagedEntries, Entries.named?, Entries.get?, Value.same]

lemma named?_ordered : ∀ t ∈ orderedTables, ∃ kept : List String, kept.Nodup ∧
    Entries.named? packagedEntries t.key = some (listOfTexts kept) := by
  simp only [orderedTables, List.forall_mem_cons, List.not_mem_nil, false_implies, implies_true, and_true]
  refine ⟨⟨Packaged.callbackAttributes, by decide +kernel, ?_⟩, ⟨Packaged.lifecycleSuffixes, by decide +kernel, ?_⟩,
    ⟨Packaged.namingSuffixes, by decide +kernel, ?_⟩, ⟨Packaged.mobFields, by decide +kernel, ?_⟩,
    ⟨Packaged.skillLineKeywords, by decide +kernel, ?_⟩⟩ <;>
  simp [packagedEntries, Entries.named?, Entries.get?, Value.same]

/-- The categories that tables give. -/
def categoriesIn (os : Entries) : Entries :=
  ((os.named? "categories").map Value.entries).getD []

/-- The category that an entry gives. -/
def categoryOf (e : Value × Value) : String × List String :=
  (e.1.text, (textsOf e.2).map Text.lower)

/-- A category keeps its name, and its keywords in front of those that are given for it. -/
def CategoryGrows (given : Entries) (old new : String × List String) : Prop :=
  new.1 = old.1 ∧ ∃ words, Adds given old.1 words ∧ Grows old.2 (words.map Text.lower) new.2

/-- The vocabulary extends the packaged one by a user's tables. -/
structure Extends (os : Entries) (v : Vocabulary) : Prop where
  searched : ∀ t ∈ searchedTables, ∃ given, Adds os t.key given ∧
    ∀ w, w ∈ t.words v ↔ w ∈ t.words packaged ∨ w ∈ given.map t.form
  ordered : ∀ t ∈ orderedTables, ∃ given, Adds os t.key given ∧
    Grows (t.words packaged) (given.map t.form) (t.words v)
  categories : ∃ (kept : List (String × List String)) (added : Entries),
    v.categories = kept ++ added.map categoryOf ∧
    List.Forall₂ (CategoryGrows (categoriesIn os)) packaged.categories kept ∧
    added.Sublist (categoriesIn os) ∧
    ∀ e ∈ added, (∃ words, e.2 = listOfTexts words) ∧ ∀ c ∈ packaged.categories, e.1 ≠ .str c.1
  mobFields : ∀ key field, packaged.canonicalMobField? key = .ok (some field) →
    v.canonicalMobField? key = .ok (some field)

lemma lifecycleSuffixes_of_named? {es : Entries} {words : List String}
    (h : es.named? "lifecycle_suffixes" = some (listOfTexts words)) :
    (ofEntries es).lifecycleSuffixes = texts es "lifecycle_suffixes" := by
  rw [texts_of_named? h, ofEntries, h]
  exact textsOf_listOfTexts words

section Merged

variable {os es : Entries} {key : String} {kept : List String}

/-- The values of tables under the keys of tables are lists of texts. -/
lemma describes_texts (h : shape.Describes (.map es)) {t : Table} (ht : t ∈ searchedTables ++ orderedTables) :
    ∀ v, es.named? t.key = some v → Shape.texts.Describes v := by
  obtain ⟨_, he, -, hfields⟩ := Shape.describes_record.mp h
  obtain rfl := Value.map.inj he
  refine hfields (t.key, .texts) ?_
  simp only [searchedTables, orderedTables, List.cons_append, List.nil_append, List.mem_cons, List.not_mem_nil,
    or_false] at ht
  rcases ht with rfl | rfl | rfl | rfl | rfl | rfl | rfl | rfl | rfl <;> simp

lemma describes_categories (h : shape.Describes (.map es)) :
    ∀ v, es.named? "categories" = some v → (Shape.mapTo .texts).Describes v := by
  obtain ⟨_, he, -, hfields⟩ := Shape.describes_record.mp h
  obtain rfl := Value.map.inj he
  exact hfields ("categories", .mapTo .texts) (by simp)

/-- A table in small letters without repeats has the packaged words and the given ones. -/
lemma mem_words_iff (hd : os.Distinct) (h : Value.overlaidEntries packagedEntries os = .ok es)
    (hb : Entries.named? packagedEntries key = some (listOfTexts kept))
    (hs : ∀ v, es.named? key = some v → Shape.texts.Describes v) :
    ∃ given, Adds os key given ∧
      ∀ w, w ∈ words es key ↔ w ∈ words packagedEntries key ∨ w ∈ given.map Text.lower := by
  obtain ⟨given, merged, hadds, hfound, hmerged⟩ := joined_under hd h hb hs
  have hmem : ∀ w, w ∈ merged ↔ w ∈ kept ∨ w ∈ given := by
    rcases hmerged with ⟨rfl, rfl⟩ | rfl
    · simp
    · simp [List.mem_eraseDups]
  refine ⟨given, hadds, fun w => ?_⟩
  simp only [words, texts_of_named? hfound, texts_of_named? hb, List.mem_eraseDups, List.mem_map, hmem]
  constructor
  · rintro ⟨u, hu | hu, rfl⟩
    · exact Or.inl ⟨u, hu, rfl⟩
    · exact Or.inr ⟨u, hu, rfl⟩
  · rintro (⟨u, hu, rfl⟩ | ⟨u, hu, rfl⟩)
    · exact ⟨u, Or.inl hu, rfl⟩
    · exact ⟨u, Or.inr hu, rfl⟩

/-- A list of texts keeps the packaged texts in front of the given ones. -/
lemma grows_texts (hd : os.Distinct) (h : Value.overlaidEntries packagedEntries os = .ok es) (hn : kept.Nodup)
    (hb : Entries.named? packagedEntries key = some (listOfTexts kept))
    (hs : ∀ v, es.named? key = some v → Shape.texts.Describes v) :
    ∃ given, Adds os key given ∧ es.named? key = some (listOfTexts (texts es key)) ∧
      Grows (texts packagedEntries key) given (texts es key) := by
  obtain ⟨given, merged, hadds, hfound, hgrows⟩ := grows_under hd h hn hb hs
  refine ⟨given, hadds, ?_, ?_⟩
  · rw [texts_of_named? hfound, hfound]
  · rw [texts_of_named? hfound, texts_of_named? hb]
    exact hgrows

lemma searched_extend (hd : os.Distinct) (h : Value.overlaidEntries packagedEntries os = .ok es)
    (hs : shape.Describes (.map es)) : ∀ t ∈ searchedTables, ∃ given, Adds os t.key given ∧
      ∀ w, w ∈ t.words (ofEntries es) ↔ w ∈ t.words packaged ∨ w ∈ given.map t.form := by
  intro t ht
  obtain ⟨kept, hb⟩ := named?_searched t ht
  obtain ⟨given, hadds, hmem⟩ := mem_words_iff hd h hb (describes_texts hs (List.mem_append_left _ ht))
  refine ⟨given, hadds, ?_⟩
  simp only [searchedTables, List.mem_cons, List.not_mem_nil, or_false] at ht
  rcases ht with rfl | rfl | rfl | rfl <;> exact hmem

lemma ordered_extend (hd : os.Distinct) (h : Value.overlaidEntries packagedEntries os = .ok es)
    (hs : shape.Describes (.map es)) : ∀ t ∈ orderedTables, ∃ given, Adds os t.key given ∧
      Grows (t.words packaged) (given.map t.form) (t.words (ofEntries es)) := by
  intro t ht
  obtain ⟨kept, hn, hb⟩ := named?_ordered t ht
  obtain ⟨given, hadds, hfound, hgrows⟩ := grows_texts hd h hn hb (describes_texts hs (List.mem_append_right _ ht))
  refine ⟨given, hadds, ?_⟩
  simp only [orderedTables, List.mem_cons, List.not_mem_nil, or_false] at ht
  rcases ht with rfl | rfl | rfl | rfl | rfl
  · exact (hgrows.map Text.lower).eraseDups
  · dsimp only at hfound hb ⊢
    rw [List.map_id, packaged, lifecycleSuffixes_of_named? hfound, lifecycleSuffixes_of_named? hb]
    exact hgrows
  · rw [List.map_id]
    exact hgrows
  · rw [List.map_id]
    exact hgrows.eraseDups
  · exact hgrows.map Text.lower

end Merged

section Categories

variable {os es : Entries}

/-- The packaged categories as entries. -/
def packagedCategories : Entries :=
  Packaged.categories.map fun c => (.str c.1, listOfTexts c.2)

lemma named?_packagedCategories :
    Entries.named? packagedEntries "categories" = some (.map packagedCategories) := by
  simp [packagedEntries, packagedCategories, Entries.named?, Entries.get?, Value.same]

lemma categoriesOf_of_named? {ces : Entries} (h : es.named? "categories" = some (.map ces)) :
    categoriesOf es "categories" = ces.map categoryOf := by
  rw [categoriesOf, h]
  rfl

lemma categories_packaged :
    packaged.categories = Packaged.categories.map fun c => (c.1, c.2.map Text.lower) := by
  show categoriesOf packagedEntries "categories" = _
  rw [categoriesOf_of_named? named?_packagedCategories, packagedCategories, List.map_map]
  refine List.map_congr_left fun c _ => ?_
  simp only [Function.comp_apply, categoryOf, textsOf_listOfTexts, Value.text]

/-- The categories that are laid over the packaged ones give lists of texts. -/
lemma exists_categories (hd : os.Distinct) (h : Value.overlaidEntries packagedEntries os = .ok es)
    (hs : shape.Describes (.map es)) : ∃ ces, es.named? "categories" = some (.map ces) ∧
      Value.overlaidEntries packagedCategories (categoriesIn os) = .ok ces ∧
      ∀ e ∈ ces, Shape.texts.Describes e.2 := by
  have hlayered := Value.named?_overlaidEntries hd h "categories"
  rw [named?_packagedCategories] at hlayered
  unfold categoriesIn
  cases ht : os.named? "categories" with
  | none =>
    rw [ht] at hlayered
    obtain ⟨_, he, hall⟩ := Shape.describes_mapTo.mp (describes_categories hs _ hlayered)
    obtain rfl := Value.map.inj he
    exact ⟨packagedCategories, hlayered, by simp [Value.overlaidEntries], hall⟩
  | some t =>
    rw [ht] at hlayered
    obtain ⟨v, hv, hfound⟩ := hlayered
    obtain ⟨ces, rfl, hall⟩ := Shape.describes_mapTo.mp (describes_categories hs v hfound)
    refine ⟨ces, hfound, ?_, hall⟩
    cases t with
    | map ct =>
      rw [Value.overlaid_maps] at hv
      obtain ⟨out, ho, hout⟩ := Fault.map_eq_ok.mp hv
      obtain rfl := Value.map.inj hout
      exact ho
    | _ => simp [Value.overlaid] at hv

/-- Entries with the keys of the packaged categories are those categories in their order. -/
lemma forall₂_keys {kept : Entries} (h : kept.map Prod.fst = packagedCategories.map Prod.fst) :
    List.Forall₂ (fun c e => c ∈ Packaged.categories ∧ e ∈ kept ∧ e.1 = .str c.1) Packaged.categories kept := by
  rw [packagedCategories, List.map_map] at h
  have hlength : Packaged.categories.length = kept.length := by simpa using (congrArg List.length h).symm
  refine List.forall₂_iff_get.mpr ⟨hlength, fun i hi hi' => ⟨List.get_mem _ _, List.get_mem _ _, ?_⟩⟩
  have hget := congrArg (·[i]?) h
  simpa [hi, hi'] using hget

lemma categories_extend (hd : os.Distinct) (hc : (categoriesIn os).Distinct)
    (h : Value.overlaidEntries packagedEntries os = .ok es) (hs : shape.Describes (.map es)) :
    ∃ (kept : List (String × List String)) (added : Entries),
      (ofEntries es).categories = kept ++ added.map categoryOf ∧
      List.Forall₂ (CategoryGrows (categoriesIn os)) packaged.categories kept ∧
      added.Sublist (categoriesIn os) ∧
      ∀ e ∈ added, (∃ words, e.2 = listOfTexts words) ∧ ∀ c ∈ packaged.categories, e.1 ≠ .str c.1 := by
  obtain ⟨ces, hfound, hces, hall⟩ := exists_categories hd h hs
  have hnew : ∀ d ∈ ([] : Entries), ∀ e ∈ categoriesIn os, d.1.same e.1 = false := by simp
  obtain ⟨kept, added, rfl, hkeys, hadded, hdiff⟩ :=
    Value.exists_eq_append hc hnew (by rw [List.append_nil]; exact hces)
  have hnames : (packagedCategories.map Prod.fst).Nodup := by
    have hstr : Function.Injective Value.str := fun _ _ => Value.str.inj
    have hfst : packagedCategories.map Prod.fst = (Packaged.categories.map Prod.fst).map .str := by
      simp [packagedCategories]
    rw [hfst]
    exact List.Nodup.map hstr (by decide +kernel)
  have hwords : ∀ c ∈ Packaged.categories, c.2.Nodup := by decide +kernel
  refine ⟨kept.map categoryOf, added, ?_, ?_, hadded, ?_⟩
  · show categoriesOf es "categories" = _
    rw [categoriesOf_of_named? hfound]
    simp
  · rw [categories_packaged, List.forall₂_map_left_iff, List.forall₂_map_right_iff]
    refine (forall₂_keys hkeys).imp fun c e ⟨hcat, he, hkey⟩ => ?_
    obtain ⟨k, v⟩ := e
    obtain rfl : k = .str c.1 := hkey
    have hbase : packagedCategories.named? c.1 = some (listOfTexts c.2) :=
      Entries.named?_of_mem hnames (List.mem_map.mpr ⟨c, hcat, rfl⟩)
    have hhere : (kept ++ ([] ++ added)).named? c.1 = some v :=
      Entries.named?_append (Entries.named?_of_mem (hkeys ▸ hnames) he)
    obtain ⟨given, merged, hadds, hmerged, hgrows⟩ := grows_under hc hces (hwords c hcat) hbase fun w hw => by
      rw [hhere] at hw
      exact Option.some.inj hw ▸ hall _ (List.mem_append_left _ he)
    obtain rfl := Option.some.inj (hhere.symm.trans hmerged)
    refine ⟨rfl, given, hadds, ?_⟩
    rw [categoryOf, textsOf_listOfTexts]
    exact hgrows.map Text.lower
  · intro e he
    refine ⟨Shape.describes_texts.mp (hall e (by simp [he])), fun c hcat hkey => ?_⟩
    rw [categories_packaged] at hcat
    obtain ⟨d, hd, rfl⟩ := List.mem_map.mp hcat
    have hkept : Value.str d.1 ∈ packagedCategories.map Prod.fst := by
      rw [packagedCategories, List.map_map]
      exact List.mem_map_of_mem hd
    have hno := hdiff e he _ hkept
    rw [hkey, Value.same_str.mpr rfl] at hno
    exact absurd hno (by simp)

end Categories

lemma canonicalMobField?_grows {v : Vocabulary} {given : List String}
    (h : Grows packaged.mobFields given v.mobFields) {key : Value} {field : String}
    (hf : packaged.canonicalMobField? key = .ok (some field)) : v.canonicalMobField? key = .ok (some field) := by
  obtain ⟨more, hmore, -⟩ := h.added
  obtain ⟨text, htext, hf⟩ := Fault.bind_eq_ok.mp hf
  have hfind := Except.ok.inj hf
  unfold canonicalMobField?
  rw [htext, hmore]
  show Except.ok (List.find? _ _) = _
  rw [List.find?_append, hfind]
  rfl

lemma extends_packaged : Extends [] packaged where
  searched _ _ := ⟨[], Or.inl ⟨rfl, rfl⟩, by simp⟩
  ordered _ _ := ⟨[], Or.inl ⟨rfl, rfl⟩, .rfl⟩
  categories := ⟨packaged.categories, [], by simp, List.forall₂_same.mpr fun _ _ =>
    ⟨rfl, [], Or.inl ⟨rfl, rfl⟩, .rfl⟩, List.Sublist.refl _, by simp⟩
  mobFields _ _ h := h

/-- A vocabulary that a user's tables give extends the packaged one: no table loses a packaged word or puts it
elsewhere, and what is new are the user's words. -/
theorem withOverrides_extends (os : Entries) (v : Vocabulary) (hd : os.Distinct)
    (hc : (categoriesIn os).Distinct) (h : (withOverrides (.map os)).outcome = .ok v) : Extends os v := by
  by_cases hnil : os = []
  · subst hnil
    obtain rfl := Except.ok.inj ((withOverrides_of_falsy rfl).symm.trans h)
    exact extends_packaged
  · have htruthy : (Value.map os).isTruthy = true := by
      cases os with
      | nil => exact absurd rfl hnil
      | cons e rest => rfl
    rw [outcome_withOverrides htruthy] at h
    obtain ⟨merged, hmerged, h⟩ := Fault.bind_eq_ok.mp h
    obtain ⟨-, -, h⟩ := Fault.bind_eq_ok.mp h
    cases ho : Value.overlaidEntries packagedEntries os with
    | error f => simp [overlaidValue, ho, Except.map] at hmerged
    | ok es =>
      simp only [overlaidValue, ho, Except.map, Except.ok.injEq] at hmerged
      subst hmerged
      obtain ⟨hs, -, rfl⟩ := ofValue_eq_ok.mp h
      have hordered := ordered_extend hd ho hs
      obtain ⟨given, -, hgrows⟩ := hordered ⟨"mob_fields", mobFields, id⟩ (by simp [orderedTables])
      exact {
        searched := searched_extend hd ho hs
        ordered := hordered
        categories := categories_extend hd hc ho hs
        mobFields := fun _ _ hf => canonicalMobField?_grows hgrows hf }

/-- Tables that give a suffix that is there, a new one, a keyword and a category. -/
def sampleTables : Entries := [
  (.str "lifecycle_suffixes", listOfTexts ["Tick", "Land"]),
  (.str "categories", .map [(.str "boss", listOfTexts ["Raid"]), (.str "social", listOfTexts ["Wave"])])]

/-- The packaged suffixes and categories stay in front of those of the sample. -/
theorem withOverrides_extends_sample :
    ∃ v, (withOverrides (.map sampleTables)).outcome = .ok v ∧ Extends sampleTables v ∧
      v.lifecycleSuffixes = packaged.lifecycleSuffixes ++ ["Land"] := by
  have hd : Entries.Distinct sampleTables := by simp [Entries.Distinct, sampleTables, Value.same]
  have hc : (categoriesIn sampleTables).Distinct := by
    simp [Entries.Distinct, categoriesIn, sampleTables, Entries.named?, Entries.get?, Value.same, Value.entries]
  have hrun : (withOverrides (.map sampleTables)).outcome.toOption.map lifecycleSuffixes =
      some (packaged.lifecycleSuffixes ++ ["Land"]) := by decide +kernel
  cases ho : (withOverrides (.map sampleTables)).outcome with
  | error f => simp [ho, Except.toOption] at hrun
  | ok v =>
    refine ⟨v, rfl, withOverrides_extends sampleTables v hd hc ho, ?_⟩
    simpa [ho, Except.toOption] using hrun

end SkillAtlas.Vocabulary
