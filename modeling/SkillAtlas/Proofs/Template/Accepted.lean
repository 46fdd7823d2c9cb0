import SkillAtlas.Proofs.Template.Usual
import SkillAtlas.Proofs.Vocabulary.Overrides

/-!
# What the checks let through

The readers of vocabularies and of records look at parts of values without asking of what kind they are: they take
fields of mappings, loop over lists and put texts in small letters. All of it is safe behind the checks, because a
value that a shape accepts has the kinds of parts that are looked at, at every depth.
-/

namespace SkillAtlas

open Vocabulary (Told)

namespace TemplateRecord

variable {a b r : TemplateRecord}

/-- The record has all that comparisons rely on. -/
structure Usable (r : TemplateRecord) : Prop where
  name : ∃ n : String, r.name = .str n
  lines : ∀ l ∈ r.allLines, ∃ t : String, l = .str t
  sections : ∀ s ∈ r.sections, ∃ n : String, s.name = .str n
  sectionCount : 1 ≤ r.sectionCount

/-- The records are compared without a fault: the likeness is so many hundredths, and the differences are named. -/
structure Compared (a b : TemplateRecord) : Prop where
  likeness : ∃ points ≤ 100, SimilaritySettings.likeness {} a b = .ok (hundredths points)
  differences : ∃ named, differences a b = .ok named ∧ (named = [] ↔
    a.sectionCount = b.sectionCount ∧ a.allLines.length = b.allLines.length ∧ a.category = b.category)

lemma one_le_sectionCount (r : TemplateRecord) : 1 ≤ r.sectionCount := by
  unfold sectionCount
  split
  · exact le_rfl
  · rename_i hne
    exact List.length_pos_of_ne_nil fun h => hne (by simp [h])

lemma Textual.usable (h : r.Textual) : r.Usable where
  name := h.name
  lines := by
    obtain ⟨ls, hls⟩ := h.allLines
    rw [hls]
    exact List.forall_mem_map.mpr fun t _ => ⟨t, rfl⟩
  sections s hs := (h.sections s hs).name
  sectionCount := one_le_sectionCount r

lemma equal_orNull {c d : Option String} : (orNull c).equal (orNull d) = true ↔ orNull c = orNull d := by
  cases c <;> cases d <;> simp [orNull, Value.equal, Value.same]

lemma exists_differences (ha : a.Textual) (hb : b.Textual) :
    ∃ named, SkillAtlas.differences a b = .ok named ∧ (named = [] ↔
      a.sectionCount = b.sectionCount ∧ a.allLines.length = b.allLines.length ∧ a.category = b.category) := by
  obtain ⟨c, hc⟩ := ha.category
  obtain ⟨d, hd⟩ := hb.category
  obtain ⟨category, hnil, heq⟩ := ha.differences_eq hb
  refine ⟨_, heq, ?_⟩
  rw [List.append_eq_nil_iff, List.append_eq_nil_iff, hnil, hc, hd, equal_orNull, and_assoc]
  split_ifs <;> simp_all

/-- Records of texts are compared without a fault. -/
lemma Textual.compared (ha : a.Textual) (hb : b.Textual) : Compared a b where
  likeness := by
    obtain ⟨m, hm⟩ := ha.name
    obtain ⟨n, hn⟩ := hb.name
    obtain ⟨lines, hlines, hlow, hhigh, -⟩ := SimilaritySettings.usual_lineScore ha hb
    obtain ⟨points, hpoints, -, hlikeness⟩ := SimilaritySettings.usual_likeness hm hn hlow hhigh hlines
    exact ⟨points, hpoints, hlikeness⟩
  differences := exists_differences ha hb

/-- The value is accepted as a record. -/
lemma textual_of_accepts {v : Value} (h : shape.Accepts v) : ∃ r, ofValue v = .ok r ∧ r.Textual :=
  ofValue_textual h.describes

end TemplateRecord

/-- Every value gives a vocabulary or is refused with a fault that the user is told of, but for one exception: a
number of too many digits, in the name of a category or in a value that is refused. A value gives a vocabulary
exactly if the shape accepts it and the names of its categories can be told. Every value that the shape of a record
accepts gives a record that can be used, and is compared with every other such record without a fault. -/
theorem accepted_values_safe (v : Value) :
    ((Told (Vocabulary.ofValue v) ↔ Vocabulary.Tellable v) ∧
      (¬ Vocabulary.Tellable v → Vocabulary.ofValue v = .error .badValue ∧ v.isTold = false) ∧
      ((∃ w, Vocabulary.ofValue v = .ok w) ↔
        Vocabulary.shape.Accepts v ∧ Vocabulary.CategoriesTold v.entries)) ∧
    (TemplateRecord.shape.Accepts v → ∃ r, TemplateRecord.ofValue v = .ok r ∧ r.Usable ∧
      ∀ other, TemplateRecord.shape.Accepts other → ∃ q, TemplateRecord.ofValue other = .ok q ∧
        r.Compared q ∧ q.Compared r) := by
  have hlong : ¬ Vocabulary.Tellable v → v.isTold = false := by
    intro hnot
    by_contra htold
    exact hnot (Vocabulary.tellable_of_isTold (Bool.not_eq_false _ ▸ htold))
  refine ⟨⟨⟨fun htold => ?_, Vocabulary.told_ofValue⟩,
    fun hnot => ⟨Vocabulary.ofValue_of_not_tellable hnot, hlong hnot⟩, ?_⟩, fun h => ?_⟩
  · by_contra hnot
    rw [Vocabulary.ofValue_of_not_tellable hnot] at htold
    rcases htold with ⟨w, hw⟩ | ⟨f, hf⟩
    · cases hw
    · cases hf
  · rw [← Shape.violation?_eq_none_iff_accepts, Shape.violation?_eq_none_iff]
    constructor
    · rintro ⟨w, hw⟩
      obtain ⟨hd, ht, -⟩ := Vocabulary.ofValue_eq_ok.mp hw
      exact ⟨hd, ht⟩
    · exact fun ⟨hd, ht⟩ => ⟨_, Vocabulary.ofValue_eq_ok.mpr ⟨hd, ht, rfl⟩⟩
  · obtain ⟨r, hr, htextual⟩ := TemplateRecord.textual_of_accepts h
    refine ⟨r, hr, htextual.usable, fun other hother => ?_⟩
    obtain ⟨q, hq, hqtextual⟩ := TemplateRecord.textual_of_accepts hother
    exact ⟨q, hq, htextual.compared hqtextual, hqtextual.compared htextual⟩

/-- A record with a section without a name and with keys that are not asked for, next to one of a name alone. -/
theorem accepted_values_safe_spark :
    let v : Value := .map [(.str "name", .str "Spark"), (.str "category", .null), (.int 3, .set []),
      (.str "sections", .list [.map [(.str "lines", .list [.str "damage"])]])]
    let other : Value := .map [(.str "name", .str "")]
    TemplateRecord.shape.Accepts v ∧ TemplateRecord.shape.Accepts other ∧ ¬Vocabulary.shape.Accepts v ∧
      Told (Vocabulary.ofValue v) ∧ ∃ r q, TemplateRecord.ofValue v = .ok r ∧ TemplateRecord.ofValue other = .ok q ∧
        r.Usable ∧ r.Compared q ∧ q.Compared r := by
  intro v other
  have hv : TemplateRecord.shape.Accepts v := Shape.accepts_of_isEmpty (by decide +kernel)
  have hother : TemplateRecord.shape.Accepts other := Shape.accepts_of_isEmpty (by decide +kernel)
  have hrefused : (Vocabulary.shape.violation? v).toOption.any Option.isSome := by decide +kernel
  have htellable : Vocabulary.Tellable v := by
    refine ⟨?_, fun hd => ?_⟩
    · rintro ⟨violation, hmem, hnot⟩
      have hall : (Vocabulary.shape.violations v).flatten.all Violation.isTold = true := by decide +kernel
      rw [List.all_eq_true.mp hall violation hmem] at hnot
      cases hnot
    · rw [Shape.violation?_eq_none_iff.mpr hd] at hrefused
      simp [Except.toOption] at hrefused
  obtain ⟨⟨htold, -⟩, hsafe⟩ := accepted_values_safe v
  obtain ⟨r, hr, husable, hcompared⟩ := hsafe hv
  obtain ⟨q, hq, hrq, hqr⟩ := hcompared other hother
  refine ⟨hv, hother, fun h => ?_, htold.mpr htellable, r, q, hr, hq, husable, hrq, hqr⟩
  rw [Shape.violation?_eq_none_iff_accepts.mpr h] at hrefused
  simp [Except.toOption] at hrefused

/-- The least tables of words, with one category that has no keywords. -/
def tablesWith (category : Value) : Value :=
  .map [(.str "actions", .list []), (.str "target_selectors", .list []), (.str "lifecycle_events", .list []),
    (.str "mob_fields", .list []), (.str "categories", .map [(category, .list [])])]

lemma named?_tablesWith (category : Value) :
    (tablesWith category).entries.named? "categories" = some (.map [(category, .list [])]) := by
  simp [tablesWith, Value.entries, Entries.named?, Entries.get?, Value.same]

/-- A category whose name is a number of too many digits is accepted by the shape, but the tables give no
vocabulary, and the user is not told why. -/
theorem long_category_escapes :
    let v := tablesWith (.int (16 ^ 3572))
    Vocabulary.shape.Accepts v ∧ Vocabulary.ofValue v = .error .badValue ∧ ¬ Told (Vocabulary.ofValue v) := by
  intro v
  have haccepts : Vocabulary.shape.Accepts v := Shape.accepts_of_isEmpty (by decide +kernel)
  have hnot : ¬ Vocabulary.Tellable v := by
    intro h
    have htold := h.categories haccepts.describes _ (named?_tablesWith _) _ List.mem_cons_self
    have hlong : (Value.int (16 ^ 3572)).isTold = false := by decide +kernel
    rw [hlong] at htold
    cases htold
  have hfails := Vocabulary.ofValue_of_not_tellable hnot
  refine ⟨haccepts, hfails, ?_⟩
  rw [hfails]
  rintro (⟨w, hw⟩ | ⟨f, hf⟩)
  · cases hw
  · cases hf

end SkillAtlas
