import SkillAtlas.Proofs.Value.Overlay
import SkillAtlas.Proofs.Value.Shape
import SkillAtlas.Template.Load
import SkillAtlas.Template.Similarity

/-!
# Records of texts

The fields of a record may hold values of any kind. A record that a file gives has the shape of one, and
other records are made of units: either way its name is a text, its category a text or null, and all its
lines are texts.
-/

namespace SkillAtlas

/-- The name and the lines of the section are texts. -/
structure TemplateSection.Textual (s : TemplateSection) : Prop where
  name : ∃ n : String, s.name = .str n
  lines : ∃ ls : List String, s.lines = ls.map .str

namespace TemplateRecord

/-- The name of the record, its lines and its sections are texts; it has a category of text or none. -/
structure Textual (r : TemplateRecord) : Prop where
  name : ∃ n : String, r.name = .str n
  category : ∃ c : Option String, r.category = orNull c
  skillLines : ∃ ls : List String, r.skillLines = ls.map .str
  sections : ∀ s ∈ r.sections, s.Textual

variable {r : TemplateRecord}

lemma exists_lines {sections : List TemplateSection} (h : ∀ s ∈ sections, s.Textual) :
    ∃ ls : List String, sections.flatMap TemplateSection.lines = ls.map .str := by
  induction sections with
  | nil => exact ⟨[], rfl⟩
  | cons s rest ih =>
    obtain ⟨hs, hrest⟩ := List.forall_mem_cons.mp h
    obtain ⟨here, hhere⟩ := hs.lines
    obtain ⟨below, hbelow⟩ := ih hrest
    exact ⟨here ++ below, by rw [List.flatMap_cons, hhere, hbelow, List.map_append]⟩

lemma Textual.allLines (h : r.Textual) : ∃ ls : List String, r.allLines = ls.map .str := by
  obtain ⟨own, hown⟩ := h.skillLines
  obtain ⟨below, hbelow⟩ := exists_lines h.sections
  exact ⟨own ++ below, by rw [TemplateRecord.allLines, hown, hbelow, List.map_append]⟩

lemma Textual.all_isKey (h : r.Textual) : r.allLines.all Value.isKey = true := by
  obtain ⟨ls, hls⟩ := h.allLines
  rw [hls, List.all_map]
  exact List.all_eq_true.mpr fun _ _ => rfl

lemma isTold_orNull (c : Option String) : (orNull c).isTold = true := by
  cases c <;> rfl

/-- The differences of records of texts are told. -/
lemma Textual.differences_eq {a b : TemplateRecord} (ha : a.Textual) (hb : b.Textual) :
    ∃ category, (category = [] ↔ a.category.equal b.category = true) ∧ differences a b = .ok (
      (if a.sectionCount = b.sectionCount then []
        else [s!"Section count: {a.sectionCount} vs {b.sectionCount}"]) ++
      (if a.allLines.length = b.allLines.length then []
        else [s!"Skill lines: {a.allLines.length} vs {b.allLines.length}"]) ++ category) := by
  obtain ⟨c, hc⟩ := ha.category
  obtain ⟨d, hd⟩ := hb.category
  have hcategory : ∃ category, (category = [] ↔ a.category.equal b.category = true) ∧
      categoryDifference a.category b.category = .ok category := by
    unfold categoryDifference
    rw [hc, hd, Value.told_of_isTold (isTold_orNull c), Value.told_of_isTold (isTold_orNull d)]
    cases heq : (orNull c).equal (orNull d) with
    | true => exact ⟨[], by simp, rfl⟩
    | false => exact ⟨[s!"Category: {(orNull c).text} vs {(orNull d).text}"], by simp, rfl⟩
  obtain ⟨category, hnil, heq⟩ := hcategory
  refine ⟨category, hnil, ?_⟩
  unfold differences
  rw [heq]
  simp only [beq_iff_eq]
  rfl

/-- A record of a name and lines, without sections. -/
def plain (name : String) (lines : List String) : TemplateRecord :=
  { name := .str name, skillLines := lines.map .str }

lemma textual_plain (name : String) (lines : List String) : (plain name lines).Textual where
  name := ⟨name, rfl⟩
  category := ⟨none, rfl⟩
  skillLines := ⟨lines, rfl⟩
  sections := by simp [plain]

lemma allLines_plain (name : String) (lines : List String) : (plain name lines).allLines = lines.map .str :=
  List.append_nil _

theorem textual_ofUnit (u : AnalyzedUnit) : (ofUnit u).Textual where
  name := ⟨_, rfl⟩
  category := ⟨some u.category, rfl⟩
  skillLines := ⟨u.lines, rfl⟩
  sections := by simp [ofUnit]

theorem textual_ofGroup (p : GroupProposal) : (ofGroup p).Textual where
  name := ⟨_, rfl⟩
  category := ⟨_, rfl⟩
  skillLines := ⟨[], rfl⟩
  sections := List.forall_mem_map.mpr fun u _ => ⟨⟨u.name, rfl⟩, ⟨u.lines, rfl⟩⟩

section Checked

variable {es : Entries} {v : Value} {key : String}

lemma describes_textOrNull (h : (Shape.oneOf [.text, .nothing]).Describes v) : ∃ c, v = orNull c := by
  cases v with
  | null => exact ⟨none, rfl⟩
  | str s => exact ⟨some s, rfl⟩
  | _ => simp [Shape.Describes, Shape.violations, Kind.holds] at h

lemma itemsOf_texts (h : ∀ w, es.named? key = some w → Shape.texts.Describes w) :
    ∃ ls : List String, itemsOf es key = .ok (ls.map .str) := by
  unfold itemsOf
  cases hfound : es.named? key with
  | none => exact ⟨[], rfl⟩
  | some w =>
    obtain ⟨ls, rfl⟩ := Shape.describes_texts.mp (h w hfound)
    exact ⟨ls, rfl⟩

lemma fieldOf_textOrNull (h : ∀ w, es.named? key = some w → (Shape.oneOf [.text, .nothing]).Describes w) :
    ∃ c, fieldOf es key = orNull c := by
  unfold fieldOf
  cases hfound : es.named? key with
  | none => exact ⟨none, rfl⟩
  | some w => exact describes_textOrNull (h w hfound)

/-- The shape of the value of a section. -/
def sectionShape : Shape :=
  .record [] [("name", .text), ("lines", .texts)]

lemma sectionOf_textual (index : Nat) (h : sectionShape.Describes v) :
    ∃ s, sectionOf index v = .ok s ∧ s.Textual := by
  obtain ⟨es, rfl, -, hfields⟩ := Shape.describes_record.mp h
  obtain ⟨ls, hls⟩ := itemsOf_texts (hfields ("lines", .texts) (by simp))
  have hname : ∃ n : String, (es.named? "name").getD (.str s!"Section {index + 1}") = .str n := by
    cases hfound : es.named? "name" with
    | none => exact ⟨_, rfl⟩
    | some w => exact Shape.describes_text.mp (hfields ("name", .text) (by simp) w hfound)
  obtain ⟨n, hn⟩ := hname
  refine ⟨⟨.str n, ls.map .str⟩, ?_, ⟨n, rfl⟩, ls, rfl⟩
  rw [sectionOf, hls, hn]
  rfl

lemma sectionsFrom_textual {items : List Value} (h : ∀ i ∈ items, sectionShape.Describes i) (index : Nat) :
    ∃ sections, sectionsFrom index items = .ok sections ∧ ∀ s ∈ sections, s.Textual := by
  induction items generalizing index with
  | nil => exact ⟨[], rfl, by simp⟩
  | cons i rest ih =>
    obtain ⟨hi, hrest⟩ := List.forall_mem_cons.mp h
    obtain ⟨s, hs, htext⟩ := sectionOf_textual index hi
    obtain ⟨below, hbelow, htexts⟩ := ih hrest (index + 1)
    refine ⟨s :: below, ?_, List.forall_mem_cons.mpr ⟨htext, htexts⟩⟩
    rw [sectionsFrom, hs, hbelow]
    rfl

lemma exists_sections (h : ∀ w, es.named? key = some w → (Shape.listOf sectionShape).Describes w) :
    ∃ items sections, itemsOf es key = .ok items ∧ sectionsFrom 0 items = .ok sections ∧
      ∀ s ∈ sections, s.Textual := by
  unfold itemsOf
  cases hfound : es.named? key with
  | none => exact ⟨[], [], rfl, rfl, by simp⟩
  | some w =>
    obtain ⟨items, rfl, hitems⟩ := Shape.describes_listOf.mp (h w hfound)
    obtain ⟨sections, hsections, htexts⟩ := sectionsFrom_textual hitems 0
    exact ⟨items, sections, rfl, hsections, htexts⟩

/-- A value with the shape of a record gives one of texts. -/
theorem ofValue_textual (h : shape.Describes v) : ∃ r, ofValue v = .ok r ∧ r.Textual := by
  obtain ⟨es, rfl, hrequired, hfields⟩ := Shape.describes_record.mp h
  obtain ⟨w, hw⟩ := Option.isSome_iff_exists.mp (hrequired "name" (by simp))
  obtain ⟨ls, hls⟩ := itemsOf_texts (hfields ("skill_lines", .texts) (by simp))
  obtain ⟨items, sections, hitems, hsections, htexts⟩ :=
    exists_sections (hfields ("sections", .listOf sectionShape) (by simp [sectionShape]))
  obtain ⟨n, rfl⟩ := Shape.describes_text.mp (hfields ("name", .text) (by simp) w hw)
  have hcategory := fieldOf_textOrNull (hfields ("category", .oneOf [.text, .nothing]) (by simp))
  refine ⟨⟨.str n, fieldOf es "category", fieldOf es "difficulty", fieldOf es "cooldown", ls.map .str, sections⟩,
    ?_, ⟨n, rfl⟩, hcategory, ⟨ls, rfl⟩, htexts⟩
  simp only [ofValue, hw, hls, hitems]
  show (sectionsFrom 0 items).bind _ = _
  rw [hsections]
  rfl

/-- The records of a file are records of texts. -/
theorem textual_of_checked {path : String} {index : Nat} (h : checked path index v = .ok r) : r.Textual := by
  unfold checked at h
  split at h
  · cases h
  · cases h
  · rename_i hnone
    obtain ⟨r', hr', htext⟩ := ofValue_textual (Shape.violation?_eq_none_iff.mp hnone)
    obtain rfl : r' = r := Except.ok.inj (hr'.symm.trans h)
    exact htext

end Checked

end TemplateRecord

end SkillAtlas
