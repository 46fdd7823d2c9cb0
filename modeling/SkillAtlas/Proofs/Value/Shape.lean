import Mathlib.Data.Set.List
import SkillAtlas.Proofs.Yaml.Parts
import SkillAtlas.Value.Shape

/-!
# What values of a shape look like

A value without violations is built as its shape says: a list of texts holds texts only, a mapping to values
of a shape has such values under all keys, and a record has its required keys. A shape accepts a value by the
rules for its parts, and the search for violations finds none exactly in the values that are accepted.
-/

namespace SkillAtlas.Shape

variable {shape : Shape} {v : Value}

/-- The value has the shape. -/
def Describes (shape : Shape) (v : Value) : Prop :=
  (shape.violations v).flatten = []

lemma violation?_eq_none_iff : shape.violation? v = .ok none ↔ shape.Describes v := by
  unfold violation? Describes
  dsimp only
  split
  · simp [Depth.first?]
  · rename_i hnot
    simp only [reduceCtorEq, false_iff]
    intro hnil
    simp [hnil] at hnot

/-- Some violation in the value cannot be told. -/
def Untold (shape : Shape) (v : Value) : Prop :=
  ∃ violation ∈ (shape.violations v).flatten, violation.isTold = false

lemma Describes.not_untold (h : shape.Describes v) : ¬ shape.Untold v := by
  rintro ⟨violation, hv, -⟩
  rw [show (shape.violations v).flatten = [] from h] at hv
  exact List.not_mem_nil hv

/-- Violations are found unless one of them cannot be told. -/
lemma violation?_eq_error_iff {f : Fault} : shape.violation? v = .error f ↔ f = .badValue ∧ shape.Untold v := by
  have htold : shape.Untold v ↔ ¬ (shape.violations v).flatten.all Violation.isTold = true := by
    simp only [Untold, List.all_eq_true, not_forall, exists_prop, Bool.not_eq_true]
  rw [htold]
  unfold violation?
  dsimp only
  split
  · rename_i hall
    simp [hall]
  · rename_i hnot
    simp [hnot, eq_comm]

lemma flatten_above_eq_nil {α : Type} {here : List α} {below : List (List (List α))} :
    (Depth.above here below).flatten = [] ↔ here = [] ∧ ∀ levels ∈ below, levels.flatten = [] := by
  simp only [List.eq_nil_iff_forall_not_mem, Depth.mem_flatten_above, not_or, not_exists, not_and,
    forall_and]
  exact and_congr_right fun _ => ⟨fun h levels hl a ha => h a levels hl ha, fun h a levels hl ha => h levels hl a ha⟩

lemma describes_text : text.Describes v ↔ ∃ s, v = .str s := by
  cases v <;> simp [Describes, text, violations, Kind.holds]

lemma describes_listOf : (listOf shape).Describes v ↔ ∃ items, v = .list items ∧ ∀ w ∈ items, shape.Describes w := by
  cases v with
  | list items =>
    rw [Describes, violations, flatten_above_eq_nil, List.forall_mem_map]
    simp [Describes]
  | _ => simp [Describes, violations]

/-- A list of texts. -/
lemma describes_texts : texts.Describes v ↔ ∃ words : List String, v = .list (words.map .str) := by
  unfold texts
  rw [describes_listOf]
  constructor
  · rintro ⟨items, rfl, h⟩
    have heach : items ∈ Set.range (List.map Value.str) := by
      rw [Set.range_list_map]
      exact fun w hw => (describes_text.mp (h w hw)).imp fun _ => Eq.symm
    obtain ⟨words, rfl⟩ := heach
    exact ⟨words, rfl⟩
  · rintro ⟨words, rfl⟩
    exact ⟨_, rfl, List.forall_mem_map.mpr fun s _ => describes_text.mpr ⟨s, rfl⟩⟩

lemma describes_mapTo :
    (mapTo shape).Describes v ↔ ∃ es, v = .map es ∧ ∀ e ∈ es, shape.Describes e.2 := by
  cases v with
  | map es =>
    rw [Describes, violations, flatten_above_eq_nil, List.forall_mem_map]
    simp [Describes]
  | _ => simp [Describes, violations]

lemma describes_fields {fields : List (String × Shape)} {es : Entries} :
    (∀ levels ∈ fieldViolations fields es, levels.flatten = []) ↔
      ∀ f ∈ fields, ∀ w, es.named? f.1 = some w → f.2.Describes w := by
  induction fields with
  | nil => simp [fieldViolations]
  | cons f rest ih =>
    rw [fieldViolations, List.forall_mem_cons, List.forall_mem_cons, ih]
    refine and_congr_left fun _ => ?_
    cases es.named? f.1 with
    | none => simp
    | some w => simp [Describes]

lemma describes_record {required : List String} {fields : List (String × Shape)} :
    (record required fields).Describes v ↔ ∃ es : Entries, v = .map es ∧
      (∀ k ∈ required, (es.named? k).isSome) ∧ ∀ f ∈ fields, ∀ w, es.named? f.1 = some w → f.2.Describes w := by
  cases v with
  | map es =>
    rw [Describes, violations, flatten_above_eq_nil, describes_fields, List.map_eq_nil_iff, List.filter_eq_nil_iff]
    simp [Option.isSome_iff_ne_none]
  | _ => simp [Describes, violations]

/-- A shape accepts a value by what it asks of the value and of its parts. A record may have other keys, and of the
keys that it may have it need not have any that are not required. -/
inductive Accepts : Shape → Value → Prop where
  | oneOf {kinds : List Kind} {k : Kind} {v : Value} (hk : k ∈ kinds) (h : k.holds v = true) :
      Accepts (.oneOf kinds) v
  | someText {s : String} (h : s ≠ "") : Accepts .someText (.str s)
  | listOf {item : Shape} {items : List Value} (h : ∀ w ∈ items, Accepts item w) :
      Accepts (.listOf item) (.list items)
  | mapTo {value : Shape} {es : Entries} (h : ∀ e ∈ es, Accepts value e.2) : Accepts (.mapTo value) (.map es)
  | record {required : List String} {fields : List (String × Shape)} {es : Entries}
      (hrequired : ∀ k ∈ required, (es.named? k).isSome)
      (hfields : ∀ f ∈ fields, ∀ w, es.named? f.1 = some w → Accepts f.2 w) :
      Accepts (.record required fields) (.map es)

lemma describes_oneOf {kinds : List Kind} : (oneOf kinds).Describes v ↔ ∃ k ∈ kinds, k.holds v = true := by
  rw [Describes, violations]
  split
  · rename_i hany
    simpa using hany
  · rename_i hany
    simpa using hany

lemma describes_someText : someText.Describes v ↔ ∃ s, v = .str s ∧ s ≠ "" := by
  cases v <;> simp [Describes, violations]

lemma Accepts.describes (h : shape.Accepts v) : shape.Describes v := by
  induction h with
  | oneOf hk h => exact describes_oneOf.mpr ⟨_, hk, h⟩
  | someText h => exact describes_someText.mpr ⟨_, rfl, h⟩
  | listOf _ ih => exact describes_listOf.mpr ⟨_, rfl, ih⟩
  | mapTo _ ih => exact describes_mapTo.mpr ⟨_, rfl, ih⟩
  | record hrequired _ ih => exact describes_record.mpr ⟨_, rfl, hrequired, ih⟩

/-- The recursion follows the parts of the shape. -/
theorem Describes.accepts : (shape : Shape) → (v : Value) → shape.Describes v → shape.Accepts v
  | .oneOf _, _, h =>
    let ⟨_, hk, h⟩ := describes_oneOf.mp h
    .oneOf hk h
  | .someText, _, h => by
    obtain ⟨s, rfl, hs⟩ := describes_someText.mp h
    exact .someText hs
  | .listOf item, _, h => by
    obtain ⟨items, rfl, hitems⟩ := describes_listOf.mp h
    exact .listOf fun w hw => Describes.accepts item w (hitems w hw)
  | .mapTo value, _, h => by
    obtain ⟨es, rfl, hes⟩ := describes_mapTo.mp h
    exact .mapTo fun e he => Describes.accepts value e.2 (hes e he)
  | .record _ fields, _, h => by
    obtain ⟨es, rfl, hrequired, hfields⟩ := describes_record.mp h
    exact .record hrequired fun f hf w hw => Describes.accepts f.2 w (hfields f hf w hw)
termination_by shape => sizeOf shape
decreasing_by
  · simp only [Shape.listOf.sizeOf_spec]
    omega
  · simp only [Shape.mapTo.sizeOf_spec]
    omega
  · have hf := List.sizeOf_lt_of_mem ‹f ∈ fields›
    have hp : sizeOf f = 1 + sizeOf f.1 + sizeOf f.2 := Prod.mk.sizeOf_spec f.1 f.2
    simp only [Shape.record.sizeOf_spec]
    omega

lemma accepts_of_isEmpty (h : (shape.violations v).flatten.isEmpty = true) : shape.Accepts v :=
  Describes.accepts shape v (List.isEmpty_iff.mp h)

/-- The values without violations are those that the shape accepts. -/
theorem violation?_eq_none_iff_accepts : shape.violation? v = .ok none ↔ shape.Accepts v :=
  violation?_eq_none_iff.trans ⟨Describes.accepts shape v, Accepts.describes⟩

end SkillAtlas.Shape
