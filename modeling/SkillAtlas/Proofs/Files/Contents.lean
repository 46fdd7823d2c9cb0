import SkillAtlas.Proofs.Settings.Shared
import SkillAtlas.Proofs.Template.Textual
import SkillAtlas.Proofs.Vocabulary.Overrides
import SkillAtlas.Proofs.Yaml.Refusals

/-!
# What the bytes of a file hold

The settings of a user and the records of a file are read in the same way: bytes give a text piece by piece, and
the text a value. Both readers expect that the text is malformed, in which case there are no settings, and the user
is told that there are no records. They expect nothing else, so bytes that are no text, and texts that their tags
refuse, are faults of the readers themselves, unless the text before is malformed.
-/

namespace SkillAtlas

open Vocabulary (Told)

namespace Files

/-- The value of the text of the bytes. -/
def valueIn (bytes : ByteArray) : Except Fault Value :=
  Yaml.readFrom (sourceOf bytes)

/-- The entries of the mapping that the bytes hold; none if they hold no mapping. -/
def MappingIn (bytes : ByteArray) (es : Entries) : Prop :=
  valueIn bytes = .ok (.map es) ∨ es = [] ∧ ∀ given, valueIn bytes ≠ .ok (.map given)

/-- The records that the bytes hold, each of a value with the shape of one. -/
def RecordsIn (bytes : ByteArray) (rs : List TemplateRecord) : Prop :=
  ∃ v values, valueIn bytes = .ok v ∧ TemplateRecord.recordValues? v = some values ∧
    List.Forall₂ (fun w r => TemplateRecord.shape.Describes w ∧ TemplateRecord.ofValue w = .ok r) values rs

/-- Bytes hold no value, for another reason than that their text is malformed. -/
def Spoilt (bytes : ByteArray) (f : Fault) : Prop :=
  valueIn bytes = .error f ∧ f ≠ .malformed

variable {files : Files} {path : Path} {bytes : ByteArray} {text : String} {f : Fault}

lemma textOf_eq_error (h : textOf bytes = .error f) : f = .notUtf8 := by
  unfold textOf at h
  split at h
  · simp at h
  · exact (Except.error.inj h).symm

lemma beyond_inPieces {cs : List Char} {beyond : Option Fault} (h : (inPieces cs beyond).beyond = some f) :
    f = .malformed ∨ beyond = some f := by
  unfold inPieces at h
  split at h
  · exact Or.inr h
  · exact Or.inl (Option.some.inj h).symm

/-- Not all of a text can be had if no document may hold it, or if the bytes are no text. -/
lemma beyond_sourceOf (h : (sourceOf bytes).beyond = some f) :
    f = .malformed ∨ f = .notUtf8 ∧ textOf bytes = .error .notUtf8 := by
  unfold sourceOf at h
  split at h
  · rcases beyond_inPieces h with hf | hf
    · exact Or.inl hf
    · cases hf
  · rename_i g ht
    obtain rfl := textOf_eq_error ht
    rcases beyond_inPieces h with hf | hf
    · exact Or.inl hf
    · exact Or.inr ⟨(Option.some.inj hf).symm, ht⟩

/-- Bytes are spoilt by what is no text, or by what the text before escapes or by its tags. -/
lemma Spoilt.reason (h : Spoilt bytes f) :
    Yaml.Unreadable (sourceOf bytes) f ∧
      (f = .notUtf8 ∧ textOf bytes = .error .notUtf8 ∨ f.OfTokens ∨ f.OfTag) := by
  have hu := Yaml.unreadable_of_readFrom h.1
  refine ⟨hu, ?_⟩
  rcases hu.cases with hf | hf | hf
  · exact Or.inr (Or.inl hf)
  · exact Or.inr (Or.inr hf)
  · exact Or.inl ((beyond_sourceOf hf).resolve_left h.2)

/-- The user is never told of it. -/
lemma Spoilt.not_settings (h : Spoilt bytes f) (g : SettingsFault) : f ≠ .settings g := by
  rintro rfl
  rcases h.reason.2 with ⟨he, -⟩ | hf | hf
  · simp at he
  · cases hf
  · cases hf

/-- Bytes hold a value, or a malformed text, or are spoilt. -/
lemma valueIn_cases (bytes : ByteArray) :
    (∃ v, valueIn bytes = .ok v) ∨ valueIn bytes = .error .malformed ∨ ∃ f, Spoilt bytes f := by
  cases h : valueIn bytes with
  | ok v => exact Or.inl ⟨v, rfl⟩
  | error f =>
    by_cases hf : f = .malformed
    · exact Or.inr (Or.inl (hf ▸ rfl))
    · exact Or.inr (Or.inr ⟨f, ⟨h, hf⟩⟩)

lemma isFile_of_bytes (h : files.bytes? path = some bytes) : files.isFile path = true := by
  rw [isFile, h]
  rfl

lemma isThere_of_bytes (h : files.bytes? path = some bytes) : files.isThere path = true := by
  rw [isThere, isFile_of_bytes h]
  rfl

lemma source_of_bytes (h : files.bytes? path = some bytes) : files.source path = .ok (sourceOf bytes) := by
  rw [source, h]

end Files

namespace UserSettings

variable {files : Files} {path : Path} {bytes : ByteArray}

/-- A file that is not there, or a folder in its place, counts as empty. -/
lemma load_of_no_bytes (h : files.bytes? path = none) : (load files path).outcome = .ok [] := by
  have hfile : files.isFile path = false := by
    rw [Files.isFile, h]
    rfl
  have hlinked : (loadLinked files path).outcome = .ok [] := by
    unfold loadLinked
    split
    · rfl
    · rw [if_pos (by simp [hfile]), Journal.outcome_then]
      rfl
  exact load_eq_ok hlinked

/-- The stored settings are read from the value that the bytes hold. -/
lemma load_of_bytes (h : files.bytes? path = some bytes) :
    (load files path).outcome = match Files.valueIn bytes with
      | .ok v => .ok v.entries
      | .error .malformed => .ok []
      | .error f => .error f := by
  have hload : (load files path).outcome =
      (entriesOf path (Yaml.linkedFrom (Files.sourceOf bytes))).outcome.map Linked.entryValues := by
    rw [outcome_load, loadLinked, Files.isThere_of_bytes h, Files.isFile_of_bytes h]
    simp only [Bool.not_true, Bool.false_eq_true, if_false, Journal.outcome_then, Journal.outcome_lift,
      Files.source_of_bytes h, Except.bind]
  rw [hload, Files.valueIn, Yaml.readFrom]
  cases hl : Yaml.linkedFrom (Files.sourceOf bytes) with
  | error f => cases f <;> rfl
  | ok l =>
    have hentries : Linked.entryValues (l.settled 0).entries = l.value.entries := by
      rw [Linked.entryValues_entries, Linked.value_settled]
    simp [entriesOf, Except.map, hentries]

end UserSettings

namespace TemplateRecord

variable {path : String} {v : Value} {r : TemplateRecord}

lemma checked_eq_ok {index : Nat} : checked path index v = .ok r ↔ shape.Describes v ∧ ofValue v = .ok r := by
  unfold checked
  rw [← Shape.violation?_eq_none_iff]
  split <;> simp_all

/-- A value without the shape of a record is told of, unless the account of it cannot be told. -/
lemma checked_cases (path : String) (index : Nat) (v : Value) :
    (shape.Describes v ∧ ∃ r, checked path index v = .ok r) ∨
    (¬shape.Describes v ∧ ¬shape.Untold v ∧ ∃ f, checked path index v = .error (.settings f)) ∨
    shape.Untold v ∧ checked path index v = .error .badValue := by
  unfold checked
  cases hviolation : shape.violation? v with
  | error f =>
    obtain ⟨rfl, huntold⟩ := Shape.violation?_eq_error_iff.mp hviolation
    exact Or.inr (Or.inr ⟨huntold, rfl⟩)
  | ok found =>
    have htold : ¬shape.Untold v := fun huntold => by
      rw [Shape.violation?_eq_error_iff.mpr ⟨rfl, huntold⟩] at hviolation
      cases hviolation
    cases found with
    | none =>
      have hd := Shape.violation?_eq_none_iff.mp hviolation
      obtain ⟨r, hr, -⟩ := ofValue_textual hd
      exact Or.inl ⟨hd, r, hr⟩
    | some violation =>
      refine Or.inr (Or.inl ⟨fun hd => ?_, htold, _, rfl⟩)
      rw [Shape.violation?_eq_none_iff.mpr hd] at hviolation
      cases hviolation

lemma allChecked_eq_ok {index : Nat} {values : List Value} {rs : List TemplateRecord} :
    allChecked path index values = .ok rs ↔
      List.Forall₂ (fun w r => shape.Describes w ∧ ofValue w = .ok r) values rs := by
  induction values generalizing index rs with
  | nil => cases rs <;> simp [allChecked]
  | cons v rest ih =>
    rw [List.forall₂_cons_left_iff]
    refine Fault.bind_eq_ok.trans ⟨?_, ?_⟩
    · rintro ⟨r, hr, h⟩
      obtain ⟨others, hothers, h⟩ := Fault.bind_eq_ok.mp h
      exact ⟨r, others, checked_eq_ok.mp hr, ih.mp hothers, (Except.ok.inj h).symm⟩
    · rintro ⟨r, others, hr, hothers, rfl⟩
      exact ⟨r, checked_eq_ok.mpr hr, Fault.bind_eq_ok.mpr ⟨others, ih.mpr hothers, rfl⟩⟩

/-- The first value without the shape of a record is one of which the account cannot be told. -/
def UntoldIn (values : List Value) : Prop :=
  ∃ before w after, values = before ++ w :: after ∧ (∀ u ∈ before, shape.Describes u) ∧ shape.Untold w

lemma untoldIn_cons (v : Value) (rest : List Value) :
    UntoldIn (v :: rest) ↔ shape.Untold v ∨ shape.Describes v ∧ UntoldIn rest := by
  constructor
  · rintro ⟨before, w, after, heq, hbefore, hw⟩
    cases before with
    | nil =>
      obtain ⟨rfl, -⟩ := List.cons.inj heq
      exact Or.inl hw
    | cons u before =>
      obtain ⟨rfl, rfl⟩ := List.cons.inj heq
      obtain ⟨hu, hbefore⟩ := List.forall_mem_cons.mp hbefore
      exact Or.inr ⟨hu, before, w, after, rfl, hbefore, hw⟩
  · rintro (hv | ⟨hv, before, w, after, rfl, hbefore, hw⟩)
    · exact ⟨[], v, rest, rfl, by simp, hv⟩
    · exact ⟨v :: before, w, after, rfl, List.forall_mem_cons.mpr ⟨hv, hbefore⟩, hw⟩

/-- Values give records, or the user is told of the first that gives none, or it cannot be told. -/
lemma allChecked_cases (path : String) (index : Nat) (values : List Value) :
    (¬UntoldIn values ∧ Told (allChecked path index values)) ∨
      UntoldIn values ∧ allChecked path index values = .error .badValue := by
  induction values generalizing index with
  | nil => exact Or.inl ⟨by simp [UntoldIn], Or.inl ⟨[], rfl⟩⟩
  | cons v rest ih =>
    rw [allChecked, untoldIn_cons]
    rcases checked_cases path index v with ⟨hd, r, hr⟩ | ⟨hd, htold, f, hf⟩ | ⟨huntold, hf⟩
    · have htold := hd.not_untold
      rw [hr]
      rcases ih (index + 1) with ⟨hrest, ⟨rs, hrs⟩ | ⟨f, hf⟩⟩ | ⟨hrest, hf⟩
      · exact Or.inl ⟨by tauto, Or.inl ⟨r :: rs, by rw [hrs]; rfl⟩⟩
      · exact Or.inl ⟨by tauto, Or.inr ⟨f, by rw [hf]; rfl⟩⟩
      · exact Or.inr ⟨Or.inr ⟨hd, hrest⟩, by rw [hf]; rfl⟩
    · exact Or.inl ⟨by tauto, Or.inr ⟨f, by rw [hf]; rfl⟩⟩
    · exact Or.inr ⟨Or.inl huntold, by rw [hf]; rfl⟩

variable {files : Files} {file : Path} {bytes : ByteArray}

/-- The value of a file is the one that its bytes hold, and text that is malformed is told. -/
lemma fileValue_of_bytes (h : files.bytes? file = some bytes) :
    fileValue files file = match Files.valueIn bytes with
      | .error .malformed => .error (.settings (.unreadableTemplate file.text))
      | r => r := by
  rw [fileValue, Files.isThere_of_bytes h, Files.source_of_bytes h]
  rfl

/-- The records are read from the value that the bytes hold. -/
lemma load_of_bytes (h : files.bytes? file = some bytes) :
    (load files file).outcome = match Files.valueIn bytes with
      | .ok v => match recordValues? v with
        | none => .error (.settings (.notTemplates file.text))
        | some values => allChecked file.text 0 values
      | .error .malformed => .error (.settings (.unreadableTemplate file.text))
      | .error f => .error f := by
  rw [load, Journal.outcome_then, Journal.outcome_lift, fileValue_of_bytes h]
  cases hv : Files.valueIn bytes with
  | error f => cases f <;> rfl
  | ok v =>
    dsimp only [Except.bind]
    cases recordValues? v with
    | none => rfl
    | some values =>
      simp only [Journal.outcome_then, Journal.outcome_lift]
      cases allChecked file.text 0 values <;> rfl

/-- The records are those that the bytes hold. -/
lemma load_eq_ok (h : files.bytes? file = some bytes) {rs : List TemplateRecord} :
    (load files file).outcome = .ok rs ↔ Files.RecordsIn bytes rs := by
  rw [load_of_bytes h, Files.RecordsIn]
  cases hv : Files.valueIn bytes with
  | error f => cases f <;> simp
  | ok v =>
    cases hvalues : recordValues? v with
    | none => simp [hvalues]
    | some values => simp [hvalues, allChecked_eq_ok]

end TemplateRecord

namespace Files

variable {files : Files} {path : Path} {bytes : ByteArray} {f : Fault}

/-- What spoils the bytes escapes from both readers. -/
lemma load_of_spoilt (h : files.bytes? path = some bytes) (hf : Spoilt bytes f) :
    (UserSettings.load files path).outcome = .error f ∧ (TemplateRecord.load files path).outcome = .error f := by
  obtain ⟨hv, hne⟩ := hf
  rw [UserSettings.load_of_bytes h, TemplateRecord.load_of_bytes h, hv]
  cases f <;> simp_all

/-- The bytes hold values for records, and the first of them without the shape of a record is one of which the
account cannot be told. -/
def UntoldRecords (bytes : ByteArray) : Prop :=
  ∃ v values, valueIn bytes = .ok v ∧ TemplateRecord.recordValues? v = some values ∧ TemplateRecord.UntoldIn values

/-- Bytes that are not spoilt give settings: the mapping that they hold. -/
lemma settings_of_not_spoilt (h : files.bytes? path = some bytes) (hsound : ∀ f, ¬Spoilt bytes f) :
    ∃ es, (UserSettings.load files path).outcome = .ok es ∧ MappingIn bytes es := by
  rw [UserSettings.load_of_bytes h]
  rcases valueIn_cases bytes with ⟨v, hv⟩ | hv | ⟨f, hf⟩
  · rw [hv]
    refine ⟨v.entries, rfl, ?_⟩
    cases v with
    | map es => exact Or.inl hv
    | _ => exact Or.inr ⟨rfl, fun given he => by simp [hv] at he⟩
  · rw [hv]
    exact ⟨[], rfl, Or.inr ⟨rfl, fun given he => by simp [hv] at he⟩⟩
  · exact absurd hf (hsound f)

lemma load_of_untoldRecords (h : files.bytes? path = some bytes) (huntold : UntoldRecords bytes) :
    (TemplateRecord.load files path).outcome = .error .badValue := by
  obtain ⟨v, values, hv, hvalues, huntold⟩ := huntold
  rw [TemplateRecord.load_of_bytes h, hv]
  rcases TemplateRecord.allChecked_cases path.text 0 values with ⟨htold, -⟩ | ⟨-, hf⟩
  · exact absurd huntold htold
  · simpa [hvalues] using hf

/-- Bytes that are not spoilt give records, or the user is told why not, if that can be told. -/
lemma told_of_not_spoilt (h : files.bytes? path = some bytes) (hsound : ∀ f, ¬Spoilt bytes f)
    (htells : ¬UntoldRecords bytes) : Told (TemplateRecord.load files path).outcome := by
  rw [TemplateRecord.load_of_bytes h]
  rcases valueIn_cases bytes with ⟨v, hv⟩ | hv | ⟨f, hf⟩
  · rw [hv]
    dsimp only
    cases hvalues : TemplateRecord.recordValues? v with
    | none => exact Or.inr ⟨_, rfl⟩
    | some values =>
      rcases TemplateRecord.allChecked_cases path.text 0 values with ⟨-, htold⟩ | ⟨hno, -⟩
      · exact htold
      · exact absurd ⟨v, values, hv, hvalues, hno⟩ htells
  · rw [hv]
    exact Or.inr ⟨_, rfl⟩
  · exact absurd hf (hsound f)

/-- One file. -/
def single (path : Path) (bytes : ByteArray) : Files :=
  { files := [(path, bytes)] }

lemma bytes_single (path : Path) (bytes : ByteArray) : (single path bytes).bytes? path = some bytes := by
  simp [bytes?, single]

lemma not_spoilt (h : (valueIn bytes).toOption.isSome) (f : Fault) : ¬Spoilt bytes f := by
  intro hf
  rw [hf.1] at h
  simp [Except.toOption] at h

/-- The fault that spoils the bytes, as far as its kind matters here. -/
def spoiltBy (bytes : ByteArray) : Option Bool :=
  match valueIn bytes with
  | .error .badValue => some false
  | .error .notUtf8 => some true
  | _ => none

lemma spoilt_of_spoiltBy (noText : Bool) (h : spoiltBy bytes = some noText) :
    Spoilt bytes (if noText then .notUtf8 else .badValue) := by
  unfold spoiltBy at h
  split at h
  · rename_i hv
    obtain rfl := Option.some.inj h
    exact ⟨hv, by simp⟩
  · rename_i hv
    obtain rfl := Option.some.inj h
    exact ⟨hv, by simp⟩
  · simp at h

end Files

end SkillAtlas
