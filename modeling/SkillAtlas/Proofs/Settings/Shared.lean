import SkillAtlas.Proofs.Analysis.Stages
import SkillAtlas.Proofs.Settings.Nested
import SkillAtlas.Proofs.Value.Linked

/-!
# Shared mappings in settings

Settings are loaded, changed and stored with the mappings that stand in several places, since a change in one
place is a change in all. Where no mapping does, a value is stored in one place as if there were no marks.
-/

namespace SkillAtlas

/-- Nothing is read of a text of which nothing can be had. -/
lemma Yaml.linkedFrom_beyond (f : Fault) : Yaml.linkedFrom ⟨[], some f⟩ = .error f :=
  rfl

namespace Files

variable {bytes : ByteArray} {text : String}

/-- All of a text can be had if documents may hold it. -/
lemma sourceOf_of_allowed (ht : textOf bytes = .ok text) (hall : text.toList.all Yaml.isAllowed = true) :
    sourceOf bytes = .ofText text := by
  have hfind : text.toList.findIdx? (!Yaml.isAllowed ·) = none := by
    simpa [List.findIdx?_eq_none_iff] using hall
  simp only [sourceOf, ht, inPieces, hfind, Yaml.Source.ofText, hall, if_true]

/-- A text that has a value is one that documents may hold. -/
lemma source_of_read {files : Files} {path : Path} {l : Linked} (hr : files.read path = .ok text)
    (hl : Yaml.readLinked text = .ok l) : files.source path = .ok (.ofText text) := by
  have hall : text.toList.all Yaml.isAllowed = true := by
    by_contra hno
    rw [Yaml.readLinked, Yaml.Source.ofText, if_neg hno, Yaml.linkedFrom_beyond] at hl
    cases hl
  cases hb : files.bytes? path with
  | some bytes =>
    simp only [read, hb] at hr
    simp only [source, hb, sourceOf_of_allowed hr hall]
  | none => simp [read, hb] at hr

end Files

namespace UserSettings

open Linked (entryValues)
open LinkedEntries (entryValues_put named?_entryValues)

section Shared

variable {es : LinkedEntries} {l : Linked} {k : String} {rest parts : List String}

/-- The mapping under a key with its mark; what is no mapping counts as empty. -/
def linkedUnder (es : LinkedEntries) (k : String) : Option Nat × LinkedEntries :=
  ((es.named? k).bind Linked.mapping?).getD (none, [])

lemma setLinkedAt_cons (hr : rest ≠ []) :
    setLinkedAt l (k :: rest) es = LinkedEntries.put (.str k)
      (.map (linkedUnder es k).1 (setLinkedAt l rest (linkedUnder es k).2)) es := by
  cases rest with
  | nil => exact absurd rfl hr
  | cons next more => rfl

lemma entryValues_linkedUnder (es : LinkedEntries) (k : String) :
    entryValues (linkedUnder es k).2 = under (entryValues es) k := by
  unfold linkedUnder under
  rw [named?_entryValues]
  cases es.named? k with
  | none => rfl
  | some l =>
    rw [Option.map_some, Option.bind_some]
    rcases l.mapping?_cases with ⟨mark, inner, hm, hv⟩ | ⟨hm, hv⟩
    · rw [hm, hv]
      rfl
    · rw [hm]
      split
      · rename_i inner hinner
        exact absurd (Option.some.inj hinner) (hv inner)
      · rfl

/-- In one place a value is stored with marks as without. -/
lemma entryValues_setLinkedAt (l : Linked) (parts : List String) (es : LinkedEntries) :
    entryValues (setLinkedAt l parts es) = setAt l.value parts (entryValues es) := by
  induction parts generalizing es with
  | nil => rfl
  | cons k rest ih =>
    by_cases hr : rest = []
    · subst hr
      exact entryValues_put
    · rw [setLinkedAt_cons hr, entryValues_put, Linked.value, ih, entryValues_linkedUnder, setAt_cons hr]

lemma unshared_linkedUnder (h : es.Unshared) (k : String) :
    (linkedUnder es k).1 = none ∧ (linkedUnder es k).2.Unshared := by
  unfold linkedUnder
  cases hm : (es.named? k).bind Linked.mapping? with
  | none => exact ⟨rfl, rfl⟩
  | some found =>
    obtain ⟨l, hl, hm⟩ := Option.bind_eq_some_iff.mp hm
    exact (h.named? hl).mapping? hm

lemma unshared_setLinkedAt (hl : l.Unshared) (h : es.Unshared) (parts : List String) :
    (setLinkedAt l parts es).Unshared := by
  induction parts generalizing es with
  | nil => exact h
  | cons k rest ih =>
    by_cases hr : rest = []
    · subst hr
      exact h.put _ hl
    · obtain ⟨hmark, hinner⟩ := unshared_linkedUnder h k
      rw [setLinkedAt_cons hr, hmark]
      exact h.put _ (Linked.unshared_map.mpr ⟨rfl, ih hinner⟩)

lemma shared?_eq_none (h : es.Unshared) (parts : List String) : shared? parts es = none := by
  induction parts generalizing es with
  | nil => rfl
  | cons k rest ih =>
    cases rest with
    | nil => rfl
    | cons next more =>
      unfold shared?
      cases hm : (es.named? k).bind Linked.mapping? with
      | none => rfl
      | some found =>
        obtain ⟨l, hl, hm⟩ := Option.bind_eq_some_iff.mp hm
        obtain ⟨hmark, hinner⟩ := (h.named? hl).mapping? hm
        rw [Option.bind_some]
        dsimp only
        rw [ih hinner, hmark]
        rfl

lemma setLinked_of_unshared (h : es.Unshared) (l : Linked) (parts : List String) :
    setLinked l parts es = setLinkedAt l parts es := by
  rw [setLinked, shared?_eq_none h]

end Shared

section Outcomes

variable (files : Files) (path : Path) {key text : String}

lemma outcome_load : (load files path).outcome = (loadLinked files path).outcome.map entryValues := by
  unfold load
  rw [Journal.outcome_then]
  cases (loadLinked files path).outcome <;> rfl

lemma partsOf_eq_ok {parts : List String} : partsOf key = .ok parts ↔ keyParts key ≠ [] ∧ keyParts key = parts := by
  unfold partsOf
  split
  · rename_i hnil
    simp [hnil]
  · rename_i hparts
    simp only [Except.ok.injEq]
    exact ⟨fun h => ⟨hparts, h⟩, fun h => h.2⟩

lemma outcome_withLinked (hk : keyParts key ≠ []) : (withLinked files path key text).outcome =
    (loadLinked files path).outcome.bind fun es =>
      (linkedOf text).map fun l => setLinked l (keyParts key) es := by
  unfold withLinked
  rw [partsOf_eq_ok.mpr ⟨hk, rfl⟩]
  simp only [Journal.outcome_then, Journal.outcome_lift, Except.bind]
  cases (loadLinked files path).outcome with
  | error f => rfl
  | ok es => cases linkedOf text <;> rfl

lemma outcome_set : (set files path key text).outcome =
    (withLinked files path key text).outcome.bind fun es =>
      (storedText es).map fun _ => saveLinked files path es := by
  unfold set
  simp only [Journal.outcome_then, Journal.outcome_lift]
  cases (withLinked files path key text).outcome with
  | error f => rfl
  | ok es => simp only [Except.bind]; cases storedText es <;> rfl

lemma valueOf_eq_ok {v : Value} : valueOf text = .ok v ↔ ∃ l, linkedOf text = .ok l ∧ l.value = v :=
  Fault.map_eq_ok

variable {files path}

lemma loadLinked_of_read {l : Linked} (hr : files.read path = .ok text) (hl : Yaml.readLinked text = .ok l) :
    (loadLinked files path).outcome = .ok (l.settled 0).entries := by
  have hfile : files.isFile path = true := by
    unfold Files.read at hr
    unfold Files.isFile
    split at hr
    · rename_i hb
      rw [hb]
      rfl
    · simp at hr
  unfold loadLinked
  simp only [Files.isThere, hfile, Bool.true_or, Bool.not_true, Bool.false_eq_true, if_false,
    Journal.outcome_then, Journal.outcome_lift, Files.source_of_read hr hl, Except.bind]
  rw [show Yaml.linkedFrom (.ofText text) = .ok l from hl]
  rfl

lemma load_eq_ok {es : LinkedEntries} (h : (loadLinked files path).outcome = .ok es) :
    (load files path).outcome = .ok (entryValues es) := by
  rw [outcome_load, h]
  rfl

/-- An empty file holds no settings. -/
lemma loadLinked_empty (files : Files) (path : Path) :
    (loadLinked (files.write path "") path).outcome = .ok [] := by
  have hbytes : (files.write path "").bytes? path = some "".toUTF8 := by
    simp [Files.bytes?, Files.write, List.lookup]
  have hread : (files.write path "").read path = .ok "" := by
    unfold Files.read
    rw [hbytes]
    rfl
  have hnone : (Yaml.readLinked "").toOption.any (fun l => (l.settled 0).entries.isEmpty) = true := by
    decide +kernel
  cases hl : Yaml.readLinked "" with
  | error f => simp [hl, Except.toOption] at hnone
  | ok l =>
    rw [hl] at hnone
    rw [loadLinked_of_read hread hl, List.isEmpty_iff.mp hnone]

lemma setLinkedAt_ne_nil (l : Linked) {parts : List String} (hp : parts ≠ []) (es : LinkedEntries) :
    setLinkedAt l parts es ≠ [] := by
  have hput : ∀ (k : String) (v : Linked), LinkedEntries.put (.str k) v es ≠ [] := by
    intro k v
    cases es with
    | nil => simp [LinkedEntries.put]
    | cons e rest =>
      unfold LinkedEntries.put
      split <;> simp
  cases parts with
  | nil => exact absurd rfl hp
  | cons k rest =>
    cases rest with
    | nil => exact hput k l
    | cons next more => exact hput k _

end Outcomes

end UserSettings

end SkillAtlas
