import Mathlib.Data.List.Induction
import SkillAtlas.Proofs.Settings.Nested
import SkillAtlas.Proofs.Settings.Shared
import SkillAtlas.Proofs.Yaml.Sharing

/-!
# Storing values one after the other

Each value that is stored is found in the file under its keys, and what stands under other keys stays. This
takes that no mapping in the file or in the values stands in several places.
-/

namespace SkillAtlas.UserSettings

open Linked (entryValues)

/-- A key and the text of a value to store under it. -/
structure Setting where
  key : String
  text : String

namespace Setting

def parts (c : Setting) : List String :=
  keyParts c.key

/-- There are keys to store under, and the text has a value no mapping of which stands in several places. -/
def Plain (c : Setting) : Prop :=
  c.parts ≠ [] ∧ ∃ l, linkedOf c.text = .ok l ∧ l.Unshared

/-- A text without aliases that has a value can be stored so. -/
theorem plain_of_unaliased {c : Setting} {v : Value} (hk : c.parts ≠ []) (hv : valueOf c.text = .ok v)
    (hno : Yaml.Unaliased c.text) : c.Plain := by
  obtain ⟨l, hl, -⟩ := valueOf_eq_ok.mp hv
  refine ⟨hk, l, hl, ?_⟩
  unfold linkedOf at hl
  split at hl
  · obtain rfl := Except.ok.inj hl
    rfl
  · obtain ⟨read, hread, rfl⟩ := Fault.map_eq_ok.mp hl
    exact Yaml.unshared_of_unaliased hno hread 1

end Setting

/-- The files after settings were stored one after the other. -/
def after (files : Files) (path : Path) (settings : List Setting) : Files :=
  settings.foldl (fun files c => (set files path c.key c.text).outcome.toOption.getD files) files

/-- The mapping that is stored with the setting is read back as it is, and none of it is shared that was not. -/
def Reloads (files : Files) (path : Path) (c : Setting) : Prop :=
  ∀ es, (withLinked files path c.key c.text).outcome = .ok es →
    ∃ new, (loadLinked (saveLinked files path es) path).outcome = .ok new ∧ entryValues new = entryValues es ∧
      (es.Unshared → new.Unshared)

/-- The file holds these settings, and no mapping in them stands in several places. -/
def Holds (files : Files) (path : Path) (es : Entries) : Prop :=
  ∃ l, (loadLinked files path).outcome = .ok l ∧ l.Unshared ∧ entryValues l = es

variable {files : Files} {path : Path} {es : Entries} {c d : Setting} {settings : List Setting}

/-- Settings in a file without aliases are held so. -/
theorem holds_of_unaliased {text : String} {v : Value} (hr : files.read path = .ok text)
    (hy : Yaml.read text = .ok v) (hno : Yaml.Unaliased text) : Holds files path v.entries := by
  obtain ⟨l, hl, rfl⟩ := Yaml.linkedFrom_of_readFrom hy
  refine ⟨_, loadLinked_of_read hr hl, (Yaml.unshared_of_unaliased hno hl 0).entries, ?_⟩
  rw [Linked.entryValues_entries, Linked.value_settled]

lemma after_append (done more : List Setting) :
    after files path (done ++ more) = after (after files path done) path more :=
  List.foldl_append

lemma Holds.load (h : Holds files path es) : (load files path).outcome = .ok es := by
  obtain ⟨l, hl, -, rfl⟩ := h
  exact load_eq_ok hl

/-- Settings that are read back were written: if they could not be, the file would be empty. -/
lemma Reloads.exists_storedText {es : LinkedEntries} (hr : Reloads files path c)
    (hes : (withLinked files path c.key c.text).outcome = .ok es) (hne : es ≠ []) :
    ∃ text, storedText es = .ok text := by
  cases ht : storedText es with
  | ok text => exact ⟨text, rfl⟩
  | error f =>
    obtain ⟨new, hnew, hvalues, -⟩ := hr es hes
    have hempty : (loadLinked (saveLinked files path es) path).outcome = .ok [] := by
      rw [saveLinked, ht]
      exact loadLinked_empty files path
    obtain rfl := Except.ok.inj (hnew.symm.trans hempty)
    cases es with
    | nil => exact absurd rfl hne
    | cons first rest => cases hvalues

/-- One setting is stored as in a mapping without marks. -/
lemma Holds.set (h : Holds files path es) (hc : c.Plain) (hr : Reloads files path c) :
    ∃ v, valueOf c.text = .ok v ∧ (set files path c.key c.text).outcome = .ok (after files path [c]) ∧
      Holds (after files path [c]) path (setAt v c.parts es) := by
  obtain ⟨stored, hload, hunshared, rfl⟩ := h
  obtain ⟨hk, l, hl, hlu⟩ := hc
  have hwith : (withLinked files path c.key c.text).outcome = .ok (setLinkedAt l c.parts stored) := by
    rw [outcome_withLinked files path hk, hload, hl, ← setLinked_of_unshared hunshared]
    rfl
  have hset : (UserSettings.set files path c.key c.text).outcome =
      .ok (saveLinked files path (setLinkedAt l c.parts stored)) := by
    obtain ⟨text, htext⟩ := hr.exists_storedText hwith (setLinkedAt_ne_nil l hk stored)
    rw [outcome_set, hwith, Except.bind, htext]
    rfl
  have hafter : after files path [c] = saveLinked files path (setLinkedAt l c.parts stored) := by
    rw [after, List.foldl_cons, List.foldl_nil, hset]
    rfl
  obtain ⟨new, hnew, hvalues, hnewu⟩ := hr _ hwith
  rw [hafter]
  refine ⟨l.value, valueOf_eq_ok.mpr ⟨l, hl, rfl⟩, hset, new, hnew, ?_, ?_⟩
  · exact hnewu (unshared_setLinkedAt hlu hunshared c.parts)
  · rw [hvalues, entryValues_setLinkedAt]

/-- However many settings are stored, no mapping comes to stand in several places. -/
lemma Holds.after (h : Holds files path es) (hc : ∀ c ∈ settings, c.Plain)
    (hr : ∀ done c rest, settings = done ++ c :: rest → Reloads (after files path done) path c) :
    ∃ new, Holds (after files path settings) path new := by
  induction settings using List.reverseRecOn with
  | nil => exact ⟨es, h⟩
  | append_singleton done c ih =>
    obtain ⟨mid, hmid⟩ := ih (fun d hd => hc d (List.mem_append_left _ hd)) fun first d rest heq =>
      hr first d (rest ++ [c]) (by rw [heq, List.append_assoc, List.cons_append])
    obtain ⟨v, -, -, hnew⟩ := hmid.set (hc c (by simp)) (hr done c [] rfl)
    exact ⟨_, after_append done [c] ▸ hnew⟩

/-- Every setting of a sequence is stored and then found under its keys, and what is or is not under keys
apart from them is as before. Of two settings in a row with keys apart, either can be stored first. -/
theorem settings_stored_apart (files : Files) (path : Path) (es : Entries) (settings : List Setting)
    (h : Holds files path es) (hc : ∀ c ∈ settings, c.Plain)
    (hr : ∀ done c rest, settings = done ++ c :: rest → Reloads (after files path done) path c) :
    (∀ done c rest, settings = done ++ c :: rest → ∃ v before now,
      valueOf c.text = .ok v ∧
      (set (after files path done) path c.key c.text).outcome = .ok (after files path (done ++ [c])) ∧
      (load (after files path done) path).outcome = .ok before ∧
      (load (after files path (done ++ [c])) path).outcome = .ok now ∧
      getAt? c.parts (.map now) = some v ∧
      ∀ q, Apart c.parts q → getAt? q (.map now) = getAt? q (.map before)) ∧
    ∀ done c d rest, settings = done ++ c :: d :: rest → Apart c.parts d.parts →
      Reloads (after files path done) path d → Reloads (after files path (done ++ [d])) path c →
      ∃ now other, (load (after files path (done ++ [c, d])) path).outcome = .ok now ∧
        (load (after files path (done ++ [d, c])) path).outcome = .ok other ∧ now.Reordered other := by
  -- the file before any setting of the sequence
  have hbefore : ∀ done rest, settings = done ++ rest → ∃ mid, Holds (after files path done) path mid := by
    intro done rest heq
    refine h.after (fun d hd => hc d (heq ▸ List.mem_append_left rest hd)) fun first d more hdone => ?_
    exact hr first d (more ++ rest) (by rw [heq, hdone, List.append_assoc, List.cons_append])
  constructor
  · intro done c rest heq
    obtain ⟨before, hb⟩ := hbefore done (c :: rest) heq
    obtain ⟨v, hv, hset, hnow⟩ := hb.set (hc c (by simp [heq])) (hr done c rest heq)
    rw [← after_append] at hset hnow
    exact ⟨v, before, _, hv, hset, hb.load, hnow.load, getAt?_setAt_self v (hc c (by simp [heq])).1 before,
      fun q hq => getAt?_setAt_of_apart v hq before⟩
  · intro done c d rest heq hapart hd hdc
    obtain ⟨before, hb⟩ := hbefore done (c :: d :: rest) heq
    have hcplain := hc c (by simp [heq])
    have hdplain := hc d (by simp [heq])
    have hcd := hr (done ++ [c]) d rest (by simp [heq])
    rw [after_append] at hcd hdc
    obtain ⟨v, hv, -, hfirst⟩ := hb.set hcplain (hr done c (d :: rest) heq)
    obtain ⟨w, hw, -, hboth⟩ := hfirst.set hdplain hcd
    obtain ⟨w', hw', -, hother⟩ := hb.set hdplain hd
    obtain ⟨v', hv', -, hswapped⟩ := hother.set hcplain hdc
    obtain rfl := Except.ok.inj (hv.symm.trans hv')
    obtain rfl := Except.ok.inj (hw.symm.trans hw')
    rw [← after_append, ← after_append] at hboth hswapped
    exact ⟨_, _, hboth.load, hswapped.load, reordered_setAt_setAt v w hapart before⟩

section Samples

mutual
/-- Two values are the same text, or mappings with the same texts. -/
def sameTexts : Value → Value → Bool
  | .str s, .str t => s == t
  | .map es, .map new => sameEntries es new
  | _, _ => false

def sameEntries : Entries → Entries → Bool
  | [], [] => true
  | (k, v) :: rest, (l, w) :: more => sameTexts k l && sameTexts v w && sameEntries rest more
  | _, _ => false
end

mutual
theorem eq_of_sameTexts : (v w : Value) → sameTexts v w = true → v = w
  | .str _, .str _, h => congrArg Value.str (eq_of_beq h)
  | .map es, .map new, h => congrArg Value.map (eq_of_sameEntries es new h)

theorem eq_of_sameEntries : (es new : Entries) → sameEntries es new = true → es = new
  | [], [], _ => rfl
  | (k, v) :: rest, (l, w) :: more, h => by
    simp only [sameEntries, Bool.and_eq_true] at h
    rw [eq_of_sameTexts k l h.1.1, eq_of_sameTexts v w h.1.2, eq_of_sameEntries rest more h.2]
end

/-- For settings of texts: the mapping that is stored is read back as it is. -/
def reloads (files : Files) (path : Path) (c : Setting) : Bool :=
  (withLinked files path c.key c.text).outcome.toOption.all fun es =>
    (loadLinked (saveLinked files path es) path).outcome.toOption.any fun new =>
      sameEntries (entryValues new) (entryValues es) &&
        (!(Linked.entryMarks es).isEmpty || (Linked.entryMarks new).isEmpty)

lemma exists_of_any {α : Type} {r : Except Fault α} {p : α → Bool} (h : r.toOption.any p = true) :
    ∃ a, r = .ok a ∧ p a = true := by
  cases r with
  | error f => simp [Except.toOption] at h
  | ok a => exact ⟨a, rfl, h⟩

lemma Reloads.of_reloads (h : reloads files path c = true) : Reloads files path c := by
  intro es hes
  unfold reloads at h
  rw [hes] at h
  obtain ⟨new, hnew, h⟩ := exists_of_any h
  simp only [Bool.and_eq_true, Bool.or_eq_true, Bool.not_eq_true', List.isEmpty_eq_false_iff,
    List.isEmpty_iff] at h
  exact ⟨new, hnew, eq_of_sameEntries _ _ h.1, fun hu => h.2.resolve_left fun hno => hno hu⟩

instance (c : Setting) : Decidable c.Plain :=
  decidable_of_iff (c.parts ≠ [] ∧ (linkedOf c.text).toOption.any (fun l => l.marks.isEmpty) = true) <| by
    refine and_congr_right fun _ => ⟨fun h => ?_, fun ⟨l, hl, hu⟩ => ?_⟩
    · obtain ⟨l, hl, hu⟩ := exists_of_any h
      exact ⟨l, hl, List.isEmpty_iff.mp hu⟩
    · rw [hl]
      exact List.isEmpty_iff.mpr hu

lemma reloads_of_pair (hc : Reloads files path c) (hd : Reloads (after files path [c]) path d) :
    ∀ done e rest, [c, d] = done ++ e :: rest → Reloads (after files path done) path e := by
  intro done e rest heq
  rcases done with _ | ⟨first, _ | ⟨second, more⟩⟩
  · obtain ⟨rfl, -⟩ := List.cons.inj heq
    exact hc
  · obtain ⟨rfl, hrest⟩ := List.cons.inj heq
    obtain ⟨rfl, -⟩ := List.cons.inj hrest
    exact hd
  · simp at heq

def sampleFile : Path :=
  ⟨true, ["settings"]⟩

lemma holds_nothing : Holds {} sampleFile [] :=
  ⟨[], rfl, rfl, rfl⟩

/-- Two texts under keys that have the first part in common. -/
theorem settings_stored_apart_texts :
    let c : Setting := ⟨"a.b", "x"⟩
    let d : Setting := ⟨"a..c", "y"⟩
    Apart c.parts d.parts ∧ Reloads (after {} sampleFile [c]) sampleFile d ∧
      ∃ now other, (load (after {} sampleFile [c, d]) sampleFile).outcome = .ok now ∧
        (load (after {} sampleFile [d, c]) sampleFile).outcome = .ok other ∧ now.Reordered other := by
  intro c d
  have hapart : Apart c.parts d.parts := by
    unfold Apart
    decide +kernel
  have hc : Reloads {} sampleFile c := .of_reloads (by decide +kernel)
  have hd : Reloads {} sampleFile d := .of_reloads (by decide +kernel)
  have hcd : Reloads (after {} sampleFile [c]) sampleFile d := .of_reloads (by decide +kernel)
  have hdc : Reloads (after {} sampleFile [d]) sampleFile c := .of_reloads (by decide +kernel)
  have hplain : ∀ e ∈ [c, d], e.Plain := by decide +kernel
  have h := settings_stored_apart {} sampleFile [] [c, d] holds_nothing hplain (reloads_of_pair hc hcd)
  exact ⟨hapart, hcd, h.2 [] c d [] rfl hapart hd hdc⟩

/-- A text with aliases puts one mapping in two places, and a value that is stored in one place is then found
in the other one too. -/
theorem shared_mapping_changed_elsewhere :
    let c : Setting := ⟨"v", "\x7bx: &a \x7bk: one\x7d, y: *a\x7d"⟩
    let d : Setting := ⟨"v.x.k", "two"⟩
    Holds {} sampleFile [] ∧ (c.parts ≠ [] ∧ ∃ v, valueOf c.text = .ok v) ∧ d.Plain ∧
      Reloads {} sampleFile c ∧ Reloads (after {} sampleFile [c]) sampleFile d ∧
      Apart d.parts ["v", "y", "k"] ∧ ∃ before now,
        (load (after {} sampleFile [c]) sampleFile).outcome = .ok before ∧
        (load (after {} sampleFile [c, d]) sampleFile).outcome = .ok now ∧
        getAt? ["v", "y", "k"] (.map before) = some (.str "one") ∧
        getAt? ["v", "y", "k"] (.map now) = some (.str "two") := by
  intro c d
  have hfound : ∀ {calls : List Setting} {s : String},
      (load (after {} sampleFile calls) sampleFile).outcome.toOption.any (fun es =>
        ((getAt? ["v", "y", "k"] (.map es)).map (sameTexts · (.str s))).getD false) = true →
      ∃ es, (load (after {} sampleFile calls) sampleFile).outcome = .ok es ∧
        getAt? ["v", "y", "k"] (.map es) = some (.str s) := by
    intro calls s h
    obtain ⟨es, hes, h⟩ := exists_of_any h
    cases hv : getAt? ["v", "y", "k"] (.map es) with
    | none => simp [hv] at h
    | some v =>
      rw [hv] at h
      exact ⟨es, hes, hv ▸ congrArg some (eq_of_sameTexts v _ h)⟩
  have hvalue : (valueOf c.text).toOption.any (fun _ => true) = true := by decide +kernel
  obtain ⟨v, hv, -⟩ := exists_of_any hvalue
  have hapart : Apart d.parts ["v", "y", "k"] := by
    unfold Apart
    decide +kernel
  obtain ⟨before, hbefore, hone⟩ := @hfound [c] "one" (by decide +kernel)
  obtain ⟨now, hnow, htwo⟩ := @hfound [c, d] "two" (by decide +kernel)
  exact ⟨holds_nothing, ⟨by decide +kernel, v, hv⟩, by decide +kernel, .of_reloads (by decide +kernel),
    .of_reloads (by decide +kernel), hapart, before, now, hbefore, hnow, hone, htwo⟩

end Samples

end SkillAtlas.UserSettings
