import Mathlib.Algebra.Group.Int.Defs
import Mathlib.Data.List.Forall2
import SkillAtlas.Proofs.Analysis.Stages
import SkillAtlas.Proofs.Document.Keys
import SkillAtlas.Proofs.Yaml.Refusals

/-!
# The kind of a document and its entries

The kind of a document is decided by counting definitions, and its entries are selected by reading the
definitions again. The two agree: the definitions that have fields of mobs are those that give the entries
of mobs, and each definition that starts with a skill line gives the entry of a skill. So a document that
is taken for one of mobs has an entry.
-/

namespace SkillAtlas

open Fault (bind_eq_ok map_eq_ok exists_mapM)

/-- The answer is yes. -/
def holds : Except Fault Bool → Bool
  | .ok b => b
  | .error _ => false

/-- The definition has lines: a list of some, or a lone text. -/
def hasLines (data : Entries) : Bool :=
  match (Entries.anyCase data skillsKey).toOption.bind linesOf? with
  | some (_ :: _) => true
  | _ => false

/-- A key has a definition of which `p` holds. -/
def defines (p : Entries → Bool) (e : Value × Value) : Bool :=
  match e.2 with
  | .map data => p data
  | _ => false

/-- The definition under a key has what units of a kind need: a mob a field of mobs, and a skill lines. -/
def Vocabulary.qualifies (v : Vocabulary) : ContextKind → Value × Value → Bool
  | .mob => defines fun data => holds (v.definesMob data)
  | .skillFile => defines hasLines

/-- The entries are those of the keys that qualify, one from each, in the order of the document. -/
def Selected (v : Vocabulary) (kind : ContextKind) (doc : Entries) (entries : List Entry) : Prop :=
  List.Forall₂ (fun e entry => entryAt? v kind e = .ok (some entry)) (doc.filter (v.qualifies kind)) entries

@[simp] lemma Value.failsBy_told (v : Value) : FailsBy (· = .badValue) v.told := by
  simp [told]

namespace Entries

/-- Every key can be told. -/
def KeysTold (es : Entries) : Prop :=
  ∀ e ∈ es, e.1.isTold = true

/-- Every key of the document and of its definitions can be told. -/
def NamesTold (doc : Entries) : Prop :=
  doc.KeysTold ∧ ∀ data ∈ definitions doc, KeysTold data

variable {es : Entries}

lemma firstSpelled?_eq_ok (h : es.KeysTold) (small : String) : ∃ found, firstSpelled? small es = .ok found := by
  induction es with
  | nil => exact ⟨none, rfl⟩
  | cons e rest ih =>
    obtain ⟨hfirst, hrest⟩ := List.forall_mem_cons.mp h
    obtain ⟨found, hfound⟩ := ih hrest
    rw [firstSpelled?, Value.told_of_isTold hfirst]
    show ∃ found, (if Text.lower e.1.text == small then _ else _) = Except.ok found
    split
    · exact ⟨some e.2, rfl⟩
    · exact ⟨found, hfound⟩

@[simp] lemma failsBy_firstSpelled? (small : String) (es : Entries) :
    FailsBy (· = .badValue) (firstSpelled? small es) := by
  induction es with
  | nil => simp [firstSpelled?]
  | cons e rest ih => simp [firstSpelled?, ih]

lemma anyCase_eq_ok (h : es.KeysTold) (k : String) : ∃ v, es.anyCase k = .ok v := by
  unfold anyCase anyCase?
  split
  · exact ⟨_, rfl⟩
  · obtain ⟨found, hfound⟩ := firstSpelled?_eq_ok h (Text.lower k)
    exact ⟨_, by rw [hfound]; rfl⟩

lemma hasAnyCase_eq_ok (h : es.KeysTold) (k : String) : ∃ b, es.hasAnyCase k = .ok b := by
  obtain ⟨found, hfound⟩ := firstSpelled?_eq_ok h (Text.lower k)
  exact ⟨_, by rw [hasAnyCase, hfound]; rfl⟩

@[simp] lemma failsBy_anyCase (es : Entries) (k : String) : FailsBy (· = .badValue) (es.anyCase k) := by
  unfold anyCase anyCase?
  split <;> simp

@[simp] lemma failsBy_hasAnyCase (es : Entries) (k : String) : FailsBy (· = .badValue) (es.hasAnyCase k) := by
  simp [hasAnyCase]

end Entries

open Entries (KeysTold NamesTold)

section Definitions

variable {v : Vocabulary} {kind : ContextKind} {data doc : Entries} {key : Value}

lemma mobField?_of_told (v : Vocabulary) (h : key.isTold = true) : ∃ field, v.mobField? key = .ok field := by
  unfold Vocabulary.mobField? Vocabulary.canonicalMobField?
  rw [Value.told_of_isTold h]
  exact ⟨_, rfl⟩

lemma mobField?_of_not_told (v : Vocabulary) (h : key.isTold = false) : v.mobField? key = .error .badValue := by
  unfold Vocabulary.mobField? Vocabulary.canonicalMobField?
  rw [Value.told_of_not_isTold h]
  rfl

/-- Fields are only added. -/
lemma addMobField_eq {e : Value × Value} {field : Option String} (h : v.mobField? e.1 = .ok field)
    (extra : Entries) : ∃ more, v.addMobField extra e = .ok more ∧
      more.isEmpty = (extra.isEmpty && !field.isSome) := by
  unfold Vocabulary.addMobField
  rw [h]
  cases field with
  | none => exact ⟨extra, rfl, by simp⟩
  | some f =>
    refine ⟨_, rfl, ?_⟩
    split
    · rename_i hsome
      cases extra with
      | nil => simp [Entries.named?, Entries.get?] at hsome
      | cons _ _ => rfl
    · simp

/-- There is no field of mobs in the end just when no key has given one. -/
lemma mobFields_eq (h : data.KeysTold) (extra : Entries) : ∃ fields mob,
    data.foldlM v.addMobField extra = .ok fields ∧ v.definesMob data = .ok mob ∧
      fields.isEmpty = (extra.isEmpty && !mob) := by
  induction data generalizing extra with
  | nil => exact ⟨extra, false, rfl, rfl, by simp⟩
  | cons e rest ih =>
    obtain ⟨hfirst, hrest⟩ := List.forall_mem_cons.mp h
    obtain ⟨field, hfield⟩ := mobField?_of_told v hfirst
    obtain ⟨more, hmore, hempty⟩ := addMobField_eq hfield extra
    obtain ⟨fields, mob, hfields, hmob, hnone⟩ := ih hrest more
    have hfold : (e :: rest).foldlM v.addMobField extra = .ok fields := by
      rw [List.foldlM_cons, hmore]
      exact hfields
    rw [Vocabulary.definesMob, hfield]
    cases field with
    | none => exact ⟨fields, mob, hfold, hmob, by rw [hnone, hempty]; simp⟩
    | some f => exact ⟨fields, true, hfold, rfl, by rw [hnone, hempty]; simp⟩

@[simp] lemma failsBy_mobField? (v : Vocabulary) (key : Value) : FailsBy (· = .badValue) (v.mobField? key) := by
  simp [Vocabulary.mobField?, Vocabulary.canonicalMobField?]

@[simp] lemma failsBy_mobFieldsOf (v : Vocabulary) (data : Entries) :
    FailsBy (· = .badValue) (v.mobFieldsOf data) := by
  refine failsBy_foldlM fun extra e => ?_
  unfold Vocabulary.addMobField
  simp only [failsBy_bind, failsBy_mobField?, true_and]
  intro field _
  split <;> simp

/-- All keys are looked at for the fields of mobs. -/
lemma keysTold_of_mobFieldsOf {fields : Entries} (h : v.mobFieldsOf data = .ok fields) : data.KeysTold := by
  have hrun : ∀ extra, data.foldlM v.addMobField extra = .ok fields → data.KeysTold := by
    clear h
    induction data with
    | nil => exact fun _ _ => List.forall_mem_nil _
    | cons e rest ih =>
      intro extra h
      rw [List.foldlM_cons] at h
      obtain ⟨more, hmore, h⟩ := bind_eq_ok.mp h
      obtain ⟨field, hfield, -⟩ := bind_eq_ok.mp hmore
      refine List.forall_mem_cons.mpr ⟨?_, ih more h⟩
      by_contra hnot
      rw [mobField?_of_not_told v (Bool.not_eq_true _ ▸ hnot)] at hfield
      cases hfield
  exact hrun [] h

/-- A definition gives a mob just when it has a field of mobs, and all its keys are read for that. -/
lemma mobEntry_eq (v : Vocabulary) (name : String) (h : data.KeysTold) : ∃ mob entry note,
    v.definesMob data = .ok mob ∧ mobEntry v name data = .ok (entry, note) ∧ entry.isSome = mob := by
  obtain ⟨fields, mob, hfields, hmob, hempty⟩ := mobFields_eq (v := v) h []
  obtain ⟨skills, hskills⟩ := Entries.anyCase_eq_ok h skillsKey
  refine ⟨mob, ?_⟩
  unfold mobEntry
  rw [show v.mobFieldsOf data = .ok fields from hfields, hskills]
  cases mob with
  | false => exact ⟨none, _, hmob, if_pos (by simpa using hempty), rfl⟩
  | true => exact ⟨_, _, hmob, if_neg (by simp [hempty]), rfl⟩

lemma keysTold_of_mobEntry {name : String} {found : Option Entry × Note} (h : mobEntry v name data = .ok found) :
    data.KeysTold := by
  obtain ⟨fields, hfields, -⟩ := bind_eq_ok.mp h
  exact keysTold_of_mobFieldsOf hfields

/-- The texts that are asked of a skill can be told. -/
def Entries.CooldownTold (data : Entries) : Prop :=
  ∀ w, data.anyCase "OnCooldownSkill" = .ok w → w.isTold = true

lemma skillWith_eq_ok (name : String) (lines : List Value) (h : data.KeysTold) (hc : data.CooldownTold) :
    ∃ entry, skillWith name data lines = .ok entry := by
  obtain ⟨onCooldown, hon⟩ := Entries.anyCase_eq_ok h "OnCooldownSkill"
  obtain ⟨conditions, hconditions⟩ := Entries.anyCase_eq_ok h "Conditions"
  obtain ⟨target, htarget⟩ := Entries.anyCase_eq_ok h "TargetConditions"
  obtain ⟨trigger, htrigger⟩ := Entries.anyCase_eq_ok h "TriggerConditions"
  obtain ⟨cooldown, hcooldown⟩ := Entries.anyCase_eq_ok h "Cooldown"
  obtain ⟨given, hgiven⟩ : ∃ given, givenText? onCooldown = .ok given := by
    unfold givenText?
    rw [Value.told_of_isTold (hc onCooldown hon)]
    split <;> exact ⟨_, rfl⟩
  unfold skillWith
  rw [hon, hconditions, htarget, htrigger, hcooldown]
  simp only [bind, Except.bind, hgiven]
  exact ⟨_, rfl⟩

lemma skillEntry_eq_ok (name : String) (h : data.KeysTold) (hc : data.CooldownTold) :
    ∃ found, skillEntry name data = .ok found := by
  obtain ⟨skills, hskills⟩ := Entries.anyCase_eq_ok h skillsKey
  have hknown : ∃ known, skillOnlyKeys.anyM (Entries.hasAnyCase data) = .ok known := by
    have hall : ∀ keys : List String, ∃ known, keys.anyM (Entries.hasAnyCase data) = .ok known := by
      intro keys
      induction keys with
      | nil => exact ⟨false, rfl⟩
      | cons k rest ih =>
        obtain ⟨b, hb⟩ := Entries.hasAnyCase_eq_ok h k
        rw [List.anyM, hb]
        cases b
        · exact ih
        · exact ⟨true, rfl⟩
    exact hall skillOnlyKeys
  obtain ⟨known, hknown⟩ := hknown
  unfold skillEntry
  rw [hskills, hknown]
  simp only [bind, Except.bind]
  split
  · split <;> exact ⟨_, rfl⟩
  · split <;> exact ⟨_, rfl⟩
  · rename_i lines hnil hlines
    obtain ⟨entry, hentry⟩ := skillWith_eq_ok name lines h hc
    exact ⟨_, by rw [hentry]; rfl⟩

/-- A definition gives a skill just when it has lines. -/
lemma isSome_skillEntry {name : String} {entry : Option Entry} {note : Note}
    (h : skillEntry name data = .ok (entry, note)) : entry.isSome = hasLines data := by
  obtain ⟨skills, hskills, h⟩ := bind_eq_ok.mp h
  unfold hasLines
  rw [hskills, Except.toOption, Option.bind_some]
  split at h
  · rename_i hlines
    obtain ⟨known, -, h⟩ := bind_eq_ok.mp h
    rw [hlines]
    split at h <;> obtain ⟨rfl, -⟩ := Prod.mk.inj (Except.ok.inj h) <;> rfl
  · rename_i hlines
    obtain ⟨known, -, h⟩ := bind_eq_ok.mp h
    rw [hlines]
    split at h <;> obtain ⟨rfl, -⟩ := Prod.mk.inj (Except.ok.inj h) <;> rfl
  · rename_i lines hnil hlines
    obtain ⟨found, -, h⟩ := bind_eq_ok.mp h
    obtain ⟨rfl, -⟩ := Prod.mk.inj (Except.ok.inj h)
    rw [hlines]
    cases lines with
    | nil => exact absurd rfl hnil
    | cons first rest => rfl

lemma failsBy_anyM {α : Type} {P : Fault → Prop} {f : α → Except Fault Bool} {xs : List α}
    (h : ∀ x, FailsBy P (f x)) : FailsBy P (xs.anyM f) := by
  induction xs with
  | nil => simp [List.anyM]
  | cons x rest ih =>
    rw [List.anyM]
    simp only [failsBy_bind, h, true_and]
    intro b _
    split <;> simp [ih]

lemma failsBy_skillWith (name : String) (data : Entries) (lines : List Value) :
    FailsBy (· = .badValue) (skillWith name data lines) := by
  simp [skillWith, givenText?]

lemma failsBy_skillEntry (name : String) (data : Entries) : FailsBy (· = .badValue) (skillEntry name data) := by
  have hknown : FailsBy (· = .badValue) (skillOnlyKeys.anyM (Entries.hasAnyCase data)) := failsBy_anyM (by simp)
  unfold skillEntry
  simp only [failsBy_bind, Entries.failsBy_anyCase, true_and]
  intro skills _
  split <;> simp [hknown, failsBy_skillWith]

lemma failsBy_mobEntry (v : Vocabulary) (name : String) (data : Entries) :
    FailsBy (· = .badValue) (mobEntry v name data) := by
  simp [mobEntry]

/-- Entries are read unless some key or text cannot be told. -/
lemma failsBy_entryAt? (v : Vocabulary) (kind : ContextKind) (e : Value × Value) :
    FailsBy (· = .badValue) (entryAt? v kind e) := by
  unfold entryAt? readEntry
  simp only [failsBy_map, failsBy_bind, Value.failsBy_told, true_and]
  intro name _
  split
  · simp
  · cases kind with
    | mob => exact failsBy_mobEntry v name _
    | skillFile => exact failsBy_skillEntry name _
  · simp

lemma failsBy_tally (v : Vocabulary) (doc : Entries) : FailsBy (· = .badValue) (tally v doc) := by
  refine failsBy_foldlM fun t data => ?_
  have hmob : FailsBy (· = .badValue) (v.definesMob data) := by
    induction data with
    | nil => simp [Vocabulary.definesMob]
    | cons e rest ih => simp [Vocabulary.definesMob, ih]
  have hskill : FailsBy (· = .badValue) (v.definesSkill data) := by
    unfold Vocabulary.definesSkill
    simp only [failsBy_bind, Entries.failsBy_anyCase, true_and]
    intro skills _
    split <;> simp
  simp [Tally.count, hmob, hskill]

lemma extract_error {f : Fault} (h : (extract v kind doc).outcome = .error f) : f = .badValue := by
  rw [outcome_extract] at h
  exact (failsBy_map _ _).mpr (failsBy_mapM fun e _ => failsBy_entryAt? v kind e) f h

/-- A key gives an entry just when its definition qualifies. -/
lemma isSome_of_entryAt? {e : Value × Value} {entry : Option Entry} (h : entryAt? v kind e = .ok entry) :
    entry.isSome = v.qualifies kind e := by
  obtain ⟨key, value⟩ := e
  obtain ⟨⟨found, note⟩, hread, rfl⟩ := map_eq_ok.mp h
  obtain ⟨name, -, hread⟩ := bind_eq_ok.mp hread
  cases value with
  | map data =>
    cases kind with
    | mob =>
      obtain ⟨mob, entry, other, hmob, hentry, hsome⟩ := mobEntry_eq v name (keysTold_of_mobEntry hread)
      obtain ⟨rfl, -⟩ := Prod.mk.inj (Except.ok.inj (hread.symm.trans hentry))
      simp only [Vocabulary.qualifies, defines, hmob, holds, hsome]
    | skillFile => exact isSome_skillEntry hread
  | _ => cases kind <;> obtain ⟨rfl, -⟩ := Prod.mk.inj (Except.ok.inj hread) <;> rfl

/-- The entries are those of the keys that qualify. -/
lemma selected_of_extract {entries : List Entry} (h : (extract v kind doc).outcome = .ok entries) :
    Selected v kind doc entries := by
  rw [outcome_extract] at h
  obtain ⟨found, hfound, rfl⟩ := map_eq_ok.mp h
  clear h
  unfold Selected
  induction doc generalizing found with
  | nil =>
    obtain rfl : [] = found := Except.ok.inj hfound
    exact .nil
  | cons e rest ih =>
    rw [List.mapM_cons] at hfound
    obtain ⟨entry, hentry, hfound⟩ := bind_eq_ok.mp hfound
    obtain ⟨others, hothers, hfound⟩ := bind_eq_ok.mp hfound
    obtain rfl := Except.ok.inj hfound
    have hsome := isSome_of_entryAt? hentry
    cases entry with
    | none =>
      rw [List.filter_cons_of_neg (by simp [← hsome]), List.reduceOption_cons_of_none]
      exact ih _ hothers
    | some entry =>
      rw [List.filter_cons_of_pos hsome.symm, List.reduceOption_cons_of_some]
      exact .cons hentry (ih _ hothers)

/-- Each entry comes from a key. -/
lemma exists_entryAt?_of_mem {entries : List Entry} {entry : Entry}
    (h : (extract v kind doc).outcome = .ok entries) (he : entry ∈ entries) :
    ∃ e ∈ doc, entryAt? v kind e = .ok (some entry) := by
  rw [outcome_extract] at h
  obtain ⟨found, hfound, rfl⟩ := map_eq_ok.mp h
  exact Fault.forall_of_mapM (P := fun b => ∃ e ∈ doc, entryAt? v kind e = .ok b)
    (fun e hmem b hb => ⟨e, hmem, hb⟩) hfound _ (List.reduceOption_mem_iff.mp he)

lemma cooldown_of_mobEntry {name : String} {entry : Entry} {note : Note}
    (h : mobEntry v name data = .ok (some entry, note)) : entry.cooldown = .null := by
  obtain ⟨extra, -, h⟩ := bind_eq_ok.mp h
  split at h
  · cases h
  · obtain ⟨skills, -, h⟩ := bind_eq_ok.mp h
    obtain ⟨hentry, -⟩ := Prod.mk.inj (Except.ok.inj h)
    rw [← Option.some.inj hentry]

/-- The entry of a skill has the cooldown of its definition, and no fields of mobs. -/
lemma of_skillEntry {name : String} {entry : Entry} {note : Note}
    (h : skillEntry name data = .ok (some entry, note)) :
    data.anyCase "Cooldown" = .ok entry.cooldown ∧ entry.rawExtra = [] := by
  obtain ⟨skills, -, h⟩ := bind_eq_ok.mp h
  have hwith : ∀ {lines}, skillWith name data lines = .ok entry →
      data.anyCase "Cooldown" = .ok entry.cooldown ∧ entry.rawExtra = [] := by
    intro lines h
    simp only [skillWith, bind_eq_ok, bind] at h
    obtain ⟨_, -, _, -, _, -, _, -, cooldown, hcooldown, _, -, h⟩ := h
    obtain rfl := Except.ok.inj h
    exact ⟨hcooldown, rfl⟩
  split at h
  · obtain ⟨known, -, h⟩ := bind_eq_ok.mp h
    split at h <;> cases h
  · obtain ⟨known, -, h⟩ := bind_eq_ok.mp h
    split at h <;> cases h
  · obtain ⟨found, hfound, h⟩ := bind_eq_ok.mp h
    obtain ⟨hentry, -⟩ := Prod.mk.inj (Except.ok.inj h)
    exact hwith (Option.some.inj hentry ▸ hfound)

lemma mem_definitions : data ∈ definitions doc ↔ ∃ e ∈ doc, e.2 = .map data := by
  rw [definitions, List.mem_filterMap]
  refine exists_congr fun e => and_congr_right fun _ => ?_
  cases e.2 <;> simp

/-- An entry has the value of a definition as its cooldown, or it is a mob and has none. -/
lemma cooldown_of_extract {entries : List Entry} {entry : Entry}
    (h : (extract v kind doc).outcome = .ok entries) (he : entry ∈ entries) :
    kind = .mob ∧ entry.cooldown = .null ∨
      kind = .skillFile ∧ entry.rawExtra = [] ∧
        ∃ data ∈ definitions doc, data.anyCase "Cooldown" = .ok entry.cooldown := by
  obtain ⟨⟨key, value⟩, hmem, hentry⟩ := exists_entryAt?_of_mem h he
  obtain ⟨⟨found, note⟩, hread, rfl : found = some entry⟩ := map_eq_ok.mp hentry
  obtain ⟨name, -, hread⟩ := bind_eq_ok.mp hread
  cases value with
  | map data =>
    cases kind with
    | mob => exact Or.inl ⟨rfl, cooldown_of_mobEntry hread⟩
    | skillFile =>
      obtain ⟨hcooldown, hextra⟩ := of_skillEntry hread
      exact Or.inr ⟨rfl, hextra, data, mem_definitions.mpr ⟨_, hmem, rfl⟩, hcooldown⟩
  | _ => cases hread

lemma exists_entryAt? {e : Value × Value} (hk : e.1.isTold = true)
    (h : ∀ data, e.2 = .map data → ∃ found, entryOf v kind e.1.text data = .ok found) :
    ∃ entry, entryAt? v kind e = .ok entry := by
  unfold entryAt? readEntry
  rw [Value.told_of_isTold hk]
  simp only [bind, Except.bind]
  split
  · exact ⟨_, rfl⟩
  · rename_i data hdata
    obtain ⟨found, hfound⟩ := h data hdata
    exact ⟨found.1, by rw [hfound]; rfl⟩
  · exact ⟨_, rfl⟩

lemma exists_extract (hk : doc.KeysTold)
    (h : ∀ data ∈ definitions doc, ∀ name, ∃ found, entryOf v kind name data = .ok found) :
    ∃ entries, (extract v kind doc).outcome = .ok entries := by
  obtain ⟨found, hfound⟩ := exists_mapM fun e he =>
    exists_entryAt? (hk e he) fun data hdata => h data (mem_definitions.mpr ⟨e, he, hdata⟩) _
  exact ⟨_, by rw [outcome_extract, hfound]; rfl⟩

/-- The entries of mobs are read just when all keys can be told. -/
lemma extract_mob_eq_ok : (∃ entries, (extract v .mob doc).outcome = .ok entries) ↔ doc.NamesTold := by
  constructor
  · rintro ⟨entries, h⟩
    rw [outcome_extract] at h
    obtain ⟨found, hfound, -⟩ := map_eq_ok.mp h
    have hread : ∀ e ∈ doc, e.1.isTold = true ∧ ∀ data, e.2 = .map data → KeysTold data := by
      intro e he
      obtain ⟨entry, -, hentry⟩ := Fault.exists_of_mapM hfound he
      obtain ⟨found, hread, -⟩ := map_eq_ok.mp hentry
      obtain ⟨name, hname, hread⟩ := bind_eq_ok.mp hread
      refine ⟨(Value.told_eq_ok.mp hname).1, fun data hdata => ?_⟩
      rw [hdata] at hread
      exact keysTold_of_mobEntry hread
    refine ⟨fun e he => (hread e he).1, fun data hdata => ?_⟩
    obtain ⟨e, he, hmap⟩ := mem_definitions.mp hdata
    exact (hread e he).2 data hmap
  · rintro ⟨hkeys, hdefs⟩
    refine exists_extract hkeys fun data hdata name => ?_
    obtain ⟨mob, entry, note, -, hentry, -⟩ := mobEntry_eq v name (hdefs data hdata)
    exact ⟨_, hentry⟩

lemma exists_extract_skillFile (h : doc.NamesTold) (hc : ∀ data ∈ definitions doc, data.CooldownTold) :
    ∃ entries, (extract v .skillFile doc).outcome = .ok entries :=
  exists_extract h.1 fun data hdata name => skillEntry_eq_ok name (h.2 data hdata) (hc data hdata)

lemma exists_of_forall₂ {α β : Type} {R : α → β → Prop} {xs : List α} {ys : List β} (h : List.Forall₂ R xs ys)
    {x : α} (hx : x ∈ xs) : ∃ y ∈ ys, R x y := by
  induction h with
  | nil => simp at hx
  | @cons a b _ _ hab _ ih =>
    rcases List.mem_cons.mp hx with rfl | hrest
    · exact ⟨b, List.mem_cons_self, hab⟩
    · obtain ⟨y, hy, hxy⟩ := ih hrest
      exact ⟨y, List.mem_cons_of_mem b hy, hxy⟩

/-- A list of lines whose first is a skill line is a list of some lines. -/
lemma hasLines_of_definesSkill (h : v.definesSkill data = .ok true) : hasLines data := by
  obtain ⟨skills, hskills, h⟩ := bind_eq_ok.mp h
  unfold hasLines
  rw [hskills, Except.toOption, Option.bind_some]
  split at h
  · rfl
  · cases h

lemma countP_definitions (p : Entries → Bool) (doc : Entries) :
    (definitions doc).countP p = doc.countP (defines p) := by
  rw [definitions, List.countP_filterMap]
  refine List.countP_congr fun e _ => ?_
  unfold defines
  cases e.2 <;> simp

/-- Definitions whose keys can be told are all counted. -/
lemma tally_eq (h : ∀ data ∈ definitions doc, KeysTold data) : tally v doc = .ok {
    mobs := (definitions doc).countP fun data => holds (v.definesMob data)
    skills := (definitions doc).countP fun data => holds (v.definesSkill data) } := by
  have hrun : ∀ (defs : List Entries), (∀ data ∈ defs, KeysTold data) → ∀ t : Tally,
      defs.foldlM (Tally.count v) t = .ok {
        mobs := t.mobs + defs.countP fun data => holds (v.definesMob data)
        skills := t.skills + defs.countP fun data => holds (v.definesSkill data) } := by
    intro defs
    induction defs with
    | nil => exact fun _ _ => rfl
    | cons data rest ih =>
      intro h t
      obtain ⟨hfirst, hrest⟩ := List.forall_mem_cons.mp h
      obtain ⟨-, mob, -, hmob, -⟩ := mobFields_eq (v := v) hfirst []
      obtain ⟨skills, hskills⟩ := Entries.anyCase_eq_ok hfirst skillsKey
      obtain ⟨skill, hskill⟩ : ∃ skill, v.definesSkill data = .ok skill := by
        unfold Vocabulary.definesSkill
        rw [hskills]
        simp only [bind, Except.bind]
        split <;> exact ⟨_, rfl⟩
      have hstep : Tally.count v t data = .ok ⟨t.mobs + mob.toNat, t.skills + skill.toNat⟩ := by
        unfold Tally.count
        rw [hmob, hskill]
        rfl
      rw [List.foldlM_cons, hstep]
      refine (ih hrest _).trans ?_
      rw [List.countP_cons, List.countP_cons, hmob, hskill]
      cases mob <;> cases skill <;> simp [holds, Nat.add_assoc, Nat.add_comm]
  refine (hrun _ h {}).trans ?_
  simp

/-- A value that is asked for is written in the definition. -/
lemma isTold_of_anyCase {w : Value} {k : String} (h : ∀ e ∈ data, e.2.isTold = true)
    (hw : data.anyCase k = .ok w) : w.isTold = true := by
  have hspelled : ∀ {small : String} {found : Value}, data.firstSpelled? small = .ok (some found) →
      found.isTold = true := by
    intro small found hfound
    clear hw
    induction data with
    | nil => cases hfound
    | cons e rest ih =>
      obtain ⟨hfirst, hrest⟩ := List.forall_mem_cons.mp h
      obtain ⟨told, -, hfound⟩ := bind_eq_ok.mp hfound
      split at hfound
      · obtain rfl := Option.some.inj (Except.ok.inj hfound)
        exact hfirst
      · exact ih hrest hfound
  obtain ⟨found, hfound, hw⟩ := bind_eq_ok.mp hw
  obtain rfl := Except.ok.inj hw
  cases found with
  | none => rfl
  | some w =>
    unfold Entries.anyCase? at hfound
    split at hfound
    · rename_i named hnamed
      obtain rfl := Option.some.inj (Except.ok.inj hfound)
      obtain ⟨e, he, rfl⟩ := Option.map_eq_some_iff.mp hnamed
      exact h e (List.mem_of_find?_eq_some he)
    · exact hspelled hfound

lemma isTold_of_mem_definitions (h : (Value.map doc).isTold = true) (hd : data ∈ definitions doc) :
    ∀ e ∈ data, e.1.isTold = true ∧ e.2.isTold = true := by
  obtain ⟨e, he, hmap⟩ := mem_definitions.mp hd
  exact Value.isTold_map.mp (hmap ▸ (Value.isTold_map.mp h e he).2)

/-- A document without a number that is too long has names that can be told. -/
lemma namesTold_of_isTold (h : (Value.map doc).isTold = true) : doc.NamesTold :=
  ⟨fun e he => (Value.isTold_map.mp h e he).1,
    fun _ hd e he => (isTold_of_mem_definitions h hd e he).1⟩

lemma exists_extract_of_isTold (v : Vocabulary) (kind : ContextKind) (h : (Value.map doc).isTold = true) :
    ∃ entries, (extract v kind doc).outcome = .ok entries := by
  cases kind with
  | mob => exact extract_mob_eq_ok.mpr (namesTold_of_isTold h)
  | skillFile =>
    exact exists_extract_skillFile (namesTold_of_isTold h) fun data hd _ hw =>
      isTold_of_anyCase (fun e he => (isTold_of_mem_definitions h hd e he).2) hw

/-- As many entries of mobs are read as definitions have a field of mobs. -/
lemma length_of_extract_mob {entries : List Entry} (h : (extract v .mob doc).outcome = .ok entries) :
    entries.length = (definitions doc).countP fun data => holds (v.definesMob data) := by
  rw [← (selected_of_extract h).length_eq, countP_definitions, List.countP_eq_length_filter]
  rfl

/-- A document of whose mobs all keys can be told is taken for one of mobs only if it has some. -/
lemma extract_mob_ne_nil {t : Tally} {entries : List Entry} (ht : tally v doc = .ok t) (hk : t.kind = .mob)
    (h : (extract v .mob doc).outcome = .ok entries) : entries ≠ [] := by
  rw [tally_eq (extract_mob_eq_ok.mp ⟨entries, h⟩).2] at ht
  obtain rfl := Except.ok.inj ht
  have hlength := length_of_extract_mob h
  rintro rfl
  rw [Tally.kind] at hk
  split at hk
  · rename_i hmany
    dsimp only at hmany
    rw [← hlength] at hmany
    simp at hmany
  · cases hk

end Definitions

/-- A text that is no document has no units to miss. -/
lemma Document.read_ne_noUnits (text : String) (kind : ContextKind) :
    Document.read text ≠ .error (.noUnits kind) := by
  intro h
  unfold Document.read at h
  split at h
  · cases h
  · rename_i f hread
    obtain rfl := Except.error.inj h
    rcases (Yaml.unreadable_of_readFrom hread).cases_text with hf | hf <;> cases hf
  · cases h
  · cases h
  · cases h
  · cases h

/-- A document whose kind is not asked for is never refused as one of mobs. -/
lemma Document.load_ne_noMobs (v : Vocabulary) (text : String) :
    (Document.load v text none).outcome ≠ .error (.noUnits .mob) := by
  rw [Document.outcome_load]
  cases hread : Document.read text with
  | error f =>
    intro h
    obtain rfl := Except.error.inj h
    exact Document.read_ne_noUnits text .mob hread
  | ok doc =>
    intro h
    simp only [Except.bind, Document.ofEntries, Document.kindFor, classify, Journal.outcome_then,
      Journal.outcome_lift] at h
    cases ht : tally v doc with
    | error f =>
      rw [ht] at h
      obtain rfl := Except.error.inj h
      cases failsBy_tally v doc _ ht
    | ok t =>
      rw [ht] at h
      change ((extract v t.kind doc).outcome.bind fun entries => _) = _ at h
      cases hentries : (extract v t.kind doc).outcome with
      | error f =>
        rw [hentries] at h
        obtain rfl := Except.error.inj h
        cases extract_error hentries
      | ok entries =>
        rw [hentries] at h
        simp only [Except.bind] at h
        split at h
        · rename_i hempty
          have hkind : t.kind = .mob := Fault.noUnits.inj (Except.error.inj h)
          rw [hkind] at hentries
          exact extract_mob_ne_nil ht hkind hentries (List.isEmpty_iff.mp hempty)
        · cases h

/-- Without a name of a kind, the order in which text and name are read does not matter. -/
lemma Document.outcome_loadNamed_none (v : Vocabulary) (text : String) :
    (Document.loadNamed v text none).outcome = (Document.load v text none).outcome := by
  unfold Document.loadNamed Document.load
  simp only [Journal.outcome_then, Journal.outcome_lift, ContextKind.requested]
  cases Document.read text <;> rfl

/-- Deciding the kind of a document and selecting its entries agree. Entries of mobs are selected just when all
keys of the document and of its definitions can be told. Then the kind is decided, as many entries of mobs are
selected as definitions are counted as mobs, and a document that is taken for one of mobs has an entry. Each
definition that is counted as a skill gives an entry of a skill, and for both kinds the entries come from the
keys that qualify, in the order of the document. Reading a text without asking for a kind never fails for want
of mobs. -/
theorem extract_agrees_with_classify (v : Vocabulary) :
    (∀ doc : Entries,
      (¬ doc.NamesTold → (extract v .mob doc).outcome = .error .badValue) ∧
      (doc.NamesTold → ∃ kind mobs skills mobEntries,
        classify v doc = ⟨[.classified kind mobs skills], .ok kind⟩ ∧
        mobs = (definitions doc).countP (fun data => holds (v.definesMob data)) ∧
        skills = (definitions doc).countP (fun data => holds (v.definesSkill data)) ∧
        (extract v .mob doc).outcome = .ok mobEntries ∧ mobEntries.length = mobs ∧
        Selected v .mob doc mobEntries ∧ (kind = .mob → mobEntries ≠ [])) ∧
      (∀ f, (extract v .skillFile doc).outcome = .error f → f = .badValue ∧
        ¬ (doc.NamesTold ∧ ∀ data ∈ definitions doc, data.CooldownTold)) ∧
      ∀ skillEntries, (extract v .skillFile doc).outcome = .ok skillEntries →
        Selected v .skillFile doc skillEntries ∧
        ∀ key data, (key, .map data) ∈ doc → v.definesSkill data = .ok true →
          ∃ entry ∈ skillEntries, entryAt? v .skillFile (key, .map data) = .ok (some entry)) ∧
    ∀ text, (Document.load v text none).outcome ≠ .error (.noUnits .mob) ∧
      (Document.loadNamed v text none).outcome ≠ .error (.noUnits .mob) := by
  refine ⟨fun doc => ⟨fun hnot => ?_, fun htold => ?_, fun f hf => ⟨extract_error hf, ?_⟩, fun entries hentries =>
    ⟨selected_of_extract hentries, ?_⟩⟩, fun text => ?_⟩
  · cases h : (extract v .mob doc).outcome with
    | error f => rw [extract_error h]
    | ok entries => exact absurd (extract_mob_eq_ok.mp ⟨entries, h⟩) hnot
  · obtain ⟨entries, hentries⟩ := extract_mob_eq_ok.mpr htold
    have ht := tally_eq (v := v) htold.2
    refine ⟨_, _, _, entries, ?_, rfl, rfl, hentries, length_of_extract_mob hentries,
      selected_of_extract hentries, fun hkind => extract_mob_ne_nil ht hkind hentries⟩
    unfold classify
    rw [ht]
    rfl
  · rintro ⟨htold, hc⟩
    obtain ⟨entries, hentries⟩ := exists_extract_skillFile (v := v) htold hc
    rw [hentries] at hf
    cases hf
  · intro key data hmem hskill
    have hq : (key, Value.map data) ∈ doc.filter (v.qualifies .skillFile) :=
      List.mem_filter.mpr ⟨hmem, hasLines_of_definesSkill hskill⟩
    exact exists_of_forall₂ (selected_of_extract hentries) hq
  · rw [Document.outcome_loadNamed_none]
    exact ⟨Document.load_ne_noMobs v text, Document.load_ne_noMobs v text⟩

/-- A mob whose key is a number of too many digits: the document is taken for one of mobs, but none is selected. -/
theorem long_name_not_extracted :
    let doc : Entries := [(.int (16 ^ 3572), .map [(.str "Health", .int 1)])]
    tally .packaged doc = .ok { mobs := 1 } ∧ (classify .packaged doc).outcome = .ok .mob ∧
      (extract .packaged .mob doc).outcome = .error .badValue := by
  intro doc
  have ht : tally .packaged doc = .ok { mobs := 1 } := by
    have hsome : (tally .packaged doc).toOption = some { mobs := 1 } := by decide +kernel
    cases h : tally .packaged doc with
    | error f => simp [h, Except.toOption] at hsome
    | ok t => simpa [h, Except.toOption] using hsome
  refine ⟨ht, ?_, ?_⟩
  · unfold classify
    rw [ht]
    rfl
  · cases h : (extract .packaged .mob doc).outcome with
    | error f => rw [extract_error h]
    | ok entries =>
      have htold := (extract_mob_eq_ok.mp ⟨entries, h⟩).1 _ List.mem_cons_self
      have hlong : (Value.int (16 ^ 3572)).isTold = false := by decide +kernel
      rw [htold] at hlong
      cases hlong

end SkillAtlas
