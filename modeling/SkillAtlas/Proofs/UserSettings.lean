import SkillAtlas.Proofs.Settings.Shared
import SkillAtlas.Proofs.Vocabulary.Overrides

/-!
# Settings that a user is not told about

Loading the settings of a user gives them, or a fault that the user is told of. Three checks are left out:
tables of words are laid over the packaged ones and put in order before their shape is looked at, the parts of
the section `analyzer` are taken for mappings, and a number of too many digits is not looked for where its text
is asked for, in the name of a category or in the account of a violation. Exactly there another fault escapes.
-/

namespace SkillAtlas

namespace Settings

/-- What is there is a mapping, or empty. -/
def IsPart (given : Option Value) : Prop :=
  ∀ v, given = some v → (∃ es, v = .map es) ∨ v.isTruthy = false

def partNames : List String :=
  ["complexity", "detectors", "diagnostics", "similarity"]

/-- Every part of the section is a mapping, or empty. -/
def Parted (es : Entries) : Prop :=
  ∀ name ∈ partNames, IsPart (es.named? name)

lemma parted_nil : Parted [] := by
  simp [Parted, IsPart, Entries.named?, Entries.get?]

lemma sectionEntries_cases (es : Entries) (name : String) :
    (∃ given, sectionEntries es name = .ok given) ∧ IsPart (es.named? name) ∨
      sectionEntries es name = .error .noMember ∧ ¬ IsPart (es.named? name) := by
  unfold sectionEntries
  split
  · rename_i hnone
    exact Or.inl ⟨⟨[], rfl⟩, by simp [hnone, IsPart]⟩
  · rename_i given hmap
    refine Or.inl ⟨⟨given, rfl⟩, fun v hv => Or.inl ⟨given, ?_⟩⟩
    exact Option.some.inj (hv.symm.trans hmap)
  · rename_i v hmap hv
    split
    · rename_i ht
      refine Or.inr ⟨rfl, fun h => ?_⟩
      rcases h v hv with ⟨es, rfl⟩ | hf
      · exact hmap es rfl
      · simp [hf] at ht
    · rename_i ht
      refine Or.inl ⟨⟨[], rfl⟩, fun w hw => Or.inr ?_⟩
      rw [← Option.some.inj (hv.symm.trans hw)]
      exact eq_false_of_ne_true ht

/-- The section gives settings exactly if every part of it is a mapping, or empty. -/
lemma ofValue_cases (es : Entries) :
    (∃ s, ofValue (.map es) = .ok s) ∧ Parted es ∨
      ofValue (.map es) = .error .noMember ∧ ¬ Parted es := by
  have hfails : ∀ name ∈ partNames, ¬ IsPart (es.named? name) → ¬ Parted es :=
    fun name hname hno h => hno (h name hname)
  unfold ofValue
  dsimp only
  rcases sectionEntries_cases es "complexity" with ⟨⟨a, ha⟩, hfirst⟩ | ⟨ha, hno⟩
  · rcases sectionEntries_cases es "detectors" with ⟨⟨b, hb⟩, hsecond⟩ | ⟨hb, hno⟩
    · rcases sectionEntries_cases es "diagnostics" with ⟨⟨c, hc⟩, hthird⟩ | ⟨hc, hno⟩
      · rcases sectionEntries_cases es "similarity" with ⟨⟨d, hd⟩, hfourth⟩ | ⟨hd, hno⟩
        · rw [ha, hb, hc, hd]
          refine Or.inl ⟨⟨_, rfl⟩, ?_⟩
          simp only [Parted, partNames, List.forall_mem_cons, List.not_mem_nil, false_implies, implies_true,
            and_true]
          exact ⟨hfirst, hsecond, hthird, hfourth⟩
        · rw [ha, hb, hc, hd]
          exact Or.inr ⟨rfl, hfails _ (by simp [partNames]) hno⟩
      · rw [ha, hb, hc]
        exact Or.inr ⟨rfl, hfails _ (by simp [partNames]) hno⟩
    · rw [ha, hb]
      exact Or.inr ⟨rfl, hfails _ (by simp [partNames]) hno⟩
  · rw [ha]
    exact Or.inr ⟨rfl, hfails _ (by simp [partNames]) hno⟩

end Settings

namespace UserSettings

open Vocabulary (Told Fits Tells)

/-- The entries of a section; a section that is not there has none. -/
def sectionEntries (es : Entries) (name : String) : Entries :=
  ((es.named? name).getD .null).entries

/-- A section that is there is a mapping, or null. -/
def IsSection (given : Option Value) : Prop :=
  ∀ v, given = some v → v = .null ∨ ∃ es, v = .map es

/-- Both sections are mappings, or null, or not there. -/
def Sectioned (es : Entries) : Prop :=
  IsSection (es.named? "analyzer") ∧ IsSection (es.named? "vocabulary")

/-- The faults of stored settings that the user is not told of. -/
inductive Escapes (es : Entries) : Fault → Prop where
  /-- the tables of words clash with the packaged ones, or have names that cannot be compared -/
  | tables (hs : Sectioned es) (h : ¬ Fits (sectionEntries es "vocabulary")) : Escapes es .wrongKind
  /-- the tables fit, but the name of a category or a violation in what they make cannot be told -/
  | untold (hs : Sectioned es) (hf : Fits (sectionEntries es "vocabulary"))
      (h : ¬ Tells (sectionEntries es "vocabulary")) : Escapes es .badValue
  /-- the tables are all right, but a part of the other section is neither a mapping nor empty -/
  | parts (hs : Sectioned es)
      (hv : ∃ v, (Vocabulary.withOverrides (.map (sectionEntries es "vocabulary"))).outcome = .ok v)
      (h : ¬ Settings.Parted (sectionEntries es "analyzer")) : Escapes es .noMember

/-- A section with these entries is read as their mapping, or as null if there are none. -/
def Gives (es : Entries) (v : Value) : Prop :=
  v = .null ∧ es = [] ∨ v = .map es

lemma sectionOf_cases (es : Entries) (name : String) :
    (∃ v, sectionOf es name = .ok v ∧ Gives (sectionEntries es name) v) ∧ IsSection (es.named? name) ∨
      (∃ f, sectionOf es name = .error (.settings f)) ∧ ¬ IsSection (es.named? name) := by
  unfold sectionOf sectionEntries
  split
  · rename_i hnone
    exact Or.inl ⟨⟨_, rfl, Or.inl ⟨rfl, by simp [hnone, Value.entries]⟩⟩, by simp [hnone, IsSection]⟩
  · rename_i hnull
    exact Or.inl ⟨⟨_, rfl, Or.inl ⟨rfl, by simp [hnull, Value.entries]⟩⟩, by simp [hnull, IsSection]⟩
  · rename_i given hmap
    exact Or.inl ⟨⟨_, rfl, Or.inr (by simp [hmap, Value.entries])⟩, by simp [hmap, IsSection]⟩
  · rename_i v hnull hmap hv
    refine Or.inr ⟨⟨_, rfl⟩, fun h => ?_⟩
    rcases h v hv with rfl | ⟨given, rfl⟩
    · exact hnull rfl
    · exact hmap given rfl

lemma Gives.withOverrides {es : Entries} {v : Value} (h : Gives es v) :
    (Vocabulary.withOverrides v).outcome = (Vocabulary.withOverrides (.map es)).outcome := by
  rcases h with ⟨rfl, rfl⟩ | rfl
  · rw [Vocabulary.withOverrides_of_falsy rfl, Vocabulary.withOverrides_of_falsy rfl]
  · rfl

lemma Gives.settings {es : Entries} {v : Value} (h : Gives es v) :
    (∃ s, Settings.ofValue v = .ok s) ∧ Settings.Parted es ∨
      Settings.ofValue v = .error .noMember ∧ ¬ Settings.Parted es := by
  rcases h with ⟨rfl, rfl⟩ | rfl
  · exact Or.inl ⟨⟨{}, rfl⟩, Settings.parted_nil⟩
  · exact Settings.ofValue_cases es

lemma tidy_sectionEntries {es : Entries} (h : (Value.map es).Tidy) (name : String) :
    (Value.map (sectionEntries es name)).Tidy := by
  have hnil : (Value.map []).Tidy := .map List.Pairwise.nil (by simp) (by simp)
  unfold sectionEntries
  cases hv : es.named? name with
  | none => exact hnil
  | some v =>
    obtain ⟨e, he, rfl⟩ := Option.map_eq_some_iff.mp hv
    have hvalue : e.2.Tidy := by
      cases h with
      | map _ _ values => exact values e (List.mem_of_find?_eq_some he)
      | other hno => exact absurd rfl (hno es)
    cases hm : e.2 with
    | map given => exact hm ▸ hvalue
    | _ => exact hnil

lemma outcome_apply (es : Entries) :
    (apply es).outcome = (sectionOf es "analyzer").bind fun analyzer =>
      (sectionOf es "vocabulary").bind fun overrides =>
        (Vocabulary.withOverrides overrides).outcome.bind fun vocabulary =>
          (Settings.ofValue analyzer).map fun settings => (settings, vocabulary) := by
  unfold apply
  simp only [Journal.outcome_then, Journal.outcome_lift]
  rfl

/-- Stored settings are applied, or the user is told what is wrong, unless a fault escapes. -/
theorem apply_cases {es : Entries} (ht : (Value.map es).Tidy) :
    Told (apply es).outcome ∧ (∀ f, ¬ Escapes es f) ∨
      ∃ f, (apply es).outcome = .error f ∧ Escapes es f := by
  have hunsectioned : ¬ Sectioned es → ∀ f, ¬ Escapes es f := by
    rintro hno f (⟨hs, -⟩ | ⟨hs, -, -⟩ | ⟨hs, -, -⟩) <;> exact hno hs
  -- in the order of the checks: both sections, the tables of words, the parts of the settings
  rw [outcome_apply]
  rcases sectionOf_cases es "analyzer" with ⟨⟨a, ha, hanalyzer⟩, hfirst⟩ | ⟨⟨f, hf⟩, hno⟩
  · rcases sectionOf_cases es "vocabulary" with ⟨⟨o, ho, hoverrides⟩, hsecond⟩ | ⟨⟨f, hf⟩, hno⟩
    · rw [ha, ho]
      simp only [Except.bind, hoverrides.withOverrides]
      rcases Vocabulary.withOverrides_cases (tidy_sectionEntries ht "vocabulary") with
        ⟨⟨v, hv⟩ | ⟨f, hf⟩, hfits, htells⟩ | ⟨herror, hfits⟩ | ⟨herror, hfits, htells⟩
      · rw [hv]
        dsimp only
        rcases hanalyzer.settings with ⟨⟨s, hs⟩, hparted⟩ | ⟨hs, hparted⟩
        · rw [hs]
          refine Or.inl ⟨Or.inl ⟨_, rfl⟩, ?_⟩
          rintro f (⟨-, h⟩ | ⟨-, -, h⟩ | ⟨-, -, h⟩)
          · exact h hfits
          · exact h htells
          · exact h hparted
        · rw [hs]
          exact Or.inr ⟨.noMember, rfl, .parts ⟨hfirst, hsecond⟩ ⟨v, hv⟩ hparted⟩
      · rw [hf]
        refine Or.inl ⟨Or.inr ⟨f, rfl⟩, ?_⟩
        rintro g (⟨-, h⟩ | ⟨-, -, h⟩ | ⟨-, ⟨v, hv⟩, -⟩)
        · exact h hfits
        · exact h htells
        · simp [hf] at hv
      · rw [herror]
        exact Or.inr ⟨.wrongKind, rfl, .tables ⟨hfirst, hsecond⟩ hfits⟩
      · rw [herror]
        exact Or.inr ⟨.badValue, rfl, .untold ⟨hfirst, hsecond⟩ hfits htells⟩
    · rw [ha, hf]
      exact Or.inl ⟨Or.inr ⟨f, rfl⟩, hunsectioned fun hs => hno hs.2⟩
  · rw [hf]
    exact Or.inl ⟨Or.inr ⟨f, rfl⟩, hunsectioned fun hs => hno hs.1⟩

/-- Tables that give a vocabulary fit and can be told. -/
lemma fits_of_withOverrides {os : Entries} {v : Vocabulary} (ht : (Value.map os).Tidy)
    (hv : (Vocabulary.withOverrides (.map os)).outcome = .ok v) : Fits os ∧ Tells os := by
  rcases Vocabulary.withOverrides_cases ht with ⟨-, hfits⟩ | ⟨herror, -⟩ | ⟨herror, -⟩
  · exact hfits
  · simp [hv] at herror
  · simp [hv] at herror

/-- Only one fault escapes: the tables are looked at one check after the other, and the parts when the tables are
all right. -/
lemma Escapes.unique {es : Entries} (ht : (Value.map es).Tidy) {f g : Fault} (hf : Escapes es f)
    (hg : Escapes es g) : f = g := by
  have hright := fun v => fits_of_withOverrides (v := v) (tidy_sectionEntries ht "vocabulary")
  cases hf with
  | tables _ hno =>
    cases hg with
    | tables => rfl
    | untold _ hfits _ => exact absurd hfits hno
    | parts _ hv => exact absurd (hright _ hv.choose_spec).1 hno
  | untold _ hfits hno =>
    cases hg with
    | tables _ hclash => exact absurd hfits hclash
    | untold => rfl
    | parts _ hv => exact absurd (hright _ hv.choose_spec).2 hno
  | parts _ hv =>
    cases hg with
    | tables _ hno => exact absurd (hright _ hv.choose_spec).1 hno
    | untold _ _ hno => exact absurd (hright _ hv.choose_spec).2 hno
    | parts => rfl

lemma Escapes.not_told {es : Entries} {f : Fault} (h : Escapes es f) :
    ¬ Told (.error f : Except Fault (Settings × Vocabulary)) := by
  rintro (⟨_, ha⟩ | ⟨_, hg⟩)
  · simp at ha
  · cases h <;> simp at hg

lemma outcome_inForce {files : Files} {path : Path} {text : String} {es : Entries}
    (hr : files.read path = .ok text) (hy : Yaml.read text = .ok (.map es)) :
    (inForce files path).outcome = (apply es).outcome := by
  obtain ⟨l, hl, hv⟩ := Yaml.linkedFrom_of_readFrom hy
  have hload : (load files path).outcome = .ok es := by
    rw [load_eq_ok (loadLinked_of_read hr hl), Linked.entryValues_entries, Linked.value_settled, hv]
    rfl
  unfold inForce
  rw [Journal.outcome_then, hload]
  rfl

lemma isTold_sectionEntries {es : Entries} (h : (Value.map es).isTold = true) (name : String) :
    (Value.map (sectionEntries es name)).isTold = true := by
  unfold sectionEntries
  cases hv : es.named? name with
  | none => rfl
  | some v =>
    have htold := Value.isTold_of_get? h hv
    cases v with
    | map given => exact htold
    | _ => rfl

/-- A mapping that is stored gives the settings that are in force, or a fault that the user is told of,
exactly if no fault escapes, and if one does it is the fault. For want of a text this happens only if a number in
the mapping has too many digits. -/
theorem inForce_told_unless_escapes (files : Files) (path : Path) (text : String) (es : Entries)
    (hr : files.read path = .ok text) (hy : Yaml.read text = .ok (.map es)) :
    (Told (inForce files path).outcome ↔ ∀ f, ¬ Escapes es f) ∧
      (∀ f, Escapes es f → (inForce files path).outcome = .error f) ∧
      (Escapes es .badValue → (Value.map es).isTold = false) := by
  have ht := Yaml.tidy_of_readFrom hy
  have hbad : Escapes es .badValue → (Value.map es).isTold = false := by
    rintro (- | ⟨-, -, hno⟩)
    by_contra htold
    exact hno (Vocabulary.tells_of_isTold (isTold_sectionEntries (Bool.not_eq_false _ ▸ htold) _))
  rw [outcome_inForce hr hy]
  rcases apply_cases ht with ⟨htold, hnone⟩ | ⟨f, hf, hescapes⟩
  · exact ⟨⟨fun _ => hnone, fun _ => htold⟩, fun f h => absurd h (hnone f), hbad⟩
  · refine ⟨⟨fun h => ?_, fun h => absurd hescapes (h f)⟩, fun g hg => ?_, hbad⟩
    · rw [hf] at h
      exact absurd h hescapes.not_told
    · rw [hf, hescapes.unique ht hg]

def homeFile : Path :=
  fileIn ⟨true, ["home"]⟩

/-- Settings stored in one file. -/
def stored (text : String) : Files :=
  { files := [(homeFile, text.toUTF8)] }

/-- Stored settings that add one action to the vocabulary. -/
def withAction (action : Value) : Entries :=
  [(.str "vocabulary", .map [(.str "actions", .list [action])])]

lemma read_stored {text : String} (h : ((stored text).read homeFile).toOption = some text) :
    (stored text).read homeFile = .ok text := by
  cases hr : (stored text).read homeFile with
  | error f => simp [hr, Except.toOption] at h
  | ok s => simpa [hr, Except.toOption] using h

lemma clashes_action_iff (action : Value) :
    Value.Clashes (.map Vocabulary.packagedEntries) (.map [(.str "actions", .list [action])]) ↔
      ¬ action.Joinable := by
  have hactions : Entries.get? Vocabulary.packagedEntries (.str "actions") =
      some (Vocabulary.listOfTexts Packaged.actions) := by
    simp [Vocabulary.packagedEntries, Entries.get?, Value.same]
  constructor
  · intro h
    cases h with
    | under he hb h =>
      obtain rfl := List.mem_singleton.mp he
      cases h with
      | item hv hk hm =>
        obtain rfl := List.mem_singleton.mp hv
        rintro (hkey | ⟨es, hmap⟩)
        · simp [hk] at hkey
        · exact hm es hmap
  · intro h
    refine .under List.mem_cons_self hactions (.item List.mem_cons_self ?_ fun es he => h (Or.inr ⟨es, he⟩))
    exact eq_false_of_ne_true fun hk => h (Or.inl hk)

/-- One action is no obstacle if it is a key or a mapping and what it makes of the tables can be told. If it is
neither, it escapes. -/
lemma escapes_withAction (action : Value) :
    (action.Joinable → Tells [(.str "actions", .list [action])] → ∀ f, ¬ Escapes (withAction action) f) ∧
      (¬ action.Joinable → Escapes (withAction action) .wrongKind) := by
  have hanalyzer : (withAction action).named? "analyzer" = none := by
    simp [withAction, Entries.named?, Entries.get?, Value.same]
  have hvocabulary : (withAction action).named? "vocabulary" =
      some (.map [(.str "actions", .list [action])]) := by
    simp [withAction, Entries.named?, Entries.get?, Value.same]
  have hempty : sectionEntries (withAction action) "analyzer" = [] := by
    unfold sectionEntries
    rw [hanalyzer]
    rfl
  have htables : sectionEntries (withAction action) "vocabulary" = [(.str "actions", .list [action])] := by
    unfold sectionEntries
    rw [hvocabulary]
    rfl
  have hfits : Fits (sectionEntries (withAction action) "vocabulary") ↔ action.Joinable := by
    rw [htables, Fits, clashes_action_iff]
    simp [Value.Uniform]
  refine ⟨fun hjoin htells => ?_, fun hno => .tables ⟨?_, ?_⟩ fun h => hno (hfits.mp h)⟩
  · rintro f (⟨-, hno⟩ | ⟨-, -, hno⟩ | ⟨-, -, hno⟩)
    · exact hno (hfits.mpr hjoin)
    · exact hno (htables ▸ htells)
    · exact hno (hempty ▸ Settings.parted_nil)
  · simp [hanalyzer, IsSection]
  · rw [hvocabulary]
    exact fun v hv => Or.inr ⟨_, (Option.some.inj hv).symm⟩

/-- The action of stored settings that add one and nothing else. -/
def addedAction? : Value → Option Value
  | .map [(.str "vocabulary", .map [(.str "actions", .list [action])])] => some action
  | _ => none

lemma addedAction?_eq_some {v action : Value} (h : addedAction? v = some action) :
    v = .map (withAction action) := by
  unfold addedAction? at h
  split at h
  · rw [← Option.some.inj h]
    rfl
  · simp at h

lemma read_withAction {text : String} {p : Value → Bool}
    (h : ((Yaml.read text).toOption.bind addedAction?).any p) :
    ∃ action, Yaml.read text = .ok (.map (withAction action)) ∧ p action = true := by
  cases hv : Yaml.read text with
  | error f => simp [hv, Except.toOption] at h
  | ok v =>
    rw [hv, Except.toOption, Option.bind_some] at h
    cases ha : addedAction? v with
    | none => simp [ha] at h
    | some action => exact ⟨action, by rw [addedAction?_eq_some ha], by simpa [ha] using h⟩

/-- A word of one's own is no obstacle: the settings are in force. -/
theorem inForce_told_action :
    let text := "vocabulary:\n  actions: [leap]\n"
    (stored text).read homeFile = .ok text ∧ Yaml.read text = .ok (.map (withAction (.str "leap"))) ∧
      Told (inForce (stored text) homeFile).outcome := by
  intro text
  have hr : (stored text).read homeFile = .ok text := read_stored (by decide +kernel)
  have hread : ((Yaml.read text).toOption.bind addedAction?).any (Value.str "leap").same := by
    decide +kernel
  obtain ⟨action, hy, hsame⟩ := read_withAction hread
  obtain rfl := Value.same_str.mp hsame
  refine ⟨hr, hy, (inForce_told_unless_escapes _ _ _ _ hr hy).1.mpr fun f hf => ?_⟩
  exact (escapes_withAction _).1 (Or.inl rfl) (Vocabulary.tells_of_isTold rfl) f hf

/-- A list in a list of words is not reported to the user. -/
theorem inForce_escapes_nested_list :
    (inForce (stored "vocabulary:\n  actions: [[x]]\n") homeFile).outcome = .error .wrongKind := by
  have hr : (stored "vocabulary:\n  actions: [[x]]\n").read homeFile =
      .ok "vocabulary:\n  actions: [[x]]\n" := read_stored (by decide +kernel)
  have hread : ((Yaml.read "vocabulary:\n  actions: [[x]]\n").toOption.bind addedAction?).any
      fun v => v.kindName == "list" := by decide +kernel
  obtain ⟨action, hy, hlist⟩ := read_withAction hread
  have hjoin : ¬ action.Joinable := by
    cases action <;> simp [Value.kindName] at hlist
    all_goals simp [Value.Joinable, Value.isKey]
  rw [outcome_inForce hr hy]
  rcases apply_cases (Yaml.tidy_of_readFrom hy) with ⟨-, hnone⟩ | ⟨f, hf, hescapes⟩
  · exact absurd ((escapes_withAction action).2 hjoin) (hnone _)
  · rw [hf, hescapes.unique (Yaml.tidy_of_readFrom hy) ((escapes_withAction action).2 hjoin)]

end UserSettings

end SkillAtlas
