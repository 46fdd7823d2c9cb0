import Mathlib.Data.List.Nodup
import SkillAtlas.Proofs.Analysis.Stages
import SkillAtlas.Proofs.Yaml.Parts

/-!
# Keys of documents

No two keys of a document are the same. Their texts may be: the number `1` and the text `1` are two keys.
Two keys that are texts have different texts.
-/

namespace SkillAtlas

open Fault (bind_eq_ok map_eq_ok)

namespace Entries

/-- No key is written twice. -/
def Distinct (es : Entries) : Prop :=
  es.Pairwise fun a b => a.1.same b.1 = false

/-- Every key is a text. -/
def Textual (es : Entries) : Prop :=
  ∀ e ∈ es, ∃ s, e.1 = .str s

lemma textual_iff {es : Entries} : es.Textual ↔ ∀ kind ∈ es.map fun e => e.1.kindName, kind = "str" := by
  have hkind : ∀ v : Value, (∃ s, v = .str s) ↔ v.kindName = "str" := by
    intro v
    cases v with
    | again isList => cases isList <;> simp [Value.kindName]
    | _ => simp [Value.kindName]
  simp only [Textual, hkind, List.forall_mem_map]

lemma mem_put {k v : Value} {es : Entries} {e : Value × Value} (h : e ∈ put k v es) :
    (∃ old ∈ es, old.1 = e.1) ∨ e = (k, v) := by
  induction es with
  | nil => exact Or.inr (List.mem_singleton.mp h)
  | cons a rest ih =>
    unfold put at h
    split at h
    · rcases List.mem_cons.mp h with rfl | hr
      · exact Or.inl ⟨a, List.mem_cons_self, rfl⟩
      · exact Or.inl ⟨e, List.mem_cons_of_mem a hr, rfl⟩
    · rcases List.mem_cons.mp h with rfl | hr
      · exact Or.inl ⟨e, List.mem_cons_self, rfl⟩
      · rcases ih hr with ⟨old, ho, hk⟩ | he
        · exact Or.inl ⟨old, List.mem_cons_of_mem a ho, hk⟩
        · exact Or.inr he

lemma Distinct.put {es : Entries} (h : es.Distinct) (k v : Value) : (put k v es).Distinct := by
  induction es with
  | nil => exact List.pairwise_singleton _ _
  | cons a rest ih =>
    obtain ⟨hfirst, hrest⟩ := List.pairwise_cons.mp h
    unfold Entries.put
    split
    · exact List.pairwise_cons.mpr ⟨hfirst, hrest⟩
    · rename_i hk
      refine List.pairwise_cons.mpr ⟨fun e he => ?_, ih hrest⟩
      rcases mem_put he with ⟨old, ho, hs⟩ | rfl
      · rw [← hs]
        exact hfirst old ho
      · exact Bool.not_eq_true _ ▸ hk

lemma distinct_ofList (es : Entries) : (ofList es).Distinct := by
  have hrun : ∀ m : Entries, m.Distinct → (es.foldl (fun m e => put e.1 e.2 m) m).Distinct := by
    induction es with
    | nil => exact fun m hm => hm
    | cons e rest ih => exact fun m hm => ih _ (hm.put e.1 e.2)
  exact hrun [] List.Pairwise.nil

end Entries

namespace Yaml

lemma Part.distinct_ofEntries {i : Nat} {tag : Tag} {entries : List (Part × Part)} {es : Entries}
    (h : (Part.ofEntries i tag entries).value = .map es) : es.Distinct := by
  rcases Part.ofEntries_cases i tag entries with ⟨flat, -, hlinked, -⟩ | ⟨v, hlinked, hv⟩ <;> rw [Part.value, hlinked] at h
  · rcases Part.value_mapOf i entries (flat.map fun e => (e.1.value, e.2.linked)) with hmap | hagain
    · rw [← Value.map.inj (hmap.symm.trans h)]
      exact Entries.distinct_ofList _
    · exact absurd (hagain.symm.trans h) Value.noConfusion
  · rcases hv with hscalar | ⟨vs, rfl⟩
    · exact absurd h hscalar.ne_map
    · exact absurd h Value.noConfusion

/-- No two keys of a mapping are the same. -/
lemma Node.distinct_part {n : Node} {es : Entries} (h : n.part.value = .map es) : es.Distinct := by
  cases n with
  | scalar tag s => exact absurd h (Part.isScalar_ofText tag s).ne_map
  | sequence i tag items => exact absurd h ((Part.value_ofItems i tag _).1 es)
  | mapping i tag pairs => exact Part.distinct_ofEntries h
  | again i isList => exact absurd h Value.noConfusion

end Yaml

/-- No two keys of a document are the same. -/
lemma Document.distinct_read {text : String} {doc : Entries} (h : Document.read text = .ok doc) :
    doc.Distinct := by
  have hv : Yaml.read text = .ok (.map doc) := by
    unfold Document.read at h
    split at h <;> simp_all
  rcases Yaml.node_of_readFrom hv with hnull | ⟨n, -, -, hn⟩
  · exact absurd hnull Value.noConfusion
  · exact Yaml.Node.distinct_part hn

/-- Keys that are texts have different texts. -/
lemma Entries.Distinct.nodup_text {doc : Entries} (h : doc.Distinct) (ht : doc.Textual) :
    (doc.map fun e => e.1.text).Nodup := by
  unfold List.Nodup
  rw [List.pairwise_map]
  refine h.imp_of_mem fun {a b} ha hb hs => ?_
  obtain ⟨s, hs'⟩ := ht a ha
  obtain ⟨t, ht'⟩ := ht b hb
  rw [hs', ht'] at hs ⊢
  simpa [Value.same, Value.text] using hs

section Names

variable {v : Vocabulary} {kind : ContextKind} {name : String} {data : Entries} {entry : Entry}

lemma name_of_mobEntry {n : Note} (h : mobEntry v name data = .ok (some entry, n)) : entry.name = name := by
  obtain ⟨extra, -, h⟩ := bind_eq_ok.mp h
  split at h
  · simp [pure, Except.pure] at h
  · obtain ⟨skills, -, h⟩ := bind_eq_ok.mp h
    simp only [pure, Except.pure, Except.ok.injEq, Prod.mk.injEq, Option.some.injEq] at h
    rw [← h.1]

lemma name_of_skillEntry {n : Note} (h : skillEntry name data = .ok (some entry, n)) : entry.name = name := by
  obtain ⟨skills, -, h⟩ := bind_eq_ok.mp h
  have hwith : ∀ {lines}, skillWith name data lines = .ok entry → entry.name = name := by
    intro lines h
    simp only [skillWith, bind_eq_ok, bind] at h
    obtain ⟨_, -, _, -, _, -, _, -, _, -, _, -, h⟩ := h
    rw [← Except.ok.inj h]
  split at h
  · obtain ⟨known, -, h⟩ := bind_eq_ok.mp h
    split at h <;> simp [pure, Except.pure] at h
  · obtain ⟨known, -, h⟩ := bind_eq_ok.mp h
    split at h <;> simp [pure, Except.pure] at h
  · obtain ⟨found, hfound, h⟩ := bind_eq_ok.mp h
    simp only [pure, Except.pure, Except.ok.injEq, Prod.mk.injEq, Option.some.injEq] at h
    obtain ⟨rfl, -⟩ := h
    exact hwith hfound

lemma name_entryAt? {e : Value × Value} (h : entryAt? v kind e = .ok (some entry)) :
    entry.name = e.1.text := by
  obtain ⟨⟨found, note⟩, hread, rfl⟩ := map_eq_ok.mp h
  obtain ⟨name, hname, hread⟩ := bind_eq_ok.mp hread
  obtain ⟨-, rfl⟩ := Value.told_eq_ok.mp hname
  split at hread
  · simp [pure, Except.pure] at hread
  · cases kind with
    | mob => exact name_of_mobEntry hread
    | skillFile => exact name_of_skillEntry hread
  · simp [pure, Except.pure] at hread

/-- The entries of a document bear the texts of its keys, in their order. -/
lemma names_of_extract {doc : Entries} {entries : List Entry}
    (h : (extract v kind doc).outcome = .ok entries) :
    (entries.map Entry.name).Sublist (doc.map fun e => e.1.text) := by
  rw [outcome_extract] at h
  obtain ⟨found, hfound, rfl⟩ := map_eq_ok.mp h
  clear h
  induction doc generalizing found with
  | nil =>
    obtain rfl : [] = found := Except.ok.inj hfound
    exact List.Sublist.refl _
  | cons e rest ih =>
    rw [List.mapM_cons] at hfound
    obtain ⟨entry, hentry, hfound⟩ := bind_eq_ok.mp hfound
    obtain ⟨others, hothers, hfound⟩ := bind_eq_ok.mp hfound
    obtain rfl := Except.ok.inj hfound
    cases entry with
    | none => exact (ih _ hothers).cons _
    | some entry =>
      rw [List.reduceOption_cons_of_some, List.map_cons, List.map_cons, name_entryAt? hentry]
      exact (ih _ hothers).cons_cons _

end Names

end SkillAtlas
