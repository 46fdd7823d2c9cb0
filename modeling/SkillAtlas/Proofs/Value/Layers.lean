import SkillAtlas.Proofs.Distinct
import SkillAtlas.Proofs.Value.Overlay

/-!
# What is left of a value over which another is laid

Under a key of the upper mapping stands its value, laid over the one below; under other keys nothing changes.
The lower keys stay where they are, and new ones come after them. A list of texts stays in front of the texts
that are joined to it.
-/

namespace SkillAtlas

lemma Value.same_key_str {k : Value} {s : String} : k.same (.str s) = true ↔ k = .str s := by
  cases k <;> simp [Value.same, Value.integer?]

namespace Entries

variable {es old new : Entries} {k v : Value} {s : String}

lemma named?_cons_self : named? ((.str s, v) :: es) s = some v := by
  simp [named?, get?, Value.same]

lemma named?_cons_of_ne {e : Value × Value} (h : e.1 ≠ .str s) : named? (e :: es) s = named? es s := by
  have hsame : e.1.same (.str s) = false := eq_false_of_ne_true fun hs => h (Value.same_key_str.mp hs)
  simp [named?, get?, hsame]

lemma named?_eq_none_of_forall (h : ∀ e ∈ es, e.1 ≠ .str s) : named? es s = none := by
  induction es with
  | nil => rfl
  | cons e rest ih =>
    obtain ⟨he, hrest⟩ := List.forall_mem_cons.mp h
    rw [named?_cons_of_ne he, ih hrest]

lemma named?_put_self (es : Entries) (s : String) (v : Value) : (put (.str s) v es).named? s = some v := by
  induction es with
  | nil => exact named?_cons_self
  | cons e rest ih =>
    unfold put
    split
    · rename_i hs
      have he : e.1 = .str s := Value.same_key_str.mp hs
      rw [he]
      exact named?_cons_self
    · rename_i hs
      rw [named?_cons_of_ne fun he => hs (Value.same_key_str.mpr he), ih]

lemma named?_put_of_ne (h : k ≠ .str s) : (put k v es).named? s = es.named? s := by
  induction es with
  | nil => rw [put, named?_cons_of_ne h]
  | cons e rest ih =>
    unfold put
    split
    · rename_i hs
      have he : e.1 ≠ .str s := by
        intro he
        rw [he] at hs
        exact h (Value.same_str.mp hs)
      have hput : named? ((e.1, v) :: rest) s = named? rest s := named?_cons_of_ne he
      rw [hput, named?_cons_of_ne he]
    · by_cases he : e.1 = .str s
      · obtain ⟨k', v'⟩ := e
        obtain rfl : k' = .str s := he
        rw [named?_cons_self, named?_cons_self]
      · rw [named?_cons_of_ne he, named?_cons_of_ne he, ih]

lemma named?_of_mem (hn : (es.map Prod.fst).Nodup) (h : (.str s, v) ∈ es) : es.named? s = some v := by
  induction es with
  | nil => simp at h
  | cons e rest ih =>
    obtain ⟨he, hrest⟩ := List.nodup_cons.mp hn
    rcases List.mem_cons.mp h with rfl | h
    · exact named?_cons_self
    · have hne : e.1 ≠ .str s := fun hs => he (hs ▸ List.mem_map_of_mem h)
      rw [named?_cons_of_ne hne, ih hrest h]

lemma named?_append (h : es.named? s = some v) : named? (es ++ new) s = some v := by
  unfold named? get? at h ⊢
  obtain ⟨e, he, hv⟩ := Option.map_eq_some_iff.mp h
  rw [List.find?_append, he, Option.some_or, Option.map_some, hv]

/-- A key that is there keeps its place. -/
lemma put_append_of_mem (h : ∃ e ∈ old, e.1.same k = true) : put k v (old ++ new) = put k v old ++ new := by
  induction old with
  | nil => simp at h
  | cons e rest ih =>
    rw [List.cons_append]
    by_cases hs : e.1.same k = true
    · simp only [put, hs, if_true, List.cons_append]
    · have hrest : ∃ e ∈ rest, e.1.same k = true := ((List.exists_mem_cons_iff ..).mp h).resolve_left hs
      simp only [put, hs, Bool.false_eq_true, if_false, ih hrest, List.cons_append]

lemma keys_put_of_mem (h : ∃ e ∈ es, e.1.same k = true) : (put k v es).map Prod.fst = es.map Prod.fst := by
  induction es with
  | nil => simp at h
  | cons e rest ih =>
    by_cases hs : e.1.same k = true
    · simp only [put, hs, if_true, List.map_cons]
    · have hrest : ∃ e ∈ rest, e.1.same k = true := ((List.exists_mem_cons_iff ..).mp h).resolve_left hs
      simp only [put, hs, Bool.false_eq_true, if_false, List.map_cons, ih hrest]

/-- A new key comes last. -/
lemma put_of_forall_not_mem (h : ∀ e ∈ es, e.1.same k = false) : put k v es = es ++ [(k, v)] := by
  induction es with
  | nil => rfl
  | cons e rest ih =>
    obtain ⟨he, hrest⟩ := List.forall_mem_cons.mp h
    simp only [put, he, Bool.false_eq_true, if_false, ih hrest, List.cons_append]

lemma get?_eq_none_iff : es.get? k = none ↔ ∀ e ∈ es, e.1.same k = false := by
  simp [get?]

end Entries

namespace Value

variable {base os es : Entries}

/-- What stands under a key when one mapping is laid over another. -/
def Layered (base top found : Option Value) : Prop :=
  match top, base with
  | none, below => found = below
  | some t, none => found = some t
  | some t, some b => ∃ v, overlaid b t = .ok v ∧ found = some v

/-- The first upper entry is laid over what stands under its key, and the others after it. -/
lemma overlaidEntries_cons_eq_ok {e : Value × Value} {rest : Entries} (h : overlaidEntries base (e :: rest) = .ok es) :
    ∃ v, Layered (base.get? e.1) (some e.2) (some v) ∧ overlaidEntries (Entries.put e.1 v base) rest = .ok es := by
  obtain ⟨k, t⟩ := e
  unfold overlaidEntries at h
  cases hb : base.get? k with
  | none =>
    rw [hb] at h
    exact ⟨t, rfl, h⟩
  | some b =>
    rw [hb] at h
    obtain ⟨v, hv, h⟩ := Fault.bind_eq_ok.mp h
    exact ⟨v, ⟨v, hv, rfl⟩, h⟩

lemma named?_overlaidEntries (hd : os.Distinct) (h : overlaidEntries base os = .ok es) (s : String) :
    Layered (base.named? s) (os.named? s) (es.named? s) := by
  induction os generalizing base with
  | nil =>
    obtain rfl := Except.ok.inj h
    rfl
  | cons e rest ih =>
    obtain ⟨v, hv, h⟩ := overlaidEntries_cons_eq_ok h
    obtain ⟨hfirst, hrest⟩ := List.pairwise_cons.mp hd
    have hlater := ih hrest h
    by_cases hk : e.1 = .str s
    · -- no later entry has the key, so what is put under it stays
      have hnone : Entries.named? rest s = none := by
        refine Entries.named?_eq_none_of_forall fun d hd hs => ?_
        have hdiff := hfirst d hd
        rw [hk, hs, Value.same_str.mpr rfl] at hdiff
        exact absurd hdiff (by simp)
      obtain ⟨k, t⟩ := e
      obtain rfl : k = .str s := hk
      rw [hnone, Entries.named?_put_self] at hlater
      have hfound : es.named? s = some v := hlater
      rw [Entries.named?_cons_self, hfound]
      exact hv
    · rw [Entries.named?_put_of_ne hk] at hlater
      rwa [Entries.named?_cons_of_ne hk]

/-- The lower keys keep their places, and of the upper entries only those with new keys are added, after
them. -/
lemma exists_eq_append {old new : Entries} (hd : os.Distinct) (hnew : ∀ d ∈ new, ∀ e ∈ os, d.1.same e.1 = false)
    (h : overlaidEntries (old ++ new) os = .ok es) :
    ∃ kept added, es = kept ++ (new ++ added) ∧ kept.map Prod.fst = old.map Prod.fst ∧ added.Sublist os ∧
      ∀ e ∈ added, ∀ k ∈ old.map Prod.fst, k.same e.1 = false := by
  induction os generalizing old new with
  | nil =>
    obtain rfl := Except.ok.inj h
    exact ⟨old, [], by simp, rfl, List.Sublist.refl _, by simp⟩
  | cons e rest ih =>
    obtain ⟨v, hv, h⟩ := overlaidEntries_cons_eq_ok h
    obtain ⟨hfirst, hrest⟩ := List.pairwise_cons.mp hd
    have hlater : ∀ d ∈ new, ∀ e ∈ rest, d.1.same e.1 = false := fun d hd e he =>
      hnew d hd e (List.mem_cons_of_mem _ he)
    by_cases hold : ∃ d ∈ old, d.1.same e.1 = true
    · rw [Entries.put_append_of_mem hold] at h
      obtain ⟨kept, added, rfl, hkeys, hadded, hdiff⟩ := ih hrest hlater h
      rw [Entries.keys_put_of_mem hold] at hkeys hdiff
      exact ⟨kept, added, rfl, hkeys, hadded.cons _, hdiff⟩
    · have holdNone : ∀ d ∈ old, d.1.same e.1 = false := by simpa using hold
      have hfresh : ∀ d ∈ old ++ new, d.1.same e.1 = false :=
        List.forall_mem_append.mpr ⟨holdNone, fun d hd => hnew d hd e List.mem_cons_self⟩
      rw [Entries.get?_eq_none_iff.mpr hfresh] at hv
      obtain rfl : v = e.2 := Option.some.inj hv
      rw [Entries.put_of_forall_not_mem hfresh, List.append_assoc] at h
      have hmore : ∀ d ∈ new ++ [e], ∀ c ∈ rest, d.1.same c.1 = false :=
        List.forall_mem_append.mpr ⟨hlater, List.forall_mem_singleton.mpr hfirst⟩
      obtain ⟨kept, added, rfl, hkeys, hadded, hdiff⟩ := ih hrest hmore h
      refine ⟨kept, e :: added, by simp, hkeys, hadded.cons_cons _, ?_⟩
      exact List.forall_mem_cons.mpr ⟨List.forall_mem_map.mpr holdNone, hdiff⟩

/-- Texts lose their repeats, and those that have been seen. -/
lemma distinctItems_texts (seen words : List String) :
    distinctItems (seen.map .str) (words.map .str) =
      .ok (((words.filter fun w => !seen.contains w).eraseDups).map .str) := by
  induction words generalizing seen with
  | nil => rfl
  | cons w rest ih =>
    have hany : ((seen.map Value.str).any fun v => v.same (.str w)) = seen.contains w := by
      rw [Bool.eq_iff_iff]
      simp [Value.same]
    rw [List.map_cons]
    unfold distinctItems
    simp only [isKey, Bool.not_true, Bool.false_eq_true, if_false, hany]
    by_cases hw : w ∈ seen
    · simp only [List.contains_eq_mem, hw, decide_true, if_true, Bool.not_true, Bool.false_eq_true,
        not_false_eq_true, List.filter_cons_of_neg]
      simpa using ih seen
    · have hfilter : (rest.filter fun v => !(w :: seen).contains v) =
          (rest.filter fun v => !seen.contains v).filter fun v => !v == w := by
        rw [List.filter_filter]
        refine List.filter_congr fun v _ => ?_
        rw [List.contains_cons, Bool.not_or]
      have hrest := ih (w :: seen)
      rw [hfilter, List.map_cons] at hrest
      simp only [List.contains_eq_mem, hw, decide_false, Bool.false_eq_true, if_false, Bool.not_false,
        List.filter_cons_of_pos, List.eraseDups_cons, List.map_cons]
      rw [hrest]
      simp [Except.map]

/-- Only texts are made distinct to texts. -/
lemma texts_of_distinctItems {vs : List Value} {seen words : List String}
    (h : distinctItems (seen.map .str) vs = .ok (words.map .str)) : ∃ given : List String, vs = given.map .str := by
  induction vs generalizing seen words with
  | nil => exact ⟨[], rfl⟩
  | cons v rest ih =>
    unfold distinctItems at h
    split at h
    · obtain ⟨more, -, hout⟩ := Fault.map_eq_ok.mp h
      obtain ⟨w, _, _, hw, -⟩ := List.map_eq_cons_iff.mp hout.symm
      simp at hw
    · split at h
      · simp at h
      · split at h
        · rename_i hany
          obtain ⟨u, hu, hs⟩ := List.any_eq_true.mp hany
          obtain ⟨w, -, rfl⟩ := List.mem_map.mp hu
          obtain ⟨given, rfl⟩ := ih h
          exact ⟨w :: given, by rw [Value.same_str.mp hs, List.map_cons]⟩
        · rename_i hm _ _
          obtain ⟨more, hmore, hout⟩ := Fault.map_eq_ok.mp h
          obtain ⟨w, words', rfl, rfl, rfl⟩ := List.map_eq_cons_iff.mp hout.symm
          have hseen : distinctItems ((w :: seen).map .str) rest = .ok (words'.map .str) := hmore
          obtain ⟨given, rfl⟩ := ih hseen
          exact ⟨w :: given, rfl⟩

/-- What is laid over a list of texts and gives such a list is a list of texts. -/
lemma overlaid_texts {kept merged : List String} {t : Value}
    (h : overlaid (.list (kept.map .str)) t = .ok (.list (merged.map .str))) :
    ∃ given : List String, t = .list (given.map .str) ∧ merged = (kept ++ given).eraseDups := by
  cases t with
  | list items =>
    rw [overlaid_lists] at h
    obtain ⟨out, hd, hout⟩ := Fault.map_eq_ok.mp h
    obtain rfl := Value.list.inj hout
    have hseen : distinctItems ([].map .str) (kept.map .str ++ items) = .ok (merged.map .str) := hd
    obtain ⟨all, hall⟩ := texts_of_distinctItems hseen
    obtain ⟨first, given, rfl, hfirst, rfl⟩ := List.append_eq_map_iff.mp hall
    have hstr : Function.Injective Value.str := fun _ _ => Value.str.inj
    obtain rfl := List.map_injective_iff.mpr hstr hfirst
    refine ⟨given, rfl, ?_⟩
    have hwhole := distinctItems_texts [] (first ++ given)
    rw [List.map_append, List.map_nil, hd, Except.ok.injEq] at hwhole
    have hwords := List.map_injective_iff.mpr hstr hwhole
    simpa using hwords
  | _ => simp [overlaid] at h

end Value

end SkillAtlas
