import SkillAtlas.Proofs.Value.Layers

/-!
# One mapping laid over another

Under each key stands the upper value, laid over the lower one if there are both. The lower keys come first, and
the new upper keys after them. Lists that are joined keep of each key the first.
-/

namespace SkillAtlas

namespace Entries

variable {es : Entries} {e : Value × Value} {a : Value}

lemma get?_cons_of_same (h : e.1.same a = true) : get? (e :: es) a = some e.2 := by
  simp [get?, h]

lemma get?_cons_of_ne (h : e.1.same a = false) : get? (e :: es) a = es.get? a := by
  simp [get?, h]

/-- The entry of a mapping is found under its key. -/
lemma get?_of_mem (hd : es.Distinct) (hk : es.Keyed) (he : e ∈ es) : es.get? e.1 = some e.2 := by
  induction es with
  | nil => simp at he
  | cons d rest ih =>
    obtain ⟨hd', hkeys⟩ := List.forall_mem_cons.mp hk
    obtain ⟨hfirst, hdistinct⟩ := List.pairwise_cons.mp hd
    rcases List.mem_cons.mp he with rfl | he
    · exact get?_cons_of_same ((Value.same_iff hd').mpr ⟨hd', rfl⟩)
    · rw [get?_cons_of_ne (hfirst e he), ih hdistinct hkeys he]

end Entries

namespace Value

/-- The value is a mapping. -/
def isMapping : Value → Bool
  | map _ => true
  | _ => false

/-- The items without those that are one key with an earlier item; mappings are all kept. -/
def withoutRepeats (earlier : List Value) : List Value → List Value
  | [] => []
  | v :: rest =>
    if !v.isMapping && earlier.any (·.same v) then withoutRepeats (earlier ++ [v]) rest
    else v :: withoutRepeats (earlier ++ [v]) rest

variable {base os es rest : Entries} {e : Value × Value} {v : Value}

section Repeats

variable {earlier seen vs out : List Value}

/-- What was kept so far tells of every key whether it came earlier. -/
structure Recalls (seen earlier : List Value) : Prop where
  keys : ∀ s ∈ seen, s.isKey = true
  any : ∀ v : Value, v.isKey = true → seen.any (·.same v) = earlier.any (·.same v)

namespace Recalls

lemma nil : Recalls [] [] :=
  ⟨by simp, by simp⟩

/-- No key is a mapping. -/
lemma pass (h : Recalls seen earlier) (es : Entries) : Recalls seen (earlier ++ [.map es]) where
  keys := h.keys
  any v hv := by
    have hne : same (.map es) v = false := by
      cases v with
      | map => simp [isKey] at hv
      | _ => simp [same]
    rw [h.any v hv, List.any_append, List.any_cons, hne, List.any_nil, Bool.or_false, Bool.or_false]

/-- A key that came earlier tells nothing new. -/
lemma drop (h : Recalls seen earlier) (hv : v.isKey = true) (hany : seen.any (·.same v) = true) :
    Recalls seen (earlier ++ [v]) where
  keys := h.keys
  any w hw := by
    rw [List.any_append, ← h.any w hw, List.any_cons, List.any_nil, Bool.or_false]
    cases hs : v.same w with
    | false => rw [Bool.or_false]
    | true =>
      obtain ⟨s, hmem, hsv⟩ := List.any_eq_true.mp hany
      rw [same_congr_right hv hs (h.keys s hmem)] at hsv
      rw [Bool.or_true, List.any_eq_true]
      exact ⟨s, hmem, hsv⟩

lemma keep (h : Recalls seen earlier) (hv : v.isKey = true) : Recalls (v :: seen) (earlier ++ [v]) where
  keys := List.forall_mem_cons.mpr ⟨hv, h.keys⟩
  any w hw := by
    rw [List.any_cons, List.any_append, h.any w hw, List.any_cons, List.any_nil, Bool.or_false, Bool.or_comm]

end Recalls

/-- Joining keeps of each key the first. The induction is on the items. -/
lemma withoutRepeats_of_distinctItems (hseen : Recalls seen earlier) (h : distinctItems seen vs = .ok out) :
    withoutRepeats earlier vs = out := by
  induction vs generalizing seen earlier out with
  | nil => exact Except.ok.inj h
  | cons v rest ih =>
    unfold distinctItems at h
    split at h
    · rename_i es
      obtain ⟨more, hmore, rfl⟩ := Fault.map_eq_ok.mp h
      simp [withoutRepeats, isMapping, ih (hseen.pass es) hmore]
    · rename_i hmap
      have hplain : v.isMapping = false := by
        cases v with
        | map es => exact absurd rfl (hmap es)
        | _ => rfl
      split at h
      · simp at h
      · rename_i hkey
        have hv : v.isKey = true := by simpa using hkey
        rw [withoutRepeats, hplain, ← hseen.any v hv]
        split at h
        · rename_i hany
          rw [hany, ih (hseen.drop hv hany) h]
          rfl
        · rename_i hany
          obtain ⟨more, hmore, rfl⟩ := Fault.map_eq_ok.mp h
          rw [Bool.not_eq_true] at hany
          rw [hany, ih (hseen.keep hv) hmore]
          rfl

end Repeats

/-- Under each key stands the upper value, laid over the lower one. The induction is on the upper entries. -/
lemma get?_overlaidEntries (hd : os.Distinct) (hos : os.Keyed) (hbase : base.Keyed)
    (h : overlaidEntries base os = .ok es) (a : Value) : Layered (base.get? a) (os.get? a) (es.get? a) := by
  induction os generalizing base with
  | nil =>
    obtain rfl := Except.ok.inj h
    rfl
  | cons e rest ih =>
    obtain ⟨v, hv, h⟩ := overlaidEntries_cons_eq_ok h
    obtain ⟨hk, hkeys⟩ := List.forall_mem_cons.mp hos
    obtain ⟨hfirst, hdistinct⟩ := List.pairwise_cons.mp hd
    have hlater := ih hdistinct hkeys (hbase.put hk) h
    cases hs : e.1.same a with
    | true =>
      have hnone : Entries.get? rest a = none := Entries.get?_eq_none_iff.mpr fun d hd => by
        rw [← same_congr_right hk hs (hkeys d hd), same_comm (hkeys d hd) hk, hfirst d hd]
      rw [hnone, hbase.get?_put_self hk hs] at hlater
      have hfound : es.get? a = some v := hlater
      rwa [Entries.get?_cons_of_same hs, ← hbase.get?_congr hk hs, hfound]
    | false =>
      rw [hbase.get?_put_of_ne hs] at hlater
      rwa [Entries.get?_cons_of_ne hs]

/-- The lower keys stand first, and the upper keys that are new after them. -/
lemma keys_overlaidEntries (hd : os.Distinct) (h : overlaidEntries base os = .ok es) :
    es.map Prod.fst = base.map Prod.fst ++
      (os.map Prod.fst).filter fun k => !(base.map Prod.fst).any (·.same k) := by
  induction os generalizing base with
  | nil =>
    obtain rfl := Except.ok.inj h
    simp
  | cons e rest ih =>
    obtain ⟨v, -, h⟩ := overlaidEntries_cons_eq_ok h
    obtain ⟨hfirst, hdistinct⟩ := List.pairwise_cons.mp hd
    rw [ih hdistinct h]
    by_cases hold : ∃ d ∈ base, d.1.same e.1 = true
    · have hany : (base.map Prod.fst).any (·.same e.1) = true := by simpa using hold
      rw [Entries.keys_put_of_mem hold, List.map_cons, List.filter_cons_of_neg (by simp [hany])]
    · have hnew : ∀ d ∈ base, d.1.same e.1 = false := by simpa using hold
      have hany : (base.map Prod.fst).any (·.same e.1) = false := by simpa using hnew
      rw [Entries.put_of_forall_not_mem hnew, List.map_cons, List.filter_cons_of_pos (by simp [hany]), List.map_append,
        List.map_singleton, List.append_assoc, List.singleton_append]
      congr 2
      refine List.filter_congr fun k hk => ?_
      obtain ⟨d, hd, rfl⟩ := List.mem_map.mp hk
      simp [List.any_append, hfirst d hd]

end Value

end SkillAtlas
