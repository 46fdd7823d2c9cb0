import SkillAtlas.Proofs.Value.Layers
import SkillAtlas.UserSettings

/-!
# Values under nested keys

A value that is stored under nested keys is found there. What stands under other keys stays, if neither keys
lead through the others, and in what order two values are stored changes at most the order of keys.
-/

namespace SkillAtlas

/-- The same mapping but for the order of its keys and of those in the mappings that it holds. -/
inductive Entries.Reordered : Entries → Entries → Prop where
  | nil : Reordered [] []
  | cons (e : Value × Value) {es new : Entries} (h : Reordered es new) : Reordered (e :: es) (e :: new)
  | swap (d e : Value × Value) (es : Entries) : Reordered (e :: d :: es) (d :: e :: es)
  | under (k : Value) {inner other es new : Entries} (hinner : Reordered inner other) (h : Reordered es new) :
    Reordered ((k, .map inner) :: es) ((k, .map other) :: new)
  | trans {es mid new : Entries} (h : Reordered es mid) (h' : Reordered mid new) : Reordered es new

namespace Entries

lemma Reordered.refl (es : Entries) : Reordered es es := by
  induction es with
  | nil => exact .nil
  | cons e rest ih => exact .cons e ih

variable {es inner other : Entries} {k s : String} {v w : Value}

/-- Putting reordered entries under a key reorders the mapping. -/
lemma Reordered.put (h : Reordered inner other) (k : Value) (es : Entries) :
    Reordered (Entries.put k (.map inner) es) (Entries.put k (.map other) es) := by
  induction es with
  | nil => exact .under k h .nil
  | cons e rest ih =>
    unfold Entries.put
    split
    · exact .under e.1 h (.refl rest)
    · exact .cons e ih

lemma put_put_self (k : Value) (v w : Value) (es : Entries) (hk : k.same k = true) :
    put k v (put k w es) = put k v es := by
  induction es with
  | nil => simp [put, hk]
  | cons e rest ih =>
    by_cases he : e.1.same k = true
    · simp only [put, he, if_true]
    · simp only [put, he, Bool.false_eq_true, if_false, ih]

/-- Values under two keys can be put in either order. -/
lemma reordered_put_put (h : k ≠ s) (v w : Value) (es : Entries) :
    Reordered (put (.str k) v (put (.str s) w es)) (put (.str s) w (put (.str k) v es)) := by
  have hks : (Value.str k).same (.str s) = false := by simpa [Value.same] using h
  have hsk : (Value.str s).same (.str k) = false := by simpa [Value.same] using h.symm
  induction es with
  | nil =>
    simp only [put, hks, hsk, Bool.false_eq_true, if_false]
    exact .swap _ _ []
  | cons e rest ih =>
    by_cases hk : e.1.same (.str k) = true
    · have hs : e.1.same (.str s) = false := by rw [Value.same_key_str.mp hk, hks]
      simp only [put, hk, hs, if_true, Bool.false_eq_true, if_false]
      exact .refl _
    · by_cases hs : e.1.same (.str s) = true
      · simp only [put, hk, hs, if_true, Bool.false_eq_true, if_false]
        exact .refl _
      · simp only [put, hk, hs, Bool.false_eq_true, if_false]
        exact .cons e ih

end Entries

namespace UserSettings

/-- Neither keys lead through the others. -/
def Apart (p q : List String) : Prop :=
  ¬ p <+: q ∧ ¬ q <+: p

lemma Apart.ne_nil {p q : List String} (h : Apart p q) : p ≠ [] ∧ q ≠ [] :=
  ⟨fun hp => h.1 (hp ▸ List.nil_prefix), fun hq => h.2 (hq ▸ List.nil_prefix)⟩

lemma apart_cons_self {k : String} {p q : List String} : Apart (k :: p) (k :: q) ↔ Apart p q := by
  simp [Apart]

/-- The mapping under a key; what is no mapping counts as empty. -/
def under (es : Entries) (k : String) : Entries :=
  match es.named? k with
  | some (.map inner) => inner
  | _ => []

variable {es : Entries} {v w : Value} {k s : String} {rest p q : List String}

lemma under_put_self (es inner : Entries) (k : String) : under (Entries.put (.str k) (.map inner) es) k = inner := by
  rw [under, Entries.named?_put_self]

lemma under_put_of_ne (h : k ≠ s) : under (Entries.put (.str k) v es) s = under es s := by
  rw [under, Entries.named?_put_of_ne fun he => h (Value.str.inj he), under]

lemma setAt_cons (hr : rest ≠ []) :
    setAt v (k :: rest) es = Entries.put (.str k) (.map (setAt v rest (under es k))) es := by
  cases rest with
  | nil => exact absurd rfl hr
  | cons next more => rfl

/-- Storing under nested keys puts one value under the first of them. -/
lemma exists_put_of_setAt (v : Value) (k : String) (rest : List String) (es : Entries) :
    ∃ w, ∀ new : Entries, under new k = under es k → setAt v (k :: rest) new = Entries.put (.str k) w new := by
  by_cases hr : rest = []
  · subst hr
    exact ⟨v, fun _ _ => rfl⟩
  · exact ⟨.map (setAt v rest (under es k)), fun new hnew => by rw [setAt_cons hr, hnew]⟩

lemma getAt?_cons (hq : q ≠ []) : getAt? (k :: q) (.map es) = getAt? q (.map (under es k)) := by
  have hnil : ∀ v : Value, (∀ es, v ≠ .map es) → getAt? q v = none := by
    intro v hv
    obtain ⟨t, more, rfl⟩ := List.exists_cons_of_ne_nil hq
    cases v with
    | map es => exact absurd rfl (hv es)
    | _ => rfl
  have hempty : getAt? q (.map []) = none := by
    obtain ⟨t, more, rfl⟩ := List.exists_cons_of_ne_nil hq
    rfl
  rw [getAt?, under]
  split
  · rename_i inner hinner
    rw [hinner, Option.bind_some]
  · rename_i hno
    rw [hempty]
    cases hfound : es.named? k with
    | none => rfl
    | some v => exact hnil v fun inner hv => hno inner (hv ▸ hfound)

/-- What is stored is found. -/
theorem getAt?_setAt_self (v : Value) (hp : p ≠ []) (es : Entries) : getAt? p (.map (setAt v p es)) = some v := by
  induction p generalizing es with
  | nil => exact absurd rfl hp
  | cons k rest ih =>
    by_cases hr : rest = []
    · subst hr
      rw [setAt, getAt?, Entries.named?_put_self]
      rfl
    · rw [setAt_cons hr, getAt?_cons hr, under_put_self, ih hr]

/-- Nothing changes under other keys. -/
theorem getAt?_setAt_of_apart (v : Value) (h : Apart p q) (es : Entries) :
    getAt? q (.map (setAt v p es)) = getAt? q (.map es) := by
  induction p generalizing q es with
  | nil => exact absurd rfl h.ne_nil.1
  | cons k rest ih =>
    obtain ⟨s, more, rfl⟩ := List.exists_cons_of_ne_nil h.ne_nil.2
    by_cases hks : k = s
    · subst hks
      have hrest := apart_cons_self.mp h
      rw [setAt_cons hrest.ne_nil.1, getAt?_cons hrest.ne_nil.2, getAt?_cons hrest.ne_nil.2, under_put_self,
        ih hrest]
    · obtain ⟨w, hw⟩ := exists_put_of_setAt v k rest es
      rw [hw es rfl, getAt?, getAt?, Entries.named?_put_of_ne fun he => hks (Value.str.inj he)]

/-- Two values can be stored in either order. -/
theorem reordered_setAt_setAt (v w : Value) (h : Apart p q) (es : Entries) :
    Entries.Reordered (setAt w q (setAt v p es)) (setAt v p (setAt w q es)) := by
  induction p generalizing q es with
  | nil => exact absurd rfl h.ne_nil.1
  | cons k rest ih =>
    obtain ⟨s, more, rfl⟩ := List.exists_cons_of_ne_nil h.ne_nil.2
    by_cases hks : k = s
    · -- both go into the mapping under the same key
      subst hks
      have hrest := apart_cons_self.mp h
      have hself : (Value.str k).same (.str k) = true := Value.same_key_str.mpr rfl
      simp only [setAt_cons hrest.ne_nil.1, setAt_cons hrest.ne_nil.2, under_put_self,
        Entries.put_put_self _ _ _ _ hself]
      exact (ih hrest (under es k)).put _ es
    · obtain ⟨a, ha⟩ := exists_put_of_setAt v k rest es
      obtain ⟨b, hb⟩ := exists_put_of_setAt w s more es
      rw [ha es rfl, hb es rfl, ha _ (under_put_of_ne (Ne.symm hks)), hb _ (under_put_of_ne hks)]
      exact Entries.reordered_put_put (Ne.symm hks) b a es

end UserSettings

end SkillAtlas
