import SkillAtlas.Proofs.Analysis.Stages
import SkillAtlas.Proofs.Value.Telling
import SkillAtlas.Proofs.Vocabulary.Reading

/-!
# When a user's tables can be laid over the packaged vocabulary

The tables have to fit the packaged ones, and their names are put in order, so they have to be comparable
with one another. What comes out is then checked, and a violation is a fault that the user is told of.
-/

namespace SkillAtlas

namespace Value

/-- The kinds of single values that can be compared with their like. -/
inductive OrderKind where
  | numbers
  | texts
  | bytes
  | dates
  /-- moments with a distance from universal time, or without -/
  | moments (placed : Bool)
deriving DecidableEq

/-- The kind of values that a single value can be compared with. -/
def orderKind? : Value → Option OrderKind
  | bool _ | int _ | float _ => some .numbers
  | str _ => some .texts
  | bytes _ => some .bytes
  | date _ => some .dates
  | moment m => some (.moments m.offset.isSome)
  | _ => none

/-- The two values are of one kind. -/
def Comparable (a b : Value) : Prop :=
  ∃ o, a.orderKind? = some o ∧ b.orderKind? = some o

lemma less_cases {a b : Value} (ha : a.SingleKey) (hb : b.SingleKey) :
    (∃ r, less a b = .ok r) ∧ Comparable a b ∨ less a b = .error .wrongKind ∧ ¬ Comparable a b := by
  unfold Comparable
  cases a <;> cases b
  case moment.moment m n =>
    by_cases h : m.offset.isSome = n.offset.isSome
    · refine Or.inl ⟨⟨m.instant < n.instant, by simp [less, h]⟩, .moments m.offset.isSome, rfl, ?_⟩
      simp [orderKind?, h]
    · refine Or.inr ⟨by simp [less, h], ?_⟩
      rintro ⟨o, hm, hn⟩
      exact h (by simpa [orderKind?] using hm.trans hn.symm)
  all_goals simp_all [less, orderKind?, number?, integer?, SingleKey, isKey]

/-- All the values are of one kind, or there is only one. -/
def Uniform (ks : List Value) : Prop :=
  ks.length ≤ 1 ∨ ∃ o, ∀ k ∈ ks, k.orderKind? = some o

end Value

namespace Vocabulary

open Value (Uniform)

lemma insertKey_eq_ok {k : Value} {sorted : List Value} {o : Value.OrderKind} (hk : k.SingleKey)
    (hs : ∀ x ∈ sorted, x.SingleKey) (ho : k.orderKind? = some o)
    (hall : ∀ x ∈ sorted, x.orderKind? = some o) : ∃ out, insertKey k sorted = .ok out ∧ out.Perm (k :: sorted) := by
  induction sorted with
  | nil => exact ⟨[k], rfl, .refl _⟩
  | cons x rest ih =>
    obtain ⟨hx, hrest⟩ := List.forall_mem_cons.mp hs
    obtain ⟨hox, horest⟩ := List.forall_mem_cons.mp hall
    obtain ⟨⟨r, hr⟩, -⟩ := (Value.less_cases hk hx).resolve_right fun h => h.2 ⟨o, ho, hox⟩
    obtain ⟨out, hout, hperm⟩ := ih hrest horest
    unfold insertKey
    rw [hr, hout]
    cases r with
    | true => exact ⟨_, rfl, .refl _⟩
    | false => exact ⟨_, rfl, (hperm.cons x).trans (.swap k x rest)⟩

lemma insertKey_eq_error {k x : Value} {rest : List Value} (hk : k.SingleKey) (hx : x.SingleKey)
    (h : ¬ Value.Comparable k x) : insertKey k (x :: rest) = .error .wrongKind := by
  obtain ⟨herror, -⟩ := (Value.less_cases hk hx).resolve_left fun hno => h hno.2
  unfold insertKey
  rw [herror]
  rfl

lemma foldlM_insertKey_cases {o : Value.OrderKind} {ks sorted : List Value} (hks : ∀ k ∈ ks, k.SingleKey)
    (hs : ∀ x ∈ sorted, x.SingleKey ∧ x.orderKind? = some o) (hne : sorted ≠ []) :
    (∃ out, ks.foldlM (fun sorted k => insertKey k sorted) sorted = .ok out) ∧
        (∀ k ∈ ks, k.orderKind? = some o) ∨
      ks.foldlM (fun sorted k => insertKey k sorted) sorted = .error .wrongKind ∧
        ¬ ∀ k ∈ ks, k.orderKind? = some o := by
  induction ks generalizing sorted with
  | nil => exact Or.inl ⟨⟨sorted, rfl⟩, by simp⟩
  | cons k rest ih =>
    obtain ⟨hk, hrest⟩ := List.forall_mem_cons.mp hks
    rw [List.foldlM_cons]
    by_cases ho : k.orderKind? = some o
    · obtain ⟨out, hout, hperm⟩ := insertKey_eq_ok hk (fun x hx => (hs x hx).1) ho fun x hx => (hs x hx).2
      have hall : ∀ x ∈ out, x.SingleKey ∧ x.orderKind? = some o := by
        intro x hx
        rcases List.mem_cons.mp (hperm.mem_iff.mp hx) with rfl | hx
        · exact ⟨hk, ho⟩
        · exact hs x hx
      have hne : out ≠ [] := fun hnil => by simp [hnil] at hperm
      rw [hout]
      rcases ih hrest hall hne with ⟨hok, hsame⟩ | ⟨herror, hother⟩
      · exact Or.inl ⟨hok, List.forall_mem_cons.mpr ⟨ho, hsame⟩⟩
      · exact Or.inr ⟨herror, fun h => hother (List.forall_mem_cons.mp h).2⟩
    · -- another kind is noticed at the first key that is there
      obtain ⟨x, others, rfl⟩ := List.exists_cons_of_ne_nil hne
      obtain ⟨hx, hxo⟩ := hs x List.mem_cons_self
      have hno : ¬ Value.Comparable k x := by
        rintro ⟨p, hp, hxp⟩
        exact ho (hp.trans (hxp.symm.trans hxo))
      rw [insertKey_eq_error hk hx hno]
      exact Or.inr ⟨rfl, fun h => ho (List.forall_mem_cons.mp h).1⟩

/-- Keys can be put in order exactly if they are of one kind, or there is only one. -/
lemma sortedKeys_cases {os : Entries} (h : ∀ e ∈ os, e.1.SingleKey) :
    (∃ out, sortedKeys (.map os) = .ok out) ∧ Uniform (os.map Prod.fst) ∨
      sortedKeys (.map os) = .error .wrongKind ∧ ¬ Uniform (os.map Prod.fst) := by
  have hkeys : ∀ k ∈ os.map Prod.fst, k.SingleKey := List.forall_mem_map.mpr h
  unfold sortedKeys Value.entries
  generalize os.map Prod.fst = ks at hkeys ⊢
  match ks, hkeys with
  | [], _ => exact Or.inl ⟨⟨[], rfl⟩, Or.inl (by simp)⟩
  | [k], _ => exact Or.inl ⟨⟨[k], rfl⟩, Or.inl (by simp)⟩
  | k :: l :: rest, hkeys =>
    obtain ⟨hk, hl, hrest⟩ : k.SingleKey ∧ l.SingleKey ∧ ∀ m ∈ rest, m.SingleKey := by
      simpa [List.forall_mem_cons] using hkeys
    have hfirst : (k :: l :: rest).foldlM (fun sorted k => insertKey k sorted) [] =
        (l :: rest).foldlM (fun sorted k => insertKey k sorted) [k] := rfl
    rw [hfirst]
    by_cases ho : ∃ o, k.orderKind? = some o
    · obtain ⟨o, ho⟩ := ho
      have hone : ∀ x ∈ [k], x.SingleKey ∧ x.orderKind? = some o := by simpa using ⟨hk, ho⟩
      rcases foldlM_insertKey_cases (List.forall_mem_cons.mpr ⟨hl, hrest⟩) hone (by simp) with
        ⟨hok, hsame⟩ | ⟨herror, hother⟩
      · exact Or.inl ⟨hok, Or.inr ⟨o, List.forall_mem_cons.mpr ⟨ho, hsame⟩⟩⟩
      · refine Or.inr ⟨herror, ?_⟩
        rintro (hlen | ⟨p, hp⟩)
        · simp at hlen
        · obtain ⟨hkp, hothers⟩ := List.forall_mem_cons.mp hp
          obtain rfl : o = p := Option.some.inj (ho.symm.trans hkp)
          exact hother hothers
    · have hno : ¬ Value.Comparable l k := fun ⟨o, _, hk⟩ => ho ⟨o, hk⟩
      rw [List.foldlM_cons, insertKey_eq_error hl hk hno]
      refine Or.inr ⟨rfl, ?_⟩
      rintro (hlen | ⟨p, hp⟩)
      · simp at hlen
      · exact ho ⟨p, (List.forall_mem_cons.mp hp).1⟩

lemma plain_listOfTexts (words : List String) : (listOfTexts words).Plain :=
  .list (List.forall_mem_map.mpr fun _ _ => rfl)

/-- The packaged tables have texts as keys and hold texts. -/
lemma plain_packaged : (Value.map packagedEntries).Plain := by
  refine .map ?_ ?_
  · simp [Entries.Textual, packagedEntries]
  · simp only [packagedEntries, List.forall_mem_cons, List.not_mem_nil, false_implies, implies_true,
      and_true, plain_listOfTexts, true_and]
    refine ⟨.text _, .map ?_ ?_⟩
    · exact List.forall_mem_map.mpr fun c _ => ⟨c.1, rfl⟩
    · exact List.forall_mem_map.mpr fun c _ => plain_listOfTexts c.2

/-- The tables do not clash with the packaged ones, and their names can be put in order. -/
def Fits (os : Entries) : Prop :=
  ¬ Value.Clashes (.map packagedEntries) (.map os) ∧ Uniform (os.map Prod.fst)

/-- The user is told what is wrong, if anything is. -/
def Told {α : Type} (x : Except Fault α) : Prop :=
  (∃ a, x = .ok a) ∨ ∃ f, x = .error (.settings f)

/-- What the tables make of the packaged ones can be told. -/
def Tells (os : Entries) : Prop :=
  ∀ v, Value.overlaid (.map packagedEntries) (.map os) = .ok v → Tellable v

lemma told_ofValue {v : Value} (ht : Tellable v) : Told (ofValue v) := by
  by_cases h : shape.Describes v
  · exact Or.inl ⟨_, ofValue_eq_ok.mpr ⟨h, ht.categories h, rfl⟩⟩
  · obtain ⟨violation, hv⟩ := ofValue_eq_error ht h
    exact Or.inr ⟨_, hv⟩

/-- A value without a number of too many digits can be told. -/
lemma tellable_of_isTold {v : Value} (h : v.isTold = true) : Tellable v where
  violations := fun ⟨violation, hmem, hnot⟩ => by
    rw [Shape.isTold_of_violations shape v h violation hmem] at hnot
    cases hnot
  categories hd cs hcs e he := by
    obtain ⟨es, rfl, -⟩ := Shape.describes_record.mp hd
    exact (Value.isTold_map.mp (Value.isTold_of_get? h hcs) e he).1

lemma isTold_packaged : (Value.map packagedEntries).isTold = true := by
  decide +kernel

lemma tells_of_isTold {os : Entries} (h : (Value.map os).isTold = true) : Tells os :=
  fun v hv => tellable_of_isTold (Value.isTold_overlaid _ _ v isTold_packaged h hv)

lemma withOverrides_of_falsy {overrides : Value} (h : overrides.isTruthy = false) :
    (withOverrides overrides).outcome = .ok packaged := by
  unfold withOverrides
  simp only [h, Bool.not_false, if_true]
  rfl

lemma outcome_withOverrides {overrides : Value} (h : overrides.isTruthy = true) :
    (withOverrides overrides).outcome = (overlaidValue overrides).bind fun v =>
      (sortedKeys overrides).bind fun _ => ofValue v := by
  unfold withOverrides
  simp only [h, Bool.not_true, Bool.false_eq_true, if_false, Journal.outcome_then, Journal.outcome_lift,
    Journal.outcome_note, Except.bind]
  cases overlaidValue overrides with
  | error f => rfl
  | ok v =>
    cases sortedKeys overrides with
    | error f => rfl
    | ok keys =>
      dsimp only
      cases ofValue v <;> rfl

/-- Tables that fit give a vocabulary or a fault that the user is told of if what they make can be told, and other
tables do not. -/
theorem withOverrides_cases {os : Entries} (ht : (Value.map os).Tidy) :
    Told (withOverrides (.map os)).outcome ∧ Fits os ∧ Tells os ∨
      (withOverrides (.map os)).outcome = .error .wrongKind ∧ ¬ Fits os ∨
        (withOverrides (.map os)).outcome = .error .badValue ∧ Fits os ∧ ¬ Tells os := by
  by_cases hnil : os = []
  · subst hnil
    refine Or.inl ⟨Or.inl ⟨packaged, withOverrides_of_falsy rfl⟩, ⟨?_, Or.inl (by simp)⟩, tells_of_isTold rfl⟩
    intro hclash
    cases hclash with
    | under he => simp at he
  · have htruthy : (Value.map os).isTruthy = true := by
      cases os with
      | nil => exact absurd rfl hnil
      | cons e rest => rfl
    have hoverlaid : overlaidValue (.map os) = Value.overlaid (.map packagedEntries) (.map os) :=
      (Value.overlaid_maps packagedEntries os).symm
    have hsingle : ∀ e ∈ os, e.1.SingleKey := by
      cases ht with
      | map _ keys => exact keys
      | other h => exact absurd rfl (h os)
    rw [outcome_withOverrides htruthy, hoverlaid]
    rcases Value.overlaidUnlessClash ht plain_packaged with ⟨⟨v, hv⟩, hclash⟩ | ⟨hv, hclash⟩
    · have htells : Tells os ↔ Tellable v :=
        ⟨fun h => h v hv, fun h w hw => Except.ok.inj (hv.symm.trans hw) ▸ h⟩
      rw [hv, htells]
      rcases sortedKeys_cases hsingle with ⟨⟨out, hout⟩, huniform⟩ | ⟨hout, huniform⟩
      · rw [hout]
        by_cases htell : Tellable v
        · exact Or.inl ⟨told_ofValue htell, ⟨hclash, huniform⟩, htell⟩
        · exact Or.inr (Or.inr ⟨ofValue_of_not_tellable htell, ⟨hclash, huniform⟩, htell⟩)
      · rw [hout]
        exact Or.inr (Or.inl ⟨rfl, fun h => huniform h.2⟩)
    · rw [hv]
      exact Or.inr (Or.inl ⟨rfl, fun h => h.1 hclash⟩)

end Vocabulary

end SkillAtlas
