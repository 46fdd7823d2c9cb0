import SkillAtlas.Proofs.Value.Sameness
import SkillAtlas.Proofs.Yaml.Scanning
import SkillAtlas.Proofs.Yaml.Tidy

/-!
# When one value can be laid over another

Lists are joined without repeats, so their items have to be keys or mappings. That is all that can go
wrong: one value can be laid over another unless somewhere a list with another item meets a list.
-/

namespace SkillAtlas

lemma Value.same_str {s : String} {k : Value} : (Value.str s).same k = true ↔ k = .str s := by
  cases k with
  | str t =>
    simp only [Value.same, beq_iff_eq, Value.str.injEq]
    exact eq_comm
  | _ => simp [Value.same]

namespace Value

/-- A value whose mappings have texts as keys and whose lists hold keys. -/
inductive Plain : Value → Prop where
  | text (s : String) : Plain (.str s)
  | list {items : List Value} (h : ∀ v ∈ items, v.isKey = true) : Plain (.list items)
  | map {es : Entries} (keys : es.Textual) (values : ∀ e ∈ es, Plain e.2) : Plain (.map es)

/-- Somewhere a list is laid over a list, with an item that is no mapping and cannot be a key. -/
inductive Clashes : Value → Value → Prop where
  | item {bs os : List Value} {v : Value} (hv : v ∈ os) (hk : v.isKey = false) (hm : ∀ es, v ≠ .map es) :
      Clashes (.list bs) (.list os)
  | under {bs os : Entries} {e : Value × Value} {b : Value} (he : e ∈ os) (hb : bs.get? e.1 = some b)
      (h : Clashes b e.2) : Clashes (.map bs) (.map os)

/-- The values that can be joined with others: keys, and mappings. -/
def Joinable (v : Value) : Prop :=
  v.isKey = true ∨ ∃ es, v = .map es

lemma distinctItems_eq_ok {vs : List Value} (h : ∀ v ∈ vs, v.Joinable) (seen : List Value) :
    ∃ out, distinctItems seen vs = .ok out := by
  induction vs generalizing seen with
  | nil => exact ⟨[], rfl⟩
  | cons v rest ih =>
    obtain ⟨hv, hrest⟩ := List.forall_mem_cons.mp h
    unfold distinctItems
    split
    · obtain ⟨out, hout⟩ := ih hrest seen
      exact ⟨_, by rw [hout]; rfl⟩
    · rename_i hm
      have hk : v.isKey = true := hv.resolve_right fun ⟨es, he⟩ => hm es he
      rw [hk]
      simp only [Bool.not_true, Bool.false_eq_true, if_false]
      split
      · exact ih hrest seen
      · obtain ⟨out, hout⟩ := ih hrest (v :: seen)
        exact ⟨_, by rw [hout]; rfl⟩

lemma distinctItems_eq_error {vs : List Value} (h : ∃ v ∈ vs, ¬ v.Joinable) (seen : List Value) :
    distinctItems seen vs = .error .wrongKind := by
  induction vs generalizing seen with
  | nil => simp at h
  | cons v rest ih =>
    unfold distinctItems
    split
    · rename_i es
      have hrest : ∃ w ∈ rest, ¬ w.Joinable := by
        obtain ⟨w, hw, hj⟩ := h
        rcases List.mem_cons.mp hw with rfl | hw
        · exact absurd (Or.inr ⟨es, rfl⟩) hj
        · exact ⟨w, hw, hj⟩
      rw [ih hrest seen]
      rfl
    · split
      · rfl
      · rename_i hk
        have hrest : ∃ w ∈ rest, ¬ w.Joinable := by
          obtain ⟨w, hw, hj⟩ := h
          rcases List.mem_cons.mp hw with rfl | hw
          · exact absurd (Or.inl (by simpa using hk)) hj
          · exact ⟨w, hw, hj⟩
        split
        · exact ih hrest seen
        · rw [ih hrest (v :: seen)]
          rfl

lemma overlaid_lists (bs os : List Value) :
    overlaid (.list bs) (.list os) = (distinctItems [] (bs ++ os)).map list := by
  simp only [overlaid]

lemma overlaid_maps (bs os : Entries) : overlaid (.map bs) (.map os) = (overlaidEntries bs os).map map := by
  simp only [overlaid]

lemma overlaidEntries_eq_ok {base os : Entries} (hd : os.Distinct) (hos : os.Keyed) (hbase : base.Keyed)
    (h : ∀ e ∈ os, ∀ b, base.get? e.1 = some b → ∃ v, overlaid b e.2 = .ok v) :
    ∃ es, overlaidEntries base os = .ok es := by
  induction os generalizing base with
  | nil => exact ⟨base, by simp [overlaidEntries]⟩
  | cons e rest ih =>
    obtain ⟨he, hrest⟩ := List.forall_mem_cons.mp h
    obtain ⟨hk, hkeys⟩ := List.forall_mem_cons.mp hos
    obtain ⟨hfirst, hdistinct⟩ := List.pairwise_cons.mp hd
    have hgo : ∀ v, ∃ es, overlaidEntries (Entries.put e.1 v base) rest = .ok es := fun v =>
      ih hdistinct hkeys (hbase.put hk) fun d hd' => by
        rw [hbase.get?_put_of_ne (hfirst d hd')]
        exact hrest d hd'
    unfold overlaidEntries
    cases hb : base.get? e.1 with
    | none => exact hgo e.2
    | some b =>
      obtain ⟨v, hv⟩ := he b hb
      dsimp only
      rw [hv]
      exact hgo v

lemma overlaidEntries_eq_error {base os : Entries} (hd : os.Distinct) (hos : os.Keyed) (hbase : base.Keyed)
    (h : ∀ e ∈ os, ∀ b, base.get? e.1 = some b → FailsBy (· = .wrongKind) (overlaid b e.2))
    {e : Value × Value} {b : Value} (he : e ∈ os) (hb : base.get? e.1 = some b)
    (hf : overlaid b e.2 = .error .wrongKind) : overlaidEntries base os = .error .wrongKind := by
  induction os generalizing base with
  | nil => simp at he
  | cons d rest ih =>
    obtain ⟨hfirst, hrest⟩ := List.forall_mem_cons.mp h
    obtain ⟨hk, hkeys⟩ := List.forall_mem_cons.mp hos
    obtain ⟨hother, hdistinct⟩ := List.pairwise_cons.mp hd
    -- what the entry meets is not changed by the entries before it
    have hgo : e ∈ rest → ∀ v, overlaidEntries (Entries.put d.1 v base) rest = .error .wrongKind :=
      fun he v => ih hdistinct hkeys (hbase.put hk)
        (fun d' hd' => by
          rw [hbase.get?_put_of_ne (hother d' hd')]
          exact hrest d' hd')
        he (by rw [hbase.get?_put_of_ne (hother e he)]; exact hb)
    unfold overlaidEntries
    rcases List.mem_cons.mp he with rfl | he
    · rw [hb]
      dsimp only
      rw [hf]
      rfl
    · cases hb' : base.get? d.1 with
      | none => exact hgo he d.2
      | some b' =>
        cases hv : overlaid b' d.2 with
        | ok v =>
          simp only [hv]
          exact hgo he v
        | error f =>
          simp only [hv, hfirst b' hb' f hv]
          rfl

lemma keyed_of_textual {es : Entries} (h : es.Textual) : es.Keyed := by
  intro e he
  obtain ⟨s, hs⟩ := h e he
  simp [hs, isKey]

lemma plain_of_get? {base : Entries} {k b : Value} (h : ∀ e ∈ base, e.2.Plain)
    (hb : base.get? k = some b) : b.Plain := by
  obtain ⟨e, he, rfl⟩ := Option.map_eq_some_iff.mp hb
  exact h e (List.mem_of_find?_eq_some he)

/-- Laying one value over another gives a value, or fails because they clash. -/
def OverlaidUnlessClash (base top : Value) : Prop :=
  (∃ v, overlaid base top = .ok v) ∧ ¬ Clashes base top ∨
    overlaid base top = .error .wrongKind ∧ Clashes base top

lemma overlaidUnlessClash_list {bs os : List Value} (hb : ∀ v ∈ bs, v.isKey = true) :
    OverlaidUnlessClash (.list bs) (.list os) := by
  unfold OverlaidUnlessClash
  rw [overlaid_lists]
  by_cases hj : ∀ v ∈ os, v.Joinable
  · have hall : ∀ v ∈ bs ++ os, v.Joinable := fun v hv =>
      (List.mem_append.mp hv).elim (fun hv => Or.inl (hb v hv)) (hj v)
    obtain ⟨out, hout⟩ := distinctItems_eq_ok hall []
    refine Or.inl ⟨⟨.list out, by rw [hout]; rfl⟩, fun hc => ?_⟩
    cases hc with
    | item hv hk hm =>
      rcases hj _ hv with hkey | ⟨es, he⟩
      · simp [hk] at hkey
      · exact hm es he
  · push Not at hj
    obtain ⟨v, hv, hno⟩ := hj
    have hsome : ∃ v ∈ bs ++ os, ¬ v.Joinable := ⟨v, List.mem_append_right bs hv, hno⟩
    have herror := distinctItems_eq_error hsome []
    refine Or.inr ⟨by rw [herror]; rfl, .item hv ?_ fun es he => hno (Or.inr ⟨es, he⟩)⟩
    exact eq_false_of_ne_true fun hk => hno (Or.inl hk)

lemma overlaidUnlessClash_map {bs os : Entries} (hd : os.Distinct) (hos : os.Keyed) (hbs : bs.Keyed)
    (h : ∀ e ∈ os, ∀ b, bs.get? e.1 = some b → OverlaidUnlessClash b e.2) :
    OverlaidUnlessClash (.map bs) (.map os) := by
  unfold OverlaidUnlessClash
  rw [overlaid_maps]
  by_cases hclash : ∃ e ∈ os, ∃ b, bs.get? e.1 = some b ∧ Clashes b e.2
  · obtain ⟨e, he, b, hb, hclash⟩ := hclash
    have hfails : ∀ e ∈ os, ∀ b, bs.get? e.1 = some b → FailsBy (· = .wrongKind) (overlaid b e.2) := by
      intro e he b hb f hf
      rcases h e he b hb with ⟨⟨v, hv⟩, -⟩ | ⟨herror, -⟩
      · simp [hv] at hf
      · exact (Except.error.inj (herror.symm.trans hf)).symm
    have herror : overlaid b e.2 = .error .wrongKind :=
      ((h e he b hb).resolve_left fun hno => hno.2 hclash).1
    refine Or.inr ⟨?_, .under he hb hclash⟩
    rw [overlaidEntries_eq_error hd hos hbs hfails he hb herror]
    rfl
  · have hfree : ∀ e ∈ os, ∀ b, bs.get? e.1 = some b → ¬ Clashes b e.2 :=
      fun e he b hb hno => hclash ⟨e, he, b, hb, hno⟩
    obtain ⟨es, hes⟩ := overlaidEntries_eq_ok hd hos hbs fun e he b hb =>
      ((h e he b hb).resolve_right fun hno => hfree e he b hb hno.2).1
    refine Or.inl ⟨⟨.map es, by rw [hes]; rfl⟩, fun hno => ?_⟩
    cases hno with
    | under he hb hno => exact hfree _ he _ hb hno

lemma overlaidUnlessClash_of_replaces {base top : Value} (h : overlaid base top = .ok top)
    (hc : ¬ Clashes base top) : OverlaidUnlessClash base top :=
  Or.inl ⟨⟨top, h⟩, hc⟩

/-- A tidy value can be laid over a plain one unless they clash. -/
theorem overlaidUnlessClash {base top : Value} (ht : top.Tidy) (hb : base.Plain) :
    OverlaidUnlessClash base top := by
  induction ht generalizing base with
  | @map os distinct keys values ih =>
    cases hb with
    | text s => exact overlaidUnlessClash_of_replaces (by simp [overlaid]) (by rintro ⟨⟩)
    | list h => exact overlaidUnlessClash_of_replaces (by simp [overlaid]) (by rintro ⟨⟩)
    | @map bs texts plain =>
      exact overlaidUnlessClash_map distinct (fun e he => (keys e he).1) (keyed_of_textual texts) fun e he b hb =>
        ih e he (plain_of_get? plain hb)
  | @other top hm =>
    cases hb with
    | text s => exact overlaidUnlessClash_of_replaces (by simp [overlaid]) (by rintro ⟨⟩)
    | @list bs h =>
      cases top with
      | list os => exact overlaidUnlessClash_list h
      | map es => exact absurd rfl (hm es)
      | _ => exact overlaidUnlessClash_of_replaces (by simp [overlaid]) (by rintro ⟨⟩)
    | @map bs texts plain =>
      cases top with
      | map es => exact absurd rfl (hm es)
      | _ => exact overlaidUnlessClash_of_replaces (by simp [overlaid]) (by rintro ⟨⟩)

end Value

end SkillAtlas
