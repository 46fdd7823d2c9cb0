import SkillAtlas.Proofs.Value.Level

/-!
# Nested values laid over each other

What stands at the end of a path of keys, when one mapping is laid over another. At every level the lower keys
come first and the new upper keys after them. A value at the end of a path in the upper mapping replaces what
was there, unless two mappings or two lists meet, and where the upper mapping does not reach nothing changes.
-/

namespace SkillAtlas.Value

/-- The value at the end of a path of keys through mappings. -/
def at? (v : Value) : List Value → Option Value
  | [] => some v
  | k :: rest => (v.entries.get? k).bind fun w => w.at? rest

/-- The keys of the mapping at the end of a path. -/
def keysAt (v : Value) (p : List Value) : List Value :=
  ((v.at? p).map fun w => w.entries.map Prod.fst).getD []

/-- The mappings along the path end at a key that is not there. -/
inductive Lacks : Value → List Value → Prop where
  | missing {es : Entries} {k : Value} {rest : List Value} (h : es.get? k = none) : Lacks (.map es) (k :: rest)
  | under {es : Entries} {k v : Value} {rest : List Value} (h : es.get? k = some v) (hv : Lacks v rest) :
    Lacks (.map es) (k :: rest)

/-- In every mapping of the value, mappings in mappings included, no key is written twice and each can be one. -/
inductive Keyed : Value → Prop where
  | map {es : Entries} (distinct : es.Distinct) (keys : es.Keyed) (values : ∀ e ∈ es, Keyed e.2) : Keyed (.map es)
  | other {v : Value} (h : ∀ es, v ≠ .map es) : Keyed v

variable {os es : Entries} {b o m k v : Value} {p : List Value}

lemma at?_cons_of_some (h : v.entries.get? k = some o) : v.at? (k :: p) = o.at? p := by
  rw [at?, h, Option.bind_some]

lemma at?_cons_of_none (h : v.entries.get? k = none) : v.at? (k :: p) = none := by
  rw [at?, h, Option.bind_none]

lemma keysAt_of_at? (h : v.at? p = some (.map es)) : v.keysAt p = es.map Prod.fst := by
  rw [keysAt, h]
  rfl

lemma keysAt_of_none (h : v.at? p = none) : v.keysAt p = [] := by
  rw [keysAt, h]
  rfl

lemma keysAt_congr {w : Value} {q : List Value} (h : v.at? p = w.at? q) : v.keysAt p = w.keysAt q := by
  rw [keysAt, keysAt, h]

lemma entries_eq_nil (h : ∀ es, v ≠ .map es) : v.entries = [] := by
  cases v with
  | map es => exact absurd rfl (h es)
  | _ => rfl

lemma Keyed.of_get? {w : Value} (hv : v.Keyed) (h : v.entries.get? k = some w) : w.Keyed := by
  cases hv with
  | @map es distinct keys values =>
    obtain ⟨e, he, rfl⟩ := Option.map_eq_some_iff.mp h
    exact values e (List.mem_of_find?_eq_some he)
  | other hv => simp [entries_eq_nil hv, Entries.get?] at h

/-- What is made by laying the value `o` over `b`, as it stands at the end of a path. -/
structure LaidOver (b o m : Value) (p : List Value) : Prop where
  /-- the lower keys stand first, and the upper keys that are new after them -/
  keys : ∀ es, m.at? p = some (.map es) →
    es.map Prod.fst = b.keysAt p ++ (o.keysAt p).filter fun k => !(b.keysAt p).any (·.same k)
  /-- an upper mapping gives a mapping -/
  mapping : ∀ os, o.at? p = some (.map os) → ∃ es, m.at? p = some (.map es)
  /-- an upper value replaces what was there, unless mappings or lists meet -/
  value : ∀ v, o.at? p = some v → (∀ es, v ≠ .map es) → (∀ xs ys, b.at? p = some (.list xs) → v ≠ .list ys) →
    m.at? p = some v
  /-- lists that meet are joined, and of each key the first is kept -/
  list : ∀ xs ys, b.at? p = some (.list xs) → o.at? p = some (.list ys) →
    m.at? p = some (.list (withoutRepeats [] (xs ++ ys)))
  /-- where the upper value does not reach, the lower one stays -/
  below : ∀ v, b.at? p = some v → o.Lacks p → m.at? p = some v

/-- Unless mappings or lists meet, the upper value replaces the lower one. -/
lemma overlaid_replaces (hmaps : ∀ bs os, b = .map bs → o ≠ .map os) (hlists : ∀ xs ys, b = .list xs → o ≠ .list ys) :
    overlaid b o = .ok o := by
  cases o with
  | map os =>
    cases b with
    | map bs => exact absurd rfl (hmaps bs os rfl)
    | _ => simp only [overlaid]
  | list ys =>
    cases b with
    | list xs => exact absurd rfl (hlists xs ys rfl)
    | _ => simp only [overlaid]
  | _ => cases b <;> simp only [overlaid]

lemma overlaid_of_ne_map (ho : ∀ es, o ≠ .map es) (h : overlaid b o = .ok m) :
    (∃ xs ys, b = .list xs ∧ o = .list ys ∧ m = .list (withoutRepeats [] (xs ++ ys))) ∨
      (∀ xs ys, b = .list xs → o ≠ .list ys) ∧ m = o := by
  by_cases hlists : ∃ xs ys, b = .list xs ∧ o = .list ys
  · obtain ⟨xs, ys, rfl, rfl⟩ := hlists
    rw [overlaid_lists] at h
    obtain ⟨out, hout, rfl⟩ := Fault.map_eq_ok.mp h
    exact Or.inl ⟨xs, ys, rfl, rfl, by rw [withoutRepeats_of_distinctItems .nil hout]⟩
  · have hdiffer : ∀ xs ys, b = .list xs → o ≠ .list ys := fun xs ys hb ho => hlists ⟨xs, ys, hb, ho⟩
    have hkept : overlaid b o = .ok o := overlaid_replaces (fun _ os _ => ho os) hdiffer
    exact Or.inr ⟨hdiffer, Except.ok.inj (h.symm.trans hkept)⟩

/-- A mapping that is laid over a value gives a mapping. -/
lemma overlaid_map (hb : b.Keyed) (ho : Keyed (.map os)) (h : overlaid b (.map os) = .ok m) : ∃ es, m = .map es ∧
    (es.map Prod.fst = b.keysAt [] ++ (os.map Prod.fst).filter fun k => !(b.keysAt []).any (·.same k)) ∧
    ∀ k, Layered (b.entries.get? k) (os.get? k) (Entries.get? es k) := by
  cases ho with
  | other ho => exact absurd rfl (ho os)
  | map hdistinct hkeys hvalues =>
    cases hb with
    | @map bs _ hbs _ =>
      rw [overlaid_maps] at h
      obtain ⟨es, hes, rfl⟩ := Fault.map_eq_ok.mp h
      exact ⟨es, rfl, keys_overlaidEntries hdistinct hes, get?_overlaidEntries hdistinct hkeys hbs hes⟩
    | other hb =>
      have hkept : overlaid b (.map os) = .ok (.map os) :=
        overlaid_replaces (fun bs _ he => absurd he (hb bs)) fun _ _ _ => Value.noConfusion
      refine ⟨os, Except.ok.inj (h.symm.trans hkept), ?_, fun k => ?_⟩
      · simp [keysAt, at?, entries_eq_nil hb]
      · rw [entries_eq_nil hb]
        cases os.get? k <;> rfl

namespace LaidOver

/-- Where no mapping is laid, nothing stands below the first level. -/
lemma of_ne_map (ho : ∀ es, o ≠ .map es) (h : overlaid b o = .ok m) (k : Value) (p : List Value) :
    LaidOver b o m (k :: p) := by
  have hm : m.at? (k :: p) = none := by
    refine at?_cons_of_none ?_
    rcases overlaid_of_ne_map ho h with ⟨xs, ys, -, -, rfl⟩ | ⟨-, rfl⟩
    · rfl
    · rw [entries_eq_nil ho]
      rfl
  have hnone : o.at? (k :: p) = none := at?_cons_of_none (by rw [entries_eq_nil ho]; rfl)
  constructor
  · simp [hm]
  · simp [hnone]
  · simp [hnone]
  · simp [hnone]
  · intro v _ hlacks
    cases hlacks <;> exact absurd rfl (ho _)

/-- The first level. -/
lemma nil (hb : b.Keyed) (ho : o.Keyed) (h : overlaid b o = .ok m) : LaidOver b o m [] := by
  by_cases hmap : ∃ os, o = .map os
  · obtain ⟨os, rfl⟩ := hmap
    obtain ⟨es, rfl, hkeys, -⟩ := overlaid_map hb ho h
    constructor
    · intro es' hes
      obtain rfl := Value.map.inj (Option.some.inj hes)
      exact hkeys
    · exact fun _ _ => ⟨es, rfl⟩
    · exact fun v hv hne => absurd (Option.some.inj hv).symm (hne os)
    · exact fun xs ys _ hv => absurd (Option.some.inj hv) Value.noConfusion
    · exact fun v _ hlacks => nomatch hlacks
  · have hne : ∀ os, o ≠ .map os := fun os he => hmap ⟨os, he⟩
    rcases overlaid_of_ne_map hne h with ⟨xs, ys, rfl, rfl, rfl⟩ | ⟨hdiffer, rfl⟩
    · constructor
      · exact fun es hes => absurd (Option.some.inj hes) Value.noConfusion
      · exact fun os hos => absurd (Option.some.inj hos) Value.noConfusion
      · exact fun v hv _ hdiffer => absurd (Option.some.inj hv).symm (hdiffer xs ys rfl)
      · intro xs' ys' hxs hys
        rw [Value.list.inj (Option.some.inj hxs), Value.list.inj (Option.some.inj hys), at?]
      · exact fun v _ hlacks => nomatch hlacks
    · constructor
      · exact fun es hes => absurd (Option.some.inj hes) (hne es)
      · exact fun os hos => absurd (Option.some.inj hos) (hne os)
      · exact fun v hv _ _ => hv
      · exact fun xs ys hxs hys => absurd (Option.some.inj hys) (hdiffer xs ys (Option.some.inj hxs))
      · exact fun v _ hlacks => nomatch hlacks

/-- Where the upper value does not reach, the lower one stays. -/
lemma of_lower (hsame : m.at? p = b.at? p) (hnone : o.at? p = none) : LaidOver b o m p := by
  constructor
  · intro es hes
    rw [keysAt_of_none hnone, List.filter_nil, List.append_nil, keysAt_of_at? (hsame ▸ hes)]
  · simp [hnone]
  · simp [hnone]
  · simp [hnone]
  · exact fun v hv _ => hsame.trans hv

/-- Where the lower value does not reach, the upper one is new. -/
lemma of_upper (hsame : m.at? p = o.at? p) (hnone : b.at? p = none) : LaidOver b o m p := by
  constructor
  · intro es hes
    rw [keysAt_of_none hnone, List.nil_append, keysAt_of_at? (hsame.symm.trans hes)]
    simp
  · exact fun os hos => ⟨os, hsame.trans hos⟩
  · exact fun v hv _ _ => hsame.trans hv
  · simp [hnone]
  · simp [hnone]

/-- Under a key of both, what is laid there is told one level higher. -/
lemma under {c w u : Value} (hlaid : LaidOver c w u p) (hlower : b.entries.get? k = some c)
    (hupper : o.entries.get? k = some w) (hmade : m.entries.get? k = some u) : LaidOver b o m (k :: p) := by
  have hb : b.at? (k :: p) = c.at? p := at?_cons_of_some hlower
  have ho : o.at? (k :: p) = w.at? p := at?_cons_of_some hupper
  have hm : m.at? (k :: p) = u.at? p := at?_cons_of_some hmade
  constructor
  · rw [hm, keysAt_congr hb, keysAt_congr ho]
    exact hlaid.keys
  · rw [hm, ho]
    exact hlaid.mapping
  · rw [hm, ho, hb]
    exact hlaid.value
  · rw [hm, ho, hb]
    exact hlaid.list
  · rw [hm, hb]
    intro v hv hlacks
    cases hlacks with
    | missing hmissing => exact absurd (hmissing.symm.trans hupper) (by simp)
    | under hfound hlacks =>
      obtain rfl := Option.some.inj (hupper.symm.trans hfound)
      exact hlaid.below v hv hlacks

/-- One level further: under a key stands the lower value, or the upper one, or the one laid over the other. -/
lemma cons (hb : b.Keyed) (ho : Keyed (.map os)) (h : overlaid b (.map os) = .ok m)
    (hunder : ∀ c w u, b.entries.get? k = some c → os.get? k = some w → overlaid c w = .ok u → LaidOver c w u p) :
    LaidOver b (.map os) m (k :: p) := by
  obtain ⟨es, rfl, -, hlayered⟩ := overlaid_map hb ho h
  have hk := hlayered k
  cases hw : os.get? k with
  | none =>
    rw [hw] at hk
    exact of_lower (congrArg (Option.bind · (at? · p)) hk) (at?_cons_of_none hw)
  | some w =>
    rw [hw] at hk
    cases hc : b.entries.get? k with
    | none =>
      rw [hc] at hk
      have hmade : (map es).at? (k :: p) = w.at? p := at?_cons_of_some hk
      have hupper : (map os).at? (k :: p) = w.at? p := at?_cons_of_some hw
      exact of_upper (hmade.trans hupper.symm) (at?_cons_of_none hc)
    | some c =>
      rw [hc] at hk
      obtain ⟨u, hu, hfound⟩ := hk
      exact under (hunder c w u hc hw hu) hc hw hfound

end LaidOver

/-- What stands at the end of any path, when one value is laid over another. The induction is on the path. -/
lemma laidOver (hb : b.Keyed) (ho : o.Keyed) (h : overlaid b o = .ok m) (p : List Value) : LaidOver b o m p := by
  induction p generalizing b o m with
  | nil => exact .nil hb ho h
  | cons k rest ih =>
    by_cases hmap : ∃ os, o = .map os
    · obtain ⟨os, rfl⟩ := hmap
      exact .cons hb ho h fun c w u hc hw hu => ih (hb.of_get? hc) (ho.of_get? hw) hu
    · exact .of_ne_map (fun os he => hmap ⟨os, he⟩) h k rest

/-- The lists that meet hold keys and mappings only. -/
def ListsJoin (b o : Value) : Prop :=
  ∀ p xs ys, b.at? p = some (.list xs) → o.at? p = some (.list ys) → ∀ v ∈ xs ++ ys, v.Joinable

/-- Values whose lists can be joined where they meet can be laid over each other. -/
lemma overlaid_eq_ok (hb : b.Keyed) (ho : o.Keyed) (hlists : ListsJoin b o) : ∃ m, overlaid b o = .ok m := by
  induction ho generalizing b with
  | @map os hdistinct hkeys hvalues ih =>
    have hlower := hb
    cases hb with
    | @map bs _ hbs =>
      have heach : ∀ e ∈ os, ∀ c, Entries.get? bs e.1 = some c → ∃ v, overlaid c e.2 = .ok v := by
        intro e he c hc
        refine ih e he (hlower.of_get? hc) fun p xs ys hxs hys => ?_
        have hfound : Entries.get? os e.1 = some e.2 := Entries.get?_of_mem hdistinct hkeys he
        have hlower : (map bs).at? (e.1 :: p) = some (.list xs) := (at?_cons_of_some (v := .map bs) hc).trans hxs
        have hupper : (map os).at? (e.1 :: p) = some (.list ys) := (at?_cons_of_some (v := .map os) hfound).trans hys
        exact hlists (e.1 :: p) xs ys hlower hupper
      obtain ⟨es, hes⟩ := overlaidEntries_eq_ok hdistinct hkeys hbs heach
      exact ⟨.map es, by rw [overlaid_maps, hes, Except.map]⟩
    | other hb => exact ⟨_, overlaid_replaces (fun bs _ he => absurd he (hb bs)) fun _ _ _ => Value.noConfusion⟩
  | @other o ho =>
    by_cases hmeet : ∃ xs ys, b = .list xs ∧ o = .list ys
    · obtain ⟨xs, ys, rfl, rfl⟩ := hmeet
      obtain ⟨out, hout⟩ := distinctItems_eq_ok (hlists [] xs ys rfl rfl) []
      exact ⟨.list out, by rw [overlaid_lists, hout, Except.map]⟩
    · exact ⟨o, overlaid_replaces (fun _ os _ => ho os) fun xs ys hb ho => hmeet ⟨xs, ys, hb, ho⟩⟩

/-- One mapping can be laid over another if lists that meet hold keys and mappings only, and what is made is told at
every path: the keys of each level, the upper values, the joined lists, and the lower values that stay. -/
theorem overlaidEntries_laidOver {bs os : Entries} (hb : Keyed (.map bs)) (ho : Keyed (.map os))
    (hlists : ListsJoin (.map bs) (.map os)) :
    ∃ es, overlaidEntries bs os = .ok es ∧ ∀ p, LaidOver (.map bs) (.map os) (.map es) p := by
  obtain ⟨m, hm⟩ := overlaid_eq_ok hb ho hlists
  have hmade := hm
  simp only [overlaid] at hmade
  cases hes : overlaidEntries bs os with
  | error f => simp [hes, Except.map] at hmade
  | ok es =>
    rw [hes] at hmade
    obtain rfl : .map es = m := Except.ok.inj hmade
    exact ⟨es, rfl, laidOver hb ho hm⟩

/-- Words are laid over words. The key `1` is the key `true`, and the list under it grows without its own items. -/
theorem overlaidEntries_laidOver_words :
    let bs : Entries := [(.str "words", .map [(.int 1, .list [.str "heal", .int 1]), (.str "mark", .list [])])]
    let os : Entries := [(.str "new", .null),
      (.str "words", .map [(.str "mark", .str "COPY"), (.bool true, .list [.float 1, .map [], .str "burn"])])]
    Keyed (.map bs) ∧ Keyed (.map os) ∧ ListsJoin (.map bs) (.map os) ∧
      ∃ es, overlaidEntries bs os = .ok es ∧ es.map Prod.fst = [.str "words", .str "new"] ∧
        (map es).at? [.str "words", .str "mark"] = some (.str "COPY") ∧
        (map es).at? [.str "words", .int 1] = some (.list [.str "heal", .int 1, .map [], .str "burn"]) := by
  intro bs os
  have hb : Keyed (.map bs) := by
    refine .map (by simp [Entries.Distinct, bs]) (by simp [Entries.Keyed, bs, isKey]) ?_
    refine List.forall_mem_singleton.mpr (.map (by simp [Entries.Distinct, same, integer?]) ?_ ?_)
    · simp [Entries.Keyed, isKey]
    · simp [Keyed.other]
  have ho : Keyed (.map os) := by
    refine .map (by simp [Entries.Distinct, os, same]) (by simp [Entries.Keyed, os, isKey]) ?_
    refine List.forall_mem_cons.mpr ⟨.other (by simp), List.forall_mem_singleton.mpr (.map ?_ ?_ ?_)⟩
    · simp [Entries.Distinct, same]
    · simp [Entries.Keyed, isKey]
    · simp [Keyed.other]
  have hlists : ListsJoin (.map bs) (.map os) := by
    intro p xs ys hxs hys
    rcases p with _ | ⟨k, p⟩
    · simp [at?] at hxs
    cases hk : (str "words").same k with
    | false => simp [at?, entries, bs, Entries.get?, hk] at hxs
    | true =>
      obtain rfl := same_str.mp hk
      rcases p with _ | ⟨l, _ | ⟨j, p⟩⟩
      · simp [at?, entries, bs, Entries.get?, same] at hxs
      · -- lists meet under the key `1` alone, since `COPY` is none
        simp only [at?, entries, bs, os, Entries.get?, same, List.find?_cons] at hxs hys
        cases hone : (int 1).same l <;> cases hmark : (str "mark").same l <;> simp_all [Joinable]
        obtain ⟨-, rfl⟩ := hys
        subst hxs
        simp only [List.mem_cons, List.not_mem_nil, or_false]
        rintro v ((rfl | rfl) | rfl | rfl | rfl) <;> simp [isKey]
      · simp only [at?, entries, bs, Entries.get?, same, List.find?_cons] at hxs
        cases hone : (int 1).same l <;> cases hmark : (str "mark").same l <;> simp_all
  obtain ⟨es, hes, htold⟩ := overlaidEntries_laidOver hb ho hlists
  refine ⟨hb, ho, hlists, es, hes, ?_, ?_, ?_⟩
  · simpa [keysAt, at?, entries, bs, os, same] using (htold []).keys es rfl
  · refine (htold _).value _ ?_ (by simp) (by simp)
    simp [at?, entries, os, Entries.get?, same]
  · have hjoined := (htold [.str "words", .int 1]).list [.str "heal", .int 1] [.float 1, .map [], .str "burn"] ?_ ?_
    · have hone : floatIs 1 1 = true := by decide +kernel
      simpa [withoutRepeats, isMapping, same, hone, integer?] using hjoined
    · simp [at?, entries, bs, Entries.get?, same, integer?]
    · simp [at?, entries, os, Entries.get?, same, integer?]

end SkillAtlas.Value
