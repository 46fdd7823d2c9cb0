import SkillAtlas.Proofs.Value.Linked
import SkillAtlas.Yaml.Read

/-!
# Parts and what they are made of

A part keeps the parts that it was made of, since a key `<<` further up may open it once more. `Part.All`
says that a property holds of a part and of everything that can be reached in it. It passes from keys,
values and items to whatever is made of them, entries that `<<` brings in included. A text gives a value that
is no collection, whatever its tag.
-/

namespace SkillAtlas

lemma Depth.mem_flatten_join {α : Type} {a : α} {xs ys : List (List α)} :
    a ∈ (Depth.join xs ys).flatten ↔ a ∈ xs.flatten ∨ a ∈ ys.flatten := by
  induction xs generalizing ys with
  | nil => simp [Depth.join]
  | cons x xs ih =>
    cases ys with
    | nil => simp [Depth.join]
    | cons y ys =>
      simp only [Depth.join, List.flatten_cons, List.mem_append, ih]
      tauto

lemma Depth.mem_flatten_above {α : Type} {a : α} {here : List α} {below : List (List (List α))} :
    a ∈ (Depth.above here below).flatten ↔ a ∈ here ∨ ∃ levels ∈ below, a ∈ levels.flatten := by
  have hfold : a ∈ (below.foldr Depth.join []).flatten ↔ ∃ levels ∈ below, a ∈ levels.flatten := by
    induction below with
    | nil => simp
    | cons levels rest ih =>
      simp only [List.foldr_cons, Depth.mem_flatten_join, ih, List.exists_mem_cons_iff]
  rw [Depth.above, List.flatten_cons, List.mem_append, hfold]

/-- What a step gives for each item of a list comes from one of the items. -/
lemma mem_of_mapM_eq_some {α β : Type} {f : α → Option β} {xs : List α} {ys : List β}
    (h : xs.mapM f = some ys) : ∀ y ∈ ys, ∃ x ∈ xs, f x = some y := by
  induction xs generalizing ys with
  | nil =>
    obtain rfl : [] = ys := Option.some.inj h
    simp
  | cons x xs ih =>
    rw [List.mapM_cons] at h
    obtain ⟨y, hy, h⟩ := Option.bind_eq_some_iff.mp h
    obtain ⟨rest, hrest, h⟩ := Option.bind_eq_some_iff.mp h
    obtain rfl := Option.some.inj h
    refine List.forall_mem_cons.mpr ⟨⟨x, List.mem_cons_self, hy⟩, fun z hz => ?_⟩
    obtain ⟨w, hw, hz⟩ := ih hrest z hz
    exact ⟨w, List.mem_cons_of_mem x hw, hz⟩

/-- The value is no collection. -/
def Value.IsScalar : Value → Prop
  | list _ | tuple _ | set _ | map _ => False
  | _ => True

lemma Value.IsScalar.ne_map {v : Value} {es : Entries} (h : v.IsScalar) : v ≠ .map es := by
  rintro rfl
  exact h

lemma Value.IsScalar.ne_tuple {v : Value} {items : List Value} (h : v.IsScalar) : v ≠ .tuple items := by
  rintro rfl
  exact h

namespace Yaml

lemma isScalar_of_intOf {s : String} {v : Value} (h : intOf s = .ok v) : v.IsScalar := by
  simp only [intOf, bind, Except.bind, pure, Except.pure] at h
  split at h
  · simp at h
  · exact Except.ok.inj h ▸ trivial

lemma isScalar_of_floatOf {s : String} {v : Value} (h : floatOf s = .ok v) : v.IsScalar := by
  simp only [floatOf, bind, Except.bind, pure, Except.pure] at h
  repeat' split at h
  all_goals first | exact Except.ok.inj h ▸ trivial | simp at h

lemma isScalar_of_value? {t : Timestamp} {v : Value} (h : t.value? = some v) : v.IsScalar := by
  cases t <;> simp only [Timestamp.value?] at h <;> split at h
  all_goals first | exact Option.some.inj h ▸ trivial | simp at h

/-- A text is no collection, whatever its tag. -/
lemma isScalar_of_scalarOf? {tag : Tag} {s : String} {v : Value} (h : scalarOf? tag s = some (.ok v)) :
    v.IsScalar := by
  cases tag <;> simp only [scalarOf?, Option.some.injEq, reduceCtorEq, Except.ok.injEq] at h
  case null | str => exact h ▸ trivial
  case bool =>
    split at h
    · exact Except.ok.inj h ▸ trivial
    · simp at h
  case int => exact isScalar_of_intOf h
  case float => exact isScalar_of_floatOf h
  case binary =>
    split at h
    · split at h
      · exact Except.ok.inj h ▸ trivial
      · simp at h
    · simp at h
  case timestamp =>
    split at h
    · simp at h
    · split at h
      · rename_i hv
        rw [Except.ok.inj h] at hv
        exact isScalar_of_value? hv
      · simp at h

lemma isScalar_of_getD_scalarOf? {tag : Tag} {s : String} {v : Value}
    (h : (scalarOf? tag s).getD (.error .malformed) = .ok v) : v.IsScalar := by
  cases hs : scalarOf? tag s with
  | none => simp [hs] at h
  | some r =>
    rw [hs] at h
    exact isScalar_of_scalarOf? (hs.trans (congrArg some h))

end Yaml

namespace Yaml.Part

/-- All faults of making a part. -/
def faults (p : Part) : List Fault :=
  p.fault.toList ++ p.levels.flatten

lemma mem_faults {p : Part} {f : Fault} :
    f ∈ p.faults ↔ p.fault = some f ∨ f ∈ p.levels.flatten := by
  simp [faults]

lemma mem_faults_of_levelsOf {opening : List Fault} {children : List Part} {f : Fault}
    (h : f ∈ (levelsOf opening children).flatten) : f ∈ opening ∨ ∃ q ∈ children, f ∈ q.faults := by
  rcases Depth.mem_flatten_above.mp h with h | ⟨levels, hl, h⟩
  · exact Or.inl h
  · obtain ⟨q, hq, rfl⟩ := List.mem_map.mp hl
    exact Or.inr ⟨q, hq, mem_faults.mpr (Or.inr h)⟩

lemma mem_levelsOf {opening : List Fault} {children : List Part} {f : Fault}
    (h : f ∈ opening ∨ ∃ q ∈ children, f ∈ q.levels.flatten) : f ∈ (levelsOf opening children).flatten :=
  Depth.mem_flatten_above.mpr (h.imp_right fun ⟨q, hq, hf⟩ => ⟨q.levels, List.mem_map_of_mem hq, hf⟩)

/-- A property of a part and of all parts that it is made of. -/
inductive All (P : Part → Prop) : Part → Prop where
  | intro {p : Part} (self : P p)
      (keys : ∀ es, p.raw = some es ∨ p.flat = some es → ∀ e ∈ es, All P e.1)
      (values : ∀ es, p.raw = some es ∨ p.flat = some es → ∀ e ∈ es, All P e.2)
      (items : ∀ qs, p.items = some qs → ∀ q ∈ qs, All P q) : All P p

/-- The property holds throughout the keys and values of entries. -/
def AllEntries (P : Part → Prop) (es : List (Part × Part)) : Prop :=
  ∀ e ∈ es, e.1.All P ∧ e.2.All P

variable {P Q : Part → Prop} {p : Part} {es : List (Part × Part)}

lemma All.self (h : p.All P) : P p := by
  cases h with
  | intro self => exact self

lemma All.mono (hPQ : ∀ q, P q → Q q) (h : p.All P) : p.All Q := by
  induction h with
  | intro self _ _ _ keys values items => exact .intro (hPQ _ self) keys values items

lemma All.raw (h : p.All P) (hr : p.raw = some es) : AllEntries P es := by
  cases h with
  | intro _ keys values => exact fun e he => ⟨keys es (.inl hr) e he, values es (.inl hr) e he⟩

lemma All.flat (h : p.All P) (hf : p.flat = some es) : AllEntries P es := by
  cases h with
  | intro _ keys values => exact fun e he => ⟨keys es (.inr hf) e he, values es (.inr hf) e he⟩

lemma All.items {qs : List Part} (h : p.All P) (hi : p.items = some qs) : ∀ q ∈ qs, q.All P := by
  cases h with
  | intro _ _ _ items => exact items qs hi

lemma All.of (self : P p) (hr : ∀ es, p.raw = some es → AllEntries P es)
    (hf : ∀ es, p.flat = some es → AllEntries P es) (hi : ∀ qs, p.items = some qs → ∀ q ∈ qs, q.All P) :
    p.All P :=
  .intro self (fun es h e he => (h.elim (hr es) (hf es) e he).1)
    (fun es h e he => (h.elim (hr es) (hf es) e he).2) hi

section Single

variable (tag : Tag) (text : Option String) (raw flat : Option (List (Part × Part)))
  (items : Option (List Part)) (r : Except Fault Value)

@[simp] lemma raw_single : (single tag text raw flat items r).raw = raw := by
  cases r <;> rfl

@[simp] lemma flat_single : (single tag text raw flat items r).flat = flat := by
  cases r <;> rfl

@[simp] lemma items_single : (single tag text raw flat items r).items = items := by
  cases r <;> rfl

lemma mem_faults_single {f : Fault} : f ∈ (single tag text raw flat items r).faults ↔ r = .error f := by
  cases r <;> simp [single, faults, fault, levels, eq_comm]

end Single

/-- A single value is the one that was read, or null in its place. -/
lemma linked_single {tag : Tag} {text : Option String} {raw flat : Option (List (Part × Part))}
    {items : Option (List Part)} {r : Except Fault Value} (h : ∀ v, r = .ok v → v.IsScalar) :
    ∃ v, (single tag text raw flat items r).linked = .plain v ∧ v.IsScalar := by
  cases r with
  | ok v => exact ⟨v, rfl, h v rfl⟩
  | error f => exact ⟨.null, rfl, trivial⟩

/-- A text gives no collection, whatever its tag. -/
lemma linked_ofText (tag : Tag) (s : String) : ∃ v, (ofText tag s).linked = .plain v ∧ v.IsScalar := by
  unfold ofText
  split
  · rename_i r hr
    exact linked_single fun v h => isScalar_of_scalarOf? (hr.trans (congrArg some h))
  · exact ⟨.null, rfl, trivial⟩

lemma isScalar_ofText (tag : Tag) (s : String) : (ofText tag s).value.IsScalar := by
  obtain ⟨v, hlinked, hv⟩ := linked_ofText tag s
  rw [value, hlinked]
  exact hv

lemma parts_ofText (tag : Tag) (s : String) :
    (ofText tag s).raw = none ∧ (ofText tag s).flat = none ∧ (ofText tag s).items = none := by
  unfold ofText
  split
  · simp
  · exact ⟨rfl, rfl, rfl⟩

lemma all_ofText {tag : Tag} {s : String} (h : P (ofText tag s)) : (ofText tag s).All P := by
  have hnone := parts_ofText tag s
  exact .of h (by simp [hnone]) (by simp [hnone]) (by simp [hnone])

lemma parts_ofItems (i : Nat) (tag : Tag) (qs : List Part) :
    (ofItems i tag qs).raw = none ∧ (ofItems i tag qs).flat = none ∧ (ofItems i tag qs).items = some qs := by
  cases tag <;> exact ⟨rfl, rfl, rfl⟩

/-- A list of single entries is one, or an item of it is a mapping inside itself. -/
lemma pairsOf_cases (i : Nat) (qs : List Part) (es : List (Part × Part)) :
    pairsOf i qs es = listOf i (es.map fun e => .tuple [e.1.linked, e.2.linked]) ∨
      ∃ q ∈ qs, ∃ mark, q.linked.again? = some mark ∧ pairsOf i qs es = .again mark true := by
  unfold pairsOf
  split
  · exact Or.inl rfl
  · rename_i mark rest hmarks
    obtain ⟨q, hq, hmark⟩ := List.mem_filterMap.mp (hmarks ▸ List.mem_cons_self : mark ∈ _)
    exact Or.inr ⟨q, hq, mark, hmark, rfl⟩

/-- The entries of a mapping make one, or a key `<<` asks for those of a mapping inside itself. -/
lemma mapOf_cases (i : Nat) (entries : List (Part × Part)) (es : LinkedEntries) :
    mapOf i entries es = .map i (LinkedEntries.ofList es) ∨
      ∃ e ∈ entries, ∃ mark ∈ e.2.linked.opens, mapOf i entries es = .again mark false := by
  unfold mapOf
  dsimp only
  split
  · exact Or.inl rfl
  · rename_i mark rest hmarks
    have hmark := (List.mem_filter.mp (hmarks ▸ List.mem_cons_self : mark ∈ _)).1
    obtain ⟨e, he, hopen⟩ := List.mem_flatMap.mp hmark
    exact Or.inr ⟨e, (List.mem_filter.mp he).1, mark, hopen, rfl⟩

/-- A sequence gives no mapping and no tuple. -/
lemma value_ofItems (i : Nat) (tag : Tag) (qs : List Part) :
    (∀ es, (ofItems i tag qs).value ≠ .map es) ∧ ∀ vs, (ofItems i tag qs).value ≠ .tuple vs := by
  have hlist : ∀ ls : List Linked, (∀ es, (listOf i ls).value ≠ .map es) ∧ ∀ vs, (listOf i ls).value ≠ .tuple vs :=
    fun _ => ⟨fun _ => Value.noConfusion, fun _ => Value.noConfusion⟩
  have hpairs : ∀ es' : List (Part × Part),
      (∀ es, (pairsOf i qs es').value ≠ .map es) ∧ ∀ vs, (pairsOf i qs es').value ≠ .tuple vs := by
    intro es'
    rcases pairsOf_cases i qs es' with hpairs | ⟨-, -, mark, -, hagain⟩
    · exact hpairs ▸ hlist _
    · exact hagain ▸ ⟨fun _ => Value.noConfusion, fun _ => Value.noConfusion⟩
  cases tag with
  | seq => exact hlist _
  | omap | pairs => exact hpairs _
  | _ => exact ⟨fun _ => Value.noConfusion, fun _ => Value.noConfusion⟩

lemma value_mapOf (i : Nat) (entries : List (Part × Part)) (es : LinkedEntries) :
    (mapOf i entries es).value = .map (Entries.ofList (Linked.entryValues es)) ∨
      (mapOf i entries es).value = .again false := by
  rcases mapOf_cases i entries es with hmap | ⟨-, -, mark, -, hagain⟩
  · rw [hmap, Linked.value, LinkedEntries.entryValues_ofList]
    exact Or.inl rfl
  · rw [hagain]
    exact Or.inr rfl

lemma onlyEntry_eq_ok {e : Part × Part} (h : p.onlyEntry = .ok e) : p.raw = some [e] := by
  unfold onlyEntry at h
  split at h
  · rename_i hr
    rw [hr, Except.ok.inj h]
  · simp at h

lemma all_ofItems {i : Nat} {tag : Tag} {qs : List Part} (hq : ∀ q ∈ qs, q.All P) (h : P (ofItems i tag qs)) :
    (ofItems i tag qs).All P := by
  have hparts := parts_ofItems i tag qs
  refine .of h (by simp [hparts]) (by simp [hparts]) fun rs hr => ?_
  rw [hparts.2.2, Option.some.injEq] at hr
  exact hr ▸ hq

lemma all_mergedEntries (h : p.All P) (hm : p.mergedEntries = some es) : AllEntries P es := by
  unfold mergedEntries at hm
  split at hm
  · exact h.flat hm
  · rename_i qs _ hi
    obtain ⟨each, heach, hm⟩ := Option.bind_eq_some_iff.mp hm
    obtain rfl := Option.some.inj hm
    intro e he
    obtain ⟨gs, hgs, he⟩ := List.mem_flatten.mp he
    obtain ⟨q, hq, hqs⟩ := mem_of_mapM_eq_some heach gs (List.mem_reverse.mp hgs)
    split at hqs
    · exact (h.items hi q hq).flat hqs e he
    · simp at hqs
  · simp at hm

/-- Entries that a key `<<` brings in are those of mappings further down; a key `=` becomes a text. -/
lemma all_flatten {flat : List (Part × Part)} (htext : ∀ s, P (ofText .str s)) (h : AllEntries P es)
    (hf : flatten es = some flat) : AllEntries P flat := by
  obtain ⟨merged, hm, hf⟩ := Option.bind_eq_some_iff.mp hf
  obtain rfl := Option.some.inj hf
  intro e he
  rcases List.mem_append.mp he with he | he
  · obtain ⟨gs, hgs, he⟩ := List.mem_flatten.mp he
    obtain ⟨d, hd, hgs⟩ := mem_of_mapM_eq_some hm gs hgs
    exact all_mergedEntries (h d (List.mem_filter.mp hd).1).2 hgs e he
  · obtain ⟨d, hd, rfl⟩ := List.mem_map.mp he
    have hd := h d (List.mem_filter.mp hd).1
    split
    · exact ⟨all_ofText (htext _), hd.2⟩
    · exact hd

lemma parts_ofEntries (i : Nat) (tag : Tag) (es : List (Part × Part)) : (ofEntries i tag es).raw = some es ∧
    ((ofEntries i tag es).flat = flatten es ∨ (ofEntries i tag es).flat = none) ∧
    (ofEntries i tag es).items = none := by
  unfold ofEntries
  dsimp only
  split
  case h_1 | h_2 => split <;> simp [raw, flat, items]
  case h_3 | h_4 | h_5 => simp [raw, flat, items]
  case h_6 => simp

/-- A mapping is made of its entries, or it has a tag with which it gives a single value or a set. -/
lemma ofEntries_cases (i : Nat) (tag : Tag) (entries : List (Part × Part)) :
    (∃ es, flatten entries = some es ∧
      (ofEntries i tag entries).linked = mapOf i entries (es.map fun e => (e.1.value, e.2.linked)) ∧
      (ofEntries i tag entries).levels =
        levelsOf (es.flatMap entryFaults) (es.flatMap fun e => [e.1, e.2])) ∨
    ∃ v, (ofEntries i tag entries).linked = .plain v ∧ (v.IsScalar ∨ ∃ vs, v = .set vs) := by
  unfold ofEntries
  dsimp only
  split
  case h_1 =>
    split
    · exact Or.inr ⟨.null, rfl, Or.inl trivial⟩
    · rename_i es hes
      exact Or.inl ⟨es, hes, rfl, rfl⟩
  case h_2 =>
    split
    · exact Or.inr ⟨.null, rfl, Or.inl trivial⟩
    · exact Or.inr ⟨_, rfl, Or.inr ⟨_, rfl⟩⟩
  case h_3 | h_4 | h_5 => exact Or.inr ⟨.null, rfl, Or.inl trivial⟩
  case h_6 =>
    refine Or.inr ((linked_single fun v hv => ?_).imp fun v hv => hv.imp_right Or.inl)
    split at hv
    · simp at hv
    · simp at hv
    · exact isScalar_of_getD_scalarOf? hv

lemma all_ofEntries {i : Nat} {tag : Tag} (htext : ∀ s, P (ofText .str s)) (hes : AllEntries P es)
    (h : P (ofEntries i tag es)) : (ofEntries i tag es).All P := by
  obtain ⟨hraw, hflat, hitems⟩ := parts_ofEntries i tag es
  refine .of h (fun gs hg => ?_) (fun gs hg => ?_) (by simp [hitems])
  · rw [hraw, Option.some.injEq] at hg
    exact hg ▸ hes
  · rcases hflat with hflat | hflat
    · exact all_flatten htext hes (hflat ▸ hg)
    · simp [hflat] at hg

/-- Nothing is reached in a collection inside itself. -/
lemma all_ofAgain {i : Nat} {isList : Bool} (h : P (ofAgain i isList)) : (ofAgain i isList).All P := by
  have hnone : AllEntries P [] := fun _ he => absurd he List.not_mem_nil
  cases isList
  case false => exact .of h (by simp [ofAgain, raw, hnone]) (by simp [ofAgain, flat, hnone]) (by simp [ofAgain, items])
  case true => exact .of h (by simp [ofAgain, raw]) (by simp [ofAgain, flat]) (by simp [ofAgain, items])

end Yaml.Part

namespace Yaml

/-- A text that has a value is empty, or the value is that of a node without faults. -/
lemma node_of_linkedFrom {source : Source} {l : Linked} (h : linkedFrom source = .ok l) :
    l = .plain .null ∨ ∃ n, nodeOf? source = .ok (some n) ∧ n.part.faults = [] ∧ n.part.linked = l := by
  obtain ⟨node, hn, h⟩ := Fault.bind_eq_ok.mp h
  cases node with
  | none => exact Or.inl (Except.ok.inj h).symm
  | some n =>
    refine Or.inr ⟨n, hn, ?_⟩
    change n.linked = .ok l at h
    unfold Node.linked at h
    split at h
    · rename_i hnone
      exact ⟨List.head?_eq_none_iff.mp hnone, Except.ok.inj h⟩
    · simp at h

lemma linkedFrom_of_readFrom {source : Source} {v : Value} (h : readFrom source = .ok v) :
    ∃ l, linkedFrom source = .ok l ∧ l.value = v :=
  Fault.map_eq_ok.mp h

lemma node_of_readFrom {source : Source} {v : Value} (h : readFrom source = .ok v) :
    v = .null ∨ ∃ n, nodeOf? source = .ok (some n) ∧ n.part.faults = [] ∧ n.part.value = v := by
  obtain ⟨l, hl, rfl⟩ := linkedFrom_of_readFrom h
  rcases node_of_linkedFrom hl with rfl | ⟨n, hn, hf, rfl⟩
  · exact Or.inl rfl
  · exact Or.inr ⟨n, hn, hf, rfl⟩

/-- A text that has no value has no node, or the node has the fault. -/
lemma fault_of_readFrom {source : Source} {f : Fault} (h : readFrom source = .error f) :
    nodeOf? source = .error f ∨ ∃ n, nodeOf? source = .ok (some n) ∧ f ∈ n.part.faults := by
  have hl : linkedFrom source = .error f := by
    unfold readFrom at h
    cases hl : linkedFrom source with
    | error g => rw [← Except.error.inj ((congrArg (Except.map Linked.value) hl).symm.trans h)]
    | ok l => simp [hl, Except.map] at h
  unfold linkedFrom at hl
  cases hn : nodeOf? source with
  | error g =>
    rw [hn] at hl
    exact Or.inl (congrArg Except.error (Except.error.inj hl))
  | ok node =>
    rw [hn] at hl
    cases node with
    | none => simp [bind, Except.bind, pure, Except.pure] at hl
    | some n =>
      refine Or.inr ⟨n, rfl, ?_⟩
      change n.linked = .error f at hl
      unfold Node.linked at hl
      split at hl
      · simp at hl
      · rename_i g hg
        obtain rfl := Except.error.inj hl
        exact List.mem_of_mem_head? hg

end Yaml

end SkillAtlas
