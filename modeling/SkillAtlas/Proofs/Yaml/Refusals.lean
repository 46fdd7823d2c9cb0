import SkillAtlas.Proofs.Yaml.Composing
import SkillAtlas.Proofs.Yaml.Parts

/-!
# What a text is refused for

A text has a value unless it is malformed, escapes a character or names a version that there is not, or holds a
text that its tag refuses: a date that the calendar has not, a number that is none. The last kind of fault always
has its place in the document. A text that comes in pieces also fails if a piece cannot be had.
-/

namespace SkillAtlas

/-- The ways in which a tag refuses a text. -/
inductive Fault.OfTag : Fault → Prop where
  | malformed : OfTag .malformed
  /-- the text has the form of a value that there is not -/
  | badValue : OfTag .badValue
  /-- a number of so many groups to base sixty that no float comes near to it -/
  | tooLarge : OfTag .tooLarge
  /-- a number without digits -/
  | outOfRange : OfTag .outOfRange
  /-- a word that is no truth value -/
  | missingKey : OfTag .missingKey
  /-- a text that has not the form of a date -/
  | noMember : OfTag .noMember
  /-- a mapping that is asked for a date -/
  | wrongKind : OfTag .wrongKind

attribute [simp] Fault.OfTag.malformed Fault.OfTag.badValue Fault.OfTag.tooLarge Fault.OfTag.outOfRange
  Fault.OfTag.missingKey Fault.OfTag.noMember Fault.OfTag.wrongKind

namespace Yaml

open Fault (OfTag)

@[simp] lemma failsBy_magnitude? (cs : List Char) : FailsBy OfTag (magnitude? cs) := by
  unfold magnitude?
  dsimp only
  split
  · simp
  · simp
  · split <;> simp
  · split <;> simp
  · split <;> simp
  · split
    · refine (failsBy_map _ _).mpr (failsBy_mapM fun _ _ => ?_)
      split <;> simp
    · split <;> simp

@[simp] lemma failsBy_intOf (s : String) : FailsBy OfTag (intOf s) := by
  simp [intOf]

@[simp] lemma failsBy_sixtyFloat (parts : List Float) : FailsBy OfTag (sixtyFloat parts) := by
  unfold sixtyFloat
  refine (failsBy_bind _ _).mpr ⟨failsBy_foldlM fun sum p => ?_, fun _ _ => failsBy_ok _⟩
  unfold Number.toFloat floatOfInt
  dsimp only
  split <;> simp

@[simp] lemma failsBy_floatOf (s : String) : FailsBy OfTag (floatOf s) := by
  unfold floatOf
  dsimp only
  split
  · simp
  · split
    · simp
    · simp
    · split
      · refine (failsBy_bind _ _).mpr ⟨failsBy_mapM fun _ _ => ?_, by simp⟩
        split <;> simp
      · refine (failsBy_bind _ _).mpr ⟨?_, by simp⟩
        split <;> simp

lemma ofTag_of_scalarOf? {tag : Tag} {s : String} {f : Fault} (h : scalarOf? tag s = some (.error f)) :
    f.OfTag := by
  cases tag <;> simp only [scalarOf?, Option.some.injEq, reduceCtorEq, Except.error.injEq] at h
  case bool =>
    split at h
    · simp at h
    · exact Except.error.inj h ▸ .missingKey
  case int => exact failsBy_intOf s f h
  case float => exact failsBy_floatOf s f h
  case binary =>
    split at h
    · split at h
      · simp at h
      · exact Except.error.inj h ▸ .malformed
    · exact Except.error.inj h ▸ .malformed
  case timestamp =>
    split at h
    · exact Except.error.inj h ▸ .noMember
    · split at h
      · simp at h
      · exact Except.error.inj h ▸ .badValue
  case merge | default | unknown => exact h ▸ .malformed

/-- Somewhere in the node stands a text that the tag asked of it refuses with a fault. -/
inductive Node.Refuses (f : Fault) : Node → Prop where
  | text {tag : Tag} {s : String} (h : scalarOf? tag s = some (.error f)) : Refuses f (.scalar tag s)
  | item {i : Nat} {tag : Tag} {items : List Node} {n : Node} (hn : n ∈ items) (h : Refuses f n) :
      Refuses f (.sequence i tag items)
  | key {i : Nat} {tag : Tag} {pairs : List (Node × Node)} {e : Node × Node} (he : e ∈ pairs)
      (h : Refuses f e.1) : Refuses f (.mapping i tag pairs)
  | value {i : Nat} {tag : Tag} {pairs : List (Node × Node)} {e : Node × Node} (he : e ∈ pairs)
      (h : Refuses f e.2) : Refuses f (.mapping i tag pairs)
  /-- a mapping with the tag of a single value stands for the text under its key `=` -/
  | default {i : Nat} {tag : Tag} {pairs : List (Node × Node)} {s : String}
      (hs : Part.defaultText (partsOfPairs pairs) = some s)
      (h : tag = .timestamp ∧ f = .wrongKind ∨ scalarOf? tag s = some (.error f)) :
      Refuses f (.mapping i tag pairs)

namespace Part

/-- Every fault of making the part is that of a malformed text, or has the property. -/
def Within (R : Fault → Prop) (p : Part) : Prop :=
  ∀ f ∈ p.faults, f = .malformed ∨ R f

variable {R S : Fault → Prop} {p : Part}

lemma Within.mono (hRS : ∀ f, R f → S f) (h : p.Within R) : p.Within S :=
  fun f hf => (h f hf).imp_right (hRS f)

lemma Within.of_fault (h : p.Within R) {f : Fault} (hf : p.fault = some f) : f = .malformed ∨ R f :=
  h f (mem_faults.mpr (Or.inl hf))

lemma within_ofText (tag : Tag) (s : String) :
    (ofText tag s).Within fun f => scalarOf? tag s = some (.error f) := by
  intro f hf
  unfold ofText at hf
  split at hf
  · rename_i r hr
    exact Or.inr (hr.trans (congrArg some ((mem_faults_single ..).mp hf)))
  · simp only [faults, fault, levels, Option.toList_none, List.nil_append, List.flatten_singleton,
      List.mem_singleton] at hf
    exact Or.inl hf

lemma within_text (R : Fault → Prop) (s : String) : (ofText .str s).Within R :=
  (within_ofText .str s).mono fun f hf => by simp [scalarOf?] at hf

lemma within_levelsOf {tag : Tag} {text : Option String} {raw flat : Option (List (Part × Part))}
    {items : Option (List Part)} {v : Linked} {opening : List Fault} {children : List Part}
    (ho : ∀ f ∈ opening, f = .malformed ∨ R f) (hc : ∀ q ∈ children, q.Within R) :
    (mk tag text raw flat items v none (levelsOf opening children)).Within R := by
  intro f hf
  rcases mem_faults_of_levelsOf (by simpa [faults, fault, levels] using hf) with hf | ⟨q, hq, hf⟩
  · exact ho f hf
  · exact hc q hq f hf

lemma within_malformed {tag : Tag} {text : Option String} {raw flat : Option (List (Part × Part))}
    {items : Option (List Part)} {v : Linked} :
    (mk tag text raw flat items v none [[.malformed]]).Within R := by
  intro f hf
  exact Or.inl (by simpa [faults, fault, levels] using hf)

lemma onlyEntry_eq_error {f : Fault} (h : p.onlyEntry = .error f) : f = .malformed := by
  unfold onlyEntry at h
  split at h
  · simp at h
  · exact (Except.error.inj h).symm

lemma within_pairFaults (h : p.All (Within R)) : ∀ f ∈ p.pairFaults, f = .malformed ∨ R f := by
  intro f hf
  unfold pairFaults at hf
  split at hf
  · rename_i k v ho
    obtain ⟨hk, hv⟩ := h.raw (onlyEntry_eq_ok ho) (k, v) List.mem_cons_self
    rcases List.mem_append.mp hf with hf | hf
    · exact hk.self.of_fault (Option.mem_toList.mp hf)
    · exact hv.self.of_fault (Option.mem_toList.mp hf)
  · simp at hf
  · rename_i g ho _
    exact Or.inl ((List.mem_singleton.mp hf).trans (onlyEntry_eq_error ho))

lemma within_ofItems {items : List Part} (i : Nat) (tag : Tag) (h : ∀ q ∈ items, q.All (Within R)) :
    (ofItems i tag items).Within R := by
  unfold ofItems
  split
  case h_1 =>
    refine within_levelsOf (fun f hf => ?_) fun q hq => (h q hq).self
    obtain ⟨q, hq, hf⟩ := List.mem_filterMap.mp hf
    exact (h q hq).self.of_fault hf
  case h_2 | h_3 =>
    refine within_levelsOf (fun f hf => ?_) fun c hc => ?_
    · obtain ⟨q, hq, hf⟩ := List.mem_flatMap.mp hf
      exact within_pairFaults (h q hq) f hf
    · obtain ⟨e, he, hc⟩ := List.mem_flatMap.mp hc
      obtain ⟨q, hq, he⟩ := List.mem_filterMap.mp he
      have hr := (h q hq).raw (onlyEntry_eq_ok (by cases ho : q.onlyEntry <;> simp_all [Except.toOption])) e
        List.mem_cons_self
      simp only [List.mem_cons, List.not_mem_nil, or_false] at hc
      rcases hc with rfl | rfl
      · exact hr.1.self
      · exact hr.2.self
  case h_4 | h_5 => exact within_malformed
  case h_6 => exact fun f hf => Or.inl (Except.error.inj ((mem_faults_single ..).mp hf)).symm

lemma within_ofAgain (i : Nat) (isList : Bool) : (ofAgain i isList).Within R := by
  intro f hf
  simp [ofAgain, faults, fault, levels] at hf

lemma within_entryFaults {e : Part × Part} (hk : e.1.Within R) (hv : e.2.Within R) :
    ∀ f ∈ entryFaults e, f = .malformed ∨ R f := by
  intro f hf
  simp only [entryFaults, List.mem_append, Option.mem_toList] at hf
  rcases hf with (hf | hf) | hf
  · exact hk.of_fault hf
  · split at hf
    · simp at hf
    · exact Or.inl (List.mem_singleton.mp hf)
  · exact hv.of_fault hf

lemma cases_of_default {tag : Tag} {text : Option String} {f : Fault}
    (h : (match text, tag with
      | none, _ => .error .malformed
      | some _, .timestamp => .error .wrongKind
      | some s, _ => (scalarOf? tag s).getD (.error .malformed) : Except Fault Value) = .error f) :
    f = .malformed ∨ ∃ s, text = some s ∧
      (tag = .timestamp ∧ f = .wrongKind ∨ scalarOf? tag s = some (.error f)) := by
  split at h
  · exact Or.inl (Except.error.inj h).symm
  · exact Or.inr ⟨_, rfl, Or.inl ⟨rfl, (Except.error.inj h).symm⟩⟩
  · rename_i s _
    cases hr : scalarOf? tag s with
    | none =>
      rw [hr] at h
      exact Or.inl (Except.error.inj h).symm
    | some r =>
      rw [hr] at h
      exact Or.inr ⟨s, rfl, Or.inr (hr.trans (congrArg some h))⟩

/-- The faults of a mapping are those of its keys and values, of the entries that a key `<<` brings in, and
of the text that it stands for. -/
lemma within_ofEntries {entries : List (Part × Part)} (i : Nat) (tag : Tag) (h : AllEntries (Within R) entries)
    (hd : ∀ s f, defaultText entries = some s →
      tag = .timestamp ∧ f = .wrongKind ∨ scalarOf? tag s = some (.error f) → R f) :
    (ofEntries i tag entries).Within R := by
  have hopened : ∀ {text raw flat items v} {es : List (Part × Part)}, AllEntries (Within R) es →
      (mk tag text raw flat items v none
        (levelsOf (es.flatMap entryFaults) (es.flatMap fun e => [e.1, e.2]))).Within R := by
    intro text raw flat items v es hes
    refine within_levelsOf (fun f hf => ?_) fun c hc => ?_
    · obtain ⟨e, he, hf⟩ := List.mem_flatMap.mp hf
      exact within_entryFaults (hes e he).1.self (hes e he).2.self f hf
    · obtain ⟨e, he, hc⟩ := List.mem_flatMap.mp hc
      simp only [List.mem_cons, List.not_mem_nil, or_false] at hc
      rcases hc with rfl | rfl
      · exact (hes e he).1.self
      · exact (hes e he).2.self
  unfold ofEntries
  dsimp only
  split
  case h_1 | h_2 =>
    split
    · exact within_malformed
    · rename_i hf
      exact hopened (all_flatten (within_text R) h hf)
  case h_3 | h_4 | h_5 => exact within_malformed
  case h_6 =>
    intro f hf
    rcases cases_of_default ((mem_faults_single ..).mp hf) with hf | ⟨s, hs, hf⟩
    · exact Or.inl hf
    · exact Or.inr (hd s f hs hf)

end Part

mutual
/-- Every fault in a node is that of a malformed text, or of a text in the node that its tag refuses. -/
theorem Node.within_part : (n : Node) → n.part.All (Part.Within fun f => n.Refuses f)
  | .scalar tag s => Part.all_ofText ((Part.within_ofText tag s).mono fun _ h => .text h)
  | .sequence i tag items => by
    have hitems : ∀ q ∈ partsOf items,
        q.All (Part.Within fun f => Node.Refuses f (.sequence i tag items)) := by
      intro q hq
      obtain ⟨n, hn, h⟩ := within_partsOf items q hq
      exact h.mono fun _ hw => hw.mono fun f hf => .item hn hf
    exact Part.all_ofItems hitems (Part.within_ofItems i tag hitems)
  | .mapping i tag pairs => by
    have hpairs : Part.AllEntries (Part.Within fun f => Node.Refuses f (.mapping i tag pairs))
        (partsOfPairs pairs) := by
      intro e he
      obtain ⟨d, hd, hk, hv⟩ := within_partsOfPairs pairs e he
      exact ⟨hk.mono fun _ hw => hw.mono fun f hf => .key hd hf,
        hv.mono fun _ hw => hw.mono fun f hf => .value hd hf⟩
    exact Part.all_ofEntries (Part.within_text _) hpairs
      (Part.within_ofEntries i tag hpairs fun s f hs h => .default hs h)
  | .again i isList => Part.all_ofAgain (Part.within_ofAgain i isList)

theorem within_partsOf : (items : List Node) → ∀ q ∈ partsOf items,
    ∃ n ∈ items, q.All (Part.Within fun f => n.Refuses f)
  | [], _, hq => absurd hq List.not_mem_nil
  | n :: rest, q, hq => by
    rcases List.mem_cons.mp hq with rfl | hq
    · exact ⟨n, List.mem_cons_self, n.within_part⟩
    · obtain ⟨m, hm, h⟩ := within_partsOf rest q hq
      exact ⟨m, List.mem_cons_of_mem n hm, h⟩

theorem within_partsOfPairs : (pairs : List (Node × Node)) → ∀ e ∈ partsOfPairs pairs,
    ∃ d ∈ pairs, e.1.All (Part.Within fun f => d.1.Refuses f) ∧
      e.2.All (Part.Within fun f => d.2.Refuses f)
  | [], _, he => absurd he List.not_mem_nil
  | (k, v) :: rest, e, he => by
    rcases List.mem_cons.mp he with rfl | he
    · exact ⟨(k, v), List.mem_cons_self, k.within_part, v.within_part⟩
    · obtain ⟨d, hd, h⟩ := within_partsOfPairs rest e he
      exact ⟨d, List.mem_cons_of_mem (k, v) hd, h⟩
end

/-- Why a text has no value: it is malformed, its tokens stop at what there is not or cannot be had, or it holds a
text that its tag refuses. -/
inductive Unreadable (source : Source) : Fault → Prop where
  | malformed : Unreadable source .malformed
  | stopped {f : Fault} (h : (tokensOf source).stop = some f) (hf : f.OfTokens ∨ source.beyond = some f) :
      Unreadable source f
  | refused {f : Fault} {n : Node} (hn : nodeOf? source = .ok (some n)) (h : n.Refuses f) : Unreadable source f

/-- These are the only reasons for which a text has no value. -/
theorem unreadable_of_readFrom {source : Source} {f : Fault} (h : readFrom source = .error f) :
    Unreadable source f := by
  rcases fault_of_readFrom h with hn | ⟨n, hn, hf⟩
  · rcases failsBy_nodeOf? source f hn with rfl | hstop
    · exact .malformed
    · exact .stopped hstop (stop_tokensOf hstop)
  · rcases n.within_part.self f hf with rfl | hr
    · exact .malformed
    · exact .refused hn hr

lemma Node.Refuses.ofTag {n : Node} {f : Fault} (h : n.Refuses f) : f.OfTag := by
  induction h with
  | text h => exact ofTag_of_scalarOf? h
  | item _ _ ih => exact ih
  | key _ _ ih => exact ih
  | value _ _ ih => exact ih
  | default _ h =>
    rcases h with ⟨-, rfl⟩ | h
    · exact .wrongKind
    · exact ofTag_of_scalarOf? h

lemma Unreadable.cases {source : Source} {f : Fault} (h : Unreadable source f) :
    f.OfTokens ∨ f.OfTag ∨ source.beyond = some f := by
  cases h with
  | malformed => exact Or.inl .malformed
  | stopped _ hf => exact hf.imp_right Or.inr
  | refused _ h => exact Or.inr (Or.inl h.ofTag)

/-- All of a text can be had, or no document may hold it. -/
lemma beyond_ofText {text : String} {f : Fault} (h : (Source.ofText text).beyond = some f) : f = .malformed := by
  unfold Source.ofText at h
  split at h
  · cases h
  · exact (Option.some.inj h).symm

lemma Unreadable.cases_text {text : String} {f : Fault} (h : Unreadable (.ofText text) f) :
    f.OfTokens ∨ f.OfTag := by
  rcases h.cases with hf | hf | hf
  · exact Or.inl hf
  · exact Or.inr hf
  · exact Or.inl (beyond_ofText hf ▸ .malformed)

end Yaml

end SkillAtlas
