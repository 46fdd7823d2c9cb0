import SkillAtlas.Proofs.Yaml.Parts

/-!
# Which collections are shared

Collections are numbered as they begin, so where no alias is written no number is given to two of them, and none
stands inside itself. Then no mapping stands in several places of the value, the mappings that a key `<<` brings in
included.
-/

namespace SkillAtlas.Yaml

mutual
/-- The numbers of all collections in a node. That of one inside itself is given once more by it. -/
def Node.numbers : Node → List Nat
  | .scalar _ _ => []
  | .sequence i _ items => i :: numbersOf items
  | .mapping i _ pairs => i :: numbersOfPairs pairs
  | .again i _ => [i, i]

def numbersOf : List Node → List Nat
  | [] => []
  | n :: rest => n.numbers ++ numbersOf rest

def numbersOfPairs : List (Node × Node) → List Nat
  | [] => []
  | (k, v) :: rest => k.numbers ++ v.numbers ++ numbersOfPairs rest
end

/-- What was read from one state to another are collections with these numbers, and no alias is left to read. -/
structure Reading.Reads (r r' : Reading) (ns : List Nat) : Prop where
  noAlias : ∀ a, Token.alias a ∉ r'.tokens
  le : r.collections ≤ r'.collections
  nodup : ns.Nodup
  range : ∀ n ∈ ns, r.collections ≤ n ∧ n < r'.collections

lemma Reading.Reads.trans {r mid r' : Reading} {ns ms : List Nat} (h : r.Reads mid ns)
    (h' : mid.Reads r' ms) : r.Reads r' (ns ++ ms) := by
  refine ⟨h'.noAlias, Nat.le_trans h.le h'.le, ?_, fun n hn => ?_⟩
  · refine List.nodup_append.mpr ⟨h.nodup, h'.nodup, fun a ha b hb => ?_⟩
    have hlt := (h.range a ha).2
    have hle := (h'.range b hb).1
    omega
  · have hle := h.le
    have hle' := h'.le
    rcases List.mem_append.mp hn with hn | hn
    · have := h.range n hn
      omega
    · have := h'.range n hn
      omega

namespace Reader

variable {α β : Type}

/-- After collections with the numbers `ns`, the step has read in all those that `μ` says of its result. -/
def Keeps (ns : List Nat) (m : Reader α) (μ : α → List Nat) : Prop :=
  ∀ (beyond : Option Fault) (r₀ r : Reading) (a : α) (r' : Reading), r₀.Reads r ns →
    m.run r beyond = .ok (a, r') → r₀.Reads r' (μ a)

/-- The step begins no collection and adds nothing to what is to be read. -/
def Silent (m : Reader α) : Prop :=
  ∀ beyond r a r', m.run r beyond = .ok (a, r') → r'.tokens ⊆ r.tokens ∧ r'.collections = r.collections

variable {m : Reader α} {f : α → Reader β} {ns : List Nat} {μ : α → List Nat} {ν : β → List Nat}

lemma run_bind_eq_ok {beyond : Option Fault} {r r' : Reading} {b : β}
    (h : (m >>= f).run r beyond = .ok (b, r')) :
    ∃ a mid, m.run r beyond = .ok (a, mid) ∧ (f a).run mid beyond = .ok (b, r') := by
  obtain ⟨p, hm, h⟩ := Fault.bind_eq_ok.mp h
  exact ⟨p.1, p.2, hm, h⟩

lemma Silent.bind (hm : Silent m) (hf : ∀ a, Silent (f a)) : Silent (m >>= f) := by
  intro beyond r b r' h
  obtain ⟨a, mid, hrun, h⟩ := run_bind_eq_ok h
  obtain ⟨htokens, hcollections⟩ := hm beyond r a mid hrun
  obtain ⟨htokens', hcollections'⟩ := hf a beyond mid b r' h
  exact ⟨List.Subset.trans htokens' htokens, hcollections'.trans hcollections⟩

lemma silent_pure (a : α) : Silent (pure a) := by
  intro _ r b r' h
  obtain ⟨-, rfl⟩ := Prod.mk.inj (Except.ok.inj h)
  exact ⟨List.Subset.refl _, rfl⟩

lemma run_fail (r : Reading) (beyond : Option Fault) : (fail : Reader α).run r beyond = .error .malformed :=
  rfl

lemma silent_fail : Silent (fail : Reader α) :=
  fun beyond r _ _ h => nomatch (run_fail r beyond).symm.trans h

lemma silent_get : Silent (get : Reader Reading) := by
  intro _ r a r' h
  obtain ⟨-, rfl⟩ := Prod.mk.inj (Except.ok.inj h)
  exact ⟨List.Subset.refl _, rfl⟩

lemma silent_modify {g : Reading → Reading} (h : ∀ r, (g r).tokens ⊆ r.tokens ∧ (g r).collections = r.collections) :
    Silent (modify g : Reader Unit) := by
  intro _ r a r' hrun
  obtain ⟨-, rfl⟩ := Prod.mk.inj (Except.ok.inj hrun)
  exact h r

lemma silent_beyond : Silent (liftM Scan.beyond : Reader Unit) := by
  intro beyond r a r' h
  cases beyond with
  | none =>
    obtain ⟨-, rfl⟩ := Prod.mk.inj (Except.ok.inj h)
    exact ⟨List.Subset.refl _, rfl⟩
  | some f => cases h

lemma silent_peek : Silent peek := by
  refine silent_get.bind fun r => ?_
  split
  · exact silent_pure _
  · exact silent_beyond.bind fun _ => silent_pure _

lemma silent_skip : Silent skip :=
  silent_modify fun _ => ⟨fun _ => List.mem_of_mem_tail, rfl⟩

lemma silent_skipIf (p : Token → Bool) : Silent (skipIf p) := by
  refine silent_peek.bind fun t => ?_
  split
  · exact silent_skip.bind fun _ => silent_pure _
  · exact silent_pure _

lemma silent_name (anchor : Option String) (n : Node) : Silent (name anchor n) := by
  cases anchor with
  | none => exact silent_pure ()
  | some a =>
    refine silent_get.bind fun r => ?_
    split
    · exact silent_fail
    · exact silent_modify fun _ => ⟨List.Subset.refl _, rfl⟩

lemma silent_complete (anchor : Option String) (n : Node) : Silent (complete anchor n) := by
  cases anchor with
  | none => exact silent_pure ()
  | some a => exact silent_modify fun _ => ⟨List.Subset.refl _, rfl⟩

lemma silent_tagName (handle : Option String) (suffix : String) : Silent (tagName handle suffix) := by
  cases handle with
  | none => exact silent_pure suffix
  | some h =>
    refine silent_get.bind fun r => ?_
    split
    · exact silent_pure _
    · exact silent_fail

lemma silent_anchor? : Silent anchor? := by
  refine silent_peek.bind fun t => ?_
  split
  · exact silent_skip.bind fun _ => silent_pure _
  · exact silent_pure _

lemma silent_tag? : Silent tag? := by
  refine silent_peek.bind fun t => ?_
  split
  · exact silent_skip.bind fun _ => silent_pure _
  · exact silent_pure _

lemma silent_tagName? (tag : Option (Option String × String)) : Silent (tagName? tag) := by
  unfold tagName?
  split
  · exact silent_pure none
  · exact (silent_tagName _ _).bind fun _ => silent_pure _

lemma silent_properties : Silent properties := by
  refine silent_peek.bind fun t => ?_
  split
  · exact silent_anchor?.bind fun _ => silent_tag?.bind fun _ => (silent_tagName? _).bind fun _ => silent_pure _
  · exact silent_tag?.bind fun _ => silent_anchor?.bind fun _ => (silent_tagName? _).bind fun _ => silent_pure _

lemma Silent.keeps (h : Silent m) (ns : List Nat) : Keeps ns m fun _ => ns := by
  intro beyond r₀ r a r' hr hrun
  obtain ⟨htokens, hcollections⟩ := h beyond r a r' hrun
  refine ⟨fun b hb => hr.noAlias b (htokens hb), hcollections ▸ hr.le, hr.nodup, fun n hn => ?_⟩
  exact hcollections ▸ hr.range n hn

lemma Keeps.bind (hm : Keeps ns m μ) (hf : ∀ a, Keeps (μ a) (f a) ν) : Keeps ns (m >>= f) ν := by
  intro beyond r₀ r b r' hr h
  obtain ⟨a, mid, hrun, h⟩ := run_bind_eq_ok h
  exact hf a beyond r₀ mid b r' (hm beyond r₀ r a mid hr hrun) h

lemma keeps_pure {a : α} (h : μ a = ns) : Keeps ns (pure a) μ := by
  intro _ r₀ r b r' hr hrun
  obtain ⟨rfl, rfl⟩ := Prod.mk.inj (Except.ok.inj hrun)
  exact h ▸ hr

lemma keeps_fail : Keeps ns (fail : Reader α) μ :=
  fun beyond _ r _ _ _ h => nomatch (run_fail r beyond).symm.trans h

/-- A step that is read on its own reads the same after other collections. -/
lemma Keeps.after (h : Keeps [] m μ) (ns : List Nat) : Keeps ns m fun a => ns ++ μ a := by
  intro beyond r₀ r a r' hr hrun
  refine hr.trans (h beyond r r a r' ⟨hr.noAlias, Nat.le_refl _, List.nodup_nil, by simp⟩ hrun)

lemma keeps_number : Keeps [] number fun i => [i] := by
  intro _ r₀ r i r' hr hrun
  obtain ⟨rfl, rfl⟩ := Prod.mk.inj (Except.ok.inj hrun)
  refine ⟨hr.noAlias, Nat.le_trans hr.le (Nat.le_succ _), by simp, fun n hn => ?_⟩
  obtain rfl := List.mem_singleton.mp hn
  exact ⟨hr.le, Nat.lt_succ_self _⟩

/-- A token that is seen is one of those to be read, or there are none. -/
lemma mem_of_peek {beyond : Option Fault} {r r' : Reading} {t : Token} (h : peek.run r beyond = .ok (t, r'))
    (ht : t ≠ .streamEnd) : t ∈ r.tokens := by
  obtain ⟨given, mid, hget, h⟩ := run_bind_eq_ok h
  obtain ⟨rfl, rfl⟩ := Prod.mk.inj (Except.ok.inj hget)
  split at h
  · rename_i htokens
    obtain ⟨rfl, -⟩ := Prod.mk.inj (Except.ok.inj h)
    rw [htokens]
    exact List.mem_cons_self
  · obtain ⟨u, mid, -, h⟩ := run_bind_eq_ok h
    obtain ⟨rfl, -⟩ := Prod.mk.inj (Except.ok.inj h)
    exact absurd rfl ht

/-- No alias is seen. -/
lemma keeps_peek {f : Token → Reader β} (h : ∀ t, (∀ a, t ≠ .alias a) → Keeps ns (f t) ν) :
    Keeps ns (peek >>= f) ν := by
  intro beyond r₀ r b r' hr hrun
  obtain ⟨t, mid, hpeek, hrun⟩ := run_bind_eq_ok hrun
  obtain ⟨htokens, hcollections⟩ := silent_peek beyond r t mid hpeek
  refine h t (fun a ha => ?_) beyond r₀ mid b r' ((silent_peek.keeps ns) beyond r₀ r t mid hr hpeek) hrun
  exact hr.noAlias a (ha ▸ mem_of_peek hpeek (by simp [ha]))

lemma keeps_skip {f : Unit → Reader β} (h : ∀ u, Keeps ns (f u) ν) : Keeps ns (skip >>= f) ν :=
  (silent_skip.keeps ns).bind h

/-- A collection is named before it is read and given its final form after. -/
lemma keeps_collection (anchor : Option String) (empty : Node) {whole : Reader Node}
    (h : Keeps ns whole Node.numbers) :
    Keeps ns (do
      name anchor empty
      let n ← whole
      complete anchor n
      return n) Node.numbers :=
  ((silent_name anchor empty).keeps ns).bind fun _ => h.bind fun n =>
    ((silent_complete anchor n).keeps _).bind fun _ => keeps_pure rfl

/-- A step that goes on with an item, which may be missing. -/
lemma keeps_orAbsent {m : Reader Node} {g : Node → Reader β} (missing : Bool)
    (h : Keeps [] m Node.numbers) (hg : ∀ n, Keeps (ns ++ n.numbers) (g n) ν) :
    Keeps ns (if missing then pure .absent >>= g else m >>= g) ν := by
  split
  · exact (keeps_pure (by simp [Node.absent, Node.numbers])).bind hg
  · exact (h.after ns).bind hg

/-- A step that goes on after a comma, which the first item has not. -/
lemma keeps_afterComma {g : Unit → Reader β} (first : Bool) (t : Token) (h : ∀ u, Keeps ns (g u) ν) :
    Keeps ns (if !first then
      match t with
      | .flowEntry => skip >>= g
      | _ => fail >>= g
    else g ()) ν := by
  split
  · split
    · exact keeps_skip h
    · exact keeps_fail.bind fun a => h a
  · exact h ()

end Reader

open Reader

/-- With so much fuel every reader of nodes begins just the collections that are in its result. -/
structure Numbers (fuel : Nat) : Prop where
  node : ∀ block indentless, Keeps [] (readNode fuel block indentless) Node.numbers
  items : Keeps [] (readItems fuel) numbersOf
  indentless : Keeps [] (readIndentless fuel) numbersOf
  pairs : Keeps [] (readPairs fuel) numbersOfPairs
  pairValue : Keeps [] (readPairValue fuel) Node.numbers
  flowItems : ∀ first, Keeps [] (readFlowItems fuel first) numbersOf
  flowValue : ∀ ends, Keeps [] (readFlowValue fuel ends) Node.numbers
  flowPairs : ∀ first, Keeps [] (readFlowPairs fuel first) numbersOfPairs

namespace Numbers

variable {fuel : Nat}

lemma keeps_sequence {items : Reader (List Node)} (h : Keeps [] items numbersOf) (anchor : Option String)
    (tag : Tag) :
    Keeps [] (do
      let i ← number
      name anchor (.again i true)
      let n ← items >>= fun l => pure (.sequence i tag l)
      complete anchor n
      return n) Node.numbers :=
  keeps_number.bind fun i => keeps_collection anchor _ ((h.after [i]).bind fun _ => keeps_pure rfl)

lemma keeps_mapping {pairs : Reader (List (Node × Node))} (h : Keeps [] pairs numbersOfPairs)
    (anchor : Option String) (tag : Tag) :
    Keeps [] (do
      let i ← number
      name anchor (.again i false)
      let n ← pairs >>= fun l => pure (.mapping i tag l)
      complete anchor n
      return n) Node.numbers :=
  keeps_number.bind fun i => keeps_collection anchor _ ((h.after [i]).bind fun _ => keeps_pure rfl)

lemma keeps_scalar (anchor : Option String) (tag : Tag) (text : String) :
    Keeps [] (do
      name anchor (.scalar tag text)
      return .scalar tag text) Node.numbers :=
  ((silent_name anchor _).keeps []).bind fun _ => keeps_pure rfl

lemma readNode_succ (h : Numbers fuel) (block indentless : Bool) :
    Keeps [] (readNode (fuel + 1) block indentless) Node.numbers := by
  refine keeps_peek fun t ht => ?_
  split
  · exact absurd rfl (ht _)
  · refine (silent_properties.keeps []).bind fun p => keeps_peek fun t _ => ?_
    dsimp only
    split
    · exact keeps_sequence h.indentless _ _
    · exact keeps_skip fun _ => keeps_scalar _ _ _
    · exact keeps_skip fun _ => keeps_sequence (h.flowItems true) _ _
    · exact keeps_skip fun _ => keeps_mapping (h.flowPairs true) _ _
    · exact keeps_skip fun _ => keeps_sequence h.items _ _
    · exact keeps_skip fun _ => keeps_mapping h.pairs _ _
    · split
      · exact keeps_scalar _ _ _
      · exact keeps_fail

/-- An item of a list is read before the rest. -/
lemma keeps_cons {rest : Reader (List Node)} (h : Keeps [] rest numbersOf) (n : Node) :
    Keeps ([] ++ n.numbers) (do return n :: (← rest)) numbersOf :=
  (h.after _).bind fun _ => keeps_pure rfl

lemma keeps_consPair {rest : Reader (List (Node × Node))} (h : Keeps [] rest numbersOfPairs) (k v : Node) :
    Keeps ([] ++ k.numbers ++ v.numbers) (do return (k, v) :: (← rest)) numbersOfPairs :=
  (h.after _).bind fun _ => keeps_pure rfl

lemma readItems_succ (h : Numbers fuel) : Keeps [] (readItems (fuel + 1)) numbersOf := by
  refine keeps_peek fun t _ => ?_
  split
  · exact keeps_skip fun _ => keeps_peek fun t _ =>
      keeps_orAbsent _ (h.node true false) (keeps_cons h.items)
  · exact keeps_skip fun _ => keeps_pure rfl
  · exact keeps_fail

lemma readIndentless_succ (h : Numbers fuel) : Keeps [] (readIndentless (fuel + 1)) numbersOf := by
  refine keeps_peek fun t _ => ?_
  split
  · exact keeps_skip fun _ => keeps_peek fun t _ =>
      keeps_orAbsent _ (h.node true false) (keeps_cons h.indentless)
  · exact keeps_pure rfl

lemma readPairs_succ (h : Numbers fuel) : Keeps [] (readPairs (fuel + 1)) numbersOfPairs := by
  refine keeps_peek fun t _ => ?_
  split
  · exact keeps_skip fun _ => keeps_peek fun t _ =>
      keeps_orAbsent _ (h.node true true) fun k => (h.pairValue.after _).bind fun v =>
        keeps_consPair h.pairs k v
  · exact keeps_skip fun _ => keeps_pure rfl
  · exact keeps_fail

lemma readPairValue_succ (h : Numbers fuel) : Keeps [] (readPairValue (fuel + 1)) Node.numbers := by
  refine ((silent_skipIf _).keeps []).bind fun found => ?_
  split
  · refine keeps_peek fun t _ => ?_
    split
    · exact keeps_pure rfl
    · exact h.node true true
  · exact keeps_pure rfl

lemma readFlowValue_succ (h : Numbers fuel) (ends : Token → Bool) :
    Keeps [] (readFlowValue (fuel + 1) ends) Node.numbers := by
  refine ((silent_skipIf _).keeps []).bind fun found => ?_
  split
  · refine keeps_peek fun t _ => ?_
    split
    · exact keeps_pure rfl
    · exact h.node false false
  · exact keeps_pure rfl

lemma readFlowItems_succ (h : Numbers fuel) (first : Bool) :
    Keeps [] (readFlowItems (fuel + 1) first) numbersOf := by
  refine keeps_peek fun t _ => ?_
  split
  · exact keeps_skip fun _ => keeps_pure rfl
  · refine keeps_afterComma first _ fun _ => keeps_peek fun t _ => ?_
    split
    · refine keeps_skip fun _ => keeps_number.bind fun i => keeps_peek fun t _ =>
        keeps_orAbsent _ (h.node false false) fun k => ((h.flowValue _).after _).bind fun v =>
          ((h.flowItems false).after _).bind fun rest => keeps_pure ?_
      simp [numbersOf, numbersOfPairs, Node.numbers]
    · exact keeps_skip fun _ => keeps_pure rfl
    · exact (h.node false false).bind (keeps_cons (h.flowItems false))

lemma readFlowPairs_succ (h : Numbers fuel) (first : Bool) :
    Keeps [] (readFlowPairs (fuel + 1) first) numbersOfPairs := by
  refine keeps_peek fun t _ => ?_
  split
  · exact keeps_skip fun _ => keeps_pure rfl
  · refine keeps_afterComma first _ fun _ => keeps_peek fun t _ => ?_
    split
    · exact keeps_skip fun _ => keeps_peek fun t _ =>
        keeps_orAbsent _ (h.node false false) fun k => ((h.flowValue _).after _).bind fun v =>
          keeps_consPair (h.flowPairs false) k v
    · exact keeps_skip fun _ => keeps_pure rfl
    · refine (h.node false false).bind fun k => ((h.flowPairs false).after _).bind fun rest => keeps_pure ?_
      simp [numbersOfPairs, Node.absent, Node.numbers]

end Numbers

lemma numbers (fuel : Nat) : Numbers fuel := by
  -- the readers call one another, each with less fuel
  induction fuel with
  | zero =>
    constructor <;> intros <;> exact keeps_fail
  | succ fuel ih =>
    exact ⟨ih.readNode_succ, ih.readItems_succ, ih.readIndentless_succ, ih.readPairs_succ,
      ih.readPairValue_succ, ih.readFlowItems_succ, ih.readFlowValue_succ, ih.readFlowPairs_succ⟩

lemma silent_readDirectives (fuel : Nat) (versioned : Bool) : Silent (readDirectives fuel versioned) := by
  induction fuel generalizing versioned with
  | zero => exact silent_pure ()
  | succ fuel ih =>
    refine silent_peek.bind fun t => ?_
    split
    · refine silent_skip.bind fun _ => ?_
      split
      · split
        · exact silent_fail
        · exact ih true
      · refine silent_get.bind fun r => ?_
        split
        · exact silent_fail
        · refine Silent.bind (silent_modify ?_) fun _ => ih versioned
          exact fun _ => ⟨List.Subset.refl _, rfl⟩
      · exact ih versioned
    · exact silent_pure ()

lemma silent_skipDocumentEnds (fuel : Nat) : Silent (skipDocumentEnds fuel) := by
  induction fuel with
  | zero => exact silent_pure ()
  | succ fuel ih =>
    refine silent_peek.bind fun t => ?_
    split
    · exact silent_skip.bind fun _ => ih
    · exact silent_pure ()

lemma silent_readHandles (fuel : Nat) : Silent (readHandles fuel) := by
  refine Silent.bind (silent_modify ?_) fun _ => (silent_readDirectives _ _).bind fun _ => silent_modify ?_
  all_goals exact fun _ => ⟨List.Subset.refl _, rfl⟩

lemma keeps_readDocument (fuel : Nat) :
    Keeps [] (readDocument fuel) fun node => (node.map Node.numbers).getD [] := by
  have hnode := (numbers fuel).node true false
  have hends : ∀ {m : Reader Node}, Keeps [] m Node.numbers →
      Keeps [] (some <$> m <* skipDocumentEnds fuel) fun node => (node.map Node.numbers).getD [] := by
    intro m hm
    rw [seqLeft_eq_bind, map_eq_pure_bind, bind_assoc]
    refine hm.bind fun n => ?_
    rw [pure_bind]
    exact ((silent_skipDocumentEnds fuel).keeps _).bind fun _ => keeps_pure rfl
  refine keeps_peek fun t _ => ?_
  split
  case h_1 => exact keeps_pure rfl
  case h_2 | h_3 =>
    refine ((silent_readHandles fuel).keeps []).bind fun _ => keeps_peek fun t _ => ?_
    split
    · refine keeps_skip fun _ => hends (keeps_peek fun t _ => ?_)
      split <;> first | exact hnode | exact keeps_pure rfl
    · exact keeps_fail
  case h_4 => exact hends hnode

lemma keeps_readOnlyDocument (fuel : Nat) :
    Keeps [] (readOnlyDocument fuel) fun node => (node.map Node.numbers).getD [] := by
  refine (keeps_readDocument fuel).bind fun node => keeps_peek fun t _ => ?_
  split
  · exact keeps_pure rfl
  · exact ((silent_readHandles fuel).keeps _).bind fun _ => keeps_fail

-- The recursion is that of `unfold`: over nodes, their items and their pairs.
mutual
theorem Node.unfold_of_nodup (known : List (Nat × Node)) : (n : Node) → n.numbers.Nodup → n.unfold known = n
  | .scalar _ _, _ => rfl
  | .sequence i tag items, h =>
    congrArg (Node.sequence i tag) (unfoldItems_of_nodup known items (List.nodup_cons.mp h).2)
  | .mapping i tag pairs, h =>
    congrArg (Node.mapping i tag) (unfoldPairs_of_nodup known pairs (List.nodup_cons.mp h).2)
  | .again i isList, h => by simp [Node.numbers] at h

theorem unfoldItems_of_nodup (known : List (Nat × Node)) : (items : List Node) → (numbersOf items).Nodup →
    Node.unfoldItems known items = items
  | [], _ => rfl
  | n :: rest, h => by
    obtain ⟨hn, hrest, -⟩ := List.nodup_append.mp h
    rw [Node.unfoldItems, n.unfold_of_nodup known hn, unfoldItems_of_nodup known rest hrest]

theorem unfoldPairs_of_nodup (known : List (Nat × Node)) : (pairs : List (Node × Node)) →
    (numbersOfPairs pairs).Nodup → Node.unfoldPairs known pairs = pairs
  | [], _ => rfl
  | (k, v) :: rest, h => by
    obtain ⟨hkv, hrest, -⟩ := List.nodup_append.mp h
    obtain ⟨hk, hv, -⟩ := List.nodup_append.mp hkv
    rw [Node.unfoldPairs, k.unfold_of_nodup known hk, v.unfold_of_nodup known hv,
      unfoldPairs_of_nodup known rest hrest]
end

/-- A node in which nothing stands inside itself is not unrolled. -/
lemma Node.unrolled_of_nodup {n : Node} (h : n.numbers.Nodup) : n.unrolled = n := by
  have hfold : ∀ rounds : List Nat, rounds.foldl (fun m _ => m.unfold n.collections) n = n := by
    intro rounds
    induction rounds with
    | nil => rfl
    | cons _ rest ih => rw [List.foldl_cons, n.unfold_of_nodup _ h, ih]
  exact hfold _

/-- Where no alias is written, no two collections of the node have the same number. -/
theorem nodup_numbers {source : Source} {n : Node} (hno : ∀ a, Token.alias a ∉ (tokensOf source).ready)
    (hn : nodeOf? source = .ok (some n)) : n.numbers.Nodup := by
  obtain ⟨rolled, hrolled, hroll⟩ := Fault.map_eq_ok.mp hn
  obtain ⟨m, rfl, rfl⟩ := Option.map_eq_some_iff.mp hroll
  suffices hm : m.numbers.Nodup from (Node.unrolled_of_nodup hm).symm ▸ hm
  obtain ⟨⟨node, r⟩, hrun, hnode⟩ := Fault.map_eq_ok.mp hrolled
  have hreads := keeps_readOnlyDocument _ _
    { tokens := (tokensOf source).ready, anchors := [], handles := usualHandles } _ node r
    ⟨hno, Nat.le_refl _, List.nodup_nil, by simp⟩ hrun
  rw [show node = some m from hnode] at hreads
  exact hreads.nodup

end SkillAtlas.Yaml
