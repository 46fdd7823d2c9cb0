import SkillAtlas.Proofs.Yaml.Scanning
import SkillAtlas.Yaml.Node

/-!
# How reading nodes fails

Tokens that make no node are the only failure: the text does not follow the format. It may also be that a token
is asked for which cannot be had.
-/

namespace SkillAtlas.Yaml

namespace Reader

/-- Wherever the step fails, the text does not follow the format, or a token cannot be had. -/
def OnlyMalformed {α : Type} (m : Reader α) : Prop :=
  ∀ r beyond, FailsWith (· = .malformed) beyond (m.run r)

section OnlyMalformed

variable {α β : Type}

@[simp] lemma onlyMalformed_pure (a : α) : OnlyMalformed (pure a) :=
  fun r _ => failsWith_pure (a, r)

@[simp] lemma onlyMalformed_fail : OnlyMalformed (fail : Reader α) :=
  fun _ _ => failsWith_throw rfl

@[simp] lemma onlyMalformed_get : OnlyMalformed (get : Reader Reading) :=
  fun r _ => failsWith_pure (r, r)

@[simp] lemma onlyMalformed_modify (g : Reading → Reading) : OnlyMalformed (modify g : Reader Unit) :=
  fun r _ => failsWith_pure ((), g r)

lemma onlyMalformed_beyond : OnlyMalformed (liftM Scan.beyond : Reader Unit) := by
  intro r given
  exact (failsWith_bind _).mpr ⟨failsWith_beyond, fun _ _ => failsWith_pure _⟩

lemma OnlyMalformed.bind {m : Reader α} {g : α → Reader β} (h : OnlyMalformed m)
    (hg : ∀ a, OnlyMalformed (g a)) : OnlyMalformed (m >>= g) := by
  intro r beyond
  rw [StateT.run_bind, failsWith_bind]
  exact ⟨h r beyond, fun p _ => hg p.1 p.2 beyond⟩

@[simp] lemma onlyMalformed_map {m : Reader α} (g : α → β) (h : OnlyMalformed m) :
    OnlyMalformed (g <$> m) := by
  rw [map_eq_pure_bind]
  exact h.bind fun a => onlyMalformed_pure (g a)

@[simp] lemma onlyMalformed_ite {c : Prop} [Decidable c] {m n : Reader α} :
    OnlyMalformed (if c then m else n) ↔ (c → OnlyMalformed m) ∧ (¬c → OnlyMalformed n) := by
  split <;> simp [*]

end OnlyMalformed

@[simp] lemma onlyMalformed_peek : OnlyMalformed peek := by
  refine onlyMalformed_get.bind fun r => ?_
  split
  · exact onlyMalformed_pure _
  · exact onlyMalformed_beyond.bind fun _ => onlyMalformed_pure _

@[simp] lemma onlyMalformed_skip : OnlyMalformed skip := by
  simp [skip]

@[simp] lemma onlyMalformed_skipIf (p : Token → Bool) : OnlyMalformed (skipIf p) := by
  unfold skipIf
  refine onlyMalformed_peek.bind fun t => ?_
  simp

@[simp] lemma onlyMalformed_number : OnlyMalformed number :=
  onlyMalformed_get.bind fun r => (onlyMalformed_modify _).bind fun _ => onlyMalformed_pure r.collections

@[simp] lemma onlyMalformed_name (anchor : Option String) (n : Node) : OnlyMalformed (name anchor n) := by
  cases anchor with
  | none => simp [name]
  | some a => exact onlyMalformed_get.bind fun r => by simp

@[simp] lemma onlyMalformed_complete (anchor : Option String) (n : Node) :
    OnlyMalformed (complete anchor n) := by
  cases anchor <;> simp [complete]

@[simp] lemma onlyMalformed_tagName (handle : Option String) (suffix : String) :
    OnlyMalformed (tagName handle suffix) := by
  cases handle with
  | none => simp [tagName]
  | some h =>
    refine onlyMalformed_get.bind fun r => ?_
    split <;> simp

@[simp] lemma onlyMalformed_anchor? : OnlyMalformed anchor? := by
  refine onlyMalformed_peek.bind fun t => ?_
  split
  · exact onlyMalformed_skip.bind fun _ => by simp
  · simp

@[simp] lemma onlyMalformed_tag? : OnlyMalformed tag? := by
  refine onlyMalformed_peek.bind fun t => ?_
  split
  · exact onlyMalformed_skip.bind fun _ => by simp
  · simp

@[simp] lemma onlyMalformed_tagName? (tag : Option (Option String × String)) : OnlyMalformed (tagName? tag) := by
  unfold tagName?
  split
  · simp
  · exact (onlyMalformed_tagName _ _).bind fun _ => onlyMalformed_pure _

@[simp] lemma onlyMalformed_properties : OnlyMalformed properties := by
  refine onlyMalformed_peek.bind fun t => ?_
  split
  · exact onlyMalformed_anchor?.bind fun _ => onlyMalformed_tag?.bind fun _ =>
      (onlyMalformed_tagName? _).bind fun _ => onlyMalformed_pure _
  · exact onlyMalformed_tag?.bind fun _ => onlyMalformed_anchor?.bind fun _ =>
      (onlyMalformed_tagName? _).bind fun _ => onlyMalformed_pure _

/-- A collection is named before it is read and given its final form after. -/
lemma onlyMalformed_collection (anchor : Option String) (empty : Node) {whole : Reader Node}
    (h : OnlyMalformed whole) :
    OnlyMalformed (do
      name anchor empty
      let n ← whole
      complete anchor n
      return n) :=
  (onlyMalformed_name anchor empty).bind fun _ => h.bind fun n =>
    (onlyMalformed_complete anchor n).bind fun _ => onlyMalformed_pure n

/-- A step that goes on with an item, which may be missing. -/
lemma onlyMalformed_orAbsent {α : Type} {m : Reader Node} {g : Node → Reader α} (missing : Bool)
    (h : OnlyMalformed m) (hg : ∀ n, OnlyMalformed (g n)) :
    OnlyMalformed (if missing then pure .absent >>= g else m >>= g) := by
  split
  · exact (onlyMalformed_pure _).bind hg
  · exact h.bind hg

/-- A step that goes on after a comma, which the first item has not. -/
lemma onlyMalformed_afterComma {α : Type} {g : Unit → Reader α} (first : Bool) (t : Token)
    (h : ∀ u, OnlyMalformed (g u)) :
    OnlyMalformed (if !first then
      match t with
      | .flowEntry => skip >>= g
      | _ => fail >>= g
    else g ()) := by
  split
  · split
    · exact onlyMalformed_skip.bind h
    · exact onlyMalformed_fail.bind h
  · exact h ()

end Reader

open Reader

/-- With so much fuel no reader of nodes fails in another way. -/
structure ReadsOrRefuses (fuel : Nat) : Prop where
  node : ∀ block indentless, OnlyMalformed (readNode fuel block indentless)
  items : OnlyMalformed (readItems fuel)
  indentless : OnlyMalformed (readIndentless fuel)
  pairs : OnlyMalformed (readPairs fuel)
  pairValue : OnlyMalformed (readPairValue fuel)
  flowItems : ∀ first, OnlyMalformed (readFlowItems fuel first)
  flowValue : ∀ ends, OnlyMalformed (readFlowValue fuel ends)
  flowPairs : ∀ first, OnlyMalformed (readFlowPairs fuel first)

namespace ReadsOrRefuses

variable {fuel : Nat}

lemma readNode_succ (h : ReadsOrRefuses fuel) (block indentless : Bool) :
    OnlyMalformed (readNode (fuel + 1) block indentless) := by
  refine onlyMalformed_peek.bind fun t => ?_
  split
  · refine onlyMalformed_skip.bind fun _ => onlyMalformed_get.bind fun r => ?_
    split <;> simp
  · refine onlyMalformed_properties.bind fun p => onlyMalformed_peek.bind fun t => ?_
    dsimp only
    split
    · exact onlyMalformed_number.bind fun _ =>
        onlyMalformed_collection _ _ (h.indentless.bind fun _ => onlyMalformed_pure _)
    · exact onlyMalformed_skip.bind fun _ => (onlyMalformed_name _ _).bind fun _ => onlyMalformed_pure _
    · exact onlyMalformed_skip.bind fun _ => onlyMalformed_number.bind fun _ =>
        onlyMalformed_collection _ _ ((h.flowItems true).bind fun _ => onlyMalformed_pure _)
    · exact onlyMalformed_skip.bind fun _ => onlyMalformed_number.bind fun _ =>
        onlyMalformed_collection _ _ ((h.flowPairs true).bind fun _ => onlyMalformed_pure _)
    · exact onlyMalformed_skip.bind fun _ => onlyMalformed_number.bind fun _ =>
        onlyMalformed_collection _ _ (h.items.bind fun _ => onlyMalformed_pure _)
    · exact onlyMalformed_skip.bind fun _ => onlyMalformed_number.bind fun _ =>
        onlyMalformed_collection _ _ (h.pairs.bind fun _ => onlyMalformed_pure _)
    · split
      · exact (onlyMalformed_name _ _).bind fun _ => onlyMalformed_pure _
      · exact onlyMalformed_fail

lemma readItems_succ (h : ReadsOrRefuses fuel) : OnlyMalformed (readItems (fuel + 1)) := by
  refine onlyMalformed_peek.bind fun t => ?_
  split
  · exact onlyMalformed_skip.bind fun _ => onlyMalformed_peek.bind fun t =>
      onlyMalformed_orAbsent _ (h.node true false) fun _ => h.items.bind fun _ => onlyMalformed_pure _
  · exact onlyMalformed_skip.bind fun _ => onlyMalformed_pure _
  · exact onlyMalformed_fail

lemma readIndentless_succ (h : ReadsOrRefuses fuel) : OnlyMalformed (readIndentless (fuel + 1)) := by
  refine onlyMalformed_peek.bind fun t => ?_
  split
  · exact onlyMalformed_skip.bind fun _ => onlyMalformed_peek.bind fun t =>
      onlyMalformed_orAbsent _ (h.node true false) fun _ => h.indentless.bind fun _ =>
        onlyMalformed_pure _
  · exact onlyMalformed_pure _

lemma readPairs_succ (h : ReadsOrRefuses fuel) : OnlyMalformed (readPairs (fuel + 1)) := by
  refine onlyMalformed_peek.bind fun t => ?_
  split
  · exact onlyMalformed_skip.bind fun _ => onlyMalformed_peek.bind fun t =>
      onlyMalformed_orAbsent _ (h.node true true) fun _ => h.pairValue.bind fun _ =>
        h.pairs.bind fun _ => onlyMalformed_pure _
  · exact onlyMalformed_skip.bind fun _ => onlyMalformed_pure _
  · exact onlyMalformed_fail

lemma readPairValue_succ (h : ReadsOrRefuses fuel) : OnlyMalformed (readPairValue (fuel + 1)) := by
  refine (onlyMalformed_skipIf _).bind fun found => ?_
  split
  · refine onlyMalformed_peek.bind fun t => ?_
    split
    · exact onlyMalformed_pure _
    · exact h.node true true
  · exact onlyMalformed_pure _

lemma readFlowValue_succ (h : ReadsOrRefuses fuel) (ends : Token → Bool) :
    OnlyMalformed (readFlowValue (fuel + 1) ends) := by
  refine (onlyMalformed_skipIf _).bind fun found => ?_
  split
  · refine onlyMalformed_peek.bind fun t => ?_
    split
    · exact onlyMalformed_pure _
    · exact h.node false false
  · exact onlyMalformed_pure _

lemma readFlowItems_succ (h : ReadsOrRefuses fuel) (first : Bool) :
    OnlyMalformed (readFlowItems (fuel + 1) first) := by
  refine onlyMalformed_peek.bind fun t => ?_
  split
  · exact onlyMalformed_skip.bind fun _ => onlyMalformed_pure _
  · refine onlyMalformed_afterComma first _ fun _ => onlyMalformed_peek.bind fun t => ?_
    split
    · exact onlyMalformed_skip.bind fun _ => onlyMalformed_number.bind fun _ => onlyMalformed_peek.bind fun t =>
        onlyMalformed_orAbsent _ (h.node false false) fun _ => (h.flowValue _).bind fun _ =>
          (h.flowItems false).bind fun _ => onlyMalformed_pure _
    · exact onlyMalformed_skip.bind fun _ => onlyMalformed_pure _
    · exact (h.node false false).bind fun _ => (h.flowItems false).bind fun _ => onlyMalformed_pure _

lemma readFlowPairs_succ (h : ReadsOrRefuses fuel) (first : Bool) :
    OnlyMalformed (readFlowPairs (fuel + 1) first) := by
  refine onlyMalformed_peek.bind fun t => ?_
  split
  · exact onlyMalformed_skip.bind fun _ => onlyMalformed_pure _
  · refine onlyMalformed_afterComma first _ fun _ => onlyMalformed_peek.bind fun t => ?_
    split
    · exact onlyMalformed_skip.bind fun _ => onlyMalformed_peek.bind fun t =>
        onlyMalformed_orAbsent _ (h.node false false) fun _ => (h.flowValue _).bind fun _ =>
          (h.flowPairs false).bind fun _ => onlyMalformed_pure _
    · exact onlyMalformed_skip.bind fun _ => onlyMalformed_pure _
    · exact (h.node false false).bind fun _ => (h.flowPairs false).bind fun _ => onlyMalformed_pure _

end ReadsOrRefuses

lemma readsOrRefuses (fuel : Nat) : ReadsOrRefuses fuel := by
  -- the readers call one another, each with less fuel
  induction fuel with
  | zero =>
    constructor <;> intros <;> exact onlyMalformed_fail
  | succ fuel ih =>
    exact ⟨ih.readNode_succ, ih.readItems_succ, ih.readIndentless_succ, ih.readPairs_succ,
      ih.readPairValue_succ, ih.readFlowItems_succ, ih.readFlowValue_succ, ih.readFlowPairs_succ⟩

lemma onlyMalformed_readDirectives (fuel : Nat) (versioned : Bool) :
    OnlyMalformed (readDirectives fuel versioned) := by
  induction fuel generalizing versioned with
  | zero => exact onlyMalformed_pure _
  | succ fuel ih =>
    refine onlyMalformed_peek.bind fun t => ?_
    split
    · refine onlyMalformed_skip.bind fun _ => ?_
      split
      · split
        · exact onlyMalformed_fail
        · exact ih true
      · refine onlyMalformed_get.bind fun r => ?_
        split
        · exact onlyMalformed_fail
        · exact (onlyMalformed_modify _).bind fun _ => ih versioned
      · exact ih versioned
    · exact onlyMalformed_pure _

lemma onlyMalformed_skipDocumentEnds (fuel : Nat) : OnlyMalformed (skipDocumentEnds fuel) := by
  induction fuel with
  | zero => exact onlyMalformed_pure _
  | succ fuel ih =>
    refine onlyMalformed_peek.bind fun t => ?_
    split
    · exact onlyMalformed_skip.bind fun _ => ih
    · exact onlyMalformed_pure _

lemma onlyMalformed_readHandles (fuel : Nat) : OnlyMalformed (readHandles fuel) :=
  (onlyMalformed_modify _).bind fun _ => (onlyMalformed_readDirectives _ _).bind fun _ => onlyMalformed_modify _

lemma onlyMalformed_readDocument (fuel : Nat) : OnlyMalformed (readDocument fuel) := by
  have hnode := (readsOrRefuses fuel).node true false
  have hends : ∀ {m : Reader (Option Node)}, OnlyMalformed m →
      OnlyMalformed (m <* skipDocumentEnds fuel) := by
    intro m hm
    rw [seqLeft_eq_bind]
    exact hm.bind fun _ => (onlyMalformed_skipDocumentEnds fuel).bind fun _ => onlyMalformed_pure _
  refine onlyMalformed_peek.bind fun t => ?_
  split
  case h_1 => exact onlyMalformed_pure _
  case h_2 | h_3 =>
    refine (onlyMalformed_readHandles fuel).bind fun _ => onlyMalformed_peek.bind fun t => ?_
    split
    · refine onlyMalformed_skip.bind fun _ => hends (onlyMalformed_map _ (onlyMalformed_peek.bind fun t => ?_))
      split <;> first | exact hnode | exact onlyMalformed_pure _
    · exact onlyMalformed_fail
  case h_4 => exact hends (onlyMalformed_map _ hnode)

lemma onlyMalformed_readOnlyDocument (fuel : Nat) : OnlyMalformed (readOnlyDocument fuel) := by
  refine (onlyMalformed_readDocument fuel).bind fun n => onlyMalformed_peek.bind fun t => ?_
  split
  · exact onlyMalformed_pure n
  · exact (onlyMalformed_readHandles fuel).bind fun _ => onlyMalformed_fail

/-- Tokens make a node, or the text does not follow the format, or more tokens are asked for than can be had. -/
theorem failsBy_nodeOf? (source : Source) :
    FailsBy (fun f => f = .malformed ∨ (tokensOf source).stop = some f) (nodeOf? source) := by
  unfold nodeOf? rolledNodeOf? StateT.run'
  exact (failsBy_map _ _).mpr ((failsWith_map _).mpr (onlyMalformed_readOnlyDocument _ _ _))

end SkillAtlas.Yaml
