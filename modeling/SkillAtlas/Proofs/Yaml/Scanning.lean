import Mathlib.Tactic.Lemma
import SkillAtlas.Yaml.TokenStream

/-!
# How reading tokens fails

Almost every failure to read tokens says that the text does not follow the format. The only others are the
escape of a character by a code point that there is not, a version of too many digits, and what lies behind all
that can be had of the text.
-/

namespace SkillAtlas

/-- Whenever the computation fails, its fault has the property. -/
def FailsBy {α : Type} (P : Fault → Prop) (x : Except Fault α) : Prop :=
  ∀ f, x = .error f → P f

section FailsBy

variable {α β : Type} {P : Fault → Prop} {x y : Except Fault α}

@[simp] lemma failsBy_ok (a : α) : FailsBy P (.ok a) := by
  simp [FailsBy]

@[simp] lemma failsBy_pure (a : α) : FailsBy P (pure a) :=
  failsBy_ok a

@[simp] lemma failsBy_error (f : Fault) : FailsBy P (.error f : Except Fault α) ↔ P f := by
  simp [FailsBy]

@[simp] lemma failsBy_bind (x : Except Fault α) (g : α → Except Fault β) :
    FailsBy P (x >>= g) ↔ FailsBy P x ∧ ∀ a, x = .ok a → FailsBy P (g a) := by
  cases x <;> simp [FailsBy, bind, Except.bind]

@[simp] lemma failsBy_map (x : Except Fault α) (g : α → β) : FailsBy P (x.map g) ↔ FailsBy P x := by
  cases x <;> simp [FailsBy, Except.map]

@[simp] lemma failsBy_functorMap (x : Except Fault α) (g : α → β) : FailsBy P (g <$> x) ↔ FailsBy P x :=
  failsBy_map x g

@[simp] lemma failsBy_ite {c : Prop} [Decidable c] :
    FailsBy P (if c then x else y) ↔ (c → FailsBy P x) ∧ (¬c → FailsBy P y) := by
  split <;> simp [*]

lemma failsBy_mapM {g : α → Except Fault β} {as : List α} (h : ∀ a ∈ as, FailsBy P (g a)) :
    FailsBy P (as.mapM g) := by
  induction as with
  | nil => exact failsBy_ok []
  | cons a rest ih =>
    obtain ⟨ha, hrest⟩ := List.forall_mem_cons.mp h
    rw [List.mapM_cons]
    simp [ha, ih hrest]

lemma failsBy_foldlM {g : β → α → Except Fault β} {as : List α} {b : β} (h : ∀ b a, FailsBy P (g b a)) :
    FailsBy P (as.foldlM g b) := by
  induction as generalizing b with
  | nil => exact failsBy_ok b
  | cons a rest ih =>
    rw [List.foldlM_cons]
    simp [h, ih]

end FailsBy

/-- The text does not follow the format, or it names a character or a version that there is not. -/
inductive Fault.OfTokens : Fault → Prop where
  | malformed : OfTokens .malformed
  /-- the code point is beyond the last one, or the version has too many digits -/
  | badValue : OfTokens .badValue
  /-- the code point has more than 31 binary digits -/
  | tooLarge : OfTokens .tooLarge

attribute [simp] Fault.OfTokens.malformed Fault.OfTokens.badValue Fault.OfTokens.tooLarge

namespace Yaml

open Fault (OfTokens)

/-! ### Steps that may ask for what cannot be had -/

section FailsWith

variable {α β : Type} {P : Fault → Prop} {beyond : Option Fault} {x y : Scan α}

/-- Whenever the step fails, its fault has the property, or it is that of what cannot be had. -/
def FailsWith (P : Fault → Prop) (beyond : Option Fault) (x : Scan α) : Prop :=
  FailsBy (fun f => P f ∨ beyond = some f) (x beyond)

@[simp] lemma failsWith_pure (a : α) : FailsWith P beyond (pure a) :=
  failsBy_ok a

lemma failsWith_throw {f : Fault} (h : P f) : FailsWith P beyond (throw f : Scan α) :=
  (failsBy_error f).mpr (Or.inl h)

@[simp] lemma failsWith_bind (g : α → Scan β) :
    FailsWith P beyond (x >>= g) ↔ FailsWith P beyond x ∧ ∀ a, x beyond = .ok a → FailsWith P beyond (g a) :=
  failsBy_bind (x beyond) fun a => g a beyond

@[simp] lemma failsWith_map (g : α → β) : FailsWith P beyond (g <$> x) ↔ FailsWith P beyond x :=
  failsBy_functorMap (x beyond) g

@[simp] lemma failsWith_ite {c : Prop} [Decidable c] :
    FailsWith P beyond (if c then x else y) ↔ (c → FailsWith P beyond x) ∧ (¬c → FailsWith P beyond y) := by
  split <;> simp [*]

/-- A step that asks for nothing. -/
lemma failsWith_lift {r : Except Fault α} (h : FailsBy P r) : FailsWith P beyond (liftM r : Scan α) :=
  fun f hf => Or.inl (h f hf)

@[simp] lemma failsWith_beyond : FailsWith P beyond Scan.beyond := by
  intro f hf
  cases beyond with
  | none => cases hf
  | some g => exact Or.inr (congrArg some (Except.error.inj hf))

@[simp] lemma failsWith_malformed : FailsWith OfTokens beyond (Scan.malformed : Scan α) :=
  failsWith_throw .malformed

@[simp] lemma failsWith_badValue : FailsWith OfTokens beyond (throw .badValue : Scan α) :=
  failsWith_throw .badValue

end FailsWith

section Cursors

variable {P : Fault → Prop} (c : Cursor) (beyond : Option Fault)

@[simp] lemma failsWith_peek (n : Nat) : FailsWith P beyond (c.peek n) := by
  unfold Cursor.peek
  split <;> simp

@[simp] lemma failsWith_advance (n : Nat) : FailsWith P beyond (c.advance n) := by
  simp [Cursor.advance]

@[simp] lemma failsWith_span (p : Char → Bool) : FailsWith P beyond (c.span p) := by
  simp [Cursor.span]

@[simp] lemma failsWith_skip (p : Char → Bool) : FailsWith P beyond (c.skip p) := by
  simp [Cursor.skip]

@[simp] lemma failsWith_lineBreak? : FailsWith P beyond (c.lineBreak?) := by
  unfold Cursor.lineBreak?
  split <;> simp

@[simp] lemma failsWith_atSeparator : FailsWith P beyond (c.atSeparator) := by
  simp [Cursor.atSeparator]

@[simp] lemma failsWith_skipComment : FailsWith P beyond (c.skipComment) := by
  simp [Cursor.skipComment]

end Cursors

section Properties

variable (c : Cursor) (beyond : Option Fault)

@[simp] lemma failsWith_restOfLine : FailsWith OfTokens beyond (c.restOfLine) := by
  simp only [Cursor.restOfLine, failsWith_bind, failsWith_skip, failsWith_skipComment, failsWith_lineBreak?,
    true_and]
  intro c _ c _ found _
  split <;> simp

@[simp] lemma failsWith_hexNumber (width : Nat) : FailsWith OfTokens beyond (hexNumber width c) := by
  unfold hexNumber
  split <;> simp

@[simp] lemma failsWith_scanName : FailsWith OfTokens beyond (scanName c) := by
  simp [scanName]

@[simp] lemma failsWith_scanHandle : FailsWith OfTokens beyond (scanHandle c) := by
  simp [scanHandle]

@[simp] lemma failsWith_scanEscapedBytes (fuel : Nat) :
    FailsWith OfTokens beyond (scanEscapedBytes fuel c) := by
  induction fuel generalizing c with
  | zero => simp [scanEscapedBytes]
  | succ fuel ih => simp [scanEscapedBytes, ih]

@[simp] lemma failsWith_scanTagChars (fuel : Nat) :
    FailsWith OfTokens beyond (scanTagChars fuel c) := by
  induction fuel generalizing c with
  | zero => simp [scanTagChars]
  | succ fuel ih =>
    unfold scanTagChars
    split
    · simp
    · simp only [failsWith_ite, failsWith_bind, failsWith_scanEscapedBytes, true_and]
      refine ⟨fun _ p _ => ?_, fun _ => by simp [ih]⟩
      split <;> simp [ih]

@[simp] lemma failsWith_scanTagText : FailsWith OfTokens beyond (scanTagText c) := by
  simp [scanTagText]

@[simp] lemma failsWith_scanFullTag : FailsWith OfTokens beyond (scanFullTag c) := by
  simp [scanFullTag]

@[simp] lemma failsWith_scanShortTag : FailsWith OfTokens beyond (scanShortTag c) := by
  simp [scanShortTag]

@[simp] lemma failsWith_scanTag : FailsWith OfTokens beyond (scanTag c) := by
  simp [scanTag]

@[simp] lemma failsWith_scanVersionNumber : FailsWith OfTokens beyond (scanVersionNumber c) := by
  simp [scanVersionNumber]

@[simp] lemma failsWith_scanVersion : FailsWith OfTokens beyond (scanVersion c) := by
  simp [scanVersion]

@[simp] lemma failsWith_scanHandleDirective :
    FailsWith OfTokens beyond (scanHandleDirective c) := by
  simp [scanHandleDirective]

@[simp] lemma failsWith_scanDirective : FailsWith OfTokens beyond (scanDirective c) := by
  simp only [scanDirective, failsWith_bind, failsWith_ite]
  refine ⟨by simp, fun c _ => ⟨by simp, fun p _ => ⟨by simp, fun _ => ?_⟩⟩⟩
  split <;> simp

end Properties

section Texts

variable (c : Cursor) (beyond : Option Fault)

@[simp] lemma failsBy_charOf (n : Nat) : FailsBy OfTokens (charOf n) := by
  unfold charOf
  split
  · simp
  · simp

@[simp] lemma failsWith_scanCode (width : Nat) : FailsWith OfTokens beyond (scanCode width c) := by
  simp only [scanCode, failsWith_bind, failsWith_hexNumber, true_and]
  intro n _
  have hchar : FailsWith OfTokens beyond (liftM (charOf n) : Scan _) := failsWith_lift (failsBy_charOf n)
  split <;> simp [hchar]

@[simp] lemma failsWith_quotedBreaks (fuel : Nat) :
    FailsWith OfTokens beyond (quotedBreaks fuel c) := by
  induction fuel generalizing c with
  | zero => simp [quotedBreaks]
  | succ fuel ih =>
    simp only [quotedBreaks, failsWith_bind, failsWith_ite]
    refine ⟨by simp, fun _ _ => ⟨by simp, fun _ => ⟨by simp, fun c _ => ⟨by simp, fun found _ => ?_⟩⟩⟩⟩
    split <;> simp [ih]

@[simp] lemma failsWith_scanEscape : FailsWith OfTokens beyond (scanEscape c) := by
  unfold scanEscape
  split
  · simp
  · split
    · simp
    · simp
    · simp only [failsWith_bind, failsWith_lineBreak?, true_and]
      intro found _
      split <;> simp

@[simp] lemma failsWith_quotedGap : FailsWith OfTokens beyond (quotedGap c) := by
  simp only [quotedGap, failsWith_bind, failsWith_span, failsWith_lineBreak?, true_and]
  intro p _ found _
  split <;> simp

@[simp] lemma failsWith_scanQuotedFrom (double : Bool) (fuel : Nat) (text : List Char) :
    FailsWith OfTokens beyond (scanQuotedFrom double fuel text c) := by
  induction fuel generalizing text c with
  | zero => simp [scanQuotedFrom]
  | succ fuel ih =>
    unfold scanQuotedFrom
    split
    · simp
    · simp [ih]

@[simp] lemma failsWith_scanQuoted (double : Bool) :
    FailsWith OfTokens beyond (scanQuoted double c) := by
  simp [scanQuoted]

@[simp] lemma failsWith_scanIncrement : FailsWith OfTokens beyond (scanIncrement c) := by
  unfold scanIncrement
  split <;> simp

end Texts

section Runs

variable {P : Fault → Prop} (c : Cursor) (beyond : Option Fault)

@[simp] lemma failsWith_scanChomping : FailsWith P beyond (scanChomping c) := by
  unfold scanChomping
  split <;> simp

@[simp] lemma failsWith_blockIndentation (fuel : Nat) (breaks : List Char) (widest : Nat) :
    FailsWith P beyond (blockIndentation fuel breaks widest c) := by
  induction fuel generalizing breaks widest c with
  | zero => simp [blockIndentation]
  | succ fuel ih =>
    simp only [blockIndentation, failsWith_bind, failsWith_ite, failsWith_advance,
      failsWith_lineBreak?, true_and]
    refine ⟨fun _ c _ => ih c _ _, fun _ found _ => ?_⟩
    split <;> simp [ih]

@[simp] lemma failsWith_skipToColumn (column fuel : Nat) :
    FailsWith P beyond (skipToColumn column fuel c) := by
  induction fuel generalizing c with
  | zero => simp [skipToColumn]
  | succ fuel ih => simp [skipToColumn, ih]

@[simp] lemma failsWith_blockBreaks (indent fuel : Nat) (breaks : List Char) :
    FailsWith P beyond (blockBreaks indent fuel breaks c) := by
  induction fuel generalizing breaks c with
  | zero => simp [blockBreaks]
  | succ fuel ih =>
    simp only [blockBreaks, failsWith_bind, failsWith_skipToColumn, failsWith_lineBreak?, true_and]
    intro c _ found _
    split <;> simp [ih]

@[simp] lemma failsWith_blockGap (indent : Nat) : FailsWith P beyond (blockGap indent c) := by
  simp [blockGap]

@[simp] lemma failsWith_scanLine : FailsWith P beyond (scanLine c) := by
  simp only [scanLine, failsWith_bind, failsWith_span, failsWith_lineBreak?, true_and]
  intro p _ found _
  split <;> simp

@[simp] lemma failsWith_blockLines (folded : Bool) (indent fuel : Nat) (text breaks : List Char) :
    FailsWith P beyond (blockLines folded indent fuel text breaks c) := by
  induction fuel generalizing text breaks c with
  | zero => simp [blockLines]
  | succ fuel ih => simp [blockLines, ih]

@[simp] lemma failsWith_scanBlockIndent (least : Nat) (increment : Option Nat) :
    FailsWith P beyond (scanBlockIndent least increment c) := by
  unfold scanBlockIndent
  split <;> simp

@[simp] lemma failsWith_scanRun (inFlow : Bool) : FailsWith P beyond (scanRun inFlow c) := by
  simp [scanRun]

@[simp] lemma failsWith_plainBreaks (fuel : Nat) (breaks : List Char) :
    FailsWith P beyond (plainBreaks fuel breaks c) := by
  induction fuel generalizing breaks c with
  | zero => simp [plainBreaks]
  | succ fuel ih =>
    simp only [plainBreaks, failsWith_bind, failsWith_ite, failsWith_advance,
      failsWith_lineBreak?, true_and]
    refine ⟨fun _ c _ => ih c _, fun _ found _ => ?_⟩
    split <;> simp [ih]

@[simp] lemma failsWith_plainGap : FailsWith P beyond (plainGap c) := by
  simp only [plainGap, failsWith_bind, failsWith_span, failsWith_lineBreak?, true_and]
  intro p _ found _
  split <;> simp

@[simp] lemma failsWith_scanPlainFrom (inFlow : Bool) (indent : Int) (fuel : Nat) (text gap : List Char)
    (ended : Bool) : FailsWith P beyond (scanPlainFrom inFlow indent fuel text gap ended c) := by
  induction fuel generalizing text gap ended c with
  | zero => simp [scanPlainFrom]
  | succ fuel ih => simp [scanPlainFrom, ih]

@[simp] lemma failsWith_scanPlain (inFlow : Bool) (indent : Int) :
    FailsWith P beyond (scanPlain inFlow indent c) := by
  simp [scanPlain]

end Runs

@[simp] lemma failsWith_scanBlockHeader (c : Cursor) (beyond : Option Fault) :
    FailsWith OfTokens beyond (scanBlockHeader c) := by
  simp [scanBlockHeader]

@[simp] lemma failsWith_scanBlockText (folded : Bool) (outer : Int) (c : Cursor) (beyond : Option Fault) :
    FailsWith OfTokens beyond (scanBlockText folded outer c) := by
  simp [scanBlockText]

namespace Scanner

variable (s : Scanner) (beyond : Option Fault)

@[simp] lemma failsBy_dropLapsed : FailsBy OfTokens s.dropLapsed := by
  simp [dropLapsed]

@[simp] lemma failsWith_forgetPlace : FailsWith OfTokens beyond (s.forgetPlace) := by
  simp [forgetPlace]

@[simp] lemma failsWith_rememberPlace : FailsWith OfTokens beyond (s.rememberPlace) := by
  simp [rememberPlace]

@[simp] lemma failsWith_skipBlanks {P : Fault → Prop} (fuel : Nat) :
    FailsWith P beyond (s.skipBlanks fuel) := by
  induction fuel generalizing s with
  | zero => simp [skipBlanks]
  | succ fuel ih =>
    simp only [skipBlanks, failsWith_bind, failsWith_skip, failsWith_skipComment, failsWith_lineBreak?, true_and]
    intro c _ c _ found _
    split <;> simp [ih]

@[simp] lemma failsWith_scannerAdvance {P : Fault → Prop} (n : Nat) :
    FailsWith P beyond (s.advance n) := by
  simp [advance]

@[simp] lemma failsWith_leaveBlocks : FailsWith OfTokens beyond (s.leaveBlocks) := by
  simp [leaveBlocks]

@[simp] lemma failsWith_documentMark (t : Token) : FailsWith OfTokens beyond (s.documentMark t) := by
  simp [documentMark]

@[simp] lemma failsWith_openFlow (t : Token) : FailsWith OfTokens beyond (s.openFlow t) := by
  simp [openFlow]

@[simp] lemma failsWith_closeFlow (t : Token) : FailsWith OfTokens beyond (s.closeFlow t) := by
  simp [closeFlow]

@[simp] lemma failsWith_flowEntry : FailsWith OfTokens beyond (s.flowEntry) := by
  simp [flowEntry]

@[simp] lemma failsWith_opensEntry (t : Token) : FailsWith OfTokens beyond (s.opensEntry t) := by
  simp [opensEntry]

@[simp] lemma failsWith_blockEntry : FailsWith OfTokens beyond (s.blockEntry) := by
  simp [blockEntry]

@[simp] lemma failsWith_explicitKey : FailsWith OfTokens beyond (s.explicitKey) := by
  simp [explicitKey]

@[simp] lemma failsWith_keyValue : FailsWith OfTokens beyond (s.keyValue) := by
  unfold keyValue
  split <;> simp

@[simp] lemma failsWith_content {scan : Cursor → Scan (Token × Cursor)}
    (h : ∀ c, FailsWith OfTokens beyond (scan c)) :
    FailsWith OfTokens beyond (s.content scan) := by
  simp [content, h]

@[simp] lemma failsWith_namedContent (token : String → Token) :
    FailsWith OfTokens beyond (s.namedContent token) := by
  simp [namedContent]

@[simp] lemma failsWith_quotedContent (double : Bool) :
    FailsWith OfTokens beyond (s.quotedContent double) := by
  simp [quotedContent]

@[simp] lemma failsWith_directive : FailsWith OfTokens beyond (s.directive) := by
  simp [directive]

@[simp] lemma failsWith_plainContent : FailsWith OfTokens beyond (s.plainContent) := by
  simp [plainContent]

@[simp] lemma failsWith_blockContent (folded : Bool) :
    FailsWith OfTokens beyond (s.blockContent folded) := by
  simp [blockContent]

@[simp] lemma failsWith_startsPlain {P : Fault → Prop} (ch : Char) :
    FailsWith P beyond (s.startsPlain ch) := by
  simp [startsPlain]

@[simp] lemma failsWith_atMark {P : Fault → Prop} (ch : Char) : FailsWith P beyond (s.atMark ch) := by
  simp [atMark]

@[simp] lemma failsWith_atIndicator {P : Fault → Prop} (ch : Char) :
    FailsWith P beyond (s.atIndicator ch) := by
  simp [atIndicator]

@[simp] lemma failsWith_token (ch : Char) : FailsWith OfTokens beyond (s.token ch) := by
  simp [token]

@[simp] lemma failsWith_finish : FailsWith OfTokens beyond s.finish := by
  simp [finish]

@[simp] lemma failsWith_step : FailsWith OfTokens beyond s.step := by
  simp only [step, failsWith_bind, failsWith_skipBlanks, true_and]
  refine fun s _ => ⟨failsWith_lift s.failsBy_dropLapsed, fun s _ => ?_⟩
  split <;> simp

lemma stop_stopped {f g : Fault} (h : (s.stopped f).stop = some g) : g = f ∨ g.OfTokens := by
  unfold stopped at h
  split at h
  · rename_i e hdrop
    obtain rfl := Option.some.inj h
    exact Or.inr (s.failsBy_dropLapsed e hdrop)
  · exact Or.inl (Option.some.inj h).symm

lemma stop_run {f : Fault} (fuel : Nat) (h : (s.run beyond fuel).stop = some f) : f.OfTokens ∨ beyond = some f := by
  induction fuel generalizing s with
  | zero =>
    rcases stop_stopped s h with rfl | hf
    · exact Or.inl .malformed
    · exact Or.inl hf
  | succ fuel ih =>
    unfold run at h
    split at h
    · rename_i e hstep
      rcases stop_stopped s h with rfl | hf
      · exact s.failsWith_step beyond f hstep
      · exact Or.inl hf
    · cases h
    · exact ih _ h

end Scanner

/-- Tokens end before the text does only where it does not follow the format, names what there is not, or cannot be
had. -/
theorem stop_tokensOf {source : Source} {f : Fault} (h : (tokensOf source).stop = some f) :
    f.OfTokens ∨ source.beyond = some f := by
  unfold tokensOf at h
  split at h
  · rename_i e hbegin
    obtain rfl := Option.some.inj h
    exact (Scanner.start source.chars).failsWith_scannerAdvance _ _ e hbegin
  · exact Scanner.stop_run _ _ _ h

end Yaml

end SkillAtlas
