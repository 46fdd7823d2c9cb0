import SkillAtlas.Proofs.Line.WrittenMarks
import SkillAtlas.Proofs.Text.LetterCase
import SkillAtlas.Vocabulary.Packaged

/-!
# Lines in capitals and in small letters

Some parts of a line are read from its small letters and others from the line as it is written. Nothing in a
line depends on the case of its ASCII letters: a finder finds the same in both texts, at the same places, and
only names and values keep the case that they are written in.
-/

namespace SkillAtlas

open Text (Ascii dropAlike? isBlank isDigit isWord lower lowerChars)

/-- Values that are changed under each key are those of the pairs whose values are changed. -/
lemma groupedByKey_map (pairs : List (String × String)) (g : String → String) :
    (groupedByKey pairs).map (fun kv => (kv.1, kv.2.map g)) = groupedByKey (pairs.map (Prod.map id g)) := by
  have hkeys : (pairs.map (Prod.map id g)).map Prod.fst = pairs.map Prod.fst := by
    rw [List.map_map]
    rfl
  rw [groupedByKey, groupedByKey, hkeys, List.map_map]
  refine List.map_congr_left fun k _ => ?_
  rw [List.filter_map, List.map_map, Function.comp_apply, List.map_map]
  rfl

namespace Line

variable {α : Type}

/-- What is found in a text whose letters of ASCII are made small is what is found in the text, over as many
characters. Only `f` tells the two apart. -/
def IgnoresCase (find : Finder α) (f : α → α) : Prop :=
  ∀ before cs, find (before.map Char.toLower) (cs.map Char.toLower) = (find before cs).map (Prod.map f id)

section Finding

variable {find : Finder α} {f : α → α}

lemma IgnoresCase.findFrom (h : IgnoresCase find f) (before : Option Char) (skip : Nat) (cs : List Char) :
    findFrom find (before.map Char.toLower) skip (cs.map Char.toLower) =
      (findFrom find before skip cs).map f := by
  induction cs generalizing before skip with
  | nil => rfl
  | cons c rest ih =>
    cases skip with
    | succ k => exact ih (some c) k
    | zero =>
      have hhere := h before (c :: rest)
      rw [List.map_cons] at hhere ⊢
      simp only [Line.findFrom, hhere]
      cases find before (c :: rest) with
      | none => exact ih (some c) 0
      -- what was found is as long in both texts, and so as much is skipped
      | some found => exact congrArg (f found.1 :: ·) (ih (some c) (found.2 - 1))

lemma IgnoresCase.findAll (h : IgnoresCase find f) (cs : List Char) :
    findAll find (cs.map Char.toLower) = (findAll find cs).map f :=
  h.findFrom none 0 cs

/-- For a finder that stands at a mark, only the texts behind the mark are to be compared. -/
lemma FindsAt.ignoresCase {mark : Char} (h : FindsAt mark find) (hm : mark.isAlpha = false)
    (hnil : ∀ before, find before [] = none)
    (hf : ∀ before rest, find (before.map Char.toLower) (mark :: rest.map Char.toLower) =
      (find before (mark :: rest)).map (Prod.map f id)) : IgnoresCase find f := by
  intro before cs
  cases cs with
  | nil => rw [List.map_nil, hnil, hnil, Option.map_none]
  | cons c rest =>
    rw [List.map_cons]
    obtain ⟨rfl, hlow⟩ | ⟨hc, hlow⟩ := Text.mark_cases hm c
    · rw [hlow]
      exact hf before rest
    · rw [h _ _ _ hlow, h before c rest hc, Option.map_none]

lemma atWordStart_small (before : Option Char) : atWordStart (before.map Char.toLower) = atWordStart before := by
  cases before with
  | none => rfl
  | some c => exact congrArg (!·) (Text.isWord_small c)

lemma run?_small {p : Char → Bool} (hp : ∀ c, p c.toLower = p c) (cs : List Char) :
    run? p (cs.map Char.toLower) = (run? p cs).map (List.map Char.toLower) := by
  rw [run?, run?, Text.takeWhile_small hp]
  cases cs.takeWhile p <;> rfl

end Finding

section Marks

lemma ignoresCase_target : IgnoresCase target (List.map Char.toLower) := by
  refine findsAt_target.ignoresCase (by decide) (fun _ => rfl) fun before rest => ?_
  simp only [target, run?_small Text.isWord_small]
  cases run? isWord rest with
  | none => rfl
  | some word =>
    simp only [Option.map_some, Option.bind_eq_bind, Option.bind_some, List.length_map, ← List.map_drop]
    refine congrArg (fun n => some (word.map Char.toLower, 1 + word.length + n)) ?_
    cases rest.drop word.length with
    | nil => rfl
    | cons d inner =>
      have hheld := Text.takeWhile_small (p := (· != '}'))
        (fun c => congrArg (!·) (Text.toLower_beq (by decide) c)) inner
      obtain ⟨rfl, hlow⟩ | ⟨hd, hlow⟩ := Text.mark_cases (m := '{') (by decide) d
      · simp only [List.map_cons, hlow, hheld, List.length_map]
      · simp [hd, hlow]

lemma guard_eq {d : Char} (hd : d ≠ '!') (before : Option Char) (rest : List Char) :
    guard before ('?' :: d :: rest) =
      (run? isWord (d :: rest)).map fun word => ('?' :: word, 1 + word.length) := by
  unfold guard
  split
  · rename_i he
    exact absurd (List.cons.inj (List.cons.inj he).2).1 hd
  · rename_i he
    rw [(List.cons.inj he).2]
  · rename_i he
    exact absurd rfl (he _)

lemma ignoresCase_guard : IgnoresCase guard (List.map Char.toLower) := by
  have hquestion : '?'.toLower = '?' := by decide
  refine findsAt_guard.ignoresCase (by decide) (fun _ => rfl) fun before rest => ?_
  cases rest with
  | nil => rfl
  | cons d rest =>
    obtain ⟨rfl, hlow⟩ | ⟨hd, hlow⟩ := Text.mark_cases (m := '!') (by decide) d
    · simp only [List.map_cons, hlow, guard, run?_small Text.isWord_small]
      cases run? isWord rest <;> simp [hlow, hquestion]
    · have hrun := run?_small Text.isWord_small (d :: rest)
      rw [List.map_cons] at hrun ⊢
      rw [guard_eq hlow, guard_eq hd, hrun]
      cases run? isWord (d :: rest) <;> simp [hquestion]

end Marks

section Calls

lemma isNameChar_small (c : Char) : isNameChar c.toLower = isNameChar c := by
  rw [isNameChar, isNameChar, bne, bne, Text.toLower_beq (by decide), Text.toLower_beq (by decide),
    Text.isBlank_small]
  rfl

lemma valueOf?_small (key cs : List Char) :
    valueOf? key (cs.map Char.toLower) = (valueOf? key cs).map (Prod.map (List.map Char.toLower) id) := by
  unfold valueOf?
  rw [Text.dropAlike?_small]
  cases dropAlike? (key ++ ['=']) cs with
  | none => rfl
  | some rest =>
    simp only [Option.map_some, Option.bind_eq_bind, Option.bind_some, run?_small isNameChar_small]
    cases run? isNameChar rest with
    | none => rfl
    | some value => simp

lemma laterArgument?_small (cs : List Char) :
    laterArgument? (cs.map Char.toLower) = (laterArgument? cs).map (Prod.map (List.map Char.toLower) id) := by
  have hend : ∀ c : Char, (c.toLower == '}') = (c == '}') := Text.toLower_beq (by decide)
  have hnext : ∀ c : Char, (c.toLower == ';') = (c == ';') := Text.toLower_beq (by decide)
  induction cs with
  | nil => rfl
  | cons c rest ih =>
    have hhere : (if (c == ';' || isBlank c) = true then valueOf? ['s'] (rest.map Char.toLower) else none) =
        (if (c == ';' || isBlank c) = true then valueOf? ['s'] rest else none).map
          (Prod.map (List.map Char.toLower) id) := by
      rw [valueOf?_small]
      split <;> rfl
    simp only [List.map_cons, laterArgument?, hend, hnext, Text.isBlank_small, hhere, ih]
    split
    · rfl
    · cases (if (c == ';' || isBlank c) = true then valueOf? ['s'] rest else none) with
      | some found => rfl
      | none => cases laterArgument? rest <;> rfl

lemma ignoresCase_directCall : IgnoresCase directCall (List.map Char.toLower) := by
  intro before cs
  unfold directCall
  rw [Text.dropAlike?_small]
  cases dropAlike? callMarker cs with
  | none => rfl
  | some rest =>
    simp only [Option.map_some, Option.bind_eq_bind, Option.bind_some, laterArgument?_small, valueOf?_small,
      ← Option.map_or]
    cases (laterArgument? rest).or (valueOf? ['s'] rest) <;> rfl

lemma firstAttribute?_small (attributes : List (List Char)) (cs : List Char) :
    firstAttribute? attributes (cs.map Char.toLower) = (firstAttribute? attributes cs).map
      (Prod.map (Prod.map (List.map Char.toLower) (List.map Char.toLower)) id) := by
  unfold firstAttribute?
  rw [List.map_findSome?]
  refine congrArg (fun g => attributes.findSome? g) (funext fun a => ?_)
  rw [valueOf?_small, Function.comp_apply]
  cases valueOf? a cs with
  | none => rfl
  | some found => simp

lemma ignoresCase_callback (attributes : List (List Char)) :
    IgnoresCase (callback attributes) (Prod.map (List.map Char.toLower) (List.map Char.toLower)) := by
  intro before cs
  rw [callback, callback, atWordStart_small, firstAttribute?_small]
  split <;> rfl

end Calls

section Attributes

lemma Link.drop?_small (l : Link) (cs : List Char) :
    l.drop? (cs.map Char.toLower) = (l.drop? cs).map (List.map Char.toLower) := by
  cases cs with
  | nil => cases l <;> rfl
  | cons c rest =>
    cases l with
    | equals =>
      obtain ⟨rfl, hlow⟩ | ⟨hc, hlow⟩ := Text.mark_cases (m := '=') (by decide) c
      · simp [drop?, hlow]
      · simp [drop?, hc, hlow]
    | blanks =>
      simp only [List.map_cons, drop?, Text.isBlank_small, Text.dropWhile_small Text.isBlank_small]
      split <;> rfl

lemma Form.read?_small (f : Form) (cs : List Char) :
    f.read? (cs.map Char.toLower) = (f.read? cs).map (List.map Char.toLower) := by
  cases f with
  | word => exact run?_small Text.isWord_small cs
  | digits => exact run?_small Text.isDigit_small cs
  | number =>
    simp only [read?, run?_small Text.isDigit_small]
    cases run? isDigit cs with
    | none => rfl
    | some whole =>
      simp only [Option.map_some, List.length_map, ← List.map_drop]
      cases cs.drop whole.length with
      | nil => rfl
      | cons d rest =>
        obtain ⟨rfl, hlow⟩ | ⟨hd, hlow⟩ := Text.mark_cases (m := '.') (by decide) d
        · simp only [List.map_cons, hlow, run?_small Text.isDigit_small]
          cases run? isDigit rest <;> simp [hlow]
        · simp [hd, hlow]

lemma AttributeRule.valueAt?_small (r : AttributeRule) (cs : List Char) :
    r.valueAt? (cs.map Char.toLower) =
      (r.valueAt? cs).map (Prod.map (List.map Char.toLower) (List.map Char.toLower)) := by
  unfold valueAt?
  rw [Text.dropAlike?_small]
  cases dropAlike? r.spelling.toList cs with
  | none => rfl
  | some rest =>
    simp only [Option.map_some, Option.bind_eq_bind, Option.bind_some, Link.drop?_small]
    cases r.link.drop? rest with
    | none => rfl
    | some rest =>
      simp only [Option.map_some, Option.bind_some, Form.read?_small]
      cases r.form.read? rest with
      | none => rfl
      | some value => simp

lemma AttributeRule.afterBlanks?_small (r : AttributeRule) (cs : List Char) :
    r.afterBlanks? (cs.map Char.toLower) =
      (r.afterBlanks? cs).map (Prod.map (List.map Char.toLower) (List.map Char.toLower)) := by
  rw [afterBlanks?, afterBlanks?, Text.dropWhile_small Text.isBlank_small, valueAt?_small]

lemma AttributeRule.ignoresCase_find (r : AttributeRule) : IgnoresCase r.find (List.map Char.toLower) := by
  intro before cs
  cases hstart : r.start with
  | word =>
    simp only [find, hstart, atWordStart_small, valueAt?_small]
    split
    · cases r.valueAt? cs with
      | none => rfl
      | some found => simp
    · rfl
  | argument =>
    have hfront : (if (before.map Char.toLower).isNone then r.afterBlanks? (cs.map Char.toLower) else none) =
        (if before.isNone then r.afterBlanks? cs else none).map
          (Prod.map (List.map Char.toLower) (List.map Char.toLower)) := by
      rw [Option.isNone_map, afterBlanks?_small]
      split <;> rfl
    have hinner : ∀ (c : Char) (inner : List Char),
        (if (c.toLower == ';' || c.toLower == '{') = true then r.afterBlanks? (inner.map Char.toLower) else none) =
          (if (c == ';' || c == '{') = true then r.afterBlanks? inner else none).map
            (Prod.map (List.map Char.toLower) (List.map Char.toLower)) := by
      intro c inner
      rw [Text.toLower_beq (by decide), Text.toLower_beq (by decide), afterBlanks?_small]
      split <;> rfl
    simp only [find, hstart, hfront]
    cases cs with
    | nil =>
      rw [List.map_nil, Option.or_none, Option.or_none]
      cases (if before.isNone = true then r.afterBlanks? [] else none) <;> simp
    | cons c inner =>
      simp only [List.map_cons, hinner, ← Option.map_or]
      cases (if before.isNone = true then r.afterBlanks? (c :: inner) else none).or
        (if (c == ';' || c == '{') = true then r.afterBlanks? inner else none) <;> simp

/-- The attributes of a line are the same in small letters, and their values are the same if they are. -/
lemma attributesOf_small (cs : List Char) :
    (attributesOf (cs.map Char.toLower)).map (Prod.map id lower) = (attributesOf cs).map (Prod.map id lower) := by
  rw [attributesOf, attributesOf, List.map_flatMap, List.map_flatMap]
  refine congrArg (fun g => attributeRules.flatMap g) (funext fun r => ?_)
  rw [r.ignoresCase_find.findAll, List.map_map, List.map_map, List.map_map]
  exact List.map_congr_left fun value _ => congrArg (Prod.mk r.key) (Text.lower_small value)

end Attributes

section Whole

variable (v : Vocabulary) (cs : List Char)

lemma callKeys_directCalls_small :
    (directCalls [] (cs.map Char.toLower)).map (fun c => (lower c.name, c.context)) =
      (directCalls [] cs).map fun c => (lower c.name, c.context) := by
  rw [directCalls, directCalls, ignoresCase_directCall.findAll, List.map_map, List.map_map, List.map_map]
  exact List.map_congr_left fun name _ => congrArg (fun n => (n, Call.direct)) (Text.lower_small name)

lemma callKeys_callbackCalls_small (attributes : List String) :
    (callbackCalls attributes (cs.map Char.toLower)).map (fun c => (lower c.name, c.context)) =
      (callbackCalls attributes cs).map fun c => (lower c.name, c.context) := by
  rw [callbackCalls, callbackCalls, (ignoresCase_callback _).findAll, List.map_map, List.map_map, List.map_map]
  refine List.map_congr_left fun found _ => ?_
  simp only [Function.comp_apply, Prod.map_fst, Prod.map_snd, Text.lower_small, Text.lowerChars_small]

/-- An ASCII line has the same parts in small letters. Only the names that it calls and the values of its
attributes are kept as they are written, and these are the same in small letters. -/
theorem parts_lower (line : String) (h : Ascii line.toList) :
    let p := parts v [] line
    let q := parts v [] (lower line)
    q.actions = p.actions ∧ q.targets = p.targets ∧ q.guards = p.guards ∧ q.lifecycle = p.lifecycle ∧
      q.calls.map (fun c => (lower c.name, c.context)) = p.calls.map (fun c => (lower c.name, c.context)) ∧
      (groupedByKey q.attributes).map (fun kv => (kv.1, kv.2.map lower)) =
        (groupedByKey p.attributes).map (fun kv => (kv.1, kv.2.map lower)) := by
  have htrim : Text.trimChars (lower line).toList = (Text.trimChars line.toList).map Char.toLower := by
    rw [Text.toList_lower, Text.lowerChars_ascii h, Text.trimChars_small]
  simp only [parts, htrim, Text.lowerChars_small]
  refine ⟨trivial, ?_, ?_, trivial, ?_, ?_⟩
  · rw [ignoresCase_target.findAll, List.map_map]
    refine List.map_congr_left fun word _ => ?_
    exact congrArg (fun w => String.ofList ('@' :: w)) (Text.lowerChars_small word)
  · rw [ignoresCase_guard.findAll, List.map_map]
    exact List.map_congr_left fun word _ => congrArg String.ofList (Text.lowerChars_small word)
  · rw [List.map_append, List.map_append, callKeys_directCalls_small, callKeys_callbackCalls_small]
  · rw [groupedByKey_map, groupedByKey_map, attributesOf_small]

/-- A skill that is written in capitals. -/
theorem parts_lower_capitals :
    let line := "RANDOMSKILL\x7bONHIT=Spark;S=Blast;D=20\x7d @PIR ?!RAINING ~ONATTACK"
    let p := parts Vocabulary.packaged [] line
    let q := parts Vocabulary.packaged [] (lower line)
    Ascii line.toList ∧ q.actions = p.actions ∧ q.targets = p.targets ∧ q.guards = p.guards ∧
      q.lifecycle = p.lifecycle ∧
      q.calls.map (fun c => (lower c.name, c.context)) = p.calls.map (fun c => (lower c.name, c.context)) ∧
      (groupedByKey q.attributes).map (fun kv => (kv.1, kv.2.map lower)) =
        (groupedByKey p.attributes).map (fun kv => (kv.1, kv.2.map lower)) := by
  have hascii : Ascii "RANDOMSKILL\x7bONHIT=Spark;S=Blast;D=20\x7d @PIR ?!RAINING ~ONATTACK".toList := by
    decide +kernel
  exact ⟨hascii, parts_lower Vocabulary.packaged _ hascii⟩

end Whole

end Line

end SkillAtlas
