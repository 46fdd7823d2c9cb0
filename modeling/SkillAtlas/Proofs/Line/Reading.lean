import SkillAtlas.Proofs.Line.Calls
import SkillAtlas.Proofs.Line.WrittenCalls
import SkillAtlas.Proofs.Line.WrittenMarks

/-!
# What is read from a written line

A line that is put together from its parts is read as these parts: no part is read as another one, and none
is read twice.
-/

namespace SkillAtlas

open Text (Ascii SmallLetters isBlank isWord lowerChars)

lemma lookup_map_key {β : Type} (keys : List String) (f : String → β) (name : String) :
    (keys.map fun k => (k, f k)).lookup name = if name ∈ keys then some (f name) else none := by
  induction keys with
  | nil => rfl
  | cons k keys ih =>
    rw [List.map_cons, List.lookup_cons]
    by_cases hk : name = k
    · simp [hk]
    · simp only [beq_eq_false_iff_ne.mpr hk, ih, List.mem_cons, hk, false_or]

/-- Under a key stand the values that the pairs with this key have. -/
lemma lookup_groupedByKey (pairs : List (String × String)) (name : String) :
    ((groupedByKey pairs).lookup name).getD [] = (pairs.filter fun p => p.1 == name).map Prod.snd := by
  rw [groupedByKey, lookup_map_key]
  split
  · rfl
  · rename_i hname
    have hnone : (pairs.filter fun p => p.1 == name) = [] := by
      refine List.filter_eq_nil_iff.mpr fun p hp hk => hname ?_
      rw [List.mem_eraseDups, ← eq_of_beq hk]
      exact List.mem_map_of_mem hp
    rw [hnone]
    rfl

namespace Text

lemma trimChars_eq_self {cs : List Char} (hfirst : ∀ c ∈ cs.head?, isBlank c = false)
    (hlast : ∀ c ∈ cs.getLast?, isBlank c = false) : trimChars cs = cs := by
  have hdrop : ∀ ds : List Char, (∀ c ∈ ds.head?, isBlank c = false) → ds.dropWhile isBlank = ds := by
    intro ds h
    cases ds with
    | nil => rfl
    | cons c ds => exact List.dropWhile_cons_of_neg (by simp [h c rfl])
  have hreverse : ∀ c ∈ cs.reverse.head?, isBlank c = false := by
    rw [List.head?_reverse]
    exact hlast
  rw [trimChars, hdrop cs hfirst, hdrop _ hreverse, List.reverse_reverse]

/-- Small letters of ASCII have themselves as small letters. -/
lemma lower_eq_self {cs : List Char} (hcs : Ascii cs) (h : ∀ c ∈ cs, c.toLower = c) :
    lower (.ofList cs) = .ofList cs := by
  have hmap : cs.map Char.toLower = cs := (List.map_congr_left h).trans (List.map_id cs)
  rw [lower, String.toList_ofList, lowerChars_ascii hcs, hmap]

lemma lower_lowerChars {cs : List Char} (hcs : Ascii cs) :
    lower (.ofList (lowerChars cs)) = .ofList (lowerChars cs) := by
  rw [lowerChars_ascii hcs]
  refine lower_eq_self (fun c hc => ?_) (fun c hc => ?_)
  · obtain ⟨d, hd, rfl⟩ := List.mem_map.mp hc
    exact toLower_ascii (hcs d hd)
  · obtain ⟨d, hd, rfl⟩ := List.mem_map.mp hc
    exact toLower_toLower (hcs d hd)

end Text

/-- A word of a table that is written in small letters is one of its words. -/
lemma Vocabulary.mem_words {es : Entries} {key word : String} (h : word ∈ texts es key)
    (hsmall : Text.lower word = word) : word ∈ words es key := by
  rw [words, List.mem_eraseDups]
  exact List.mem_map.mpr ⟨word, h, hsmall⟩

namespace Line

open WrittenLine

variable {l : WrittenLine}

/-- A written line has no blanks at its ends. -/
lemma trimChars_chars (hl : l.WellFormed) : Text.trimChars l.chars = l.chars := by
  refine Text.trimChars_eq_self (fun c hc => ?_) (fun c hc => ?_)
  · have hword := hl.word
    cases hw : l.word with
    | nil => exact absurd hw hword.nonempty
    | cons d word =>
      have hd : d = c := by simpa [chars, hw] using hc
      exact isBlank_of_isValuePart (hword.isValuePart c (by simp [hw, hd]))
  · rw [Bool.eq_false_iff]
    intro hb
    obtain ⟨front, hfront⟩ := List.getLast?_eq_some_iff.mp hc
    obtain ⟨d, more, he, -⟩ := blanksAim_chars hl c [] ⟨front, hfront.symm⟩ hb
    simp at he

lemma firstWord?_eq {cs : List Char} (h : ∀ c ∈ cs.head?, c ≠ '-' ∧ isBlank c = false) :
    firstWord? cs = run? isWord cs := by
  cases cs with
  | nil => rfl
  | cons c cs =>
    obtain ⟨hdash, hblank⟩ := h c rfl
    unfold firstWord?
    split
    · rename_i he
      exact absurd (List.cons.inj he).1 hdash
    · dsimp only
      rw [List.dropWhile_cons_of_neg (by simp [hblank])]

/-- The first word is read up to a character that is not part of a word. -/
lemma firstWord?_append {word rest : List Char} (hne : word ≠ []) (hword : ∀ c ∈ word, isWord c = true)
    (hblank : ∀ c ∈ word, isBlank c = false) (hrest : ∀ c ∈ rest.head?, isWord c = false) :
    firstWord? (word ++ rest) = some word := by
  rw [firstWord?_eq fun c hc => ?_, run?_append hne hword hrest]
  rw [List.head?_append_of_ne_nil _ hne] at hc
  have hmem : c ∈ word := List.mem_of_mem_head? hc
  refine ⟨?_, hblank c hmem⟩
  rintro rfl
  exact absurd (hword '-' hmem) (by decide)

lemma firstWord?_chars (hl : l.WellFormed) : firstWord? (lowerChars l.chars) = some (lowerChars l.word) := by
  have hword := hl.word
  have hascii : Ascii l.word := ascii_of_parts hword.isValuePart
  obtain ⟨rest, hrest⟩ : ∃ rest, lowerChars l.chars = lowerChars l.word ++ '\x7b' :: rest := by
    rw [Text.lowerChars_ascii (ascii_chars hl), Text.lowerChars_ascii hascii, chars, List.map_append]
    exact ⟨_, rfl⟩
  have hparts : ∀ c ∈ lowerChars l.word, isNamePart c = true := by
    rw [Text.lowerChars_ascii hascii]
    intro c hc
    obtain ⟨d, hd, rfl⟩ := List.mem_map.mp hc
    exact isNamePart_toLower (hword.parts d hd)
  have hname : IsName (lowerChars l.word) := by
    refine ⟨?_, hparts⟩
    rw [Text.lowerChars_ascii hascii]
    simpa using hword.nonempty
  rw [hrest]
  refine firstWord?_append hname.nonempty hname.isWord
    (fun c hc => isBlank_of_isValuePart (hname.isValuePart c hc)) fun d hd => ?_
  obtain rfl := Option.some.inj hd
  decide

/-- The action of a written line is its word, if it is one. -/
lemma actionOf_chars (hl : l.WellFormed) (v : Vocabulary) :
    actionOf v (lowerChars l.chars) = [.ofList (lowerChars l.word)].filter v.actions.contains := by
  have hascii : Ascii l.word := ascii_of_parts hl.word.isValuePart
  unfold actionOf
  rw [firstWord?_chars hl]
  simp only [Vocabulary.isAction, Text.lower_lowerChars hascii]
  rw [List.filter_cons]
  rfl

/-- The events of a written line are its event, if it is one. -/
lemma events_chars (hl : l.WellFormed) (v : Vocabulary) :
    ((findAll event (lowerChars l.chars)).map String.ofList).filter v.isLifecycleEvent =
      (l.event.toList.map fun e => .ofList ('~' :: eventChars e)).filter v.lifecycleEvents.contains := by
  have htexts : (findAll event (lowerChars l.chars)).map String.ofList =
      l.event.toList.map fun e => .ofList ('~' :: eventChars e) := by
    rw [findAll_event_chars hl, List.map_map, List.map_map]
    rfl
  rw [htexts]
  refine List.filter_congr fun text htext => ?_
  obtain ⟨e, he, rfl⟩ := List.mem_map.mp htext
  have hevent : e ∈ l.event := Option.mem_toList.mp he
  have hascii : Ascii ('~' :: eventChars e) :=
    List.forall_mem_cons.mpr ⟨by decide, ascii_of_parts (isValuePart_eventChars hl e hevent)⟩
  have hsmall : ∀ c ∈ '~' :: eventChars e, c.toLower = c :=
    List.forall_mem_cons.mpr ⟨by decide, toLower_of_mem_eventChars hl hevent⟩
  rw [Vocabulary.isLifecycleEvent, Text.lower_eq_self hascii hsmall]

lemma smallLetters_callbackAttributes :
    ∀ s ∈ Vocabulary.packaged.callbackAttributes, SmallLetters s.toList := by
  have hsmall : ∀ w ∈ Packaged.callbackAttributes, SmallLetters (Text.lowerChars w.toList) := by decide +kernel
  intro s hs
  obtain ⟨w, hw, he⟩ := Vocabulary.exists_of_mem_callbackAttributes hs
  rw [he]
  exact hsmall w hw

/-- A written line is read as its parts. Its word is the action, and its arguments are the calls and the
attributes. -/
theorem parts_chars (l : WrittenLine) (hl : l.WellFormed) :
    let p := parts Vocabulary.packaged [] (.ofList l.chars)
    let key := fun a : List Char × List Char => String.ofList (lowerChars a.1)
    p.actions = [.ofList (lowerChars l.word)].filter Vocabulary.packaged.actions.contains ∧
    p.calls =
      (if "skill".toList <:+ lowerChars l.word then
        (l.arguments.filter fun a => key a == "s").map fun a => Call.mk (.ofList a.2) Call.direct
      else []) ++
      ((l.arguments.filter fun a => Vocabulary.packaged.callbackAttributes.contains (key a)).map fun a =>
        Call.mk (.ofList a.2) (key a)) ∧
    p.targets = (l.targets.map fun t => .ofList ('@' :: lowerChars t)) ∧
    p.guards = (l.guards.map fun g => .ofList (lowerChars ('?' :: guardChars g))) ∧
    p.lifecycle = (l.event.toList.map fun e => .ofList ('~' :: eventChars e)).filter
      Vocabulary.packaged.lifecycleEvents.contains ∧
    ∀ name, (((groupedByKey p.attributes).lookup name).getD []).Perm (givenFor l name) := by
  dsimp only
  unfold parts
  simp only [String.toList_ofList, trimChars_chars hl]
  refine ⟨actionOf_chars hl _, ?_, ?_, ?_, events_chars hl _, fun name => ?_⟩
  · rw [directCalls_chars hl, callbackCalls_chars smallLetters_callbackAttributes hl]
  · rw [findAll_target_chars hl]
  · rw [findAll_guard_chars hl, List.map_map, List.map_map]
    rfl
  · rw [lookup_groupedByKey]
    exact attributesOf_chars_perm hl name

theorem parts_chars_randomskill :
    ∃ l : WrittenLine, l.WellFormed ∧
      String.ofList l.chars = "RandomSkill\x7bonHit=Spark;S=Blast;d=20\x7d @PIR ?!Raining ~onattack" ∧
      let p := parts Vocabulary.packaged [] (.ofList l.chars)
      p.actions = ["randomskill"] ∧ p.calls = [⟨"Blast", "direct"⟩, ⟨"Spark", "onhit"⟩] ∧
        p.targets = ["@pir"] ∧ p.guards = ["?!raining"] ∧ p.lifecycle = ["~onattack"] ∧
        (((groupedByKey p.attributes).lookup "duration").getD []).Perm ["20"] := by
  have hl : WrittenLine.WellFormed {
      word := "RandomSkill".toList
      arguments := [("onHit".toList, "Spark".toList), ("S".toList, "Blast".toList), ("d".toList, "20".toList)]
      targets := ["PIR".toList]
      guards := [(true, "Raining".toList)]
      event := some "attack".toList } := by decide +kernel
  have haction : "randomskill" ∈ Vocabulary.packaged.actions :=
    Vocabulary.mem_words (by decide +kernel) (by decide +kernel)
  have hevent : "~onattack" ∈ Vocabulary.packaged.lifecycleEvents :=
    Vocabulary.mem_words (by decide +kernel) (by decide +kernel)
  obtain ⟨hactions, hcalls, htargets, hguards, hlifecycle, hattributes⟩ := parts_chars _ hl
  refine ⟨_, hl, by decide +kernel, hactions.trans ?_, hcalls.trans (by decide +kernel),
    htargets.trans (by decide +kernel), hguards.trans (by decide +kernel), hlifecycle.trans ?_,
    (hattributes "duration").trans (by decide +kernel)⟩
  · exact List.filter_cons_of_pos (List.contains_iff_mem.mpr haction)
  · exact List.filter_cons_of_pos (List.contains_iff_mem.mpr hevent)

/-- A delay is read only with blanks behind it, and so the value of an argument is not collected under it. -/
theorem parts_chars_delay :
    ¬∀ l : WrittenLine, l.WellFormed → ∀ name,
      (((groupedByKey (parts Vocabulary.packaged [] (.ofList l.chars)).attributes).lookup name).getD []).Perm
        ((l.arguments.filter fun a => attributeRules.any fun r =>
          r.key == name && r.spelling == .ofList (lowerChars a.1)).map fun a => .ofList a.2) := by
  intro h
  have hdelay := h { word := ['w'], arguments := [("delay".toList, ['5'])] } (by decide +kernel) "delay"
  revert hdelay
  decide +kernel

end Line

end SkillAtlas
