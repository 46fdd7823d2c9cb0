import SkillAtlas.Proofs.Line.Attributes
import SkillAtlas.Vocabulary.Packaged

/-!
# Calls in a written line

An argument whose key is an attribute for units calls its value. A line whose word ends with `skill` calls the
unit under its key `s`; there is only one opening brace in a line, and so there is at most one such call.
-/

namespace SkillAtlas

open Text (Ascii SmallLetters alike dropAlike? isBlank isWord lowerChars wordBefore?)

namespace Line

open WrittenLine

variable {a : List Char × List Char} {args : List (List Char × List Char)} {key cs bs tail : List Char}

section Values

lemma valueOf?_eq (hk : SmallLetters key) (hcs : Ascii cs) :
    valueOf? key cs = (wordBefore? '=' cs).bind fun found =>
      if found.1.map Char.toLower = key then
        (run? isNameChar found.2).map fun value => (value, key.length + 1 + value.length)
      else none := by
  unfold valueOf?
  rw [Text.dropAlike?_marked hk hcs (by decide) (by decide)]
  cases wordBefore? '=' cs with
  | none => rfl
  | some found =>
    simp only [Option.bind_eq_bind, Option.bind_some]
    split
    · cases hv : run? isNameChar found.2 <;> simp [hv]
    · rfl

lemma valueOf?_eq_none (hk : SmallLetters key) (hcs : Ascii cs) (hn : wordBefore? '=' cs = none) :
    valueOf? key cs = none := by
  rw [valueOf?_eq hk hcs, hn]
  rfl

lemma run?_value (harg : IsArgument a) (hbs : Follows bs) : run? isNameChar (a.2 ++ bs) = some a.2 :=
  run?_append harg.nonempty (fun c hc => isNameChar_of_isValuePart (harg.parts c hc)) (hbs.stops (by decide))

/-- The value of an argument with this key. -/
lemma valueOf?_argument (hkey : SmallLetters key) (harg : IsArgument a)
    (hbs : Follows bs) : valueOf? key (argumentChars a ++ bs) =
      if a.1.map Char.toLower = key then some (a.2, (argumentChars a).length) else none := by
  rw [valueOf?_eq hkey (ascii_argument_append harg hbs), wordBefore?_argument harg.key, Option.bind_some]
  dsimp only
  split
  · rename_i he
    have hlength : key.length + 1 + a.2.length = (argumentChars a).length := by
      rw [← he, List.length_map, argumentChars, List.length_append, List.length_cons]
      omega
    rw [run?_value harg hbs, Option.map_some, hlength]
  · rfl

end Values

section Callbacks

/-- The unit that an argument calls through one of the attributes. -/
def answered? (attributes : List (List Char)) (a : List Char × List Char) : Option (List Char × List Char) :=
  if a.1.map Char.toLower ∈ attributes then some a else none

lemma firstAttribute?_argument {attributes : List (List Char)} (hs : ∀ key ∈ attributes, SmallLetters key)
    (harg : IsArgument a) (hbs : Follows bs) :
    firstAttribute? attributes (argumentChars a ++ bs) =
      (answered? attributes a).map fun x => (x, (argumentChars a).length) := by
  unfold firstAttribute? answered?
  induction attributes with
  | nil => rfl
  | cons key attributes ih =>
    obtain ⟨hkey, hrest⟩ := List.forall_mem_cons.mp hs
    rw [List.findSome?_cons, valueOf?_argument hkey harg hbs, ih hrest]
    by_cases he : a.1.map Char.toLower = key
    · have htake : (argumentChars a ++ bs).take key.length = a.1 := by
        rw [← he, List.length_map, argumentChars, List.append_assoc, List.take_left]
      have hmem : a.1.map Char.toLower ∈ key :: attributes := he ▸ List.mem_cons_self
      rw [if_pos he, if_pos hmem, Option.map_some, htake]
      rfl
    · rw [if_neg he, Option.map_none]
      simp only [List.mem_cons, he, false_or]

lemma readsKeys_firstAttribute? {attributes : List (List Char)} (hs : ∀ key ∈ attributes, SmallLetters key) :
    ReadsKeys (firstAttribute? attributes) (answered? attributes) where
  onlyKeys cs hcs hn := by
    refine List.findSome?_eq_none_iff.mpr fun key hkey => ?_
    rw [valueOf?_eq_none (hs key hkey) hcs hn]
    rfl
  argument _ _ harg hbs := firstAttribute?_argument hs harg hbs

/-- A written line calls a unit through each argument whose key is one of the attributes. -/
theorem callbackCalls_chars {attributes : List String} (hs : ∀ s ∈ attributes, SmallLetters s.toList)
    {l : WrittenLine} (hl : l.WellFormed) :
    callbackCalls attributes l.chars =
      (l.arguments.filter fun a => attributes.contains (.ofList (lowerChars a.1))).map fun a =>
        ⟨.ofList a.2, .ofList (lowerChars a.1)⟩ := by
  have hmem : ∀ key, key ∈ longestFirst attributes ↔ String.ofList key ∈ attributes := by
    intro key
    rw [longestFirst, (List.mergeSort_perm _ _).mem_iff, List.mem_map]
    constructor
    · rintro ⟨s, hs, rfl⟩
      rwa [String.ofList_toList]
    · exact fun h => ⟨_, h, String.toList_ofList⟩
  have hsmall : ∀ key ∈ longestFirst attributes, SmallLetters key := by
    intro key hkey
    have h := hs _ ((hmem key).mp hkey)
    rwa [String.toList_ofList] at h
  have hfound : findAll (callback (longestFirst attributes)) l.chars =
      l.arguments.filterMap (answered? (longestFirst attributes)) :=
    (readsKeys_firstAttribute? hsmall).findsArguments.findAll_chars hl
  have hanswered : l.arguments.filterMap (answered? (longestFirst attributes)) =
      (l.arguments.filter fun a => attributes.contains (.ofList (lowerChars a.1))).map id := by
    refine filterMap_eq_map_filter fun a ha => ?_
    unfold answered?
    rw [Text.lowerChars_ascii (ascii_of_parts (hl.arguments a ha).key.isValuePart)]
    simp only [hmem, List.contains_eq_mem, decide_eq_true_eq, id]
  unfold callbackCalls
  rw [hfound, hanswered, List.map_id]

end Callbacks

section Direct

variable {inner w : List Char}

lemma directCall_eq (hcs : Ascii cs) (before : Option Char) :
    directCall before cs = (wordBefore? '{' cs).bind fun found =>
      if found.1.map Char.toLower = "skill".toList then
        ((laterArgument? found.2).or (valueOf? ['s'] found.2)).map fun x => (x.1, callMarker.length + x.2)
      else none := by
  have hmarker : callMarker = "skill".toList ++ ['{'] := by decide
  have hsmall : SmallLetters "skill".toList := by decide
  unfold directCall
  rw [hmarker, Text.dropAlike?_marked hsmall hcs (by decide) (by decide)]
  cases wordBefore? '{' cs with
  | none => rfl
  | some found =>
    simp only [Option.bind_eq_bind, Option.bind_some]
    split
    · rw [Option.bind_some]
      cases (laterArgument? found.2).or (valueOf? ['s'] found.2) <;> rfl
    · rfl

/-- In a text with one brace, what stands before it in a suffix ends the text before it. -/
lemma wordBefore?_suffix {ds word rest : List Char} (hw : '{' ∉ w) (hinner : '{' ∉ inner)
    (hds : ds <:+ w ++ '{' :: inner) (h : wordBefore? '{' ds = some (word, rest)) : word <:+ w := by
  obtain ⟨front, hfront⟩ := hds
  rw [((Text.wordBefore?_eq_some (by decide)).mp h).1, ← List.append_assoc] at hfront
  exact ⟨front, ((List.append_cons_inj_of_notMem hw hinner).mp hfront.symm).1.symm⟩

lemma findFrom_directCall_short (hascii : Ascii (w ++ '{' :: inner)) (hw : '{' ∉ w) (hinner : '{' ∉ inner)
    (hshort : w.length < "skill".length) (before : Option Char) (skip : Nat) :
    findFrom directCall before skip (w ++ '{' :: inner) = [] := by
  refine findFrom_eq_nil (fun b ds _ hds => ?_) before skip
  rw [directCall_eq fun c hc => hascii c (hds.subset hc)]
  refine Option.bind_eq_none_iff.mpr fun ⟨word, rest⟩ hfound => if_neg fun he => ?_
  have hle := (wordBefore?_suffix hw hinner hds hfound).length_le
  have hlength := congrArg List.length he
  rw [List.length_map, String.length_toList] at hlength
  dsimp only at hlength
  omega

/-- A text with one brace calls a unit if the word before the brace ends with `skill`. -/
lemma findFrom_directCall (hascii : Ascii (w ++ '{' :: inner)) (hword : ∀ c ∈ w, isWord c = true)
    (hw : '{' ∉ w) (hinner : '{' ∉ inner) (before : Option Char) :
    findFrom directCall before 0 (w ++ '{' :: inner) =
      if "skill".toList <:+ w.map Char.toLower then
        (((laterArgument? inner).or (valueOf? ['s'] inner)).map Prod.fst).toList
      else [] := by
  induction w generalizing before with
  | nil =>
    rw [findFrom_directCall_short hascii hw hinner (by decide), if_neg (by decide)]
  | cons c w ih =>
    obtain ⟨hc, hrest⟩ := List.forall_mem_cons.mp hword
    have hw' : '{' ∉ w := fun h => hw (List.mem_cons_of_mem c h)
    have hbefore : wordBefore? '{' (c :: w ++ '{' :: inner) = some (c :: w, inner) :=
      (Text.wordBefore?_eq_some (by decide)).mpr ⟨rfl, hword⟩
    have hhere := directCall_eq hascii before
    rw [hbefore, Option.bind_some] at hhere
    rw [List.cons_append] at hhere ⊢
    by_cases he : (c :: w).map Char.toLower = "skill".toList
    · rw [if_pos he] at hhere
      rw [he, if_pos List.suffix_rfl]
      have hlength := congrArg List.length he
      rw [List.length_map, List.length_cons, String.length_toList] at hlength
      -- what is left of the word is shorter than `skill`, whether or not a name was found
      have hshort := findFrom_directCall_short hascii.of_cons.2 hw' hinner (by omega)
      cases hr : (laterArgument? inner).or (valueOf? ['s'] inner) with
      | none =>
        rw [hr] at hhere
        rw [findFrom_cons hhere]
        exact hshort _ _
      | some x =>
        rw [hr] at hhere
        simp only [findFrom, hhere, Option.map_some, Option.toList_some]
        rw [hshort]
    · rw [if_neg he] at hhere
      rw [findFrom_cons hhere, ih hascii.of_cons.2 hrest hw']
      have hsuffix : "skill".toList <:+ (c :: w).map Char.toLower ↔
          "skill".toList <:+ w.map Char.toLower := by
        rw [List.map_cons, List.suffix_cons_iff, or_iff_right]
        exact fun h => he h.symm
      simp only [hsuffix]

lemma laterArgument?_pass {as : List Char} (has : ∀ c ∈ as, c ≠ '}' ∧ c ≠ ';' ∧ isBlank c = false)
    (cs : List Char) : (laterArgument? (as ++ cs)).map Prod.fst = (laterArgument? cs).map Prod.fst := by
  induction as with
  | nil => rfl
  | cons c as ih =>
    obtain ⟨⟨hbrace, hsemicolon, hblank⟩, hrest⟩ := List.forall_mem_cons.mp has
    rw [← ih hrest, List.cons_append, laterArgument?]
    simp only [beq_eq_false_iff_ne.mpr hbrace, beq_eq_false_iff_ne.mpr hsemicolon, hblank, Bool.or_self,
      Bool.false_eq_true, if_false, Option.map_map]
    rfl

lemma laterArgument?_separator (cs : List Char) :
    (laterArgument? (';' :: cs)).map Prod.fst =
      ((valueOf? ['s'] cs).map Prod.fst).or ((laterArgument? cs).map Prod.fst) := by
  rw [laterArgument?]
  cases valueOf? ['s'] cs with
  | none => simp only [Option.map_none, Option.none_or]; cases laterArgument? cs <;> rfl
  | some x => rfl

/-- The argument gives the name of a unit to call. -/
def namesUnit (a : List Char × List Char) : Bool :=
  a.1.map Char.toLower == ['s']

lemma valueOf?_s (harg : IsArgument a) (hbs : Follows bs) :
    (valueOf? ['s'] (argumentChars a ++ bs)).map Prod.fst = if namesUnit a then some a.2 else none := by
  have hsmall : SmallLetters ['s'] := by decide
  rw [valueOf?_argument hsmall harg hbs]
  by_cases he : a.1.map Char.toLower = ['s'] <;> simp [namesUnit, he]

lemma laterArgument?_argument (harg : IsArgument a) (cs : List Char) :
    (laterArgument? (argumentChars a ++ cs)).map Prod.fst = (laterArgument? cs).map Prod.fst := by
  have hpart : ∀ c, isValuePart c = true → c ≠ '}' ∧ c ≠ ';' ∧ isBlank c = false := by
    intro c hc
    have hmarks : ∀ m ∈ marks, c ≠ m := fun m hm he => not_mem_marks hc (he ▸ hm)
    exact ⟨hmarks _ (by decide), hmarks _ (by decide), isBlank_of_isValuePart hc⟩
  refine laterArgument?_pass (fun c hc => ?_) cs
  rcases mem_argumentChars harg hc with rfl | hc
  · exact ⟨by decide, by decide, (isBlank_of_mem_marks (by decide) (by decide)).1⟩
  · exact hpart c hc

/-- Behind the first argument the first one that names a unit is found. -/
lemma laterArgument?_more (hargs : ∀ a ∈ args, IsArgument a) (ht : Trails tail) :
    (laterArgument? (moreChars args tail)).map Prod.fst = (args.find? namesUnit).map Prod.snd := by
  induction args with
  | nil => rfl
  | cons a args ih =>
    obtain ⟨hfirst, hmore⟩ := List.forall_mem_cons.mp hargs
    rw [moreChars_cons, laterArgument?_separator, laterArgument?_argument hfirst, ih hmore,
      valueOf?_s hfirst (follows_moreChars hmore ht), List.find?_cons]
    cases namesUnit a <;> rfl

/-- The argument that a call by name finds between the braces; no other one names a unit. -/
lemma foundName_eq (hargs : ∀ a ∈ args, IsArgument a)
    (hone : args.Pairwise fun a b => namesUnit a = true → namesUnit b = false) (ht : Trails tail)
    (hinner : inner = Text.joinWith [';'] (args.map argumentChars) ++ '}' :: tail) :
    ((laterArgument? inner).or (valueOf? ['s'] inner)).map Prod.fst =
      (args.find? namesUnit).map Prod.snd := by
  subst hinner
  cases args with
  | nil =>
    have hnone : valueOf? ['s'] ('}' :: tail) = none := by
      refine valueOf?_eq_none (by decide) ht.follows.ascii ?_
      exact Text.wordBefore?_eq_none (by decide) (by simp [ht.equals])
    show ((laterArgument? ('}' :: tail)).or (valueOf? ['s'] ('}' :: tail))).map Prod.fst = none
    rw [hnone]
    rfl
  | cons a more =>
    obtain ⟨hfirst, hmore⟩ := List.forall_mem_cons.mp hargs
    have hlater := laterArgument?_argument hfirst (moreChars more tail)
    rw [laterArgument?_more hmore ht] at hlater
    rw [joinWith_append, Option.map_or, hlater, valueOf?_s hfirst (follows_moreChars hmore ht),
      List.find?_cons]
    -- a later argument is preferred to the first one, but only one names a unit
    cases ha : namesUnit a with
    | false => rw [if_neg Bool.false_ne_true, Option.or_none]
    | true =>
      have hnone : more.find? namesUnit = none := by
        refine List.find?_eq_none.mpr fun b hb => ?_
        rw [(List.pairwise_cons.mp hone).1 b hb ha]
        exact Bool.false_ne_true
      rw [hnone]
      rfl

/-- A written line calls the unit under its key `s` if its word ends with `skill`. -/
theorem directCalls_chars {l : WrittenLine} (hl : l.WellFormed) :
    directCalls [] l.chars = if "skill".toList <:+ lowerChars l.word then
      (l.arguments.filter fun a => String.ofList (lowerChars a.1) == "s").map fun a =>
        ⟨.ofList a.2, Call.direct⟩
    else [] := by
  have hkeys : ∀ a ∈ l.arguments, lowerChars a.1 = a.1.map Char.toLower :=
    fun a ha => Text.lowerChars_ascii (ascii_of_parts (hl.arguments a ha).key.isValuePart)
  have hdistinct : (l.arguments.map fun a => a.1.map Char.toLower).Nodup := by
    rw [← List.map_congr_left hkeys]
    exact hl.distinct
  have hone : l.arguments.Pairwise fun a b => namesUnit a = true → namesUnit b = false := by
    refine (List.pairwise_map.mp hdistinct).imp fun {a b} hne ha => ?_
    exact beq_eq_false_iff_ne.mpr fun hb => hne ((eq_of_beq ha).trans hb.symm)
  have ht := trails_tailChars hl
  have hbrace : '{' ∉ Text.joinWith [';'] (l.arguments.map argumentChars) ++ '}' :: l.tailChars := by
    have hmark : '{' ∈ marks := by decide
    have harguments := not_mem_joinWith hl.arguments hmark (by decide)
    simp [harguments, ht.brace]
  have hnamed : l.arguments.filter namesUnit =
      l.arguments.filter fun a => String.ofList (lowerChars a.1) == "s" := by
    refine List.filter_congr fun a ha => Bool.eq_iff_iff.mpr ?_
    rw [namesUnit, beq_iff_eq, beq_iff_eq, eq_comm (b := "s"), lowerChars_eq_iff (hl.arguments a ha).key]
    exact Iff.rfl
  unfold directCalls findAll chars
  rw [findFrom_directCall (ascii_opened hl.word (ascii_joinWith hl.arguments ht)) hl.word.isWord
      (not_mem_of_parts hl.word.isValuePart (by decide)) hbrace,
    foundName_eq hl.arguments hone ht rfl,
    ← Text.lowerChars_ascii (ascii_of_parts hl.word.isValuePart),
    Option.toList_map, ← hnamed]
  split
  · rw [toList_find?_eq_filter hone, List.map_map]
    rfl
  · rfl

end Direct

end Line

end SkillAtlas
