import Mathlib.Data.List.Perm.Basic
import SkillAtlas.Proofs.Line.Arguments

/-!
# Attributes in a written line

A rule that looks for `=` collects the value of the argument whose key it spells. The one rule that looks for
blanks collects nothing: in a written line a blank stands before a mark.
-/

namespace SkillAtlas

open Text (Ascii SmallLetters alike dropAlike? isBlank isDigit isWord lowerChars wordBefore?)

namespace Line

open WrittenLine

variable {r : AttributeRule} {a : List Char × List Char} {bs cs : List Char}

lemma isNamePart_of_isDigit {c : Char} (h : c.isDigit = true) : isNamePart c = true := by
  simp [isNamePart, Char.isAlphanum, h]

/-- A number that an argument gives is read whole, in each form. -/
lemma read?_digits {value : List Char} (hne : value ≠ []) (hv : ∀ c ∈ value, c.isDigit = true)
    (hbs : Follows bs) (f : Form) : f.read? (value ++ bs) = some value := by
  have hdigits : run? isDigit (value ++ bs) = some value :=
    run?_append hne (fun c hc => isDigit_of_isDigit (hv c hc)) (hbs.stops (by decide))
  cases f with
  | word =>
    exact run?_append hne (fun c hc => isWord_of_isNamePart (isNamePart_of_isDigit (hv c hc)))
      (hbs.stops (by decide))
  | digits => exact hdigits
  | number =>
    obtain ⟨d, more, rfl, hd⟩ := hbs.ends
    rw [Form.read?, hdigits, Option.map_some, List.drop_left]
    rcases hd with rfl | rfl <;> rfl

lemma drop?_equals (cs : List Char) : Link.equals.drop? cs = dropAlike? ['='] cs := by
  cases cs with
  | nil => rfl
  | cons c cs =>
    by_cases hc : c = '='
    · subst hc
      simp [Link.drop?, dropAlike?, (Text.alike_of_not_hasCase (p := '=') (by decide)).mpr rfl]
    · have hmark : alike '=' c = false := by
        rw [Bool.eq_false_iff, ne_eq, Text.alike_of_not_hasCase (by decide)]
        exact hc
      simp [Link.drop?, dropAlike?, hmark, hc]

/-- A rule that looks for `=` reads the value behind a word that it spells. -/
lemma valueAt?_equals (hr : r.link = .equals) (ha : SmallLetters r.spelling.toList) (hcs : Ascii cs) :
    r.valueAt? cs = (wordBefore? '=' cs).bind fun found =>
      if found.1.map Char.toLower = r.spelling.toList then
        (r.form.read? found.2).map fun value => (value, found.2.drop value.length)
      else none := by
  have hkey : (dropAlike? r.spelling.toList cs).bind r.link.drop? =
      (wordBefore? '=' cs).bind fun found =>
        if found.1.map Char.toLower = r.spelling.toList then some found.2 else none := by
    rw [← Text.dropAlike?_marked ha hcs (by decide) (by decide), Text.dropAlike?_append, hr]
    exact congrArg _ (funext drop?_equals)
  have hread : r.valueAt? cs = ((dropAlike? r.spelling.toList cs).bind r.link.drop?).bind fun rest =>
      (r.form.read? rest).map fun value => (value, rest.drop value.length) := by
    unfold AttributeRule.valueAt?
    cases dropAlike? r.spelling.toList cs with
    | none => rfl
    | some rest =>
      simp only [Option.bind_eq_bind, Option.bind_some]
      cases r.link.drop? rest with
      | none => rfl
      | some rest => cases hv : r.form.read? rest <;> simp [hv]
  rw [hread, hkey, Option.bind_assoc]
  refine congrArg _ (funext fun found => ?_)
  split <;> rfl

/-- What a rule collects from an argument. -/
def collected? (r : AttributeRule) (a : List Char × List Char) : Option (List Char) :=
  if a.1.map Char.toLower = r.spelling.toList then some a.2 else none

lemma valueAt?_eq_none (hr : r.link = .equals) (ha : SmallLetters r.spelling.toList) (hcs : Ascii cs)
    (hk : wordBefore? '=' cs = none) : r.valueAt? cs = none := by
  rw [valueAt?_equals hr ha hcs, hk]
  rfl

lemma wordBefore?_argument (hk : IsName a.1) (bs : List Char) :
    wordBefore? '=' (argumentChars a ++ bs) = some (a.1, a.2 ++ bs) := by
  have hequals : isWord '=' = false := by decide
  have hfound : wordBefore? '=' (a.1 ++ '=' :: (a.2 ++ bs)) = some (a.1, a.2 ++ bs) := by
    rw [Text.wordBefore?_append hk.isWord hequals, if_pos rfl]
  rw [← hfound]
  simp [argumentChars]

/-- A rule collects the value of an argument whose key it spells. -/
lemma valueAt?_argument (hmem : r ∈ attributeRules) (hr : r.link = .equals)
    (ha : SmallLetters r.spelling.toList) (harg : IsArgument a) (hbs : Follows bs) :
    r.valueAt? (argumentChars a ++ bs) = (collected? r a).map fun value => (value, bs) := by
  rw [valueAt?_equals hr ha (ascii_argument_append harg hbs), wordBefore?_argument harg.key, Option.bind_some]
  unfold collected?
  by_cases he : a.1.map Char.toLower = r.spelling.toList
  · have hspelled : r.spelling = .ofList (lowerChars a.1) := by
      rw [Text.lowerChars_ascii (ascii_of_parts harg.key.isValuePart), he, String.ofList_toList]
    have hread := read?_digits harg.nonempty (harg.digits ⟨r, hmem, hspelled⟩) hbs r.form
    rw [if_pos he, if_pos he, hread]
    simp
  · rw [if_neg he, if_neg he]
    rfl

lemma find_word (hs : r.start = .word) :
    r.find = atWords fun cs => (r.valueAt? cs).map fun p => (p.1, cs.length - p.2.length) := by
  funext before cs
  unfold AttributeRule.find atWords
  rw [hs]
  dsimp only
  split
  · cases r.valueAt? cs <;> rfl
  · rfl

lemma find_argument (hs : r.start = .argument) : r.find = atArguments r.afterBlanks? := by
  obtain ⟨start, spelling, link, form, key⟩ := r
  obtain rfl : start = .argument := hs
  rfl

/-- A rule that looks for `=` finds the values of the arguments whose keys it spells. -/
theorem findsArguments_equals (hmem : r ∈ attributeRules) (hr : r.link = .equals)
    (ha : SmallLetters r.spelling.toList) : FindsArguments r.find (collected? r) := by
  cases hs : r.start with
  | word =>
    rw [find_word hs]
    refine ReadsKeys.findsArguments ⟨fun cs hcs hk => ?_, fun a bs harg hbs => ?_⟩
    · rw [valueAt?_eq_none hr ha hcs hk]
      rfl
    · rw [valueAt?_argument hmem hr ha harg hbs]
      cases collected? r a <;> simp
  | argument =>
    rw [find_argument hs]
    refine ReadsArguments.findsArguments ⟨fun c cs hcs hc hk => ?_, fun a bs harg hbs => ?_⟩
    · rw [AttributeRule.afterBlanks?, List.dropWhile_cons_of_neg (by simp [hc])]
      exact valueAt?_eq_none hr ha hcs hk
    · have hfront : (argumentChars a ++ bs).dropWhile isBlank = argumentChars a ++ bs := by
        obtain ⟨key, value⟩ := a
        cases key with
        | nil => exact absurd rfl harg.key.nonempty
        | cons c key =>
          have hc := isBlank_of_isValuePart (harg.key.isValuePart c List.mem_cons_self)
          exact List.dropWhile_cons_of_neg (by simp [hc])
      rw [AttributeRule.afterBlanks?, hfront]
      exact valueAt?_argument hmem hr ha harg hbs

section Blanks

/-- A blank stands only before something that is no blank and no digit. -/
def BlanksAim (cs : List Char) : Prop :=
  ∀ c rest, c :: rest <:+ cs → isBlank c = true →
    ∃ d more, rest = d :: more ∧ isBlank d = false ∧ isDigit d = false

lemma blanksAim_nil : BlanksAim [] := by
  intro c rest hs
  simp at hs

lemma BlanksAim.cons {c : Char} (hc : isBlank c = false) (h : BlanksAim cs) : BlanksAim (c :: cs) := by
  intro b rest hs hb
  rcases List.suffix_cons_iff.mp hs with he | hs
  · rw [(List.cons.inj he).1, hc] at hb
    exact absurd hb Bool.false_ne_true
  · exact h b rest hs hb

lemma BlanksAim.aim {c d : Char} (hb : isBlank d = false) (hd : isDigit d = false) (h : BlanksAim cs) :
    BlanksAim (c :: d :: cs) := by
  intro b rest hs hc
  rcases List.suffix_cons_iff.mp hs with he | hs
  · exact ⟨d, cs, (List.cons.inj he).2, hb, hd⟩
  · exact h.cons hb b rest hs hc

lemma BlanksAim.append {as : List Char} (has : ∀ c ∈ as, isBlank c = false) (h : BlanksAim cs) :
    BlanksAim (as ++ cs) := by
  induction as with
  | nil => exact h
  | cons c as ih =>
    obtain ⟨hc, hrest⟩ := List.forall_mem_cons.mp has
    exact (ih hrest).cons hc

lemma BlanksAim.marked {mark : Char} {items : List (List Char)}
    (hm : isBlank mark = false ∧ isDigit mark = false)
    (hitems : ∀ item ∈ items, ∀ c ∈ item, isBlank c = false) (h : BlanksAim cs) :
    BlanksAim (markedChars mark items ++ cs) := by
  unfold markedChars
  induction items with
  | nil => exact h
  | cons item items ih =>
    obtain ⟨hitem, hrest⟩ := List.forall_mem_cons.mp hitems
    rw [List.flatMap_cons, List.cons_append, List.cons_append, List.append_assoc]
    exact ((ih hrest).append hitem).aim hm.1 hm.2

lemma blanksAim_tailChars {l : WrittenLine} (hl : l.WellFormed) : BlanksAim l.tailChars := by
  have hevent : ∀ item ∈ l.event.toList.map eventChars, ∀ c ∈ item, isBlank c = false := by
    intro item hitem c hc
    obtain ⟨e, he, rfl⟩ := List.mem_map.mp hitem
    exact isBlank_of_isValuePart (isValuePart_eventChars hl e (Option.mem_toList.mp he) c hc)
  have hguards : ∀ item ∈ l.guards.map guardChars, ∀ c ∈ item, isBlank c = false := by
    intro item hitem c hc
    obtain ⟨g, hg, rfl⟩ := List.mem_map.mp hitem
    rcases mem_guardChars hl hg hc with rfl | hc
    · decide +kernel
    · exact isBlank_of_isValuePart hc
  have htargets : ∀ t ∈ l.targets, ∀ c ∈ t, isBlank c = false :=
    fun t ht c hc => isBlank_of_isValuePart ((hl.targets t ht).isValuePart c hc)
  have hend : BlanksAim (markedChars '~' (l.event.toList.map eventChars) ++ []) :=
    blanksAim_nil.marked (isBlank_of_mem_marks (by decide) (by decide)) hevent
  rw [List.append_nil] at hend
  have hquestion : isBlank '?' = false ∧ isDigit '?' = false := isBlank_of_mem_marks (by decide) (by decide)
  have hat : isBlank '@' = false ∧ isDigit '@' = false := isBlank_of_mem_marks (by decide) (by decide)
  exact (hend.marked hquestion hguards).marked hat htargets

lemma BlanksAim.argument (harg : IsArgument a) (h : BlanksAim cs) : BlanksAim (argumentChars a ++ cs) := by
  refine h.append fun c hc => ?_
  rcases mem_argumentChars harg hc with rfl | hc
  · exact (isBlank_of_mem_marks (by decide) (by decide)).1
  · exact isBlank_of_isValuePart hc

lemma BlanksAim.more {args : List (List Char × List Char)} (hargs : ∀ a ∈ args, IsArgument a)
    (h : BlanksAim cs) : BlanksAim (moreChars args cs) := by
  induction args with
  | nil => exact h.cons (isBlank_of_mem_marks (by decide) (by decide)).1
  | cons a args ih =>
    obtain ⟨hfirst, hmore⟩ := List.forall_mem_cons.mp hargs
    rw [moreChars_cons]
    exact ((ih hmore).argument hfirst).cons (isBlank_of_mem_marks (by decide) (by decide)).1

/-- In a written line a blank stands before the mark of a target, a guard or an event. -/
lemma blanksAim_chars {l : WrittenLine} (hl : l.WellFormed) : BlanksAim l.chars := by
  have htail := blanksAim_tailChars hl
  unfold chars
  refine BlanksAim.append (fun c hc => isBlank_of_isValuePart (hl.word.isValuePart c hc)) ?_
  cases ha : l.arguments with
  | nil =>
    have hclose : isBlank '}' = false := (isBlank_of_mem_marks (by decide) (by decide)).1
    exact (htail.cons hclose).cons (isBlank_of_mem_marks (by decide) (by decide)).1
  | cons a more =>
    obtain ⟨hfirst, hmore⟩ := List.forall_mem_cons.mp (ha ▸ hl.arguments)
    rw [joinWith_append]
    exact ((htail.more hmore).argument hfirst).cons (isBlank_of_mem_marks (by decide) (by decide)).1

lemma dropAlike?_suffix {p cs rest : List Char} (h : dropAlike? p cs = some rest) : rest <:+ cs := by
  induction p generalizing cs with
  | nil =>
    obtain rfl := Option.some.inj h
    exact List.suffix_rfl
  | cons q p ih =>
    cases cs with
    | nil => simp [dropAlike?] at h
    | cons c cs =>
      rw [dropAlike?] at h
      split at h
      · exact (ih h).trans (List.suffix_cons c cs)
      · simp at h

/-- A rule that looks for digits behind blanks finds nothing where blanks stand before marks. -/
lemma valueAt?_blanks (hr : r.link = .blanks) (hf : r.form = .digits) (h : BlanksAim cs) :
    r.valueAt? cs = none := by
  unfold AttributeRule.valueAt?
  cases hdrop : dropAlike? r.spelling.toList cs with
  | none => rfl
  | some rest =>
    have hs := dropAlike?_suffix hdrop
    simp only [Option.bind_eq_bind, Option.bind_some, hr, hf]
    cases rest with
    | nil => rfl
    | cons c more =>
      by_cases hc : isBlank c = true
      · obtain ⟨d, others, rfl, hblank, hdigit⟩ := h c more hs hc
        have hread : Form.digits.read? (d :: others) = none := by
          simp [Form.read?, run?, hdigit]
        simp [Link.drop?, hc, hblank, hread]
      · simp [Link.drop?, hc]

theorem findAll_blanks (hs : r.start = .word) (hr : r.link = .blanks) (hf : r.form = .digits)
    {l : WrittenLine} (hl : l.WellFormed) : findAll r.find l.chars = [] := by
  refine findFrom_eq_nil (fun b ds _ hsuffix => ?_) none 0
  have haim : BlanksAim ds := fun c rest hc => blanksAim_chars hl c rest (hc.trans hsuffix)
  rw [find_word hs, atWords, valueAt?_blanks hr hf haim]
  exact ite_self none

end Blanks

/-- The rule collects the values of arguments with this key. -/
def AttributeRule.collects (r : AttributeRule) (key : List Char) : Bool :=
  r.link == .equals && r.spelling == .ofList (lowerChars key)

lemma attributeRules_shape : ∀ r ∈ attributeRules, SmallLetters r.spelling.toList ∧
    (r.link = .equals ∨ r.start = .word ∧ r.link = .blanks ∧ r.form = .digits) := by
  decide

lemma filterMap_eq_map_filter {β γ : Type} {f : β → Option γ} {p : β → Bool} {g : β → γ} {xs : List β}
    (h : ∀ x ∈ xs, f x = if p x then some (g x) else none) : xs.filterMap f = (xs.filter p).map g := by
  induction xs with
  | nil => rfl
  | cons x xs ih =>
    obtain ⟨hx, hxs⟩ := List.forall_mem_cons.mp h
    cases hp : p x with
    | true => rw [List.filterMap_cons_some (by rw [hx, hp, if_pos rfl]), List.filter_cons_of_pos hp, ih hxs,
        List.map_cons]
    | false =>
      have hnone : f x = none := by rw [hx, hp, if_neg Bool.false_ne_true]
      rw [List.filterMap_cons_none hnone, List.filter_cons_of_neg (by simp [hp]), ih hxs]

/-- The key of an argument in small letters. -/
lemma lowerChars_eq_iff {key : List Char} (hk : IsName key) (s : String) :
    s = .ofList (lowerChars key) ↔ key.map Char.toLower = s.toList := by
  rw [Text.lowerChars_ascii (ascii_of_parts hk.isValuePart)]
  constructor
  · rintro rfl
    rw [String.toList_ofList]
  · intro he
    rw [he, String.ofList_toList]

/-- A written line has the attributes that its arguments give, rule by rule. -/
theorem attributesOf_chars {l : WrittenLine} (hl : l.WellFormed) :
    attributesOf l.chars = attributeRules.flatMap fun r =>
      (l.arguments.filter fun a => r.collects a.1).map fun a => (r.key, .ofList a.2) := by
  unfold attributesOf
  rw [List.flatMap_def, List.flatMap_def]
  refine congrArg List.flatten (List.map_congr_left fun r hr => ?_)
  obtain ⟨hsmall, hequals | ⟨hs, hblanks, hf⟩⟩ := attributeRules_shape r hr
  · have hcollected : l.arguments.filterMap (collected? r) =
        (l.arguments.filter fun a => r.collects a.1).map Prod.snd := by
      refine filterMap_eq_map_filter fun a ha => ?_
      unfold collected? AttributeRule.collects
      simp only [hequals, beq_self_eq_true, Bool.true_and, beq_iff_eq,
        lowerChars_eq_iff (hl.arguments a ha).key]
    rw [(findsArguments_equals hr hequals hsmall).findAll_chars hl, hcollected, List.map_map]
    rfl
  · have hnone : (l.arguments.filter fun a => r.collects a.1) = [] := by
      refine List.filter_eq_nil_iff.mpr fun a _ => ?_
      simp [AttributeRule.collects, hblanks]
    rw [findAll_blanks hs hblanks hf hl, hnone]
    rfl

section Keys

/-- The attribute under which an argument with this key is collected. -/
def attributeOf? (key : List Char) : Option String :=
  (attributeRules.find? fun r => r.collects key).map AttributeRule.key

/-- The values that the arguments of a line give for an attribute. -/
def givenFor (l : WrittenLine) (name : String) : List String :=
  (l.arguments.filter fun a => attributeOf? a.1 == some name).map fun a => .ofList a.2

lemma toList_find?_eq_filter {β : Type} {p : β → Bool} {xs : List β}
    (h : xs.Pairwise fun x y => p x = true → p y = false) : (xs.find? p).toList = xs.filter p := by
  induction xs with
  | nil => rfl
  | cons x xs ih =>
    obtain ⟨hx, hxs⟩ := List.pairwise_cons.mp h
    rw [List.find?_cons, List.filter_cons]
    cases hp : p x with
    | true =>
      have hnone : xs.filter p = [] := List.filter_eq_nil_iff.mpr fun y hy => by simp [hx y hy hp]
      rw [if_pos rfl, hnone]
      rfl
    | false => exact ih hxs

/-- Each key is spelled by one rule. -/
lemma filter_collects (key : List Char) :
    (attributeRules.filter fun r => r.collects key) =
      (attributeRules.find? fun r => r.collects key).toList := by
  have hspellings : attributeRules.Pairwise fun r s => r.spelling ≠ s.spelling := by decide
  refine (toList_find?_eq_filter (hspellings.imp fun {r s} hne hr => ?_)).symm
  unfold AttributeRule.collects at hr ⊢
  rw [Bool.and_eq_true, beq_iff_eq, beq_iff_eq] at hr
  rw [Bool.and_eq_false_iff, beq_eq_false_iff_ne, beq_eq_false_iff_ne]
  exact Or.inr (hr.2 ▸ hne.symm)

lemma flatMap_if_eq {β γ : Type} (p : β → Bool) (y : γ) (xs : List β) :
    (xs.flatMap fun x => if p x then [y] else []) = (xs.filter p).map fun _ => y := by
  induction xs with
  | nil => rfl
  | cons x xs ih =>
    rw [List.flatMap_cons, ih, List.filter_cons]
    cases p x <;> rfl

/-- What the rules of an attribute collect from one argument. -/
lemma collected_argument (name : String) (a : List Char × List Char) :
    ((attributeRules.filter fun r => r.key == name).flatMap fun r =>
        if r.collects a.1 then [String.ofList a.2] else []) =
      if attributeOf? a.1 == some name then [String.ofList a.2] else [] := by
  rw [flatMap_if_eq, List.filter_filter]
  simp only [Bool.and_comm]
  rw [← List.filter_filter, filter_collects]
  unfold attributeOf?
  cases attributeRules.find? fun r => r.collects a.1 with
  | none => rfl
  | some r =>
    by_cases hkey : r.key = name
    · simp [hkey]
    · simp [hkey]

/-- Under each attribute a written line has exactly the values that are given for it. -/
theorem attributesOf_chars_perm {l : WrittenLine} (hl : l.WellFormed) (name : String) :
    (((attributesOf l.chars).filter fun p => p.1 == name).map Prod.snd).Perm (givenFor l name) := by
  have hrules : ((attributesOf l.chars).filter fun p => p.1 == name).map Prod.snd =
      (attributeRules.filter fun r => r.key == name).flatMap fun r =>
        (l.arguments.filter fun a => r.collects a.1).map fun a => .ofList a.2 := by
    rw [attributesOf_chars hl]
    induction attributeRules with
    | nil => rfl
    | cons r rules ih =>
      rw [List.flatMap_cons, List.filter_append, List.map_append, ih, List.filter_map, List.map_map,
        List.filter_cons]
      cases hkey : r.key == name <;> simp [hkey, Function.comp_def]
  rw [hrules]
  unfold givenFor
  -- the values stand rule by rule on one side and argument by argument on the other
  induction l.arguments with
  | nil => simp
  | cons a args ih =>
    have hstep : ∀ r : AttributeRule,
        (((a :: args).filter fun a => r.collects a.1).map fun a => String.ofList a.2) =
        (if r.collects a.1 then [String.ofList a.2] else []) ++
          (args.filter fun a => r.collects a.1).map fun a => String.ofList a.2 := by
      intro r
      rw [List.filter_cons]
      cases r.collects a.1 <;> rfl
    simp only [hstep]
    refine (List.flatMap_append_perm _ _ _).symm.trans ?_
    rw [collected_argument]
    refine (ih.append_left _).trans (List.Perm.of_eq ?_)
    rw [List.filter_cons]
    cases attributeOf? a.1 == some name <;> rfl

end Keys

end Line

end SkillAtlas
