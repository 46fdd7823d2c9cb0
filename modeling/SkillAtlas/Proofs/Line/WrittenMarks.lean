import SkillAtlas.Proofs.Line.Attributes

/-!
# Targets, guards and events in a written line

Each mark is found where it stands and nowhere else, and is read with its whole item: a blank stands behind
the item, or the line ends there.
-/

namespace SkillAtlas

open Text (Ascii isBlank isWord lowerChars)

namespace Line

open WrittenLine

variable {α : Type} {find : Finder α} {mark : Char} {items : List (List Char)} {rest : List Char}

/-- An item ends here. -/
def Ends (rest : List Char) : Prop :=
  ∀ c ∈ rest.head?, c = ' '

lemma ends_markedChars (mark : Char) (items : List (List Char)) (hrest : Ends rest) :
    Ends (markedChars mark items ++ rest) := by
  cases items with
  | nil => exact hrest
  | cons item items =>
    intro c hc
    exact (Option.some.inj hc).symm

lemma run?_item {cs : List Char} (h : IsName cs) (hrest : Ends rest) :
    run? isWord (cs ++ rest) = some cs := by
  refine run?_append h.nonempty h.isWord fun d hd => ?_
  obtain rfl := hrest d hd
  decide

section Items

/-- The mark is read with an item behind it, and gives what `f` says. -/
def ReadsItems (mark : Char) (find : Finder α) (f : List Char → α) (items : List (List Char)) : Prop :=
  ∀ item ∈ items, ∀ before rest, Ends rest →
    find before (mark :: (item ++ rest)) = some (f item, item.length + 1)

variable {f : List Char → α}

lemma FindsAt.findFrom_marked (h : FindsAt mark find) (hm : mark ≠ ' ') (hf : ReadsItems mark find f items)
    (hrest : Ends rest) (before : Option Char) :
    ∃ b, findFrom find before 0 (markedChars mark items ++ rest) = items.map f ++ findFrom find b 0 rest := by
  induction items generalizing before with
  | nil => exact ⟨before, rfl⟩
  | cons item items ih =>
    obtain ⟨hitem, hitems⟩ := List.forall_mem_cons.mp hf
    have htext : markedChars mark (item :: items) ++ rest =
        ' ' :: mark :: (item ++ (markedChars mark items ++ rest)) := by
      simp [markedChars]
    obtain ⟨b, hb⟩ := ih hitems (item.getLast?.or (some mark))
    refine ⟨b, ?_⟩
    rw [htext, findFrom_cons (h before ' ' _ hm.symm),
      findFrom_found (hitem _ _ (ends_markedChars mark items hrest)), hb]
    rfl

/-- A mark that stands only before its items is found with each of them. -/
theorem FindsAt.findAll_marked (h : FindsAt mark find) (hm : mark ≠ ' ') (hf : ReadsItems mark find f items)
    {front : List Char} (hfront : mark ∉ front) (hends : Ends rest) (hrest : mark ∉ rest) :
    findAll find (front ++ (markedChars mark items ++ rest)) = items.map f := by
  obtain ⟨b, hb⟩ := h.findFrom_append hfront none (markedChars mark items ++ rest)
  obtain ⟨b', hb'⟩ := h.findFrom_marked hm hf hends b
  rw [findAll, hb, hb', h.findFrom_eq_nil hrest, List.append_nil]

lemma findsAt_target : FindsAt '@' target := by
  intro before c cs hc
  unfold target
  split
  · rename_i he
    exact absurd (List.cons.inj he).1 hc
  · rfl

lemma findsAt_guard : FindsAt '?' guard := by
  intro before c cs hc
  unfold guard
  split
  · rename_i he
    exact absurd (List.cons.inj he).1 hc
  · rename_i he
    exact absurd (List.cons.inj he).1 hc
  · rfl

lemma findsAt_event : FindsAt '~' event := by
  intro before c cs hc
  unfold event
  split
  · rename_i he
    exact absurd (List.cons.inj he).1 hc
  · rfl

lemma readsItems_target (h : ∀ t ∈ items, IsName t) : ReadsItems '@' target id items := by
  intro t ht before rest hrest
  have hrun := run?_item (h t ht) hrest
  simp only [target, hrun, Option.bind_eq_bind, Option.bind_some, List.drop_left]
  cases rest with
  | nil => simp [Nat.add_comm]
  | cons c rest =>
    obtain rfl := hrest c rfl
    simp [Nat.add_comm]

lemma readsItems_guard {guards : List (Bool × List Char)} (h : ∀ g ∈ guards, IsName g.2) :
    ReadsItems '?' guard ('?' :: ·) (guards.map guardChars) := by
  intro item hitem before rest hrest
  obtain ⟨⟨negated, name⟩, hg, rfl⟩ := List.mem_map.mp hitem
  have hname : IsName name := h _ hg
  have hrun := run?_item hname hrest
  cases negated with
  | true =>
    simp only [guardChars, if_true, guard, List.cons_append, hrun, Option.map_some, List.length_cons,
      Nat.add_comm 2]
  | false =>
    cases name with
    | nil => exact absurd rfl hname.nonempty
    | cons c name =>
      have hc : c ≠ '!' := by
        rintro rfl
        exact absurd (hname.parts '!' List.mem_cons_self) (by decide)
      simp only [List.cons_append] at hrun
      simp [guardChars, guard, hc, hrun, Nat.add_comm]

lemma readsItems_event {events : List (List Char)} (h : ∀ e ∈ events, IsName e) :
    ReadsItems '~' event ('~' :: ·) (events.map eventChars) := by
  intro item hitem before rest hrest
  obtain ⟨e, he, rfl⟩ := List.mem_map.mp hitem
  have hrun := run?_item (h e he) hrest
  simp [eventChars, event, hrun, Nat.add_comm 3]

end Items

section Whole

variable {l : WrittenLine}

/-- What stands in front of the targets. -/
def headChars (l : WrittenLine) : List Char :=
  l.word ++ '{' :: (Text.joinWith [';'] (l.arguments.map argumentChars) ++ ['}'])

lemma chars_eq_append (l : WrittenLine) : l.chars = headChars l ++ l.tailChars := by
  simp [chars, headChars]

lemma not_mem_headChars (hl : l.WellFormed) (hm : mark ∈ ['@', '?', '~']) : mark ∉ headChars l := by
  obtain ⟨hmark, hne, hbrace⟩ : mark ∈ marks ∧ (mark ≠ ';' ∧ mark ≠ '=') ∧ mark ∉ ['{', '}'] := by
    simp only [List.mem_cons, List.not_mem_nil, or_false] at hm
    rcases hm with rfl | rfl | rfl <;> decide
  have hword : mark ∉ l.word := not_mem_of_parts hl.word.isValuePart hmark
  have harguments := not_mem_joinWith hl.arguments hmark hne
  rw [List.mem_cons, List.mem_singleton, not_or] at hbrace
  simp [headChars, hword, harguments, hbrace]

lemma not_mem_markedChars {m : Char} (hm : mark ≠ ' ' ∧ mark ≠ m) (hitems : ∀ item ∈ items, mark ∉ item) :
    mark ∉ markedChars m items := by
  intro hc
  rcases mem_markedChars hc with he | he | ⟨item, hitem, hc⟩
  · exact hm.1 he
  · exact hm.2 he
  · exact hitems item hitem hc

lemma not_mem_targets (hl : l.WellFormed) (hm : mark ∈ marks) : ∀ t ∈ l.targets, mark ∉ t :=
  fun t ht => not_mem_of_parts (hl.targets t ht).isValuePart hm

lemma not_mem_guards (hl : l.WellFormed) (hm : mark ∈ marks) (hne : mark ≠ '!') :
    ∀ item ∈ l.guards.map guardChars, mark ∉ item := by
  intro item hitem hc
  obtain ⟨g, hg, rfl⟩ := List.mem_map.mp hitem
  rcases mem_guardChars hl hg hc with he | hc
  · exact hne he
  · exact not_mem_marks hc hm

lemma not_mem_events (hl : l.WellFormed) (hm : mark ∈ marks) :
    ∀ item ∈ l.event.toList.map eventChars, mark ∉ item := by
  intro item hitem
  obtain ⟨e, he, rfl⟩ := List.mem_map.mp hitem
  exact not_mem_of_parts (isValuePart_eventChars hl e (Option.mem_toList.mp he)) hm

lemma ends_nil : Ends [] :=
  fun _ h => absurd h (by simp)

/-- The targets of a written line are found. -/
theorem findAll_target_chars (hl : l.WellFormed) : findAll target l.chars = l.targets := by
  have hevent := ends_markedChars '~' (l.event.toList.map eventChars) ends_nil
  rw [List.append_nil] at hevent
  have hends := ends_markedChars '?' (l.guards.map guardChars) hevent
  have hguards : '@' ∉ markedChars '?' (l.guards.map guardChars) :=
    not_mem_markedChars (by decide) (not_mem_guards hl (by decide) (by decide))
  have hevents : '@' ∉ markedChars '~' (l.event.toList.map eventChars) :=
    not_mem_markedChars (by decide) (not_mem_events hl (by decide))
  rw [chars_eq_append, tailChars, findsAt_target.findAll_marked (by decide) (readsItems_target hl.targets)
    (not_mem_headChars hl (by decide)) hends (by simp [hguards, hevents]), List.map_id]

/-- The guards of a written line are found with their marks. -/
theorem findAll_guard_chars (hl : l.WellFormed) :
    findAll guard l.chars = (l.guards.map guardChars).map ('?' :: ·) := by
  have hends := ends_markedChars '~' (l.event.toList.map eventChars) ends_nil
  rw [List.append_nil] at hends
  have hhead : '?' ∉ headChars l := not_mem_headChars hl (by decide)
  have htargets : '?' ∉ markedChars '@' l.targets :=
    not_mem_markedChars (by decide) (not_mem_targets hl (by decide))
  have hevents : '?' ∉ markedChars '~' (l.event.toList.map eventChars) :=
    not_mem_markedChars (by decide) (not_mem_events hl (by decide))
  rw [chars_eq_append, tailChars, ← List.append_assoc]
  exact findsAt_guard.findAll_marked (by decide) (readsItems_guard hl.guards) (by simp [hhead, htargets])
    hends hevents

lemma ascii_chars (hl : l.WellFormed) : Ascii l.chars :=
  ascii_opened hl.word (ascii_joinWith hl.arguments (trails_tailChars hl))

lemma toLower_of_mem_eventChars (hl : l.WellFormed) {e : List Char} (he : e ∈ l.event) :
    ∀ c ∈ eventChars e, c.toLower = c := by
  intro c hc
  rcases List.mem_cons.mp hc with rfl | hc
  · decide
  · rcases List.mem_cons.mp hc with rfl | hc
    · decide
    · exact toLower_of_isEventPart ((hl.event e he).2 c hc)

lemma toLower_markedEvent (hl : l.WellFormed) :
    (markedChars '~' (l.event.toList.map eventChars)).map Char.toLower =
      markedChars '~' (l.event.toList.map eventChars) := by
  refine (List.map_congr_left fun c hc => ?_).trans (List.map_id _)
  rcases mem_markedChars hc with rfl | rfl | ⟨item, hitem, hc⟩
  · decide
  · decide
  · obtain ⟨e, he, rfl⟩ := List.mem_map.mp hitem
    exact toLower_of_mem_eventChars hl (Option.mem_toList.mp he) c hc

lemma tilde_not_mem_toLower {cs : List Char} (h : '~' ∉ cs) : '~' ∉ cs.map Char.toLower := by
  intro hc
  obtain ⟨c, hmem, he⟩ := List.mem_map.mp hc
  exact h ((Text.toLower_eq_iff (by decide) c).mp he ▸ hmem)

/-- The event of a written line is found in its small letters. -/
theorem findAll_event_chars (hl : l.WellFormed) :
    findAll event (lowerChars l.chars) = (l.event.toList.map eventChars).map ('~' :: ·) := by
  have hascii := ascii_chars hl
  have htext : l.chars =
      (headChars l ++ (markedChars '@' l.targets ++ markedChars '?' (l.guards.map guardChars))) ++
        markedChars '~' (l.event.toList.map eventChars) := by
    simp [chars_eq_append, tailChars]
  have hhead : '~' ∉ headChars l := not_mem_headChars hl (by decide)
  have htargets : '~' ∉ markedChars '@' l.targets :=
    not_mem_markedChars (by decide) (not_mem_targets hl (by decide))
  have hguards : '~' ∉ markedChars '?' (l.guards.map guardChars) :=
    not_mem_markedChars (by decide) (not_mem_guards hl (by decide) (by decide))
  have hnames : ∀ e ∈ l.event.toList, IsName e := fun e he =>
    ⟨(hl.event e (Option.mem_toList.mp he)).1,
      fun c hc => isNamePart_of_isEventPart ((hl.event e (Option.mem_toList.mp he)).2 c hc)⟩
  rw [Text.lowerChars_ascii hascii, htext, List.map_append, toLower_markedEvent hl,
    ← List.append_nil (markedChars '~' _)]
  exact findsAt_event.findAll_marked (by decide) (readsItems_event hnames)
    (tilde_not_mem_toLower (by simp [hhead, htargets, hguards])) ends_nil (by simp)

end Whole

end Line

end SkillAtlas
