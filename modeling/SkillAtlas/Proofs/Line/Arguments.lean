import SkillAtlas.Proofs.Line.Finding
import SkillAtlas.Proofs.Line.Written

/-!
# Finding arguments

A finder that looks for a key with `=` behind it can find something in a written line only at the arguments:
nowhere else does the mark `=` stand behind a word. So it finds what it finds at each argument, one after the
other.
-/

namespace SkillAtlas

open Text (Ascii SmallLetters alike dropAlike? isBlank isDigit isWord lowerChars wordBefore?)

namespace WrittenLine

variable {a : List Char × List Char} {args : List (List Char × List Char)} {bs tail : List Char} {c mark : Char}

/-- The text goes on with the mark that ends an argument. -/
structure Follows (bs : List Char) : Prop where
  ascii : Ascii bs
  ends : ∃ d more, bs = d :: more ∧ (d = ';' ∨ d = '}')

lemma Follows.stops (h : Follows bs) {p : Char → Bool} (hp : p ';' = false ∧ p '}' = false) :
    ∀ d ∈ bs.head?, p d = false := by
  obtain ⟨d, more, rfl, hd⟩ := h.ends
  intro c hc
  obtain rfl := Option.some.inj hc
  rcases hd with rfl | rfl
  · exact hp.1
  · exact hp.2

/-- What stands behind the arguments holds no mark of arguments. -/
structure Trails (tail : List Char) : Prop where
  ascii : Ascii tail
  equals : '=' ∉ tail
  semicolon : ';' ∉ tail
  brace : '{' ∉ tail

lemma Trails.follows (h : Trails tail) : Follows ('}' :: tail) := by
  refine ⟨fun c hc => ?_, '}', tail, rfl, Or.inr rfl⟩
  rcases List.mem_cons.mp hc with rfl | hc
  · decide
  · exact h.ascii c hc

/-- The arguments behind the first one, and what stands behind them. -/
def moreChars (args : List (List Char × List Char)) (tail : List Char) : List Char :=
  args.flatMap (fun a => ';' :: argumentChars a) ++ '}' :: tail

lemma moreChars_cons (a : List Char × List Char) (args : List (List Char × List Char)) (tail : List Char) :
    moreChars (a :: args) tail = ';' :: (argumentChars a ++ moreChars args tail) := by
  simp [moreChars]

lemma mem_argumentChars (harg : IsArgument a) (hc : c ∈ argumentChars a) : c = '=' ∨ isValuePart c = true := by
  rcases List.mem_append.mp hc with hc | hc
  · exact Or.inr (harg.key.isValuePart c hc)
  · rcases List.mem_cons.mp hc with rfl | hc
    · exact Or.inl rfl
    · exact Or.inr (harg.parts c hc)

lemma ascii_argumentChars (harg : IsArgument a) : Ascii (argumentChars a) := by
  intro c hc
  rcases mem_argumentChars harg hc with rfl | hc
  · decide
  · exact ascii_of_isValuePart hc

lemma ascii_argument_append (harg : IsArgument a) (hbs : Follows bs) : Ascii (argumentChars a ++ bs) := by
  intro c hc
  rcases List.mem_append.mp hc with hc | hc
  · exact ascii_argumentChars harg c hc
  · exact hbs.ascii c hc

lemma ascii_opened {word rest : List Char} (hw : IsName word) (hrest : Ascii rest) :
    Ascii (word ++ '{' :: rest) := by
  intro c hc
  rcases List.mem_append.mp hc with hc | hc
  · exact ascii_of_parts hw.isValuePart c hc
  · rcases List.mem_cons.mp hc with rfl | hc
    · decide
    · exact hrest c hc

lemma follows_moreChars (hargs : ∀ a ∈ args, IsArgument a) (ht : Trails tail) :
    Follows (moreChars args tail) := by
  induction args with
  | nil => exact ht.follows
  | cons a args ih =>
    obtain ⟨hfirst, hmore⟩ := List.forall_mem_cons.mp hargs
    rw [moreChars_cons]
    refine ⟨fun c hc => ?_, ';', _, rfl, Or.inl rfl⟩
    rcases List.mem_cons.mp hc with rfl | hc
    · decide
    · rcases List.mem_append.mp hc with hc | hc
      · exact ascii_argumentChars hfirst c hc
      · exact (ih hmore).ascii c hc

lemma joinWith_cons (a : List Char) (parts : List (List Char)) :
    Text.joinWith [';'] (a :: parts) = a ++ parts.flatMap (';' :: ·) := by
  induction parts generalizing a with
  | nil => simp [Text.joinWith, List.intercalate]
  | cons b parts ih =>
    have hstep : Text.joinWith [';'] (a :: b :: parts) = a ++ ';' :: Text.joinWith [';'] (b :: parts) := by
      simp [Text.joinWith, List.intercalate]
    rw [hstep, ih]
    simp

lemma joinWith_append (a : List Char × List Char) (more : List (List Char × List Char)) (tail : List Char) :
    Text.joinWith [';'] ((a :: more).map argumentChars) ++ '}' :: tail =
      argumentChars a ++ moreChars more tail := by
  rw [List.map_cons, joinWith_cons]
  simp [moreChars, List.flatMap_map]

lemma mem_joinWith (hargs : ∀ a ∈ args, IsArgument a)
    (hc : c ∈ Text.joinWith [';'] (args.map argumentChars)) : c = ';' ∨ c = '=' ∨ isValuePart c = true := by
  cases args with
  | nil => simp [Text.joinWith] at hc
  | cons a more =>
    rw [List.map_cons, joinWith_cons, List.flatMap_map] at hc
    rcases List.mem_append.mp hc with hc | hc
    · exact Or.inr (mem_argumentChars (hargs a List.mem_cons_self) hc)
    · obtain ⟨b, hb, hc⟩ := List.mem_flatMap.mp hc
      rcases List.mem_cons.mp hc with rfl | hc
      · exact Or.inl rfl
      · have hmem := List.mem_cons_of_mem a hb
        exact Or.inr (mem_argumentChars (hargs b hmem) hc)

lemma ascii_joinWith (hargs : ∀ a ∈ args, IsArgument a) (ht : Trails tail) :
    Ascii (Text.joinWith [';'] (args.map argumentChars) ++ '}' :: tail) := by
  intro c hc
  rcases List.mem_append.mp hc with hc | hc
  · rcases mem_joinWith hargs hc with rfl | rfl | hc
    · decide
    · decide
    · exact ascii_of_isValuePart hc
  · exact ht.follows.ascii c hc

/-- Between the braces stands no mark but those of arguments. -/
lemma not_mem_joinWith (hargs : ∀ a ∈ args, IsArgument a) (hm : mark ∈ marks)
    (hne : mark ≠ ';' ∧ mark ≠ '=') : mark ∉ Text.joinWith [';'] (args.map argumentChars) := by
  intro hc
  rcases mem_joinWith hargs hc with he | he | hc
  · exact hne.1 he
  · exact hne.2 he
  · exact not_mem_marks hc hm

lemma mem_markedChars {mark c : Char} {items : List (List Char)} :
    c ∈ markedChars mark items → c = ' ' ∨ c = mark ∨ ∃ item ∈ items, c ∈ item := by
  intro hc
  obtain ⟨item, hitem, hc⟩ := List.mem_flatMap.mp hc
  rcases List.mem_cons.mp hc with rfl | hc
  · exact Or.inl rfl
  · rcases List.mem_cons.mp hc with rfl | hc
    · exact Or.inr (Or.inl rfl)
    · exact Or.inr (Or.inr ⟨item, hitem, hc⟩)

lemma isValuePart_eventChars {l : WrittenLine} (hl : l.WellFormed) :
    ∀ e ∈ l.event, ∀ c ∈ eventChars e, isValuePart c = true := by
  intro e he c hc
  rcases List.mem_cons.mp hc with rfl | hc
  · decide
  · rcases List.mem_cons.mp hc with rfl | hc
    · decide
    · exact isValuePart_of_isNamePart (isNamePart_of_isEventPart ((hl.event e he).2 c hc))

lemma mem_guardChars {l : WrittenLine} (hl : l.WellFormed) {g : Bool × List Char} (hg : g ∈ l.guards)
    {c : Char} (hc : c ∈ guardChars g) : c = '!' ∨ isValuePart c = true := by
  unfold guardChars at hc
  split at hc
  · rcases List.mem_cons.mp hc with rfl | hc
    · exact Or.inl rfl
    · exact Or.inr ((hl.guards g hg).isValuePart c hc)
  · exact Or.inr ((hl.guards g hg).isValuePart c hc)

/-- Behind the arguments stand the marks of targets, guards and events, and parts of names. -/
lemma mem_tailChars {l : WrittenLine} (hl : l.WellFormed) {c : Char} (hc : c ∈ l.tailChars) :
    c ∈ [' ', '@', '?', '!', '~'] ∨ isValuePart c = true := by
  unfold tailChars at hc
  rcases List.mem_append.mp hc with hc | hc
  · rcases mem_markedChars hc with rfl | rfl | ⟨t, ht, hc⟩
    · simp
    · simp
    · exact Or.inr ((hl.targets t ht).isValuePart c hc)
  · rcases List.mem_append.mp hc with hc | hc
    · rcases mem_markedChars hc with rfl | rfl | ⟨item, hitem, hc⟩
      · simp
      · simp
      · obtain ⟨g, hg, rfl⟩ := List.mem_map.mp hitem
        rcases mem_guardChars hl hg hc with rfl | hc
        · simp
        · exact Or.inr hc
    · rcases mem_markedChars hc with rfl | rfl | ⟨item, hitem, hc⟩
      · simp
      · simp
      · obtain ⟨e, he, rfl⟩ := List.mem_map.mp hitem
        exact Or.inr (isValuePart_eventChars hl e (Option.mem_toList.mp he) c hc)

lemma trails_tailChars {l : WrittenLine} (hl : l.WellFormed) : Trails l.tailChars := by
  have hmark : ∀ mark ∈ marks, mark ∉ [' ', '@', '?', '!', '~'] → mark ∉ l.tailChars := by
    intro mark hm hne hc
    rcases mem_tailChars hl hc with hc | hc
    · exact hne hc
    · exact not_mem_marks hc hm
  refine ⟨fun c hc => ?_, hmark _ (by decide) (by decide), hmark _ (by decide) (by decide),
    hmark _ (by decide) (by decide)⟩
  rcases mem_tailChars hl hc with hc | hc
  · have hmarks : Ascii [' ', '@', '?', '!', '~'] := by decide
    exact hmarks c hc
  · exact ascii_of_isValuePart hc

end WrittenLine

namespace Line

open WrittenLine

variable {α : Type} {find : Finder α} {g : List Char × List Char → Option α}

/-- In each argument, and nowhere else in a written line, the finder finds what `g` says. -/
structure FindsArguments (find : Finder α) (g : List Char × List Char → Option α) : Prop where
  word : ∀ word rest, IsName word → Ascii rest →
    ∃ b, findFrom find none 0 (word ++ '{' :: rest) = findFrom find (some b) 0 ('{' :: rest)
  argument : ∀ b mark a bs, mark = '{' ∨ mark = ';' → IsArgument a → Follows bs →
    ∃ b', findFrom find (some b) 0 (mark :: (argumentChars a ++ bs)) =
      (g a).toList ++ findFrom find (some b') 0 bs
  empty : ∀ b tail, Trails tail → findFrom find (some b) 0 ('{' :: '}' :: tail) = []
  tail : ∀ b tail, Trails tail → findFrom find (some b) 0 ('}' :: tail) = []

/-- Behind the first argument the finder goes from argument to argument. -/
lemma FindsArguments.findFrom_more (h : FindsArguments find g) {args : List (List Char × List Char)}
    (hargs : ∀ a ∈ args, IsArgument a) {tail : List Char} (ht : Trails tail) (b : Char) :
    findFrom find (some b) 0 (moreChars args tail) = args.filterMap g := by
  induction args generalizing b with
  | nil => exact h.tail b tail ht
  | cons a args ih =>
    obtain ⟨hfirst, hmore⟩ := List.forall_mem_cons.mp hargs
    obtain ⟨b', hb'⟩ := h.argument b ';' a _ (Or.inr rfl) hfirst (follows_moreChars hmore ht)
    rw [moreChars_cons, hb', ih hmore]
    cases hg : g a <;> simp [hg]

/-- What is found in a written line is what is found in its arguments. -/
theorem FindsArguments.findAll_chars (h : FindsArguments find g) {l : WrittenLine} (hl : l.WellFormed) :
    findAll find l.chars = l.arguments.filterMap g := by
  have ht := trails_tailChars hl
  obtain ⟨b, hb⟩ := h.word l.word _ hl.word (ascii_joinWith hl.arguments ht)
  unfold findAll chars
  rw [hb]
  cases ha : l.arguments with
  | nil => exact h.empty b _ ht
  | cons a more =>
    obtain ⟨hfirst, hmore⟩ := List.forall_mem_cons.mp (ha ▸ hl.arguments)
    obtain ⟨b', hb'⟩ := h.argument b '{' a _ (Or.inl rfl) hfirst (follows_moreChars hmore ht)
    rw [joinWith_append, hb', h.findFrom_more hmore ht]
    cases hg : g a <;> simp [hg]

section WordStart

variable {read : List Char → Option (α × Nat)}

/-- A finder that reads a key at the start of a word. -/
def atWords (read : List Char → Option (α × Nat)) : Finder α := fun before cs =>
  if atWordStart before then read cs else none

/-- The reader finds something only where a word has `=` behind it, and in an argument what `g` says. -/
structure ReadsKeys (read : List Char → Option (α × Nat)) (g : List Char × List Char → Option α) : Prop where
  onlyKeys : ∀ cs, Ascii cs → wordBefore? '=' cs = none → read cs = none
  argument : ∀ a bs, IsArgument a → Follows bs →
    read (argumentChars a ++ bs) = (g a).map fun x => (x, (argumentChars a).length)

lemma ReadsKeys.atWords_none (h : ReadsKeys read g) {cs : List Char} (hcs : Ascii cs)
    (hk : wordBefore? '=' cs = none) (before : Option Char) : atWords read before cs = none := by
  unfold atWords
  split
  · exact h.onlyKeys cs hcs hk
  · rfl

lemma exists_getLast?_or {cs : List Char} (h : cs ≠ []) (before : Option Char) :
    ∃ b, cs.getLast?.or before = some b := by
  rw [List.getLast?_eq_some_getLast h]
  exact ⟨_, rfl⟩

/-- Nothing is found in a text without `=` that is followed by another mark. -/
lemma ReadsKeys.silent (h : ReadsKeys read g) {as bs : List Char} {d : Char} (hascii : Ascii (as ++ d :: bs))
    (has : '=' ∉ as) (hd : isWord d = false) (hne : d ≠ '=') (before : Option Char) :
    Silent (atWords read) before as (d :: bs) := by
  induction as generalizing before with
  | nil => trivial
  | cons c as ih =>
    have hnone : wordBefore? '=' (c :: as ++ d :: bs) = none :=
      Text.wordBefore?_append_eq_none (by decide) has hd hne
    have hrest : '=' ∉ as := fun hc => has (List.mem_cons_of_mem c hc)
    exact ⟨h.atWords_none hascii hnone before, ih hascii.of_cons.2 hrest (some c)⟩

/-- Inside a word nothing is found, also where `=` stands behind it. -/
lemma ReadsKeys.silent_inside (h : ReadsKeys read g) {word value bs : List Char} {d b : Char}
    (hb : isWord b = true) (hword : ∀ c ∈ word, isWord c = true) (hascii : Ascii (value ++ d :: bs))
    (hv : '=' ∉ value) (hd : isWord d = false) (hne : d ≠ '=') :
    Silent (atWords read) (some b) (word ++ '=' :: value) (d :: bs) := by
  have hinside : ∀ b cs, isWord b = true → atWords read (some b) cs = none := by
    intro b cs hb
    have hstart : atWordStart (some b) = false := by simp [atWordStart, hb]
    rw [atWords, hstart, if_neg Bool.false_ne_true]
  induction word generalizing b with
  | nil => exact ⟨hinside b _ hb, h.silent hascii hv hd hne _⟩
  | cons c word ih =>
    obtain ⟨hc, hrest⟩ := List.forall_mem_cons.mp hword
    exact ⟨hinside b _ hb, ih hc hrest⟩

lemma ReadsKeys.atWords_mark (h : ReadsKeys read g) {mark : Char} {cs : List Char}
    (hm : mark = '{' ∨ mark = ';') (hcs : Ascii cs) (before : Option Char) :
    atWords read before (mark :: cs) = none := by
  obtain ⟨hascii, hword, hne⟩ : mark.toNat < 128 ∧ isWord mark = false ∧ mark ≠ '=' := by
    rcases hm with rfl | rfl <;> decide
  have hnone : wordBefore? '=' ([] ++ mark :: cs) = none :=
    Text.wordBefore?_append_eq_none (by decide) (by simp) hword hne
  exact h.atWords_none (List.forall_mem_cons.mpr ⟨hascii, hcs⟩) hnone before

/-- The rest of a key that is not read is tried as well, but no word starts inside it. -/
lemma ReadsKeys.silent_argument (h : ReadsKeys read g) {c : Char} {word value bs : List Char}
    (harg : IsArgument (c :: word, value)) (hbs : Follows bs) :
    Silent (atWords read) (some c) (word ++ '=' :: value) bs := by
  obtain ⟨hc, hword⟩ := List.forall_mem_cons.mp harg.key.isWord
  have hvalue : '=' ∉ value := not_mem_of_parts harg.parts (by decide)
  have hascii : Ascii (value ++ bs) := by
    intro x hx
    rcases List.mem_append.mp hx with hx | hx
    · exact ascii_of_parts harg.parts x hx
    · exact hbs.ascii x hx
  obtain ⟨d, more, rfl, hd⟩ := hbs.ends
  have hend : isWord d = false ∧ d ≠ '=' := by rcases hd with rfl | rfl <;> decide
  exact h.silent_inside hc hword hascii hvalue hend.1 hend.2

lemma ReadsKeys.findFrom_argument (h : ReadsKeys read g) {b mark : Char} {a : List Char × List Char}
    {bs : List Char} (hm : mark = '{' ∨ mark = ';') (harg : IsArgument a) (hbs : Follows bs) :
    ∃ b', findFrom (atWords read) (some b) 0 (mark :: (argumentChars a ++ bs)) =
      (g a).toList ++ findFrom (atWords read) (some b') 0 bs := by
  obtain ⟨key, value⟩ := a
  rw [findFrom_cons (h.atWords_mark hm (ascii_argument_append harg hbs) _)]
  cases key with
  | nil => exact absurd rfl harg.key.nonempty
  | cons c word =>
    have hne : word ++ '=' :: value ≠ [] := by simp
    obtain ⟨b', hb'⟩ := exists_getLast?_or hne (some c)
    have hread : atWords read (some mark) (c :: ((word ++ '=' :: value) ++ bs)) =
        (g (c :: word, value)).map fun x => (x, (word ++ '=' :: value).length + 1) := by
      have hstart : atWordStart (some mark) = true := by rcases hm with rfl | rfl <;> decide
      rw [atWords, hstart, if_pos rfl]
      exact h.argument _ bs harg hbs
    refine ⟨b', ?_⟩
    rw [← hb']
    show findFrom _ _ _ (c :: ((word ++ '=' :: value) ++ bs)) = _
    cases hg : g (c :: word, value) with
    | none =>
      rw [hg] at hread
      rw [findFrom_cons hread, (h.silent_argument harg hbs).findFrom]
      rfl
    | some x =>
      rw [hg] at hread
      rw [findFrom_found hread]
      rfl

/-- Where no word has `=` behind it, nothing is found. -/
lemma ReadsKeys.findFrom_eq_nil (h : ReadsKeys read g) {cs : List Char} (hcs : Ascii cs) (hne : '=' ∉ cs)
    (before : Option Char) : findFrom (atWords read) before 0 cs = [] := by
  refine Line.findFrom_eq_nil (fun b ds _ hs => ?_) before 0
  refine h.atWords_none (fun c hc => hcs c (hs.subset hc)) ?_ b
  exact Text.wordBefore?_eq_none (by decide) fun hc => hne (hs.subset hc)

/-- A finder of keys at the start of words finds what it reads in the arguments. -/
theorem ReadsKeys.findsArguments (h : ReadsKeys read g) : FindsArguments (atWords read) g where
  word word rest hw hrest := by
    have hascii := ascii_opened hw hrest
    have hequals : '=' ∉ word := not_mem_of_parts hw.isValuePart (by decide)
    obtain ⟨b, hb⟩ := exists_getLast?_or hw.nonempty none
    refine ⟨b, ?_⟩
    rw [(h.silent hascii hequals (by decide) (by decide) none).findFrom, hb]
  argument _ _ _ _ hm harg hbs := h.findFrom_argument hm harg hbs
  empty b tail ht := by
    refine h.findFrom_eq_nil (List.forall_mem_cons.mpr ⟨by decide, ht.follows.ascii⟩) ?_ _
    simp [ht.equals]
  tail b tail ht := by
    refine h.findFrom_eq_nil ht.follows.ascii ?_ _
    simp [ht.equals]

end WordStart

section ArgumentStart

variable {read : List Char → Option (α × List Char)}

/-- A finder that reads a key at the start of the line and behind the marks of arguments. -/
def atArguments (read : List Char → Option (α × List Char)) : Finder α := fun before cs => do
  let (value, rest) ← (if before.isNone then read cs else none).or <| match cs with
    | c :: inner => if c == ';' || c == '{' then read inner else none
    | [] => none
  return (value, cs.length - rest.length)

/-- The reader finds something only where a word has `=` behind it, and in an argument what `g` says; it tells
what stands behind. -/
structure ReadsArguments (read : List Char → Option (α × List Char))
    (g : List Char × List Char → Option α) : Prop where
  onlyKeys : ∀ c cs, Ascii (c :: cs) → isBlank c = false → wordBefore? '=' (c :: cs) = none →
    read (c :: cs) = none
  argument : ∀ a bs, IsArgument a → Follows bs →
    read (argumentChars a ++ bs) = (g a).map fun x => (x, bs)

/-- Behind a character nothing is found except at the marks of arguments. -/
lemma atArguments_inside {b c : Char} (hs : c ≠ ';') (hb : c ≠ '{') (cs : List Char) :
    atArguments read (some b) (c :: cs) = none := by
  simp [atArguments, hs, hb]

lemma silent_atArguments {as : List Char} (hs : ';' ∉ as) (hb : '{' ∉ as) (b : Char) (bs : List Char) :
    Silent (atArguments read) (some b) as bs := by
  induction as generalizing b with
  | nil => trivial
  | cons c as ih =>
    have hc : c ≠ ';' ∧ c ≠ '{' :=
      ⟨fun he => hs (he ▸ List.mem_cons_self), fun he => hb (he ▸ List.mem_cons_self)⟩
    exact ⟨atArguments_inside hc.1 hc.2 _,
      ih (fun h => hs (List.mem_cons_of_mem c h)) (fun h => hb (List.mem_cons_of_mem c h)) c⟩

lemma findFrom_atArguments_trailing {tail : List Char} (ht : Trails tail) (b : Char) :
    findFrom (atArguments read) (some b) 0 ('}' :: tail) = [] := by
  have hsilent : Silent (atArguments read) (some b) ('}' :: tail) [] :=
    silent_atArguments (by simp [ht.semicolon]) (by simp [ht.brace]) b []
  have hfound := hsilent.findFrom
  rw [List.append_nil] at hfound
  exact hfound

lemma ReadsArguments.findFrom_argument (h : ReadsArguments read g) {b mark : Char}
    {a : List Char × List Char} {bs : List Char} (hm : mark = '{' ∨ mark = ';') (harg : IsArgument a)
    (hbs : Follows bs) :
    ∃ b', findFrom (atArguments read) (some b) 0 (mark :: (argumentChars a ++ bs)) =
      (g a).toList ++ findFrom (atArguments read) (some b') 0 bs := by
  have hmark : (mark == ';' || mark == '{') = true := by rcases hm with rfl | rfl <;> rfl
  have hread : atArguments read (some b) (mark :: (argumentChars a ++ bs)) =
      (g a).map fun x => (x, (argumentChars a).length + 1) := by
    have hlength : (mark :: (argumentChars a ++ bs)).length - bs.length = (argumentChars a).length + 1 := by
      simp only [List.length_cons, List.length_append]
      omega
    simp only [atArguments, Option.isNone_some, Bool.false_eq_true, if_false, Option.none_or, hmark, if_true,
      h.argument a bs harg hbs]
    cases g a with
    | none => rfl
    | some x => exact congrArg (fun n => some (x, n)) hlength
  have hne : argumentChars a ≠ [] := by simp [argumentChars]
  obtain ⟨b', hb'⟩ := exists_getLast?_or hne (some mark)
  refine ⟨b', ?_⟩
  rw [← hb']
  cases hg : g a with
  | none =>
    rw [hg] at hread
    have hmarks : ∀ m ∈ marks, m ≠ '=' → m ∉ argumentChars a := by
      intro m hm hne hc
      rcases mem_argumentChars harg hc with he | hc
      · exact hne he
      · exact not_mem_marks hc hm
    have hsilent : Silent (atArguments read) (some mark) (argumentChars a) bs :=
      silent_atArguments (hmarks _ (by decide) (by decide)) (hmarks _ (by decide) (by decide)) mark bs
    rw [findFrom_cons hread, hsilent.findFrom]
    rfl
  | some x =>
    rw [hg] at hread
    rw [findFrom_found hread]
    rfl

/-- A finder of keys at the start of arguments finds what it reads in the arguments. -/
theorem ReadsArguments.findsArguments (h : ReadsArguments read g) : FindsArguments (atArguments read) g where
  word word rest hw hrest := by
    cases word with
    | nil => exact absurd rfl hw.nonempty
    | cons c word =>
      have hc := hw.isValuePart c List.mem_cons_self
      have hmarks : ∀ m ∈ marks, m ∉ c :: word := fun m hm => not_mem_of_parts hw.isValuePart hm
      have hascii := ascii_opened hw hrest
      have hfront : read (c :: (word ++ '{' :: rest)) = none := by
        have hnone : wordBefore? '=' (c :: word ++ '{' :: rest) = none :=
          Text.wordBefore?_append_eq_none (by decide) (hmarks _ (by decide)) (by decide) (by decide)
        exact h.onlyKeys c _ hascii (isBlank_of_isValuePart hc) hnone
      have hfirst : atArguments read none (c :: (word ++ '{' :: rest)) = none := by
        have hs : c ≠ ';' := fun he => hmarks ';' (by decide) (he ▸ List.mem_cons_self)
        have hb : c ≠ '{' := fun he => hmarks '{' (by decide) (he ▸ List.mem_cons_self)
        simp [atArguments, hfront, hs, hb]
      have hsilent : Silent (atArguments read) (some c) word ('{' :: rest) :=
        silent_atArguments (fun hm => hmarks ';' (by decide) (List.mem_cons_of_mem c hm))
          (fun hm => hmarks '{' (by decide) (List.mem_cons_of_mem c hm)) c _
      rw [List.cons_append, findFrom_cons hfirst, hsilent.findFrom]
      cases hl : word.getLast? with
      | none => exact ⟨c, rfl⟩
      | some b => exact ⟨b, rfl⟩
  argument _ _ _ _ hm harg hbs := h.findFrom_argument hm harg hbs
  empty b tail ht := by
    have hnone : wordBefore? '=' ('}' :: tail) = none :=
      Text.wordBefore?_eq_none (by decide) (by simp [ht.equals])
    have hread := h.onlyKeys '}' tail ht.follows.ascii (isBlank_of_mem_marks (by decide) (by decide)).1 hnone
    have hopen : atArguments read (some b) ('{' :: '}' :: tail) = none := by
      simp [atArguments, hread]
    rw [findFrom_cons hopen, findFrom_atArguments_trailing ht]
  tail b tail ht := findFrom_atArguments_trailing ht b

end ArgumentStart

end Line

end SkillAtlas
