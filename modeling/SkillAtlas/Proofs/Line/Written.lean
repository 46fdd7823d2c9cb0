import SkillAtlas.Line.Parts
import SkillAtlas.Proofs.Text.Ascii

/-!
# Lines in written form

A mechanic is written as a word with its arguments in braces, and then with targets, guards and perhaps an
event. The marks that tell these parts from each other stand in none of them.
-/

namespace SkillAtlas

open Text (Ascii isBlank isDigit isWord lowerChars)

/-- A character of the names in written lines. -/
def isNamePart (c : Char) : Bool :=
  c.isAlphanum || c == '_'

/-- A character of the values in written lines. -/
def isValuePart (c : Char) : Bool :=
  isNamePart c || c == '.' || c == ':' || c == '-'

/-- A character of the events in written lines. -/
def isEventPart (c : Char) : Bool :=
  c.isLower || c.isDigit || c == '_'

/-- The parts of a line before it is written: its word, the keys and values of its arguments, its targets, its
guards, each with whether it is negated, and its event. -/
structure WrittenLine where
  word : List Char
  arguments : List (List Char × List Char) := []
  targets : List (List Char) := []
  guards : List (Bool × List Char) := []
  event : Option (List Char) := none

namespace WrittenLine

/-- An argument as it is written. -/
def argumentChars (a : List Char × List Char) : List Char :=
  a.1 ++ '=' :: a.2

/-- Items as they are written behind the arguments, each with a blank and its mark in front. -/
def markedChars (mark : Char) (items : List (List Char)) : List Char :=
  items.flatMap fun item => ' ' :: mark :: item

/-- A guard as it is written behind its mark. -/
def guardChars (g : Bool × List Char) : List Char :=
  if g.1 then '!' :: g.2 else g.2

/-- An event as it is written behind its mark. -/
def eventChars (e : List Char) : List Char :=
  'o' :: 'n' :: e

/-- What is written behind the arguments. -/
def tailChars (l : WrittenLine) : List Char :=
  markedChars '@' l.targets ++ (markedChars '?' (l.guards.map guardChars) ++
    markedChars '~' (l.event.toList.map eventChars))

/-- The line as it is written. -/
def chars (l : WrittenLine) : List Char :=
  l.word ++ '{' :: (Text.joinWith [';'] (l.arguments.map argumentChars) ++ '}' :: l.tailChars)

/-- A name is not empty. -/
structure IsName (cs : List Char) : Prop where
  nonempty : cs ≠ []
  parts : ∀ c ∈ cs, isNamePart c = true

/-- An argument has a name as its key and a value that is not empty; the value of an attribute is a number. -/
structure IsArgument (a : List Char × List Char) : Prop where
  key : IsName a.1
  nonempty : a.2 ≠ []
  parts : ∀ c ∈ a.2, isValuePart c = true
  digits : (∃ r ∈ Line.attributeRules, r.spelling = .ofList (lowerChars a.1)) → ∀ c ∈ a.2, c.isDigit = true

/-- The parts of the line are names, arguments and events; no key is given twice. -/
structure WellFormed (l : WrittenLine) : Prop where
  word : IsName l.word
  arguments : ∀ a ∈ l.arguments, IsArgument a
  distinct : (l.arguments.map fun a => lowerChars a.1).Nodup
  targets : ∀ t ∈ l.targets, IsName t
  guards : ∀ g ∈ l.guards, IsName g.2
  event : ∀ e ∈ l.event, e ≠ [] ∧ ∀ c ∈ e, isEventPart c = true

section Decidable

instance (cs : List Char) : Decidable (IsName cs) :=
  decidable_of_iff (cs ≠ [] ∧ cs.all isNamePart = true)
    ⟨fun h => ⟨h.1, List.all_eq_true.mp h.2⟩, fun h => ⟨h.nonempty, List.all_eq_true.mpr h.parts⟩⟩

instance (a : List Char × List Char) : Decidable (IsArgument a) :=
  decidable_of_iff (IsName a.1 ∧ a.2 ≠ [] ∧ a.2.all isValuePart = true ∧
      ((∃ r ∈ Line.attributeRules, r.spelling = .ofList (lowerChars a.1)) → a.2.all Char.isDigit = true))
    ⟨fun ⟨hk, hn, hp, hd⟩ => ⟨hk, hn, List.all_eq_true.mp hp, fun hr => List.all_eq_true.mp (hd hr)⟩,
      fun h => ⟨h.key, h.nonempty, List.all_eq_true.mpr h.parts, fun hr => List.all_eq_true.mpr (h.digits hr)⟩⟩

instance (l : WrittenLine) : Decidable l.WellFormed :=
  decidable_of_iff (IsName l.word ∧ (∀ a ∈ l.arguments, IsArgument a) ∧
      (l.arguments.map fun a => lowerChars a.1).Nodup ∧ (∀ t ∈ l.targets, IsName t) ∧
      (∀ g ∈ l.guards, IsName g.2) ∧ ∀ e ∈ l.event, e ≠ [] ∧ e.all isEventPart = true)
    ⟨fun ⟨hw, ha, hd, ht, hg, he⟩ =>
        ⟨hw, ha, hd, ht, hg, fun e hm => ⟨(he e hm).1, List.all_eq_true.mp (he e hm).2⟩⟩,
      fun h => ⟨h.word, h.arguments, h.distinct, h.targets, h.guards,
        fun e hm => ⟨(h.event e hm).1, List.all_eq_true.mpr (h.event e hm).2⟩⟩⟩

end Decidable

end WrittenLine

section Characters

open Text (forall_ascii)

variable {c : Char}

/-- The marks between the parts of a line. -/
def marks : List Char :=
  ['{', '}', ';', '=', ' ', '@', '?', '~']

lemma ascii_of_isDigit (h : c.isDigit = true) : c.toNat < 128 := by
  have hle : c ≤ '9' := of_decide_eq_true (Bool.and_eq_true_iff.mp h).2
  exact Text.ascii_of_le hle (by decide)

lemma ascii_of_isAlphanum (h : c.isAlphanum = true) : c.toNat < 128 := by
  have hclass : (c.isUpper || c.isLower || c.isDigit) = true := h
  rw [Bool.or_eq_true, Bool.or_eq_true] at hclass
  rcases hclass with (hupper | hlower) | hdigit
  · have hle : c ≤ 'Z' := (of_decide_eq_true hupper).2
    exact Text.ascii_of_le hle (by decide)
  · exact Text.ascii_of_isLower hlower
  · exact ascii_of_isDigit hdigit

lemma isValuePart_of_isNamePart (h : isNamePart c = true) : isValuePart c = true := by
  simp [isValuePart, h]

lemma isNamePart_of_isEventPart (h : isEventPart c = true) : isNamePart c = true := by
  show (c.isUpper || c.isLower || c.isDigit || c == '_') = true
  simp only [isEventPart, Bool.or_eq_true] at h ⊢
  rcases h with (h | h) | h
  · exact Or.inl (Or.inl (Or.inr h))
  · exact Or.inl (Or.inr h)
  · exact Or.inr h

lemma ascii_of_isValuePart (h : isValuePart c = true) : c.toNat < 128 := by
  simp only [isValuePart, isNamePart, Bool.or_eq_true, beq_iff_eq] at h
  rcases h with (((h | rfl) | rfl) | rfl) | rfl
  · exact ascii_of_isAlphanum h
  all_goals decide

/-- Parts of values are neither marks nor blanks, marks other than a blank are neither blanks nor digits, and
small letters of parts of names and events are such parts. -/
def Sorted (c : Char) : Prop :=
  (isValuePart c = true → c ∉ marks ∧ isBlank c = false ∧ Line.isNameChar c = true) ∧
    (c ∈ marks → c ≠ ' ' → isBlank c = false ∧ isDigit c = false) ∧
    (isNamePart c = true → isNamePart c.toLower = true) ∧ (isEventPart c = true → c.toLower = c)

instance (c : Char) : Decidable (Sorted c) :=
  inferInstanceAs (Decidable (_ ∧ _))

lemma sorted_of_ascii (hc : c.toNat < 128) : Sorted c :=
  forall_ascii (by decide +kernel) hc

lemma not_mem_marks (h : isValuePart c = true) : c ∉ marks :=
  ((sorted_of_ascii (ascii_of_isValuePart h)).1 h).1

lemma isBlank_of_isValuePart (h : isValuePart c = true) : isBlank c = false :=
  ((sorted_of_ascii (ascii_of_isValuePart h)).1 h).2.1

lemma isNameChar_of_isValuePart (h : isValuePart c = true) : Line.isNameChar c = true :=
  ((sorted_of_ascii (ascii_of_isValuePart h)).1 h).2.2

lemma isBlank_of_mem_marks (h : c ∈ marks) (hne : c ≠ ' ') : isBlank c = false ∧ isDigit c = false := by
  have hascii : ∀ c ∈ marks, c.toNat < 128 := by simp [marks]
  exact (sorted_of_ascii (hascii c h)).2.1 h hne

lemma isWord_of_isNamePart (h : isNamePart c = true) : isWord c = true := by
  rw [isWord, if_pos (ascii_of_isValuePart (isValuePart_of_isNamePart h))]
  exact h

lemma isNamePart_toLower (h : isNamePart c = true) : isNamePart c.toLower = true :=
  (sorted_of_ascii (ascii_of_isValuePart (isValuePart_of_isNamePart h))).2.2.1 h

lemma toLower_of_isEventPart (h : isEventPart c = true) : c.toLower = c :=
  (sorted_of_ascii (ascii_of_isValuePart (isValuePart_of_isNamePart (isNamePart_of_isEventPart h)))).2.2.2 h

lemma isDigit_of_isDigit (h : c.isDigit = true) : isDigit c = true := by
  have hc := ascii_of_isDigit h
  simp [isDigit, Text.digitValue?, hc, h]

end Characters

namespace WrittenLine

variable {l : WrittenLine}

section Parts

variable {cs k v : List Char} {mark : Char}

lemma IsName.isWord (h : IsName cs) : ∀ c ∈ cs, isWord c = true :=
  fun c hc => isWord_of_isNamePart (h.parts c hc)

lemma IsName.isValuePart (h : IsName cs) : ∀ c ∈ cs, isValuePart c = true :=
  fun c hc => isValuePart_of_isNamePart (h.parts c hc)

/-- No mark stands in a part of a line. -/
lemma not_mem_of_parts (h : ∀ c ∈ cs, isValuePart c = true) (hm : mark ∈ marks) : mark ∉ cs :=
  fun hc => not_mem_marks (h mark hc) hm

lemma ascii_of_parts (h : ∀ c ∈ cs, isValuePart c = true) : Ascii cs :=
  fun c hc => ascii_of_isValuePart (h c hc)

end Parts

end WrittenLine

end SkillAtlas
