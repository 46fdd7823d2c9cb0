import SkillAtlas.Text.CaseMap
import SkillAtlas.Text.Cased

/-!
# Small letters and capitals of a text

Case mapping works character by character, with one exception: a capital sigma that ends a word
becomes the final form `ς`. A sigma ends a word when a letter comes before it and none after it,
passing over apostrophes, points and marks on both sides.
-/

namespace SkillAtlas.Text

/-- The first character that case rules do not pass over is a letter with case. -/
def meetsLetter (cs : List Char) : Bool :=
  match cs.dropWhile caseIgnorable.contains with
  | [] => false
  | c :: _ => cased.contains c

/-- Small letters of a text, given the characters before it from the last to the first. -/
def lowerAfter (before : List Char) : List Char → List Char
  | [] => []
  | c :: rest =>
    if c == 'Σ' then
      (if meetsLetter before && !meetsLetter rest then 'ς' else 'σ') :: lowerAfter (c :: before) rest
    else smallOf c ++ lowerAfter (c :: before) rest

/-- The text in small letters. -/
def lowerChars (cs : List Char) : List Char :=
  lowerAfter [] cs

/-- The text in capitals. -/
def upperChars (cs : List Char) : List Char :=
  cs.flatMap capitalOf

def lower (s : String) : String :=
  .ofList (lowerChars s.toList)

def upper (s : String) : String :=
  .ofList (upperChars s.toList)

theorem lowerAfter_ascii {cs : List Char} (h : ∀ c ∈ cs, c.toNat < 128) (before : List Char) :
    lowerAfter before cs = cs.map Char.toLower := by
  induction cs generalizing before with
  | nil => rfl
  | cons c rest ih =>
    have hc : c.toNat < 128 := h c (by simp)
    have hs : (c == 'Σ') = false := by
      simp only [beq_eq_false_iff_ne, ne_eq]
      intro e
      subst e
      exact absurd hc (by decide)
    rw [lowerAfter, hs, if_neg (by simp), ih (fun d hd => h d (List.mem_cons_of_mem c hd))]
    simp [smallOf, hc]

/-- On ASCII text, small letters are taken one by one. -/
theorem lowerChars_ascii {cs : List Char} (h : ∀ c ∈ cs, c.toNat < 128) :
    lowerChars cs = cs.map Char.toLower :=
  lowerAfter_ascii h []

end SkillAtlas.Text
