import Mathlib.Data.List.Basic
import SkillAtlas.Line.Scan

/-!
# What is found in a text that is put together

A text is read part by part: a part in which nothing is found is passed over, and what is found over a whole
part comes before what is found in the text behind it. A finder sees that text, so a part is always read
with what stands behind it.
-/

namespace SkillAtlas.Line

variable {α : Type} {find : Finder α} {before : Option Char} {as bs cs : List Char} {c : Char}

/-- Nothing is found in the text `as` when `bs` stands behind it. -/
def Silent (find : Finder α) : Option Char → List Char → List Char → Prop
  | _, [], _ => True
  | before, c :: as, bs => find before (c :: (as ++ bs)) = none ∧ Silent find (some c) as bs

lemma findFrom_cons (h : find before (c :: cs) = none) :
    findFrom find before 0 (c :: cs) = findFrom find (some c) 0 cs := by
  simp only [findFrom, h]

lemma getLast?_cons_or (c : Char) (as : List Char) (before : Option Char) :
    (c :: as).getLast?.or before = as.getLast?.or (some c) := by
  rw [List.getLast?_cons]
  cases as.getLast? <;> rfl

lemma findFrom_skip (as bs : List Char) (before : Option Char) :
    findFrom find before as.length (as ++ bs) = findFrom find (as.getLast?.or before) 0 bs := by
  induction as generalizing before with
  | nil => rfl
  | cons c as ih =>
    rw [getLast?_cons_or, ← ih]
    rfl

/-- A part in which nothing is found is passed over. -/
lemma Silent.findFrom (h : Silent find before as bs) :
    findFrom find before 0 (as ++ bs) = findFrom find (as.getLast?.or before) 0 bs := by
  induction as generalizing before with
  | nil => rfl
  | cons c as ih =>
    rw [List.cons_append, findFrom_cons h.1, getLast?_cons_or]
    exact ih h.2

/-- What is found over a whole part comes first. -/
lemma findFrom_found {a : α} (h : find before (c :: (as ++ bs)) = some (a, as.length + 1)) :
    findFrom find before 0 (c :: (as ++ bs)) = a :: findFrom find (as.getLast?.or (some c)) 0 bs := by
  rw [← findFrom_skip]
  simp only [findFrom, h, Nat.add_sub_cancel]

/-- Nothing is found where nothing is found at any place. -/
lemma findFrom_eq_nil (h : ∀ b ds, ds ≠ [] → ds <:+ cs → find b ds = none) (before : Option Char)
    (skip : Nat) : findFrom find before skip cs = [] := by
  induction cs generalizing before skip with
  | nil => rfl
  | cons c rest ih =>
    have hrest : ∀ b ds, ds ≠ [] → ds <:+ rest → find b ds = none :=
      fun b ds hne hs => h b ds hne (hs.trans (List.suffix_cons c rest))
    cases skip with
    | succ k => exact ih hrest (some c) k
    | zero =>
      rw [findFrom_cons (h before (c :: rest) (List.cons_ne_nil c rest) List.suffix_rfl)]
      exact ih hrest (some c) 0

/-- A run is read whole if no character of its class stands behind it. -/
lemma run?_append {p : Char → Bool} (hne : as ≠ []) (has : ∀ c ∈ as, p c = true)
    (hbs : ∀ d ∈ bs.head?, p d = false) : run? p (as ++ bs) = some as := by
  have htake : (as ++ bs).takeWhile p = as := by
    rw [List.takeWhile_append_of_pos has]
    cases bs with
    | nil => exact List.append_nil as
    | cons d more => rw [List.takeWhile_cons_of_neg (by simp [hbs d rfl]), List.append_nil]
  unfold run?
  rw [htake]
  cases as with
  | nil => exact absurd rfl hne
  | cons c as => rfl

/-- The finder finds something only where the mark stands. -/
def FindsAt (mark : Char) (find : Finder α) : Prop :=
  ∀ before c cs, c ≠ mark → find before (c :: cs) = none

section Marks

variable {mark : Char}

lemma FindsAt.findFrom_append (h : FindsAt mark find) (hm : mark ∉ as) (before : Option Char)
    (bs : List Char) :
    ∃ b, findFrom find before 0 (as ++ bs) = findFrom find b 0 bs := by
  induction as generalizing before with
  | nil => exact ⟨before, rfl⟩
  | cons c as ih =>
    have hc : c ≠ mark := fun he => hm (he ▸ List.mem_cons_self)
    rw [List.cons_append, findFrom_cons (h before c _ hc)]
    exact ih (fun has => hm (List.mem_cons_of_mem c has)) (some c)

lemma FindsAt.findFrom_eq_nil (h : FindsAt mark find) (hm : mark ∉ cs) (before : Option Char) :
    findFrom find before 0 cs = [] := by
  refine Line.findFrom_eq_nil (fun b ds hne hs => ?_) before 0
  cases ds with
  | nil => exact absurd rfl hne
  | cons c rest =>
    have hc : c ∈ cs := hs.subset List.mem_cons_self
    exact h b c rest (fun he => hm (he ▸ hc))

end Marks

end SkillAtlas.Line
