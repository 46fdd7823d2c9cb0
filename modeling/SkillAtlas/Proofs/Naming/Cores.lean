import SkillAtlas.Naming.Affix
import SkillAtlas.Proofs.Naming.Starts

/-!
# What is peculiar to names that start alike

The start of some names is the greatest text that starts each of them, in whatever order and however often they are
given. It may end with a separator, and a namespace may stand at its front. What is left without the two is the core
of the names.
-/

namespace SkillAtlas.Naming

/-- The greatest text that starts all of some texts. -/
structure IsStart (start : List Char) (texts : List (List Char)) : Prop where
  starts : ∀ t ∈ texts, start <+: t
  greatest : ∀ p, (∀ t ∈ texts, p <+: t) → p <+: start

/-- A text, and what is left of it without a separator at its end. -/
inductive Trimmed : List Char → List Char → Prop where
  | cut {cs : List Char} {sep : Char} (h : isSeparator sep = true) : Trimmed (cs ++ [sep]) cs
  | whole {cs : List Char} (h : ∀ c ∈ cs.getLast?, isSeparator c = false) : Trimmed cs cs

/-- Two to four capitals, and a separator after them. -/
structure IsNamespace (token : List Char) (sep : Char) : Prop where
  capitals : ∀ c ∈ token, isCapital c = true
  two_le : 2 ≤ token.length
  le_four : token.length ≤ 4
  separator : isSeparator sep = true

/-- A text, and what is left of it without a namespace at its front. -/
inductive Bared : List Char → List Char → Prop where
  | cut {token rest : List Char} {sep : Char} (h : IsNamespace token sep) : Bared (token ++ sep :: rest) rest
  | whole {cs : List Char} (h : ∀ token sep rest, IsNamespace token sep → cs ≠ token ++ sep :: rest) : Bared cs cs

/-- The start of some names without a separator at its end, and the core that is left without a namespace. -/
structure CoreOf (names : List String) (start core : String) : Prop where
  trimmed : ∃ shared, IsStart shared (names.map String.toList) ∧ Trimmed shared start.toList
  bared : Bared start.toList core.toList

variable {cs ds token rest : List Char} {sep : Char} {texts : List (List Char)} {names : List String}
  {start core : String}

lemma isStart_iff (h : texts ≠ []) : IsStart cs texts ↔ cs = Text.commonStartOfAll texts := by
  have hiff (p : List Char) := Text.prefix_commonStartOfAll_iff (p := p) h
  constructor
  · intro hs
    have hle := (hiff cs).mpr hs.starts
    exact hle.eq_of_length_le (hs.greatest _ ((hiff _).mp List.prefix_rfl)).length_le
  · rintro rfl
    exact ⟨(hiff _).mp List.prefix_rfl, fun p => (hiff p).mpr⟩

lemma toList_commonStartOf (names : List String) :
    (commonStartOf names).toList = Text.commonStartOfAll (names.map String.toList) :=
  String.toList_ofList

/-- What names start with is the greatest text that starts each of them. More names start with no more than some of
them do, so where these have no start in common the others need not be looked at. Neither the order of the names
nor how often each is given matters. -/
theorem commonStartOf_greatest (names : List String) (h : names ≠ []) :
    IsStart (commonStartOf names).toList (names.map String.toList) ∧
      (∀ part : List String, part ≠ [] → part ⊆ names →
        (commonStartOf names).toList <+: (commonStartOf part).toList) ∧
      ∀ others : List String, (∀ n, n ∈ others ↔ n ∈ names) → commonStartOf others = commonStartOf names := by
  have hne : names.map String.toList ≠ [] := fun he => h (List.map_eq_nil_iff.mp he)
  refine ⟨(isStart_iff hne).mpr (toList_commonStartOf names), fun part hpart hsub => ?_, fun others hsame => ?_⟩
  · rw [toList_commonStartOf, toList_commonStartOf]
    exact Text.commonStartOfAll_of_subset (fun he => hpart (List.map_eq_nil_iff.mp he)) (List.map_subset _ hsub)
  · refine congrArg String.ofList (Text.commonStartOfAll_congr fun t => ?_)
    rw [List.mem_map, List.mem_map]
    exact exists_congr fun n => and_congr_left fun _ => hsame n

theorem commonStartOf_greatest_fireball :
    let names := ["Fireball-Tick", "Fireball-Hit", "Fireball-End"]
    names ≠ [] ∧ commonStartOf names = "Fireball-" ∧
      IsStart "Fireball-".toList (names.map String.toList) ∧
      "Fireball-".toList <+: (commonStartOf ["Fireball-Tick", "Fireball-Tick"]).toList ∧
      commonStartOf ["Fireball-End", "Fireball-Tick", "Fireball-Hit", "Fireball-End"] = "Fireball-" := by
  intro names
  have hne : names ≠ [] := List.cons_ne_nil _ _
  obtain ⟨hstart, hpart, hsame⟩ := commonStartOf_greatest names hne
  have hshared : commonStartOf names = "Fireball-" := by decide
  rw [hshared] at hstart hpart hsame
  exact ⟨hne, hshared, hstart, hpart _ (by decide) (by decide), hsame _ fun n => by grind⟩

/-- On one line, only the last character can be left out. -/
lemma trimSeparatorChars_concat {c : Char} (h : '\n' ∉ cs ++ [c]) :
    trimSeparatorChars (cs ++ [c]) = if isSeparator c then cs else cs ++ [c] := by
  induction cs with
  | nil => simp [trimSeparatorChars, Text.atEnd]
  | cons d rest ih =>
    have hmore : Text.atEnd (rest ++ [c]) = false := by
      refine eq_false_of_ne_true fun hend => h ?_
      obtain hnil | hnew := Text.atEnd_iff.mp hend
      · simp at hnil
      · simp [hnew]
    rw [List.cons_append, trimSeparatorChars, hmore, Bool.and_false, if_neg Bool.false_ne_true,
      ih fun hm => h (List.mem_cons_of_mem d hm)]
    split <;> rfl

lemma trimmed_iff (h : '\n' ∉ cs) : Trimmed cs ds ↔ ds = trimSeparatorChars cs := by
  constructor
  · rintro (hsep | hlast)
    · rw [trimSeparatorChars_concat h, if_pos hsep]
    · rcases cs.eq_nil_or_concat' with rfl | ⟨xs, c, rfl⟩
      · rfl
      · rw [trimSeparatorChars_concat h, if_neg (by simp [hlast c])]
  · rintro rfl
    rcases cs.eq_nil_or_concat' with rfl | ⟨xs, c, rfl⟩
    · exact .whole (by simp)
    · rw [trimSeparatorChars_concat h]
      split
      · exact .cut ‹_›
      · exact .whole (by simpa using eq_false_of_ne_true ‹_›)

/-- A namespace at the front is left out: it ends at the first character that is no capital. -/
lemma withoutNamespace_append (h : IsNamespace token sep) : withoutNamespace (token ++ sep :: rest) = rest := by
  have hsep : isCapital sep = false := by
    rcases (by simpa [isSeparator] using h.separator : sep = '-' ∨ sep = '_') with rfl | rfl <;> decide
  have htoken : (token ++ sep :: rest).takeWhile isCapital = token := by
    rw [List.takeWhile_append_of_pos h.capitals, List.takeWhile_cons_of_neg (by simp [hsep]), List.append_nil]
  have htwo := h.two_le
  have hfour := h.le_four
  simp [withoutNamespace, htoken, h.separator, htwo, hfour]

lemma withoutNamespace_of_none (h : ∀ token sep rest, IsNamespace token sep → cs ≠ token ++ sep :: rest) :
    withoutNamespace cs = cs := by
  unfold withoutNamespace
  dsimp only
  split
  · rename_i c rest hdrop
    rw [if_neg]
    intro hspace
    simp only [Bool.and_eq_true, decide_eq_true_eq] at hspace
    have hcs := List.prefix_append_drop (List.takeWhile_prefix isCapital (l := cs))
    rw [hdrop] at hcs
    exact h _ c rest ⟨List.all_eq_true.mp List.all_takeWhile, hspace.1.1, hspace.1.2, hspace.2⟩ hcs
  · rfl

lemma bared_iff : Bared cs ds ↔ ds = withoutNamespace cs := by
  constructor
  · rintro (hspace | hnone)
    · exact (withoutNamespace_append hspace).symm
    · exact (withoutNamespace_of_none hnone).symm
  · rintro rfl
    by_cases h : ∃ token sep rest, IsNamespace token sep ∧ cs = token ++ sep :: rest
    · obtain ⟨token, sep, rest, hspace, rfl⟩ := h
      rw [withoutNamespace_append hspace]
      exact .cut hspace
    · have hnone : ∀ token sep rest, IsNamespace token sep → cs ≠ token ++ sep :: rest :=
        fun token sep rest hspace he => h ⟨token, sep, rest, hspace, he⟩
      rw [withoutNamespace_of_none hnone]
      exact .whole hnone

lemma Bared.length_le (h : Bared cs ds) : ds.length ≤ cs.length := by
  cases h with
  | cut => simp only [List.length_append, List.length_cons]; omega
  | whole => exact le_rfl

/-- Names on one line, of which there are some, have one start and one core. -/
lemma coreOf_iff (hne : names ≠ []) (hline : ∀ n ∈ names, '\n' ∉ n.toList) :
    CoreOf names start core ↔ start = trimSeparator (commonStartOf names) ∧
      core = .ofList (withoutNamespace start.toList) := by
  have hnil : names.map String.toList ≠ [] := fun h => hne (List.map_eq_nil_iff.mp h)
  have hshared : '\n' ∉ Text.commonStartOfAll (names.map String.toList) := by
    obtain ⟨first, rest, rfl⟩ := List.exists_cons_of_ne_nil hne
    have hstarts := ((isStart_iff hnil).mpr rfl).starts first.toList (by simp)
    exact fun hm => hline first (by simp) (hstarts.subset hm)
  rw [trimSeparator, commonStartOf, String.toList_ofList]
  constructor
  · rintro ⟨⟨shared, hstart, htrim⟩, hbare⟩
    obtain rfl := (isStart_iff hnil).mp hstart
    exact ⟨String.toList_injective (by simp [(trimmed_iff hshared).mp htrim]),
      String.toList_injective (by simp [bared_iff.mp hbare])⟩
  · rintro ⟨rfl, rfl⟩
    exact ⟨⟨_, (isStart_iff hnil).mpr rfl, (trimmed_iff hshared).mpr (by simp)⟩, bared_iff.mpr (by simp)⟩

end SkillAtlas.Naming
