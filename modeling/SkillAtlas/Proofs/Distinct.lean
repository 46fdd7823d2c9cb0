import Mathlib.Data.List.Nodup

/-!
# Distinct names

Dropping repeats from a list leaves a list without repeats, in the order of the list. Successors of a unit,
members of a family, bases of a variant and words of a table are all made distinct in this way.
-/

namespace SkillAtlas

section Repeats

variable {α : Type} [BEq α]

/-- `eraseDups` recurs on the filtered tail. -/
theorem eraseDups_induction {motive : List α → Prop} (nil : motive [])
    (cons : ∀ x rest, motive (rest.filter fun y => !y == x) → motive (x :: rest)) (xs : List α) : motive xs := by
  induction hn : xs.length using Nat.strongRecOn generalizing xs with
  | _ n ih =>
    cases xs with
    | nil => exact nil
    | cons x rest =>
      have hle := List.length_filter_le (fun y => !y == x) rest
      simp only [List.length_cons] at hn
      exact cons x rest (ih _ (by omega) _ rfl)

theorem eraseDups_sublist (xs : List α) : xs.eraseDups.Sublist xs := by
  induction xs using eraseDups_induction with
  | nil => exact List.Sublist.refl _
  | cons x rest ih =>
    rw [List.eraseDups_cons]
    exact (ih.trans List.filter_sublist).cons_cons x

variable [LawfulBEq α]

theorem nodup_eraseDups (xs : List α) : xs.eraseDups.Nodup := by
  induction xs using eraseDups_induction with
  | nil => exact List.nodup_nil
  | cons x rest ih =>
    rw [List.eraseDups_cons, List.nodup_cons]
    exact ⟨by simp, ih⟩

theorem eraseDups_of_nodup {xs : List α} (h : xs.Nodup) : xs.eraseDups = xs := by
  induction xs with
  | nil => rfl
  | cons x rest ih =>
    obtain ⟨hx, hrest⟩ := List.nodup_cons.mp h
    have hfilter : (rest.filter fun y => !y == x) = rest := by
      refine List.filter_eq_self.mpr fun y hy => ?_
      have hne : y ≠ x := fun he => hx (he ▸ hy)
      simpa using hne
    rw [List.eraseDups_cons, hfilter, ih hrest]

theorem eraseDups_filter (p : α → Bool) (xs : List α) : (xs.filter p).eraseDups = xs.eraseDups.filter p := by
  induction xs using eraseDups_induction with
  | nil => rfl
  | cons x rest ih =>
    rw [List.eraseDups_cons]
    by_cases hx : p x
    · rw [List.filter_cons_of_pos hx, List.filter_cons_of_pos hx, List.eraseDups_cons, ← ih, List.filter_comm]
    · have hkept : rest.filter p = (rest.filter fun y => !y == x).filter p := by
        rw [List.filter_filter]
        refine List.filter_congr fun y _ => ?_
        by_cases hyx : y = x
        · simp [hyx, hx]
        · simp [hyx]
      rw [List.filter_cons_of_neg hx, List.filter_cons_of_neg hx, ← ih, hkept]

end Repeats

end SkillAtlas
