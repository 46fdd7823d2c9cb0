import Mathlib.Data.List.Pairwise
import Mathlib.Data.List.Sort
import SkillAtlas.Proofs.Distinct
import SkillAtlas.Proofs.Naming.Starts

/-!
# The order within a family

Two names are put into the family of a start when they are compared and share it, the first of them and then the
other. So each name is brought into the family by the first name that shares the start with it, or by itself. The
names of a family stand in the order of those that brought them, and in document order if one name brought them. A
name that shares a longer start with the names before it comes late.
-/

namespace SkillAtlas.Naming

/-- The place of the name that brings `n` into the family of a start. -/
def joins (ns : List String) (start n : String) : Nat :=
  ns.findIdx fun m => m == n || sharedStart m n == start

/-- `a` is brought into the family of a start by an earlier name than `b`, or by the same name and is earlier. -/
def JoinsBefore (ns : List String) (start a b : String) : Prop :=
  joins ns start a < joins ns start b ∨ joins ns start a = joins ns start b ∧ ns.idxOf a < ns.idxOf b

section Places

variable {ns ms : List String} {a b : String} {f : String → Nat}

lemma pairwise_idxOf (hn : ns.Nodup) : ns.Pairwise fun a b => ns.idxOf a < ns.idxOf b := by
  refine List.pairwise_iff_getElem.mpr fun i j hi hj hij => ?_
  rwa [hn.idxOf_getElem i hi, hn.idxOf_getElem j hj]

lemma idxOf_lt_of_sublist (hn : ns.Nodup) (hms : ms.Sublist ns) (ha : a ∈ ms) (hb : b ∈ ms)
    (h : ms.idxOf a < ms.idxOf b) : ns.idxOf a < ns.idxOf b := by
  have hplaces := List.pairwise_iff_getElem.mp ((pairwise_idxOf hn).sublist hms) (ms.idxOf a) (ms.idxOf b)
    (List.idxOf_lt_length_of_mem ha) (List.idxOf_lt_length_of_mem hb) h
  rwa [List.getElem_idxOf, List.getElem_idxOf] at hplaces

/-- Names of a document are in its order if each stands behind those with a smaller place. -/
lemma sublist_iff_pairwise_idxOf (hn : ns.Nodup) (hms : ms ⊆ ns) :
    ms.Sublist ns ↔ ms.Pairwise fun a b => ns.idxOf a < ns.idxOf b := by
  constructor
  · exact fun h => (pairwise_idxOf hn).sublist h
  · intro h
    have hdistinct : ms.Nodup := h.imp fun hab he => (he ▸ hab).false
    have hanti : Std.Antisymm fun a b => ns.idxOf a < ns.idxOf b := ⟨fun a b hab hba => absurd hab hba.asymm⟩
    exact List.sublist_of_subperm_of_pairwise (List.subperm_of_subset hdistinct hms) h (pairwise_idxOf hn)

/-- Names in the order of their ranks, and of their places where ranks agree, are in document order if no earlier
name has a greater rank than a later one. -/
lemma sublist_iff_rank_le (hn : ns.Nodup) (hms : ms ⊆ ns)
    (h : ms.Pairwise fun a b => f a < f b ∨ f a = f b ∧ ns.idxOf a < ns.idxOf b) :
    ms.Sublist ns ↔ ∀ a ∈ ms, ∀ b ∈ ms, ns.idxOf a < ns.idxOf b → f a ≤ f b := by
  rw [sublist_iff_pairwise_idxOf hn hms]
  constructor
  · intro hplaces
    refine List.Pairwise.forall_of_forall_of_flip (by simp) ?_ ?_
    · exact h.imp fun hab _ => hab.elim le_of_lt fun he => he.1.le
    · exact hplaces.imp fun hab hba => absurd hba hab.asymm
  · intro hmono
    refine h.imp_of_mem fun {a b} ha hb hab => ?_
    rcases hab with hlt | ⟨-, hplace⟩
    · rcases lt_trichotomy (ns.idxOf a) (ns.idxOf b) with hplace | hplace | hplace
      · exact hplace
      · rw [List.idxOf_inj (hms ha)] at hplace
        exact absurd (hplace ▸ hlt) (lt_irrefl _)
      · exact absurd (hmono b hb a ha hplace) hlt.not_ge
    · exact hplace

end Places

section Brought

variable {limit : Number} {ns ms rest : List String} {start c n : String}

/-- What the pairs with a start put into its family, in turn. -/
def brought (limit : Number) (start : String) (ns : List String) : List String :=
  ((sharedPairs limit ns).filter fun p => p.1 == start).map Prod.snd

/-- What the first name puts into the family of a start when it is compared with the rest. -/
def broughtBy (start c : String) (rest : List String) : List String :=
  (rest.filter fun b => sharedStart c b == start).flatMap fun b => [c, b]

lemma brought_cons (hlong : isShort limit start = false) (c : String) (rest : List String) :
    brought limit start (c :: rest) = broughtBy start c rest ++ brought limit start rest := by
  rw [brought, broughtBy, sharedPairs, List.filter_append, List.map_append]
  congr 1
  induction rest with
  | nil => rfl
  | cons b rest ih =>
    rw [List.flatMap_cons, List.filter_append, List.map_append, ih]
    by_cases hb : sharedStart c b = start
    · simp [sharedPair, hb, hlong]
    · by_cases hshort : isShort limit (sharedStart c b)
      · simp [sharedPair, hb, hshort]
      · simp [sharedPair, hb, hshort]

lemma mem_of_mem_brought (h : n ∈ brought limit start ns) : n ∈ ns := by
  obtain ⟨⟨k, n⟩, hp, rfl⟩ := List.mem_map.mp h
  exact mem_of_mem_sharedPairs (List.mem_filter.mp hp).1

lemma eq_or_shares_of_mem_broughtBy (h : n ∈ broughtBy start c rest) : n = c ∨ sharedStart c n = start := by
  obtain ⟨b, hb, hn⟩ := List.mem_flatMap.mp h
  rcases List.mem_pair.mp hn with rfl | rfl
  · exact Or.inl rfl
  · exact Or.inr (eq_of_beq (List.mem_filter.mp hb).2)

lemma mem_broughtBy (hn : n ∈ rest) (h : sharedStart c n = start) : n ∈ broughtBy start c rest :=
  List.mem_flatMap.mpr ⟨n, List.mem_filter.mpr ⟨hn, beq_iff_eq.mpr h⟩, by simp⟩

lemma eraseDups_flatMap_pair (h : (c :: ms).Nodup) (hne : ms ≠ []) :
    (ms.flatMap fun b => [c, b]).eraseDups = c :: ms := by
  obtain ⟨hc, hms⟩ := List.nodup_cons.mp h
  have hothers : (ms.flatMap fun b => [c, b]).filter (fun y => !y == c) = ms := by
    rw [List.filter_flatMap]
    have hpair : ∀ b ∈ ms, ([c, b].filter fun y => !y == c) = [b] := fun b hb => by
      have hbc : b ≠ c := fun he => hc (he ▸ hb)
      simp [hbc]
    rw [List.flatMap_congr hpair, List.flatMap_singleton']
  obtain ⟨b, rest, rfl⟩ := List.exists_cons_of_ne_nil hne
  rw [List.flatMap_cons, List.cons_append, List.filter_cons_of_neg (by simp)] at hothers
  rw [List.flatMap_cons, List.cons_append, List.eraseDups_cons, hothers, eraseDups_of_nodup hms]

lemma joins_cons_eq_zero (h : n = c ∨ sharedStart c n = start) : joins (c :: rest) start n = 0 := by
  have hmeets : (c == n || sharedStart c n == start) = true := by
    rcases h with rfl | h
    · simp
    · simp [h]
  rw [joins, List.findIdx_cons, hmeets, cond_true]

lemma joins_cons_of_ne (hc : n ≠ c) (h : sharedStart c n ≠ start) :
    joins (c :: rest) start n = joins rest start n + 1 := by
  have hmeets : (c == n || sharedStart c n == start) = false := by simp [h, hc.symm]
  rw [joins, List.findIdx_cons, hmeets, cond_false, joins]

/-- What the first name brings is listed in document order. -/
lemma pairwise_broughtBy (hn : (c :: rest).Nodup) :
    (broughtBy start c rest).eraseDups.Pairwise (JoinsBefore (c :: rest) start) := by
  let sharers := rest.filter fun b => sharedStart c b == start
  by_cases hnone : sharers = []
  · simp [broughtBy, sharers, hnone]
  · have hsub : (c :: sharers).Sublist (c :: rest) := List.filter_sublist.cons_cons c
    have hlisted : (broughtBy start c rest).eraseDups = c :: sharers :=
      eraseDups_flatMap_pair (hn.sublist hsub) hnone
    have hplaces := (pairwise_idxOf hn).sublist hsub
    rw [← hlisted] at hplaces
    have hzero : ∀ n ∈ (broughtBy start c rest).eraseDups, joins (c :: rest) start n = 0 := fun n hm =>
      joins_cons_eq_zero (eq_or_shares_of_mem_broughtBy (List.mem_eraseDups.mp hm))
    exact hplaces.imp_of_mem fun {a b} ha hb hplace => Or.inr ⟨(hzero a ha).trans (hzero b hb).symm, hplace⟩

/-- The names of a family stand in the order of the names that brought them: the first name of the document puts
what it brings in front of what the others bring. -/
lemma pairwise_brought (hlong : isShort limit start = false) (hn : ns.Nodup) :
    (brought limit start ns).eraseDups.Pairwise (JoinsBefore ns start) := by
  induction ns with
  | nil => exact List.Pairwise.nil
  | cons c rest ih =>
    obtain ⟨hc, hrest⟩ := List.nodup_cons.mp hn
    let first := broughtBy start c rest
    have hlater : ∀ n, n ∈ (brought limit start rest).eraseDups.filter (fun m => !first.contains m) →
        n ≠ c ∧ sharedStart c n ≠ start := by
      intro n hm
      obtain ⟨hm, hnew⟩ := List.mem_filter.mp hm
      have hknown := mem_of_mem_brought (List.mem_eraseDups.mp hm)
      have hnot : n ∉ first := by simpa using hnew
      exact ⟨fun he => hc (he ▸ hknown), fun he => hnot (mem_broughtBy hknown he)⟩
    rw [brought_cons hlong, List.eraseDups_append, List.removeAll, eraseDups_filter]
    refine List.pairwise_append.mpr ⟨pairwise_broughtBy hn, ?_, fun a ha b hb => ?_⟩
    · refine ((ih hrest).filter _).imp_of_mem fun {a b} ha hb hab => ?_
      obtain ⟨hac, ha⟩ := hlater a ha
      obtain ⟨hbc, hb⟩ := hlater b hb
      rw [JoinsBefore, joins_cons_of_ne hac ha, joins_cons_of_ne hbc hb, List.idxOf_cons_ne _ hac.symm,
        List.idxOf_cons_ne _ hbc.symm]
      exact hab.imp Nat.succ_lt_succ (And.imp (congrArg Nat.succ) Nat.succ_lt_succ)
    · obtain ⟨hbc, hb⟩ := hlater b hb
      have hzero : joins (c :: rest) start a = 0 :=
        joins_cons_eq_zero (eq_or_shares_of_mem_broughtBy (List.mem_eraseDups.mp ha))
      rw [JoinsBefore, hzero, joins_cons_of_ne hbc hb]
      exact Or.inl (Nat.succ_pos _)

/-- A family of names that start alike lists them in the order of those that brought them. -/
lemma pairwise_startFamilies (hn : ns.Nodup) (h : (start, ms) ∈ startFamilies limit ns) :
    ms.Pairwise (JoinsBefore ns start) := by
  obtain ⟨⟨k, listed⟩, hmem, he⟩ := List.mem_map.mp h
  obtain ⟨rfl, rfl⟩ := Prod.mk.inj he
  obtain ⟨⟨n, hpair⟩, rfl⟩ := mem_groupedByKey.mp hmem
  obtain ⟨a, -, b, -, hpair⟩ := exists_of_mem_sharedPairs hpair
  obtain ⟨hlong, rfl, -⟩ := mem_sharedPair.mp hpair
  exact pairwise_brought hlong hn

/-- With a limit that is no number there are no families to list. -/
lemma mem_startFamiliesFor {v : Value} {families : List (String × List String)} {family : String × List String}
    (h : startFamiliesFor v ns = .ok families) (hfamily : family ∈ families) :
    ∃ limit, family ∈ startFamilies limit ns := by
  unfold startFamiliesFor at h
  split at h
  case h_1 | h_2 =>
    obtain rfl := Except.ok.inj h
    simp at hfamily
  case h_3 =>
    split at h
    · obtain rfl := Except.ok.inj h
      exact ⟨_, hfamily⟩
    · simp at h

end Brought

end SkillAtlas.Naming
