import SkillAtlas.Grouping.CommonStart
import SkillAtlas.Proofs.Grouping.Family
import SkillAtlas.Proofs.Naming.Cores

/-!
# One group for a whole document

The search for a start of all units that are free is all or nothing: either all of them are one group, or
nothing is found and nothing claimed. The core of their names decides, which no order of the units changes.
-/

namespace SkillAtlas

open AnalyzedUnit (names unclaimed)
open Naming (CoreOf isShort)

/-- What groups are called, and why they are groups. -/
def GroupProposal.wordings (found : Except Fault (List GroupProposal) × List String) :
    Except Fault (List (String × String)) :=
  found.1.map (List.map fun g => (g.suggestedName, g.rationale))

namespace Searcher

variable {s : Searcher} {units others free : List AnalyzedUnit} {claimed : List String} {limit : Number}
  {start core : String}

/-- The start is no shorter than its core, so the core alone decides. -/
lemma settle_documentStartFor (hfree : free ≠ []) (hline : ∀ n ∈ names free, '\n' ∉ n.toList)
    (hcore : CoreOf (names free) start core) :
    (s.documentStartFor limit free).settle claimed = if isShort limit core then (.ok [], claimed)
      else (.ok [s.documentProposal start core free], claimed ++ names free) := by
  have hne : names free ≠ [] := fun h => hfree (List.map_eq_nil_iff.mp h)
  obtain ⟨hstart, hrest⟩ := (Naming.coreOf_iff hne hline).mp hcore
  have hstart : documentStart free = start := hstart.symm
  have hlength : core.length ≤ start.length := by
    simpa only [String.length_toList] using hcore.bared.length_le
  unfold documentStartFor
  dsimp only
  rw [hstart, ← hrest]
  by_cases hshort : isShort limit start = true
  · rw [if_pos hshort, if_pos (Naming.isShort_of_le hlength hshort)]
    rfl
  · rw [if_neg hshort]
    split <;> rfl

lemma settle_documentPrefix_of_few (h : (unclaimed claimed units).length < 2) :
    (s.documentPrefix units claimed).settle claimed = (.ok [], claimed) := by
  unfold documentPrefix
  dsimp only
  rw [if_pos h]
  rfl

lemma settle_documentPrefix_of_two (h : 2 ≤ (unclaimed claimed units).length) :
    (s.documentPrefix units claimed).settle claimed = match s.settings.documentPrefixMinLength.number? with
      | none => (.error .wrongKind, claimed)
      | some limit => (s.documentStartFor limit (unclaimed claimed units)).settle claimed := by
  unfold documentPrefix
  dsimp only
  rw [if_neg (Nat.not_lt.mpr h)]
  cases s.settings.documentPrefixMinLength.number? <;> rfl

lemma documentStart_perm (h : units.Perm others) : documentStart units = documentStart others := by
  have hnames : ((names units).map String.toList).Perm ((names others).map String.toList) := (h.map _).map _
  rw [documentStart, documentStart, Naming.commonStartOf, Naming.commonStartOf, Text.commonStartOfAll_perm hnames]

/-- Units in another order are found to be one group as well, with the same wording. -/
lemma wordings_documentPrefix_perm (h : units.Perm others) :
    GroupProposal.wordings ((s.documentPrefix units claimed).settle claimed) =
      GroupProposal.wordings ((s.documentPrefix others claimed).settle claimed) := by
  have hfree : (unclaimed claimed units).Perm (unclaimed claimed others) := h.filter _
  have hlength := hfree.length_eq
  by_cases htwo : 2 ≤ (unclaimed claimed units).length
  · rw [settle_documentPrefix_of_two htwo, settle_documentPrefix_of_two (hlength ▸ htwo)]
    cases s.settings.documentPrefixMinLength.number? with
    | none => rfl
    | some limit =>
      dsimp only [documentStartFor]
      rw [documentStart_perm hfree]
      split
      · rfl
      · split
        · rfl
        · simp only [GroupProposal.wordings, Detection.settle, Family.propose, Family.ofProposal, Except.map,
            documentProposal, hlength, List.map_cons, List.map_nil]
  · rw [settle_documentPrefix_of_few (Nat.not_le.mp htwo),
      settle_documentPrefix_of_few (hlength ▸ Nat.not_le.mp htwo)]

/-- The search for one start of all free units, with names on one line. Fewer than two are no group. Otherwise
their names have a core, and unless it is too short all of them are one group, in their order; else nothing is
found or claimed. The wording does not depend on the order of the units. A limit that is no number is a fault. -/
theorem documentPrefix_all_or_nothing (s : Searcher) (units : List AnalyzedUnit)
    (hline : ∀ u ∈ units, '\n' ∉ u.name.toList) (claimed : List String) :
    let free := unclaimed claimed units
    let settled := (s.documentPrefix units claimed).settle claimed
    (free.length < 2 → settled = (.ok [], claimed)) ∧
      (2 ≤ free.length → (∃ start core, CoreOf (names free) start core) ∧
        (s.settings.documentPrefixMinLength.number? = none → settled = (.error .wrongKind, claimed)) ∧
        ∀ start core limit, CoreOf (names free) start core →
          s.settings.documentPrefixMinLength.number? = some limit →
          (isShort limit core = true → settled = (.ok [], claimed)) ∧
          (isShort limit core = false →
            settled = (.ok [s.documentProposal start core free], claimed ++ names free))) ∧
      ∀ others, units.Perm others → GroupProposal.wordings settled =
        GroupProposal.wordings ((s.documentPrefix others claimed).settle claimed) := by
  intro free settled
  refine ⟨settle_documentPrefix_of_few, fun htwo => ?_, fun others h => wordings_documentPrefix_perm h⟩
  have hfree : free ≠ [] := List.length_pos_iff.mp (by omega)
  have hne : names free ≠ [] := fun h => hfree (List.map_eq_nil_iff.mp h)
  have hlines : ∀ n ∈ names free, '\n' ∉ n.toList :=
    List.forall_mem_map.mpr fun u hu => hline u (AnalyzedUnit.mem_unclaimed.mp hu).1
  have hsettled := settle_documentPrefix_of_two (s := s) htwo
  refine ⟨⟨_, _, (Naming.coreOf_iff hne hlines).mpr ⟨rfl, rfl⟩⟩, fun hnone => ?_, ?_⟩
  · exact hsettled.trans (by rw [hnone])
  · intro start core limit hcore hlimit
    have hsearch : settled = (s.documentStartFor limit free).settle claimed := hsettled.trans (by rw [hlimit])
    rw [hsearch, settle_documentStartFor hfree hlines hcore]
    exact ⟨fun hshort => if_pos hshort, fun hlong => if_neg (by simp [hlong])⟩

/-- Two of three units are free. Without the namespace their names share six characters, and in the other order
the group is called the same. -/
theorem documentPrefix_all_or_nothing_arcane :
    let units : List AnalyzedUnit :=
      [{ name := "CR_ArcaneMissile" }, { name := "Heal" }, { name := "CR_ArcaneBurst" }]
    let free : List AnalyzedUnit := [{ name := "CR_ArcaneMissile" }, { name := "CR_ArcaneBurst" }]
    let s : Searcher := ⟨default, {}⟩
    let g := s.documentProposal "CR_Arcane" "Arcane" free
    (∀ u ∈ units, '\n' ∉ u.name.toList) ∧ CoreOf (names free) "CR_Arcane" "Arcane" ∧
      (s.documentPrefix units ["Heal"]).settle ["Heal"] =
        (.ok [g], ["Heal", "CR_ArcaneMissile", "CR_ArcaneBurst"]) ∧
      GroupProposal.wordings ((s.documentPrefix units.reverse ["Heal"]).settle ["Heal"]) =
        .ok [("Arcane", g.rationale)] := by
  intro units free s g
  have hline : ∀ u ∈ units, '\n' ∉ u.name.toList := by decide
  have hcore : CoreOf (names free) "CR_Arcane" "Arcane" :=
    (Naming.coreOf_iff (by decide) (by decide)).mpr ⟨by decide +kernel, by decide +kernel⟩
  obtain ⟨-, htwo, hperm⟩ := documentPrefix_all_or_nothing s units hline ["Heal"]
  obtain ⟨-, -, hcases⟩ := htwo (by decide)
  have hsettled : (s.documentPrefix units ["Heal"]).settle ["Heal"] = (.ok [g], _) :=
    (hcases "CR_Arcane" "Arcane" (.int 5) hcore rfl).2 (by decide)
  have hname : g.suggestedName = "Arcane" := by decide +kernel
  refine ⟨hline, hcore, hsettled, ?_⟩
  rw [← hperm _ (List.reverse_perm units).symm, hsettled, ← hname]
  rfl

end Searcher

end SkillAtlas
