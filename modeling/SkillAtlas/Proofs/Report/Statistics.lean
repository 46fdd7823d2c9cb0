import SkillAtlas.Proofs.Analysis.Stages
import SkillAtlas.Proofs.Line.Reading
import SkillAtlas.Proofs.Report.Ranking

/-!
# What component statistics count

A unit holds each of its actions, selectors and guards once, however often its lines name them, so counting all
of them counts units. The values of an attribute are all kept, and all counted.
-/

namespace SkillAtlas

/-- The values that a unit has for an attribute. -/
def AnalyzedUnit.valuesOf (u : AnalyzedUnit) (key : String) : List String :=
  (u.attributes.lookup key).getD []

/-- No action, selector, guard or attribute of a unit is repeated. -/
structure AnalyzedUnit.Distinct (u : AnalyzedUnit) : Prop where
  actions : u.actions.Nodup
  targets : u.targets.Nodup
  guards : u.guards.Nodup
  attributes : (u.attributes.map Prod.fst).Nodup

lemma nodup_keys_groupedByKey (pairs : List (String × String)) : ((groupedByKey pairs).map Prod.fst).Nodup := by
  have hkeys : (groupedByKey pairs).map Prod.fst = (pairs.map Prod.fst).eraseDups := by
    rw [groupedByKey, List.map_map]
    exact List.map_id _
  rw [hkeys]
  exact nodup_eraseDups _

lemma Analyzer.distinct_unitOf {a : Analyzer} {e : Entry} {u : AnalyzedUnit} (h : a.unitOf e = .ok u) :
    u.Distinct := by
  obtain ⟨own, -, h⟩ := Fault.bind_eq_ok.mp h
  obtain ⟨score, -, h⟩ := Fault.bind_eq_ok.mp h
  obtain ⟨tier, -, h⟩ := Fault.bind_eq_ok.mp h
  obtain rfl := Except.ok.inj h
  exact ⟨nodup_eraseDups _, nodup_eraseDups _, nodup_eraseDups _, nodup_keys_groupedByKey _⟩

lemma Analyzer.distinct_of_analyzeAll {a : Analyzer} {entries : List Entry} {units : List AnalyzedUnit}
    (h : (a.analyzeAll entries).outcome = .ok units) : ∀ u ∈ units, u.Distinct := by
  rw [outcome_analyzeAll] at h
  exact Fault.forall_of_mapM (fun _ _ _ hu => distinct_unitOf hu) h

section Counts

variable {units : List AnalyzedUnit}

/-- A name that is in no list twice is counted once for each list that holds it. -/
lemma count_flatMap_eq_countP {f : AnalyzedUnit → List String} (h : ∀ u ∈ units, (f u).Nodup) (n : String) :
    (units.flatMap f).count n = units.countP fun u => n ∈ f u := by
  induction units with
  | nil => rfl
  | cons u rest ih =>
    obtain ⟨hu, hrest⟩ := List.forall_mem_cons.mp h
    rw [List.flatMap_cons, List.count_append, ih hrest, List.countP_cons, hu.count, Nat.add_comm]
    simp only [decide_eq_true_eq]

/-- Names of which no unit repeats one are ranked by the number of units that hold them. -/
lemma ranks_held {f : AnalyzedUnit → List String} (h : ∀ u ∈ units, (f u).Nodup) :
    Ranks (units.flatMap f) (fun n => units.countP fun u => n ∈ f u) (rankedNames (units.flatMap f)) := by
  have hranks := ranks_rankedNames (units.flatMap f)
  simp only [count_flatMap_eq_countP h] at hranks
  exact hranks

lemma totalOf_eq_zero {counts : List (String × Nat)} {n : String} (h : n ∉ counts.map Prod.fst) :
    totalOf n counts = 0 := by
  have hnone : (counts.filter fun c => c.1 == n) = [] := by
    refine List.filter_eq_nil_iff.mpr fun c hc hn => h ?_
    exact eq_of_beq hn ▸ List.mem_map_of_mem hc
  rw [totalOf_eq_sum, hnone]
  rfl

/-- Under a key that stands once, the count is that of its values. -/
lemma totalOf_lengths {attributes : List (String × List String)} (h : (attributes.map Prod.fst).Nodup)
    (n : String) :
    totalOf n (attributes.map fun a => (a.1, a.2.length)) = ((attributes.lookup n).getD []).length := by
  induction attributes with
  | nil => rfl
  | cons a rest ih =>
    obtain ⟨hnew, hrest⟩ := List.nodup_cons.mp h
    rw [List.map_cons, totalOf, List.lookup_cons]
    by_cases hn : a.1 = n
    · subst hn
      have hzero : totalOf a.1 (rest.map fun a => (a.1, a.2.length)) = 0 := by
        refine totalOf_eq_zero ?_
        rw [List.map_map]
        exact hnew
      simp [hzero]
    · rw [if_neg (by simpa using hn), ih hrest, beq_eq_false_iff_ne.mpr (Ne.symm hn)]

lemma ranks_attributes (h : ∀ u ∈ units, (u.attributes.map Prod.fst).Nodup) :
    Ranks (units.flatMap fun u => u.attributes.map Prod.fst)
      (fun n => (units.map fun u => (u.valuesOf n).length).sum) (statisticsOf units).attributes := by
  have hranks := ranks_ranked (units.flatMap fun u => u.attributes.map fun a => (a.1, a.2.length))
  have hcount (n : String) : totalOf n (units.flatMap fun u => u.attributes.map fun a => (a.1, a.2.length)) =
      (units.map fun u => (u.valuesOf n).length).sum := by
    rw [totalOf_flatMap]
    exact congrArg List.sum (List.map_congr_left fun u hu => totalOf_lengths (h u hu) n)
  simp only [hcount, List.map_flatMap, List.map_map, Function.comp_def] at hranks
  exact hranks

end Counts

/-- Of the units that entries give, actions, selectors and guards are ranked by the number of units that have
them, and attributes by the number of their values in all units. Each that some unit has is ranked once, and of
those that are as frequent the one that comes first. -/
theorem Analyzer.statistics_count_units (a : Analyzer) (entries : List Entry) (units : List AnalyzedUnit)
    (h : (a.analyzeAll entries).outcome = .ok units) :
    Ranks (units.flatMap AnalyzedUnit.actions) (fun n => units.countP fun u => n ∈ u.actions)
        (statisticsOf units).actions ∧
      Ranks (units.flatMap AnalyzedUnit.targets) (fun n => units.countP fun u => n ∈ u.targets)
        (statisticsOf units).targets ∧
      Ranks (units.flatMap AnalyzedUnit.guards) (fun n => units.countP fun u => n ∈ u.guards)
        (statisticsOf units).guards ∧
      Ranks (units.flatMap fun u => u.attributes.map Prod.fst)
        (fun n => (units.map fun u => (u.valuesOf n).length).sum) (statisticsOf units).attributes := by
  have hdistinct := distinct_of_analyzeAll h
  exact ⟨ranks_held fun u hu => (hdistinct u hu).actions, ranks_held fun u hu => (hdistinct u hu).targets,
    ranks_held fun u hu => (hdistinct u hu).guards, ranks_attributes fun u hu => (hdistinct u hu).attributes⟩

/-- The first unit strikes twice, which is one unit that strikes and two values of the attribute. -/
theorem Analyzer.statistics_count_units_strikes :
    let a : Analyzer := ⟨{ (default : Vocabulary) with actions := ["damage", "sound"] }, {}, []⟩
    let entries : List Entry := [
      { name := "Bolt", kind := .skillFile, lines := [.str "damage{a=5}", .str "damage{a=6}"] },
      { name := "Burn", kind := .skillFile, lines := [.str "sound", .str "damage{a=5}"] }]
    ∃ units, (a.analyzeAll entries).outcome = .ok units ∧
      units.map AnalyzedUnit.actions = [["damage"], ["sound", "damage"]] ∧
      ⟨"damage", 2⟩ ∈ (statisticsOf units).actions ∧ ⟨"damage", 3⟩ ∈ (statisticsOf units).attributes := by
  intro a entries
  have hunits : (a.analyzeAll entries).outcome.toOption.map (fun units =>
      units.map fun u => (u.actions, u.attributes)) =
      some [(["damage"], [("damage", ["5", "6"])]), (["sound", "damage"], [("damage", ["5"])])] := by
    decide +kernel
  cases ho : (a.analyzeAll entries).outcome with
  | error f => simp [ho, Except.toOption] at hunits
  | ok units =>
    simp only [ho, Except.toOption, Option.map_some, Option.some.injEq] at hunits
    obtain ⟨hactions, -, -, hattributes⟩ := Analyzer.statistics_count_units a entries units ho
    obtain ⟨u, v, rfl, ⟨hu, hua⟩, hv, hva⟩ : ∃ u v, units = [u, v] ∧
        (u.actions = ["damage"] ∧ u.attributes = [("damage", ["5", "6"])]) ∧
        v.actions = ["sound", "damage"] ∧ v.attributes = [("damage", ["5"])] := by
      obtain ⟨u, more, rfl, hu, hmore⟩ := List.map_eq_cons_iff.mp hunits
      obtain ⟨v, last, rfl, hv, hlast⟩ := List.map_eq_cons_iff.mp hmore
      obtain rfl := List.map_eq_nil_iff.mp hlast
      exact ⟨u, v, rfl, Prod.mk.inj hu, Prod.mk.inj hv⟩
    refine ⟨[u, v], rfl, by rw [List.map_cons, List.map_singleton, hu, hv], (hactions.mem_iff _).mpr ?_,
      (hattributes.mem_iff _).mpr ?_⟩
    · simp [hu, hv]
    · simp [hua, hva, AnalyzedUnit.valuesOf]

end SkillAtlas
