import SkillAtlas.Proofs.Analysis.Accounting
import SkillAtlas.Proofs.Document.Extraction
import SkillAtlas.Proofs.Grouping.Proposals
import SkillAtlas.Proofs.Units.Score
import SkillAtlas.Proofs.Value.Json
import SkillAtlas.Template.Record

/-!
# Reports and records as JSON

A report is made of texts and counts, but for three things: the fields of mobs, which are what the document
has under them, and scores and confidences, which are what the settings make of them. A record that was made
of units may have a cooldown of any kind. Counts are written as all numbers are, as long as they have not too
many digits.
-/

namespace SkillAtlas

open Fault (bind_eq_ok forall_of_mapM GivenIff)
open Json (Writable)

section Counts

/-- The count has not too many digits. -/
def Short (n : Nat) : Prop :=
  n < Decimal.tenTo Decimal.digitLimit
deriving Decidable

/-! The counts that a report shows. -/

def GraphSummary.counts (s : GraphSummary) : List Nat :=
  [s.nodes, s.edges, s.entryPoints, s.leaves, s.maxDepth, s.cycles, s.danglingEdges]

def Statistics.counts (s : Statistics) : List Nat :=
  (s.actions ++ s.targets ++ s.guards ++ s.attributes).map Ranked.count

def Grouping.counts (g : Grouping) : List Nat :=
  [g.groups.length, g.standalone.length]

def Finding.counts : Finding → List Nat
  | highComplexity _ lines _ => [lines]
  | _ => []

def Report.counts (r : Report) : List Nat :=
  r.units.length :: r.totalLines :: r.units.map AnalyzedUnit.lineCount ++ r.graph.summary.counts ++
    r.grouping.counts ++ r.statistics.counts ++ r.findings.flatMap Finding.counts

end Counts

section Forms

variable {fields : List (String × Value)}

@[simp] lemma writable_record : Writable (.record fields) ↔ ∀ f ∈ fields, Writable f.2 := by
  rw [Value.record, Json.writable_map, List.forall_mem_map]
  simp

@[simp] lemma writable_strings (ss : List String) : Writable (.strings ss) := by
  simp [Value.strings]

@[simp] lemma writable_count {n : Nat} : Writable (.count n) ↔ Short n := by
  simp only [Value.count, Json.writable_int, Value.isTold_int, Int.natAbs_natCast, Short]

lemma writable_call (c : Call) : Writable c.toValue := by
  simp [Call.toValue]

lemma writable_graph (g : CallGraph) : Writable g.toValue := by
  simp [CallGraph.toValue, CallGraph.nodeValue, Edge.toValue]

lemma writable_summary {s : GraphSummary} : Writable s.toValue ↔ ∀ n ∈ s.counts, Short n := by
  simp [GraphSummary.toValue, GraphSummary.counts]

lemma writable_missing (m : MissingReference) : Writable m.toValue := by
  simp [MissingReference.toValue]

lemma writable_ranked {components : List Ranked} :
    Writable (rankedValue components) ↔ ∀ c ∈ components, Short c.count := by
  simp [rankedValue]

lemma writable_statistics {s : Statistics} : Writable s.toValue ↔ ∀ n ∈ s.counts, Short n := by
  simp [Statistics.toValue, Statistics.counts, writable_ranked, or_imp, forall_and]

lemma writable_unit {u : AnalyzedUnit} :
    Writable u.toValue ↔ Short u.lineCount ∧ Writable u.score ∧ Writable (.map u.rawExtra) := by
  simp only [AnalyzedUnit.toValue, writable_record, List.forall_mem_cons, List.forall_mem_map]
  simp [writable_call, -Json.writable_map]

end Forms

/-- A finding has a JSON form if the score in it has one. -/
lemma writable_finding {f : Finding} (h : ∀ name lines score, f = .highComplexity name lines score →
    Writable score) : Writable f.toValue ↔ ∀ n ∈ f.counts, Short n := by
  cases f with
  | dangling ref => simp [Finding.toValue, Finding.about, Finding.counts]
  | emptyUnit name => simp [Finding.toValue, Finding.about, Finding.counts]
  | highComplexity name lines score =>
    have hscore := h name lines score rfl
    simp [Finding.toValue, Finding.about, Finding.counts, hscore]

lemma score_of_complexityFindings {s : DiagnosticsSettings} {u : AnalyzedUnit} {found : List Finding}
    (h : complexityFindings s u = .ok found) {name : String} {lines : Nat} {score : Value}
    (hf : .highComplexity name lines score ∈ found) : u.score = score := by
  unfold complexityFindings at h
  split at h
  · obtain rfl := Except.ok.inj h
    simp at hf
  · obtain ⟨long, -, h⟩ := bind_eq_ok.mp h
    split at h
    · obtain ⟨told, -, h⟩ := bind_eq_ok.mp h
      obtain rfl := Except.ok.inj h
      obtain ⟨-, -, rfl⟩ := Finding.highComplexity.inj (List.mem_singleton.mp hf)
      rfl
    · obtain rfl := Except.ok.inj h
      simp at hf

lemma score_of_mem_unitFindings {s : DiagnosticsSettings} {units : List AnalyzedUnit} {found : List Finding}
    (h : unitFindings s units = .ok found) {name : String} {lines : Nat} {score : Value}
    (hf : .highComplexity name lines score ∈ found) : ∃ u ∈ units, u.score = score := by
  induction units generalizing found with
  | nil =>
    obtain rfl := Except.ok.inj h
    simp at hf
  | cons u rest ih =>
    obtain ⟨own, hown, h⟩ := bind_eq_ok.mp h
    obtain ⟨others, hothers, h⟩ := bind_eq_ok.mp h
    obtain rfl := Except.ok.inj h
    rw [List.mem_append, List.mem_append] at hf
    rcases hf with (hf | hf) | hf
    · unfold emptyFindings at hf
      split at hf <;> simp at hf
    · exact ⟨u, List.mem_cons_self, score_of_complexityFindings hown hf⟩
    · obtain ⟨v, hv, hscore⟩ := ih hothers hf
      exact ⟨v, List.mem_cons_of_mem u hv, hscore⟩

lemma rounded_givenIff (places : Nat) (v : Value) : GivenIff (v.rounded places) v.number?.isSome := by
  cases v <;> constructor <;> simp [Value.rounded, Value.number?, Value.integer?, Fault.Unwritten.wrongKind]

/-- The number that stands for a rounded one is the same, or it is a float. -/
lemma writable_rounded {places : Nat} {v w : Value} (h : v.rounded places = .ok w) :
    Writable w ↔ v.isTold = true := by
  cases v with
  | bool b =>
    obtain rfl := Except.ok.inj h
    have hone : 1 < Decimal.tenTo Decimal.digitLimit := Nat.one_lt_pow (by decide +kernel) (by decide)
    refine iff_of_true (Json.writable_int.mpr (Value.isTold_int.mpr ?_)) rfl
    cases b <;> simp [hone, Nat.zero_lt_of_lt hone]
  | int n =>
    obtain rfl := Except.ok.inj h
    exact Json.writable_int
  | float x =>
    obtain rfl := Except.ok.inj h
    simp [Value.isTold]
  | _ => cases h

namespace NamingPattern

variable {p : NamingPattern} {v : Value}

lemma toValue_givenIff (p : NamingPattern) : GivenIff p.toValue p.confidence.number?.isSome :=
  (rounded_givenIff 4 p.confidence).map _

lemma writable_of_toValue (h : p.toValue = .ok v) : Writable v ↔ p.confidence.isTold = true := by
  obtain ⟨confidence, hc, h⟩ := bind_eq_ok.mp h
  obtain rfl := Except.ok.inj h
  simp [writable_rounded hc]

end NamingPattern

namespace GroupProposal

variable {p : GroupProposal} {v : Value}

lemma toValue_givenIff (p : GroupProposal) : GivenIff p.toValue p.confidence.number?.isSome :=
  (rounded_givenIff 4 p.confidence).map _

lemma writable_of_toValue (h : p.toValue = .ok v) : Writable v ↔ p.confidence.isTold = true := by
  obtain ⟨confidence, hc, h⟩ := bind_eq_ok.mp h
  obtain rfl := Except.ok.inj h
  simp [writable_rounded hc]

end GroupProposal

/-- A property of all answers is one of what they are answers to. -/
lemma Fault.forall_mapM_iff {α β : Type} {f : α → Except Fault β} {P : β → Prop} {Q : α → Prop} {xs : List α}
    {ys : List β} (hf : ∀ a ∈ xs, ∀ b, f a = .ok b → (P b ↔ Q a)) (h : xs.mapM f = .ok ys) :
    (∀ y ∈ ys, P y) ↔ ∀ x ∈ xs, Q x := by
  constructor
  · intro hys x hx
    obtain ⟨y, hy, hfx⟩ := Fault.exists_of_mapM h hx
    exact (hf x hx y hfx).mp (hys y hy)
  · exact fun hxs => forall_of_mapM (fun x hx y hfx => (hf x hx y hfx).mpr (hxs x hx)) h

namespace Grouping

variable {g : Grouping} {v : Value}

lemma toValue_givenIff (g : Grouping) :
    GivenIff g.toValue (∀ p ∈ g.groups, p.confidence.number?.isSome) :=
  (GivenIff.mapM fun p _ => p.toValue_givenIff).map _

lemma writable_of_toValue (h : g.toValue = .ok v) :
    Writable v ↔ (∀ p ∈ g.groups, p.confidence.isTold = true) ∧ ∀ n ∈ g.counts, Short n := by
  obtain ⟨groups, hgroups, h⟩ := bind_eq_ok.mp h
  obtain rfl := Except.ok.inj h
  have hall := Fault.forall_mapM_iff (fun p _ _ => GroupProposal.writable_of_toValue) hgroups
  simp [hall, Grouping.counts]

end Grouping

namespace Report

variable {r : Report}

/-- The numbers that the settings or the counting make have not too many digits. -/
structure Told (r : Report) : Prop where
  scores : ∀ u ∈ r.units, Writable u.score
  patterns : ∀ p ∈ r.patterns, p.confidence.isTold = true
  groups : ∀ p ∈ r.grouping.groups, p.confidence.isTold = true
  counts : ∀ n ∈ r.counts, Short n

/-- All of the report has a JSON form. -/
structure Printable (r : Report) : Prop extends r.Told where
  fields : ∀ u ∈ r.units, Writable (.map u.rawExtra)
  patternsGraded : ∀ p ∈ r.patterns, p.confidence.number?.isSome
  groupsGraded : ∀ p ∈ r.grouping.groups, p.confidence.number?.isSome

lemma fields_givenIff (r : Report) : GivenIff r.fields
    ((∀ p ∈ r.patterns, p.confidence.number?.isSome) ∧ ∀ p ∈ r.grouping.groups, p.confidence.number?.isSome) :=
  (GivenIff.mapM fun p _ => p.toValue_givenIff).bind fun _ _ => r.grouping.toValue_givenIff.map _

/-- Findings hold no scores but those of units. -/
def Scored (r : Report) : Prop :=
  ∀ name lines score, .highComplexity name lines score ∈ r.findings → ∃ u ∈ r.units, u.score = score

lemma writable_findings (hs : ∀ u ∈ r.units, Writable u.score) (hr : r.Scored) :
    (∀ f ∈ r.findings, Writable f.toValue) ↔ ∀ n ∈ r.findings.flatMap Finding.counts, Short n := by
  rw [List.forall_mem_flatMap]
  refine forall₂_congr fun f hf => writable_finding fun name lines score heq => ?_
  subst heq
  obtain ⟨u, hu, rfl⟩ := hr name lines score hf
  exact hs u hu

lemma writable_fields {fields : List (String × Value)} (hs : r.Scored) (h : r.fields = .ok fields) :
    Writable (.record (("success", .bool true) :: fields)) ↔
      (∀ u ∈ r.units, Writable (.map u.rawExtra)) ∧ r.Told := by
  obtain ⟨patterns, hpatterns, h⟩ := bind_eq_ok.mp h
  obtain ⟨grouping, hgrouping, h⟩ := bind_eq_ok.mp h
  obtain rfl := Except.ok.inj h
  have hpat := Fault.forall_mapM_iff (fun p _ _ => NamingPattern.writable_of_toValue) hpatterns
  have hunits : (∀ u ∈ r.units, Writable u.toValue) ↔ (∀ u ∈ r.units, Short u.lineCount) ∧
      (∀ u ∈ r.units, Writable u.score) ∧ ∀ u ∈ r.units, Writable (.map u.rawExtra) := by
    simp only [writable_unit, forall_and]
  have hcounts : (∀ n ∈ r.counts, Short n) ↔ Short r.units.length ∧ Short r.totalLines ∧
      (∀ u ∈ r.units, Short u.lineCount) ∧ (∀ n ∈ r.graph.summary.counts, Short n) ∧
      (∀ n ∈ r.grouping.counts, Short n) ∧ (∀ n ∈ r.statistics.counts, Short n) ∧
      ∀ n ∈ r.findings.flatMap Finding.counts, Short n := by
    simp only [counts, List.forall_mem_cons, List.forall_mem_append, List.cons_append, List.forall_mem_map,
      and_assoc]
  have hfindings := fun hscores => writable_findings (r := r) hscores hs
  simp only [writable_record, List.forall_mem_cons, Json.writable_str, Json.writable_bool, writable_count,
    Json.writable_list, List.forall_mem_map, hunits, writable_graph, writable_summary, hpat,
    Grouping.writable_of_toValue hgrouping, writable_missing, writable_statistics, true_and, implies_true]
  constructor
  · rintro ⟨hlength, hlines, ⟨hunit, hscores, hfields⟩, hsummary, hp, ⟨hg, hgroups⟩, hstatistics, hf, -⟩
    exact ⟨hfields, hscores, hp, hg,
      hcounts.mpr ⟨hlength, hlines, hunit, hsummary, hgroups, hstatistics, (hfindings hscores).mp hf⟩⟩
  · rintro ⟨hfields, hscores, hp, hg, hn⟩
    obtain ⟨hlength, hlines, hunit, hsummary, hgroups, hstatistics, hf⟩ := hcounts.mp hn
    exact ⟨hlength, hlines, ⟨hunit, hscores, hfields⟩, hsummary, hp, ⟨hg, hgroups⟩, hstatistics,
      (hfindings hscores).mpr hf, List.forall_mem_nil _⟩

/-- A report is written exactly if all of it has a JSON form. -/
lemma write_givenIff (hs : r.Scored) : GivenIff ((Outcome.report r).toValue.bind Json.write) r.Printable := by
  have hvalue : ∀ v, (Outcome.report r).toValue = .ok v → GivenIff (Json.write v)
      ((∀ u ∈ r.units, Writable (.map u.rawExtra)) ∧ r.Told) := by
    intro v hv
    obtain ⟨fields, hfields, hv⟩ := bind_eq_ok.mp hv
    obtain rfl := Except.ok.inj hv
    exact (Json.write_givenIff _).congr (writable_fields hs hfields)
  refine (((fields_givenIff r).map _).bind hvalue).congr ⟨?_, ?_⟩
  · rintro ⟨⟨patterns, groups⟩, fields, told⟩
    exact ⟨told, fields, patterns, groups⟩
  · rintro ⟨told, fields, patterns, groups⟩
    exact ⟨⟨patterns, groups⟩, fields, told⟩

end Report

namespace TemplateRecord

lemma writable_orNull (s : Option String) : Writable (orNull s) := by
  cases s with
  | none => exact Json.writable_null
  | some s => exact Json.writable_str s

lemma forall_cooldownFields {cooldown : Value} :
    (∀ f ∈ cooldownFields cooldown, Writable f.2) ↔ Writable cooldown := by
  unfold cooldownFields
  split <;> simp

lemma writable_sectionValue (u : AnalyzedUnit) :
    Writable (sectionValue ⟨.str u.name, u.lines.map .str⟩) := by
  simp [sectionValue]

lemma writable_toValue_of_units (name : String) (category difficulty : Option String) (cooldown : Value)
    (lines : List String) (us : List AnalyzedUnit) :
    Writable (toValue {
      name := .str name, category := orNull category, difficulty := orNull difficulty, cooldown
      skillLines := lines.map .str, sections := us.map fun u => ⟨.str u.name, u.lines.map .str⟩ }) ↔
      Writable cooldown := by
  rw [toValue, writable_record, List.forall_mem_append, forall_cooldownFields]
  simp [writable_orNull, writable_sectionValue, -writable_record]

/-- A record of a grouping has a JSON form if its cooldown has one. -/
lemma writable_of_mem_ofGrouping {g : Grouping} {record : TemplateRecord} (h : record ∈ ofGrouping g) :
    Writable record.toValue ↔ Writable record.cooldown := by
  rcases List.mem_append.mp h with h | h
  · obtain ⟨p, -, rfl⟩ := List.mem_map.mp h
    exact writable_toValue_of_units _ _ _ _ [] _
  · obtain ⟨u, -, rfl⟩ := List.mem_map.mp h
    exact writable_toValue_of_units _ (some _) (some _) _ _ []

lemma firstCooldown_of_null {us : List AnalyzedUnit} (h : ∀ u ∈ us, u.cooldown = .null) :
    firstCooldown us = .null := by
  unfold firstCooldown
  rw [List.find?_eq_none.mpr]
  · rfl
  · rw [List.forall_mem_map]
    intro u hu
    simp [h u hu]

end TemplateRecord

/-- A unit has the fields of mobs and the cooldown of its entry. -/
lemma raw_of_unitOf {a : Analyzer} {entry : Entry} {u : AnalyzedUnit} (h : a.unitOf entry = .ok u) :
    u.rawExtra = entry.rawExtra ∧ u.cooldown = entry.cooldown := by
  obtain ⟨own, -, h⟩ := bind_eq_ok.mp h
  obtain ⟨score, -, h⟩ := bind_eq_ok.mp h
  obtain ⟨tier, -, h⟩ := bind_eq_ok.mp h
  obtain rfl := Except.ok.inj h
  exact ⟨rfl, rfl⟩

namespace Engine

variable {e : Engine} {r : Request} {report : Report}

lemma scored_of_run (h : (e.run r).outcome = .ok report) : report.Scored := by
  obtain ⟨d, units, grouping, patterns, findings, -, -, -, -, hfindings, rfl⟩ := exists_reportOf h
  intro name lines score hf
  rcases List.mem_append.mp hf with hf | hf
  · simp at hf
  · exact score_of_mem_unitFindings hfindings hf

/-- The units of mobs have no cooldown, and those of skills no fields of mobs. -/
lemma raw_of_run (h : (e.run r).outcome = .ok report) : ∀ u ∈ report.units,
    (report.kind = .mob → u.cooldown = .null) ∧ (report.kind = .skillFile → u.rawExtra = []) := by
  obtain ⟨d, units, grouping, patterns, findings, hd, hunits, -, -, -, rfl⟩ := exists_reportOf h
  obtain ⟨doc, -, hentries⟩ := entries_of_load hd
  refine forall_of_mapM (fun entry he u hu => ?_) hunits
  rw [(raw_of_unitOf hu).1, (raw_of_unitOf hu).2]
  show (d.kind = .mob → _) ∧ (d.kind = .skillFile → _)
  rcases cooldown_of_extract hentries he with ⟨hkind, hnull⟩ | ⟨hkind, hextra, -⟩
  · exact ⟨fun _ => hnull, fun h => by simp [hkind] at h⟩
  · exact ⟨fun h => by simp [hkind] at h, fun _ => hextra⟩

/-- The records of mobs have no cooldown. -/
lemma cooldown_of_mem_records (h : (e.run r).outcome = .ok report) (hk : report.kind = .mob)
    {record : TemplateRecord} (hr : record ∈ TemplateRecord.ofGrouping report.grouping) :
    record.cooldown = .null := by
  obtain ⟨-, kind, -, -, -, -, hgrouping⟩ := stages_of_run h
  have hplaced := (Searcher.accounts_of_synthesize hgrouping).atMostOnce.subset
  have hnone : ∀ u ∈ report.grouping.placed, u.cooldown = .null := fun u hu =>
    (raw_of_run h u (hplaced hu)).1 hk
  rcases List.mem_append.mp hr with hr | hr
  · obtain ⟨p, hp, rfl⟩ := List.mem_map.mp hr
    have hmembers : ∀ u ∈ p.members, u.cooldown = .null := fun u hu =>
      hnone u (List.mem_append_left _ (List.mem_flatMap.mpr ⟨p, hp, hu⟩))
    exact TemplateRecord.firstCooldown_of_null hmembers
  · obtain ⟨u, hu, rfl⟩ := List.mem_map.mp hr
    exact hnone u (List.mem_append_right _ hu)

/-- With confidences that are numbers, only fields of mobs may have no JSON form, but for numbers of too many
digits. -/
lemma printable_iff (hd : e.settings.detectors.Graded) (h : (e.run r).outcome = .ok report) :
    report.Printable ↔ (∀ u ∈ report.units, Writable (.map u.rawExtra)) ∧ report.Told := by
  obtain ⟨d, units, grouping, patterns, findings, -, -, hgrouping, hpatterns, -, rfl⟩ := exists_reportOf h
  refine ⟨fun hp => ⟨hp.fields, hp.toTold⟩, fun ⟨hfields, htold⟩ => ?_⟩
  exact {
    toTold := htold
    fields := hfields
    patternsGraded := Searcher.graded_patterns hd hpatterns
    groupsGraded := (Searcher.allYield_graded hd _ _).forall_groups hgrouping }

end Engine

end SkillAtlas
