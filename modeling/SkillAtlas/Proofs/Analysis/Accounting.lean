import SkillAtlas.Proofs.Analysis.Stages
import SkillAtlas.Proofs.Document.Keys
import SkillAtlas.Proofs.Grouping.Namesakes

/-!
# Where the units of a report are

A report puts no unit into two groups, and none into a group and among those that stand alone. Where no two
units share a name, and so in every document whose keys are texts, it leaves none out. A document with two
keys that read alike may lose a unit to its namesake.
-/

namespace SkillAtlas

open AnalyzedUnit (names)
/-- The members of all groups, and then what stands alone. -/
def Grouping.placed (r : Grouping) : List AnalyzedUnit :=
  r.groups.flatMap GroupProposal.members ++ r.standalone

lemma Grouping.names_placed (r : Grouping) :
    names r.placed = (r.groups.map GroupProposal.memberNames).flatten ++ names r.standalone := by
  simp only [placed, names, List.map_append, List.flatMap_def, List.map_flatten, List.map_map]
  rfl

namespace Engine

variable {e : Engine} {r : Request} {report : Report}

/-- The units of a report come from the entries of its document, and its groups from its units. -/
lemma stages_of_run (h : (e.run r).outcome = .ok report) :
    ∃ doc kind entries, Document.read r.text = .ok doc ∧
      (extract e.vocabulary kind doc).outcome = .ok entries ∧
      entries.mapM (e.analyzer r).unitOf = .ok report.units ∧
      (e.searcher.synthesize report.units (.ofUnits report.units) kind).outcome = .ok report.grouping := by
  obtain ⟨d, units, grouping, -, -, hd, hunits, hgrouping, -, -, rfl⟩ := exists_reportOf h
  obtain ⟨doc, hdoc, hentries⟩ := entries_of_load hd
  exact ⟨doc, d.kind, d.entries, hdoc, hentries, hunits, hgrouping⟩

/-- In a document whose keys are texts no two units share a name. -/
lemma nodup_names_of_run {doc : Entries} (h : (e.run r).outcome = .ok report)
    (hdoc : Document.read r.text = .ok doc) (ht : doc.Textual) : (names report.units).Nodup := by
  obtain ⟨read, kind, entries, hread, hentries, hunits, -⟩ := stages_of_run h
  obtain rfl : doc = read := Except.ok.inj (hdoc.symm.trans hread)
  rw [Analyzer.names_mapM_unitOf hunits]
  exact (names_of_extract hentries).nodup ((Document.distinct_read hdoc).nodup_text ht)

/-- The units of a report are placed at most once each, those that stand alone in the order of the
document, and a unit that has no place has a namesake in a group. So all have one place each if no two share
a name, and this is so when the keys of the document are texts. -/
theorem run_places_units (e : Engine) (r : Request) (report : Report)
    (h : (e.run r).outcome = .ok report) :
    report.grouping.Accounts report.units ∧
      ((names report.units).Nodup → report.grouping.placed.Perm report.units) ∧
      ∀ doc, Document.read r.text = .ok doc → doc.Textual →
        (names report.units).Nodup ∧ report.grouping.placed.Perm report.units := by
  obtain ⟨doc, kind, entries, -, -, -, hgrouping⟩ := stages_of_run h
  have haccounts := Searcher.accounts_of_synthesize hgrouping
  refine ⟨haccounts, haccounts.perm, fun doc hdoc ht => ?_⟩
  have hn := nodup_names_of_run h hdoc ht
  exact ⟨hn, haccounts.perm hn⟩

/-- What a report says of where its units are. -/
def places (report : Report) : List String × List (List String) × List String :=
  (names report.units, report.grouping.groups.map GroupProposal.memberNames,
    names report.grouping.standalone)

/-- A mob, its variant and another mob are placed once each. -/
theorem run_places_units_variant :
    let r : Request := { text := "Imp: \x7bHealth: 1\x7d\nImp_DUMMY: \x7bHealth: 1\x7d\nOx: \x7bHealth: 1\x7d\n" }
    ∃ report, (run {} r).outcome = .ok report ∧ report.grouping.placed.Perm report.units ∧
      places report = (["Imp", "Imp_DUMMY", "Ox"], [["Imp", "Imp_DUMMY"]], ["Ox"]) := by
  intro r
  have hread : (Document.read r.text).toOption.map (fun doc => doc.map fun e => e.1.kindName) =
      some ["str", "str", "str"] := by decide +kernel
  have hrun : (run {} r).outcome.toOption.map places =
      some (["Imp", "Imp_DUMMY", "Ox"], [["Imp", "Imp_DUMMY"]], ["Ox"]) := by decide +kernel
  cases hd : Document.read r.text with
  | error f => simp [hd, Except.toOption] at hread
  | ok doc =>
    have hkinds : (doc.map fun e => e.1.kindName) = ["str", "str", "str"] := by
      simpa [hd, Except.toOption] using hread
    have ht : doc.Textual := by
      rw [Entries.textual_iff, hkinds]
      decide
    cases ho : (run {} r).outcome with
    | error f => simp [ho, Except.toOption] at hrun
    | ok report =>
      obtain ⟨-, -, hplaced⟩ := run_places_units {} r report ho
      exact ⟨report, rfl, (hplaced doc hd ht).2, by simpa [ho, Except.toOption] using hrun⟩

/-- Of two mobs whose keys are the number `1` and the text `1`, one joins the variant that is named after
both, and the other has no place. -/
theorem run_drops_namesake :
    let r : Request := { text := "1: \x7bHealth: 1\x7d\n'1': \x7bHealth: 1\x7d\n1_DUMMY: \x7bHealth: 1\x7d\n" }
    ∃ report, (run {} r).outcome = .ok report ∧
      places report = (["1", "1", "1_DUMMY"], [["1", "1_DUMMY"]], []) ∧
      ¬ report.grouping.placed.Perm report.units := by
  intro r
  have hrun : (run {} r).outcome.toOption.map places =
      some (["1", "1", "1_DUMMY"], [["1", "1_DUMMY"]], []) := by decide +kernel
  cases ho : (run {} r).outcome with
  | error f => simp [ho, Except.toOption] at hrun
  | ok report =>
    have hplaces : places report = (["1", "1", "1_DUMMY"], [["1", "1_DUMMY"]], []) := by
      simpa [ho, Except.toOption] using hrun
    simp only [places, Prod.mk.injEq] at hplaces
    obtain ⟨hunits, hgroups, halone⟩ := hplaces
    refine ⟨report, rfl, by simp only [places, hunits, hgroups, halone], fun hp => ?_⟩
    have hnames : (names report.grouping.placed).Perm (names report.units) := hp.map _
    rw [Grouping.names_placed, hgroups, halone, hunits] at hnames
    exact absurd hnames.length_eq (by decide)

end Engine

end SkillAtlas
