import SkillAtlas.Proofs.Analysis.Accounting
import SkillAtlas.Template.Record

/-!
# Where the skill lines of a report are stored

The records of a grouping are made of the units that it places, so they hold the lines of all units and no
others. The lines of a unit stay together in one record: in the section that is named after the unit, or as
the lines of a record of its own.
-/

namespace SkillAtlas

open AnalyzedUnit (names)

/-- The lines of a unit as records hold them. -/
def AnalyzedUnit.lineValues (u : AnalyzedUnit) : List Value :=
  u.lines.map .str

/-- The units that each record of a grouping is made of, in the order of the records. -/
def Grouping.sources (g : Grouping) : List (List AnalyzedUnit) :=
  g.groups.map GroupProposal.members ++ g.standalone.map fun u => [u]

lemma Grouping.flatten_sources (g : Grouping) : g.sources.flatten = g.placed := by
  have halone : (g.standalone.map fun u => [u]).flatten = g.standalone := by
    rw [← List.flatMap_def]
    exact List.flatMap_singleton' g.standalone
  rw [sources, placed, List.flatten_append, halone, List.flatMap_def]

namespace TemplateRecord

variable {r : TemplateRecord} {us : List AnalyzedUnit} {u : AnalyzedUnit}

/-- The section of a member of a group. -/
def unitSection (u : AnalyzedUnit) : TemplateSection :=
  ⟨.str u.name, u.lineValues⟩

/-- The record is made of these units: of sections for several, or of the lines of one. -/
inductive MadeOf (r : TemplateRecord) : List AnalyzedUnit → Prop where
  | sections {us : List AnalyzedUnit} (lines : r.skillLines = []) (sections : r.sections = us.map unitSection) :
      MadeOf r us
  | single {u : AnalyzedUnit} (lines : r.skillLines = u.lineValues) (sections : r.sections = []) :
      MadeOf r [u]

/-- The record holds the lines of a unit: in the only section that is named after it, or as its own lines
and without sections. -/
inductive Holds (r : TemplateRecord) (u : AnalyzedUnit) : Prop where
  | named (lines : r.skillLines = []) (here : unitSection u ∈ r.sections)
      (only : ∀ s ∈ r.sections, s.name = .str u.name → s = unitSection u)
  | own (lines : r.skillLines = u.lineValues) (sections : r.sections = [])

lemma madeOf_ofGrouping (g : Grouping) : List.Forall₂ MadeOf (ofGrouping g) g.sources := by
  refine List.rel_append ?_ ?_
  · rw [List.forall₂_map_left_iff, List.forall₂_map_right_iff]
    exact List.forall₂_same.mpr fun p _ => .sections rfl rfl
  · rw [List.forall₂_map_left_iff, List.forall₂_map_right_iff]
    exact List.forall₂_same.mpr fun u _ => .single rfl rfl

lemma MadeOf.allLines (h : r.MadeOf us) : r.allLines = us.flatMap AnalyzedUnit.lineValues := by
  cases h with
  | sections lines sections =>
    rw [TemplateRecord.allLines, lines, sections, List.flatMap_map]
    rfl
  | single lines sections =>
    rw [TemplateRecord.allLines, lines, sections]
    simp

lemma MadeOf.infix (h : r.MadeOf us) (hu : u ∈ us) : u.lineValues <:+: r.allLines := by
  obtain ⟨before, after, rfl⟩ := List.append_of_mem hu
  rw [h.allLines, List.flatMap_append, List.flatMap_cons]
  exact ⟨_, _, List.append_assoc _ _ _⟩

/-- Only the section of a unit is named after it if no two units share a name. -/
lemma eq_unitSection (hn : (names us).Nodup) (hu : u ∈ us) {s : TemplateSection}
    (hs : s ∈ us.map unitSection) (hname : s.name = .str u.name) : s = unitSection u := by
  obtain ⟨v, hv, rfl⟩ := List.mem_map.mp hs
  rw [List.inj_on_of_nodup_map hn hv hu (Value.str.inj hname)]

lemma MadeOf.holds (h : r.MadeOf us) (hn : (names us).Nodup) (hu : u ∈ us) : r.Holds u := by
  cases h with
  | sections lines sections =>
    refine .named lines ?_ ?_
    · rw [sections]
      exact List.mem_map_of_mem hu
    · rw [sections]
      exact fun s hs hname => eq_unitSection hn hu hs hname
  | single lines sections =>
    obtain rfl := List.mem_singleton.mp hu
    exact .own lines sections

/-- A section that is named after a unit is made of a unit of that name. -/
lemma MadeOf.exists_named (h : r.MadeOf us) {s : TemplateSection} (hs : s ∈ r.sections) :
    ∃ v ∈ us, s = unitSection v := by
  cases h with
  | sections lines sections =>
    rw [sections] at hs
    obtain ⟨v, hv, rfl⟩ := List.mem_map.mp hs
    exact ⟨v, hv, rfl⟩
  | single lines sections => simp [sections] at hs

lemma flatMap_allLines {records : List TemplateRecord} {sources : List (List AnalyzedUnit)}
    (h : List.Forall₂ MadeOf records sources) :
    records.flatMap TemplateRecord.allLines = sources.flatten.flatMap AnalyzedUnit.lineValues := by
  induction h with
  | nil => rfl
  | cons hmade _ ih => rw [List.flatMap_cons, hmade.allLines, ih, List.flatten_cons, List.flatMap_append]

end TemplateRecord

/-- The record at a place is made of the unit, with others or alone, and holds its lines in one piece. -/
def Grouping.StoresAt (g : Grouping) (u : AnalyzedUnit) (i : Nat) : Prop :=
  ∃ us record, g.sources[i]? = some us ∧ u ∈ us ∧ (TemplateRecord.ofGrouping g)[i]? = some record ∧
    record.Holds u ∧ u.lineValues <:+: record.allLines

/-- Lists that share no item have none at two places. -/
lemma place_unique {parts : List (List AnalyzedUnit)} {us vs : List AnalyzedUnit} {u : AnalyzedUnit}
    {i j : Nat} (hn : parts.flatten.Nodup) (hi : parts[i]? = some us) (hj : parts[j]? = some vs)
    (hu : u ∈ us) (hv : u ∈ vs) : i = j := by
  obtain ⟨hil, rfl⟩ := List.getElem?_eq_some_iff.mp hi
  obtain ⟨hjl, rfl⟩ := List.getElem?_eq_some_iff.mp hj
  have hdisjoint := (List.nodup_flatten.mp hn).2
  rcases Nat.lt_trichotomy i j with hlt | heq | hgt
  · exact absurd hv (List.pairwise_iff_getElem.mp hdisjoint i j hil hjl hlt hu)
  · exact heq
  · exact absurd hu (List.pairwise_iff_getElem.mp hdisjoint j i hjl hil hgt hv)

namespace Grouping

variable {g : Grouping} {units us : List AnalyzedUnit} {u : AnalyzedUnit} {record : TemplateRecord} {i : Nat}

/-- The record at a place, and the units that it is made of. -/
lemma madeOf_at (hr : (TemplateRecord.ofGrouping g)[i]? = some record) :
    ∃ us, g.sources[i]? = some us ∧ record.MadeOf us := by
  have hmade := TemplateRecord.madeOf_ofGrouping g
  obtain ⟨hi, rfl⟩ := List.getElem?_eq_some_iff.mp hr
  have hi' : i < g.sources.length := hmade.length_eq ▸ hi
  exact ⟨g.sources[i], List.getElem?_eq_getElem hi', hmade.get hi hi'⟩

lemma exists_record (hs : g.sources[i]? = some us) :
    ∃ record, (TemplateRecord.ofGrouping g)[i]? = some record ∧ record.MadeOf us := by
  have hmade := TemplateRecord.madeOf_ofGrouping g
  obtain ⟨hi', rfl⟩ := List.getElem?_eq_some_iff.mp hs
  have hi : i < (TemplateRecord.ofGrouping g).length := hmade.length_eq ▸ hi'
  exact ⟨(TemplateRecord.ofGrouping g)[i], List.getElem?_eq_getElem hi, hmade.get hi hi'⟩

lemma nodup_source (hp : g.placed.Perm units) (hn : (names units).Nodup) (hs : g.sources[i]? = some us) :
    (names us).Nodup := by
  have hflat : (names g.sources.flatten).Nodup := by
    rw [flatten_sources]
    exact (hp.map _).nodup_iff.mpr hn
  have hsub : us.Sublist g.sources.flatten := List.sublist_flatten_of_mem (List.mem_of_getElem? hs)
  exact hflat.sublist (hsub.map _)

lemma storesAt_of_mem (hp : g.placed.Perm units) (hn : (names units).Nodup) (hs : g.sources[i]? = some us)
    (hu : u ∈ us) : g.StoresAt u i := by
  obtain ⟨record, hr, hmade⟩ := exists_record hs
  exact ⟨us, record, hs, hu, hr, hmade.holds (nodup_source hp hn hs) hu, hmade.infix hu⟩

lemma existsUnique_storesAt (hp : g.placed.Perm units) (hn : (names units).Nodup) (hu : u ∈ units) :
    ∃! i, g.StoresAt u i := by
  have hflat : g.sources.flatten.Perm units := by
    rw [flatten_sources]
    exact hp
  obtain ⟨us, hs, hus⟩ := List.mem_flatten.mp (hflat.mem_iff.mpr hu)
  obtain ⟨i, hi⟩ := List.getElem?_of_mem hs
  refine ⟨i, storesAt_of_mem hp hn hi hus, ?_⟩
  rintro j ⟨vs, -, hj, hvs, -⟩
  exact place_unique (hflat.nodup_iff.mpr (List.Nodup.of_map _ hn)) hj hi hvs hus

/-- A section that bears the name of a unit is the section of the unit. -/
lemma storesAt_of_named (hp : g.placed.Perm units) (hn : (names units).Nodup) (hu : u ∈ units)
    (hr : (TemplateRecord.ofGrouping g)[i]? = some record) {s : TemplateSection} (hs : s ∈ record.sections)
    (hname : s.name = .str u.name) : s = TemplateRecord.unitSection u ∧ g.StoresAt u i := by
  obtain ⟨us, hi, hmade⟩ := madeOf_at hr
  obtain ⟨v, hv, rfl⟩ := hmade.exists_named hs
  have hvu : v ∈ units := by
    rw [← hp.mem_iff, ← flatten_sources]
    exact List.mem_flatten.mpr ⟨us, List.mem_of_getElem? hi, hv⟩
  obtain rfl : v = u := List.inj_on_of_nodup_map hn hvu hu (Value.str.inj hname)
  exact ⟨rfl, storesAt_of_mem hp hn hi hv⟩

end Grouping

/-- The records of a report in which no two units share a name hold the lines of its units, each as often as
the units do. The lines of a unit are in one piece in exactly one record, and every section that bears the
name of the unit is the one with its lines. -/
theorem Engine.records_hold_lines (e : Engine) (r : Request) (report : Report)
    (h : (e.run r).outcome = .ok report) (hn : (names report.units).Nodup) :
    ((TemplateRecord.ofGrouping report.grouping).flatMap TemplateRecord.allLines).Perm
        (report.units.flatMap AnalyzedUnit.lineValues) ∧
      ∀ u ∈ report.units, (∃! i, report.grouping.StoresAt u i) ∧
        ∀ i record, (TemplateRecord.ofGrouping report.grouping)[i]? = some record →
          ∀ s ∈ record.sections, s.name = .str u.name →
            s = TemplateRecord.unitSection u ∧ report.grouping.StoresAt u i := by
  obtain ⟨-, kind, -, -, -, -, hgrouping⟩ := stages_of_run h
  have hp : report.grouping.placed.Perm report.units := (Searcher.accounts_of_synthesize hgrouping).perm hn
  constructor
  · rw [TemplateRecord.flatMap_allLines (TemplateRecord.madeOf_ofGrouping report.grouping),
      Grouping.flatten_sources]
    exact hp.flatMap_right _
  · intro u hu
    exact ⟨Grouping.existsUnique_storesAt hp hn hu,
      fun i record hr s hs hname => Grouping.storesAt_of_named hp hn hu hr hs hname⟩

/-- A vocabulary that knows one suffix of satellites. -/
def tickVocabulary : Vocabulary :=
  { (default : Vocabulary) with lifecycleSuffixes := ["Tick"] }

/-- A skill, its satellite and a skill of its own: the first two are stored as sections of one record. -/
theorem Engine.records_hold_lines_satellite :
    let e : Engine := { vocabulary := tickVocabulary }
    let r : Request :=
      { text := "Bolt: \x7bSkills: [a]\x7d\nOx: \x7bSkills: [a]\x7d\nBolt-Tick: \x7bSkills: [b, c]\x7d\n" }
    ∃ report, (e.run r).outcome = .ok report ∧ (names report.units).Nodup ∧
      (report.units.map AnalyzedUnit.lines, report.grouping.sources.map names) =
        ([["a"], ["a"], ["b", "c"]], [["Bolt", "Bolt-Tick"], ["Ox"]]) ∧
      ∀ u ∈ report.units, ∃! i, report.grouping.StoresAt u i := by
  intro e r
  have hrun : (e.run r).outcome.toOption.map (fun report => (names report.units,
      report.units.map AnalyzedUnit.lines, report.grouping.sources.map names)) =
      some (["Bolt", "Ox", "Bolt-Tick"], [["a"], ["a"], ["b", "c"]], [["Bolt", "Bolt-Tick"], ["Ox"]]) := by
    decide +kernel
  cases ho : (e.run r).outcome with
  | error f => simp [ho, Except.toOption] at hrun
  | ok report =>
    simp only [ho, Except.toOption, Option.map_some, Option.some.injEq, Prod.mk.injEq] at hrun
    obtain ⟨hnames, hlines, hsources⟩ := hrun
    have hn : (names report.units).Nodup := by
      rw [hnames]
      decide
    refine ⟨report, rfl, hn, by rw [hlines, hsources], fun u hu => ?_⟩
    exact ((Engine.records_hold_lines e r report ho hn).2 u hu).1

end SkillAtlas
