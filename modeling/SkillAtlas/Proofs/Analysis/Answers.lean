import SkillAtlas.Proofs.Document.Extraction
import SkillAtlas.Proofs.Grouping.Answers
import SkillAtlas.Proofs.Units.Score

/-!
# What an analysis answers

With settings that it can compute with, an analysis answers every request whose text can be read: with a
report, or with a failure that says what is wrong with the request. A malformed text is such a failure too.
The faults that are none come from reading alone: a code point or a text with a tag that has no value.
-/

namespace SkillAtlas

open Fault (bind_eq_ok)

/-- Settings that an analysis can compute with. -/
structure Settings.Usable (s : Settings) : Prop where
  complexity : s.complexity.Whole
  detectors : s.detectors.Numeric
  diagnostics : s.diagnostics.highComplexityMinLines.number?.isSome

lemma Settings.usable_usual : ({} : Settings).Usable where
  complexity := ComplexitySettings.whole_usual
  detectors := DetectorSettings.numeric_usual
  diagnostics := rfl

namespace DiagnosticsSettings

variable {s : DiagnosticsSettings}

/-- The score of a unit can be told, if a finding tells it. -/
def TellsScore (s : DiagnosticsSettings) (u : AnalyzedUnit) : Prop :=
  u.tier = .expert → s.highComplexityMinLines.less (.int u.lineCount) = .ok true → u.score.isTold = true

lemma complexityFindings_cases (h : s.highComplexityMinLines.number?.isSome) (u : AnalyzedUnit) :
    s.TellsScore u ∧ (∃ found, complexityFindings s u = .ok found) ∨
      ¬ s.TellsScore u ∧ complexityFindings s u = .error .badValue := by
  obtain ⟨long, hlong⟩ := Value.less_int_eq_ok u.lineCount h
  unfold complexityFindings TellsScore
  rw [hlong]
  by_cases htier : u.tier = .expert
  · cases long with
    | false => exact Or.inl ⟨by simp, _, by simp [htier, bind, Except.bind]; rfl⟩
    | true =>
      cases ht : u.score.isTold with
      | true => exact Or.inl ⟨fun _ _ => rfl, _, by simp [htier, bind, Except.bind, Value.told, ht]; rfl⟩
      | false => exact Or.inr ⟨by simp [htier], by simp [htier, bind, Except.bind, Value.told, ht]⟩
  · exact Or.inl ⟨fun he => absurd he htier, _, if_pos (by simpa using htier)⟩

lemma unitFindings_cases (h : s.highComplexityMinLines.number?.isSome) (units : List AnalyzedUnit) :
    (∀ u ∈ units, s.TellsScore u) ∧ (∃ findings, unitFindings s units = .ok findings) ∨
      (∃ u ∈ units, ¬ s.TellsScore u) ∧ unitFindings s units = .error .badValue := by
  induction units with
  | nil => exact Or.inl ⟨by simp, [], rfl⟩
  | cons u rest ih =>
    rw [unitFindings, List.forall_mem_cons]
    rcases complexityFindings_cases h u with ⟨hu, found, hfound⟩ | ⟨hu, hfails⟩
    · rw [hfound]
      rcases ih with ⟨hrest, findings, hfindings⟩ | ⟨⟨other, hother, hnot⟩, hfails⟩
      · exact Or.inl ⟨⟨hu, hrest⟩, _, by rw [hfindings]; rfl⟩
      · exact Or.inr ⟨⟨other, List.mem_cons_of_mem u hother, hnot⟩, by rw [hfails]; rfl⟩
    · exact Or.inr ⟨⟨u, List.mem_cons_self, hu⟩, by rw [hfails]; rfl⟩

end DiagnosticsSettings

/-- Entries give units unless the cooldown of one cannot be told. -/
lemma Analyzer.mapM_unitOf_cases {a : Analyzer} (hw : a.complexity.Whole) (entries : List Entry) :
    (∀ entry ∈ entries, entry.cooldown.isTold = true) ∧ (∃ units, entries.mapM a.unitOf = .ok units) ∨
      (∃ entry ∈ entries, entry.cooldown.isTold = false) ∧ entries.mapM a.unitOf = .error .badValue := by
  induction entries with
  | nil => exact Or.inl ⟨by simp, [], rfl⟩
  | cons entry rest ih =>
    rw [List.mapM_cons, List.forall_mem_cons]
    cases ht : entry.cooldown.isTold with
    | true =>
      obtain ⟨u, hu, -⟩ := exists_unitOf hw ht
      rw [hu]
      rcases ih with ⟨hrest, units, hunits⟩ | ⟨⟨other, hother, hnot⟩, hfails⟩
      · exact Or.inl ⟨⟨rfl, hrest⟩, _, by rw [hunits]; rfl⟩
      · exact Or.inr ⟨⟨other, List.mem_cons_of_mem entry hother, hnot⟩, by rw [hfails]; rfl⟩
    | false => exact Or.inr ⟨⟨entry, List.mem_cons_self, ht⟩, by rw [unitOf_of_not_told ht]; rfl⟩

namespace Engine

variable {e : Engine}

/-- Units that are not too many give a report, unless a finding cannot tell the score of one. -/
lemma report_cases (hs : e.settings.Usable) (d : Document) {units : List AnalyzedUnit}
    (hlen : units.length < 2 ^ 63) :
    (∀ u ∈ units, e.settings.diagnostics.TellsScore u) ∧ (∃ report, (e.report d units).outcome = .ok report) ∨
      (∃ u ∈ units, ¬ e.settings.diagnostics.TellsScore u) ∧ (e.report d units).outcome = .error .badValue := by
  have hready : e.searcher.Ready units := ⟨hs.detectors, hlen⟩
  obtain ⟨grouping, hgrouping⟩ := Searcher.synthesize_answers hready (.ofUnits units) d.kind
  obtain ⟨patterns, hpatterns⟩ := Searcher.namingPatterns_answers hready d.kind
  rw [outcome_report, hgrouping]
  simp only [Except.bind, hpatterns]
  rcases DiagnosticsSettings.unitFindings_cases hs.diagnostics units with
    ⟨htold, findings, hfindings⟩ | ⟨hnot, hfails⟩
  · exact Or.inl ⟨htold, _, by rw [hfindings]; rfl⟩
  · exact Or.inr ⟨hnot, by rw [hfails]; rfl⟩

/-- What keeps the units of a document from being told: a number of too many digits where a text is asked
for. -/
inductive Untellable (e : Engine) (r : Request) (asked : Option ContextKind) (doc : Entries) : Prop where
  /-- no key can be told that decides the kind -/
  | kind (h : (Document.kindFor e.vocabulary doc asked).outcome = .error .badValue)
  /-- a key, or the unit that is called on cooldown -/
  | entry {kind : ContextKind} (hk : (Document.kindFor e.vocabulary doc asked).outcome = .ok kind)
      (h : (extract e.vocabulary kind doc).outcome = .error .badValue)
  | cooldown {kind : ContextKind} {entries : List Entry} {entry : Entry}
      (hk : (Document.kindFor e.vocabulary doc asked).outcome = .ok kind)
      (he : (extract e.vocabulary kind doc).outcome = .ok entries) (hmem : entry ∈ entries)
      (h : entry.cooldown.isTold = false)
  /-- the score in a finding -/
  | score {kind : ContextKind} {entries : List Entry} {units : List AnalyzedUnit} {u : AnalyzedUnit}
      (hk : (Document.kindFor e.vocabulary doc asked).outcome = .ok kind)
      (he : (extract e.vocabulary kind doc).outcome = .ok entries)
      (hunits : entries.mapM (e.analyzer r).unitOf = .ok units) (hmem : u ∈ units)
      (h : ¬ e.settings.diagnostics.TellsScore u)

/-- What an analysis answers to a request: which failure it reports, and when it gives a report. -/
inductive Answers (e : Engine) (r : Request) : Outcome → Prop where
  | unknownContext {given : String} (hc : r.context = some given) (hn : ContextKind.ofName? given = none) :
      Answers e r (.failure ⟨"structural", unknownContextMessage given⟩)
  | unreadable {asked : Option ContextKind} (hk : r.kind? = .ok asked)
      (hv : Yaml.read r.text = .error .malformed) :
      Answers e r (.failure ⟨"structural", "YAML parsing failed: " ++ malformedNote⟩)
  | empty {asked : Option ContextKind} (hk : r.kind? = .ok asked)
      (hv : Yaml.read r.text = .ok .null ∨ Yaml.read r.text = .ok (.map [])) :
      Answers e r (.failure ⟨"structural", "Document is empty"⟩)
  | notMapping {asked : Option ContextKind} {v : Value} (hk : r.kind? = .ok asked)
      (hv : Yaml.read r.text = .ok v) (hnull : v ≠ .null) (hmap : ∀ es, v ≠ .map es) :
      Answers e r (.failure ⟨"structural", (StructureFault.notMapping v.kindName).message⟩)
  | noUnits {asked : Option ContextKind} {doc : Entries} {kind : ContextKind} (hk : r.kind? = .ok asked)
      (hv : Yaml.read r.text = .ok (.map doc)) (hdoc : doc ≠ [])
      (hkind : (Document.kindFor e.vocabulary doc asked).outcome = .ok kind)
      (hnone : (extract e.vocabulary kind doc).outcome = .ok []) :
      Answers e r (.failure ⟨"no-content", noUnitsMessage kind⟩)
  | report {asked : Option ContextKind} {doc : Entries} {kind : ContextKind} {entries : List Entry}
      {report : Report} (hk : r.kind? = .ok asked) (hv : Yaml.read r.text = .ok (.map doc))
      (hkind : (Document.kindFor e.vocabulary doc asked).outcome = .ok kind)
      (hsome : (extract e.vocabulary kind doc).outcome = .ok entries) (hne : entries ≠ [])
      (hrun : (e.run r).outcome = .ok report) : Answers e r (.report report)

/-- What escapes from an analysis. -/
inductive Escapes (e : Engine) (r : Request) : Fault → Prop where
  /-- the text has no value and is not just malformed -/
  | unreadable {asked : Option ContextKind} {f : Fault} (hk : r.kind? = .ok asked)
      (hv : Yaml.read r.text = .error f) (hf : f ≠ .malformed) : Escapes e r f
  | untellable {asked : Option ContextKind} {doc : Entries} (hk : r.kind? = .ok asked)
      (hv : Yaml.read r.text = .ok (.map doc)) (hdoc : doc ≠ []) (h : e.Untellable r asked doc) :
      Escapes e r .badValue

variable {r : Request} {asked : Option ContextKind}

lemma analyze_of_run {report : Report} (h : (e.run r).outcome = .ok report) :
    (e.analyze r).outcome = .ok (.report report) := by
  unfold analyze
  dsimp only
  rw [h]

lemma analyze_of_failure {f : Fault} {failure : Failure} (h : (e.run r).outcome = .error f)
    (hf : f.failure? = some failure) : (e.analyze r).outcome = .ok (.failure failure) := by
  unfold analyze
  dsimp only
  rw [h]
  dsimp only
  rw [hf]

lemma analyze_of_fault {f : Fault} (h : (e.run r).outcome = .error f)
    (hf : f.failure? = none) : (e.analyze r).outcome = .error f := by
  unfold analyze
  dsimp only
  rw [h]
  dsimp only
  rw [hf]

lemma run_of_kind?_error {f : Fault} (h : r.kind? = .error f) : (e.run r).outcome = .error f := by
  rw [outcome_run, outcome_load, h]
  rfl

lemma run_of_kind (hk : r.kind? = .ok asked) :
    (e.run r).outcome = (Document.read r.text).bind fun doc =>
      (Document.ofEntries e.vocabulary r.text doc asked).bind fun d =>
        (d.entries.mapM (e.analyzer r).unitOf).bind fun units => (e.report d units).outcome := by
  rw [outcome_run, outcome_load, hk]
  simp only [Except.bind]
  cases Document.read r.text <;> rfl

lemma run_of_read_error {f : Fault} (hk : r.kind? = .ok asked) (h : Document.read r.text = .error f) :
    (e.run r).outcome = .error f := by
  rw [run_of_kind hk, h]
  rfl

end Engine

namespace Document

lemma read_of_map {text : String} {doc : Entries} (h : Yaml.read text = .ok (.map doc)) (hdoc : doc ≠ []) :
    Document.read text = .ok doc := by
  unfold Document.read
  rw [h]
  cases doc with
  | nil => exact absurd rfl hdoc
  | cons first rest => rfl

lemma read_of_other {text : String} {v : Value} (h : Yaml.read text = .ok v) (hnull : v ≠ .null)
    (hmap : ∀ es, v ≠ .map es) : Document.read text = .error (.structural (.notMapping v.kindName)) := by
  unfold Document.read
  rw [h]
  cases v <;> first | rfl | exact absurd rfl hnull | exact absurd rfl (hmap _)

/-- A text without a value is no document, for the same reason unless it is malformed. -/
lemma read_of_error {text : String} {f : Fault} (h : Yaml.read text = .error f) (hf : f ≠ .malformed) :
    Document.read text = .error f := by
  unfold Document.read
  rw [h]
  cases f <;> first | rfl | exact absurd rfl hf

lemma kindFor_error {v : Vocabulary} {doc : Entries} {asked : Option ContextKind} {f : Fault}
    (h : (kindFor v doc asked).outcome = .error f) : f = .badValue := by
  cases asked with
  | some kind => cases h
  | none =>
    unfold kindFor classify at h
    cases ht : tally v doc with
    | error g =>
      rw [ht] at h
      obtain rfl := Except.error.inj h
      exact failsBy_tally v doc _ ht
    | ok t =>
      rw [ht] at h
      cases h

end Document

lemma Yaml.Unreadable.failure? {text : String} {f : Fault} (h : Yaml.Unreadable (.ofText text) f) :
    f.failure? = none := by
  rcases h.cases_text with h | h <;> cases h <;> rfl

lemma Request.kind?_cases (r : Request) :
    (∃ asked, r.kind? = .ok asked) ∨ ∃ given, r.context = some given ∧ ContextKind.ofName? given = none := by
  unfold Request.kind? ContextKind.requested
  cases hc : r.context with
  | none => exact Or.inl ⟨none, rfl⟩
  | some given =>
    cases hn : ContextKind.ofName? given with
    | some kind => exact Or.inl ⟨some kind, by simp only [hn]⟩
    | none => exact Or.inr ⟨given, rfl, hn⟩

lemma Request.kind?_of_unknown {r : Request} {given : String} (hc : r.context = some given)
    (hn : ContextKind.ofName? given = none) : r.kind? = .error (.structural (.unknownContext given)) := by
  simp only [Request.kind?, ContextKind.requested, hc, hn]

namespace Engine

variable {e : Engine} {r : Request} {asked : Option ContextKind} {doc : Entries}

lemma ofEntries_of_extract {kind : ContextKind} {entries : List Entry} (text : String)
    (hk : (Document.kindFor e.vocabulary doc asked).outcome = .ok kind)
    (he : (extract e.vocabulary kind doc).outcome = .ok entries) :
    Document.ofEntries e.vocabulary text doc asked =
      if entries.isEmpty then .error (.noUnits kind)
      else .ok { kind, entries, totalLines := (Text.linesOf text).length } := by
  unfold Document.ofEntries
  rw [hk, Except.bind, he, Except.bind]

lemma outcome_of_answers {answer : Outcome} (h : e.Answers r answer) :
    (e.analyze r).outcome = .ok answer := by
  cases h with
  | unknownContext hc hn =>
    exact analyze_of_failure (run_of_kind?_error (Request.kind?_of_unknown hc hn)) rfl
  | unreadable hk hv =>
    have hread : Document.read r.text = .error (.structural .unreadable) := by
      unfold Document.read
      rw [hv]
    exact analyze_of_failure (run_of_read_error hk hread) rfl
  | empty hk hv =>
    have hread : Document.read r.text = .error (.structural .empty) := by
      unfold Document.read
      rcases hv with hv | hv <;> rw [hv]
    exact analyze_of_failure (run_of_read_error hk hread) rfl
  | notMapping hk hv hnull hmap =>
    exact analyze_of_failure (run_of_read_error hk (Document.read_of_other hv hnull hmap)) rfl
  | noUnits hk hv hdoc hkind hnone =>
    refine analyze_of_failure (f := .noUnits _) ?_ rfl
    rw [run_of_kind hk, Document.read_of_map hv hdoc]
    simp only [Except.bind, ofEntries_of_extract r.text hkind hnone]
    rfl
  | report _ _ _ _ _ hrun => exact analyze_of_run hrun

lemma run_of_map (hk : r.kind? = .ok asked) (hv : Yaml.read r.text = .ok (.map doc)) (hdoc : doc ≠ []) :
    (e.run r).outcome = (Document.ofEntries e.vocabulary r.text doc asked).bind fun d =>
      (d.entries.mapM (e.analyzer r).unitOf).bind fun units => (e.report d units).outcome := by
  rw [run_of_kind hk, Document.read_of_map hv hdoc]
  rfl

lemma run_of_entries {kind : ContextKind} {entries : List Entry} (hk : r.kind? = .ok asked)
    (hv : Yaml.read r.text = .ok (.map doc)) (hdoc : doc ≠ [])
    (hkind : (Document.kindFor e.vocabulary doc asked).outcome = .ok kind)
    (he : (extract e.vocabulary kind doc).outcome = .ok entries) (hne : entries ≠ []) :
    (e.run r).outcome = (entries.mapM (e.analyzer r).unitOf).bind fun units =>
      (e.report ⟨kind, entries, (Text.linesOf r.text).length⟩ units).outcome := by
  rw [run_of_map hk hv hdoc, ofEntries_of_extract r.text hkind he,
    if_neg fun hempty => hne (List.isEmpty_iff.mp hempty)]
  rfl

lemma length_of_extract {kind : ContextKind} {entries : List Entry} {units : List AnalyzedUnit}
    (he : (extract e.vocabulary kind doc).outcome = .ok entries)
    (hu : entries.mapM (e.analyzer r).unitOf = .ok units) : units.length ≤ doc.length := by
  have hnames := congrArg List.length (Analyzer.names_mapM_unitOf hu)
  have hle := (names_of_extract he).length_le
  rw [AnalyzedUnit.names, List.length_map, List.length_map] at hnames
  rw [List.length_map, List.length_map] at hle
  omega

/-- A document that is not told has no report. -/
lemma run_of_untellable (hs : e.settings.Usable) (hk : r.kind? = .ok asked)
    (hv : Yaml.read r.text = .ok (.map doc)) (hdoc : doc ≠ []) (hlen : doc.length < 2 ^ 63)
    (h : e.Untellable r asked doc) : (e.run r).outcome = .error .badValue := by
  cases h with
  | kind hkind =>
    rw [run_of_map hk hv hdoc, Document.ofEntries, hkind]
    rfl
  | entry hkind he =>
    rw [run_of_map hk hv hdoc, Document.ofEntries, hkind, Except.bind, he]
    rfl
  | cooldown hkind he hmem hnot =>
    rw [run_of_entries hk hv hdoc hkind he (List.ne_nil_of_mem hmem)]
    rcases Analyzer.mapM_unitOf_cases hs.complexity (a := e.analyzer r) _ with ⟨htold, -⟩ | ⟨-, hfails⟩
    · rw [htold _ hmem] at hnot
      cases hnot
    · rw [hfails]
      rfl
  | @score kind entries units u hkind he hu hmem hnot =>
    have hne : entries ≠ [] := by
      rintro rfl
      obtain rfl := Except.ok.inj hu
      simp at hmem
    rw [run_of_entries hk hv hdoc hkind he hne, hu]
    rcases report_cases hs ⟨kind, entries, (Text.linesOf r.text).length⟩
      (lt_of_le_of_lt (length_of_extract he hu) hlen) with ⟨htold, -⟩ | ⟨-, hfails⟩
    · exact absurd (htold u hmem) hnot
    · exact hfails

lemma answers_of_map (hs : e.settings.Usable) (hk : r.kind? = .ok asked)
    (hv : Yaml.read r.text = .ok (.map doc)) (hdoc : doc ≠ []) (hlen : doc.length < 2 ^ 63) :
    (∃ answer, e.Answers r answer) ∨ e.Untellable r asked doc := by
  cases hkind : (Document.kindFor e.vocabulary doc asked).outcome with
  | error f => exact Or.inr (.kind (hkind.trans (by rw [Document.kindFor_error hkind])))
  | ok kind =>
    cases he : (extract e.vocabulary kind doc).outcome with
    | error f => exact Or.inr (.entry hkind (he.trans (by rw [extract_error he])))
    | ok entries =>
      by_cases hne : entries = []
      · exact Or.inl ⟨_, .noUnits hk hv hdoc hkind (hne ▸ he)⟩
      have hrun := run_of_entries hk hv hdoc hkind he hne
      rcases Analyzer.mapM_unitOf_cases hs.complexity (a := e.analyzer r) entries with
        ⟨-, units, hunits⟩ | ⟨⟨entry, hmem, hnot⟩, -⟩
      · rw [hunits] at hrun
        rcases report_cases hs ⟨kind, entries, (Text.linesOf r.text).length⟩
          (lt_of_le_of_lt (length_of_extract he hunits) hlen) with ⟨-, report, hreport⟩ | ⟨⟨u, hmem, hnot⟩, -⟩
        · exact Or.inl ⟨_, .report hk hv hkind he hne (hrun.trans hreport)⟩
        · exact Or.inr (.score hkind he hunits hmem hnot)
      · exact Or.inr (.cooldown hkind he hmem hnot)

/-- Each request has an answer, or something escapes. -/
lemma answers_or_escapes (hs : e.settings.Usable)
    (hlen : ∀ doc, Yaml.read r.text = .ok (.map doc) → doc.length < 2 ^ 63) :
    (∃ answer, e.Answers r answer) ∨ ∃ f, e.Escapes r f := by
  rcases r.kind?_cases with ⟨asked, hk⟩ | ⟨given, hc, hn⟩
  · cases hv : Yaml.read r.text with
    | error f =>
      by_cases hf : f = .malformed
      · exact Or.inl ⟨_, .unreadable hk (hf ▸ hv)⟩
      · exact Or.inr ⟨f, .unreadable hk hv hf⟩
    | ok v =>
      by_cases hmap : ∃ doc, v = .map doc
      · obtain ⟨doc, rfl⟩ := hmap
        by_cases hdoc : doc = []
        · exact Or.inl ⟨_, .empty hk (Or.inr (hdoc ▸ hv))⟩
        · exact (answers_of_map hs hk hv hdoc (hlen doc hv)).imp_right fun hnot =>
            ⟨.badValue, .untellable hk hv hdoc hnot⟩
      · by_cases hnull : v = .null
        · exact Or.inl ⟨_, .empty hk (Or.inl (hnull ▸ hv))⟩
        · exact Or.inl ⟨_, .notMapping hk hv hnull fun es he => hmap ⟨es, he⟩⟩
  · exact Or.inl ⟨_, .unknownContext hc hn⟩

lemma outcome_of_escapes {f : Fault} (hs : e.settings.Usable)
    (hlen : ∀ doc, Yaml.read r.text = .ok (.map doc) → doc.length < 2 ^ 63) (h : e.Escapes r f) :
    (e.analyze r).outcome = .error f := by
  cases h with
  | unreadable hk hv hf =>
    exact analyze_of_fault (run_of_read_error hk (Document.read_of_error hv hf))
      (Yaml.unreadable_of_readFrom hv).failure?
  | untellable hk hv hdoc h => exact analyze_of_fault (run_of_untellable hs hk hv hdoc (hlen _ hv) h) rfl

/-- Where no number has too many digits, all can be told but for a score. -/
lemma Untellable.of_isTold (h : e.Untellable r asked doc)
    (ht : (Value.map doc).isTold = true) :
    ∃ entry u, (e.analyzer r).unitOf entry = .ok u ∧ ¬ e.settings.diagnostics.TellsScore u := by
  cases h with
  | kind h =>
    cases asked with
    | some kind => cases h
    | none =>
      unfold Document.kindFor classify at h
      rw [tally_eq fun data hd e he => (isTold_of_mem_definitions ht hd e he).1] at h
      cases h
  | entry hk h =>
    obtain ⟨entries, hentries⟩ := exists_extract_of_isTold e.vocabulary _ ht
    rw [hentries] at h
    cases h
  | cooldown hk he hmem hnot =>
    rcases cooldown_of_extract he hmem with ⟨-, hnull⟩ | ⟨-, -, data, hd, hcooldown⟩
    · rw [hnull] at hnot
      cases hnot
    · rw [isTold_of_anyCase (fun e he => (isTold_of_mem_definitions ht hd e he).2) hcooldown] at hnot
      cases hnot
  | score hk he hunits hmem hnot =>
    exact Fault.forall_of_mapM (P := fun u => ¬ e.settings.diagnostics.TellsScore u →
      ∃ entry u, (e.analyzer r).unitOf entry = .ok u ∧ ¬ e.settings.diagnostics.TellsScore u)
      (fun entry _ u hu hnot => ⟨entry, u, hu, hnot⟩) hunits _ hmem hnot

end Engine

end SkillAtlas
