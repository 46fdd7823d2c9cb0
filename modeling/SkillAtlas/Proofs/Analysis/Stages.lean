import Mathlib.Data.List.ReduceOption
import SkillAtlas.Analysis

/-!
# The outcome of an analysis, stage by stage

What an analysis comes to does not depend on its notes: it is what its stages come to, one after the other.
-/

namespace SkillAtlas

lemma Journal.outcome_then {α β : Type} (j : Journal α) (f : α → Journal β) :
    (j >>= f).outcome = j.outcome.bind fun a => (f a).outcome :=
  Journal.outcome_bind j f

lemma Journal.outcome_lift {α : Type} (x : Except Fault α) : (liftM x : Journal α).outcome = x :=
  rfl

lemma Fault.forall_of_mapM {α β : Type} {f : α → Except Fault β} {P : β → Prop} {xs : List α} {ys : List β}
    (hf : ∀ a ∈ xs, ∀ b, f a = .ok b → P b) (h : xs.mapM f = .ok ys) : ∀ y ∈ ys, P y := by
  induction xs generalizing ys with
  | nil =>
    obtain rfl : [] = ys := Except.ok.inj h
    simp
  | cons x rest ih =>
    rw [List.mapM_cons] at h
    obtain ⟨y, hy, h⟩ := Fault.bind_eq_ok.mp h
    obtain ⟨others, hothers, h⟩ := Fault.bind_eq_ok.mp h
    obtain rfl := Except.ok.inj h
    obtain ⟨hx, hrest⟩ := List.forall_mem_cons.mp hf
    exact List.forall_mem_cons.mpr ⟨hx y hy, ih hrest hothers⟩

/-- Each item is answered. -/
lemma Fault.exists_of_mapM {α β : Type} {f : α → Except Fault β} {xs : List α} {ys : List β} {x : α}
    (h : xs.mapM f = .ok ys) (hx : x ∈ xs) : ∃ y ∈ ys, f x = .ok y := by
  induction xs generalizing ys with
  | nil => simp at hx
  | cons a rest ih =>
    rw [List.mapM_cons] at h
    obtain ⟨y, hy, h⟩ := Fault.bind_eq_ok.mp h
    obtain ⟨others, hothers, h⟩ := Fault.bind_eq_ok.mp h
    obtain rfl := Except.ok.inj h
    rcases List.mem_cons.mp hx with rfl | hrest
    · exact ⟨y, List.mem_cons_self, hy⟩
    · obtain ⟨z, hz, hfz⟩ := ih hothers hrest
      exact ⟨z, List.mem_cons_of_mem y hz, hfz⟩

lemma Fault.bind_map {α β γ δ : Type} {φ : α → β} {ψ : γ → δ} {f : α → Except Fault γ}
    {g : β → Except Fault δ} (x : Except Fault α) (h : ∀ a, g (φ a) = (f a).map ψ) :
    (x.map φ).bind g = (x.bind f).map ψ := by
  cases x with
  | error e => rfl
  | ok a => exact h a

/-- A note at the end changes nothing. -/
lemma Journal.outcome_noted {α : Type} (j : Journal α) (n : α → Note) :
    (j >>= fun a => note (n a) >>= fun _ => pure a).outcome = j.outcome := by
  rw [Journal.outcome_then]
  cases j.outcome <;> rfl

/-- The entry that a key of a document gives, if any. -/
def entryAt? (v : Vocabulary) (kind : ContextKind) (e : Value × Value) : Except Fault (Option Entry) :=
  (readEntry v kind e).map Prod.fst

/-- The entries of a document are those that its keys give, in their order. -/
lemma outcome_extract (v : Vocabulary) (kind : ContextKind) (doc : Entries) :
    (extract v kind doc).outcome = (doc.mapM (entryAt? v kind)).map List.reduceOption := by
  have heach : (extractEach v kind doc).outcome = (doc.mapM (entryAt? v kind)).map List.reduceOption := by
    induction doc with
    | nil => rfl
    | cons e rest ih =>
      rw [extractEach, List.mapM_cons, entryAt?]
      simp only [Journal.outcome_bind, Journal.outcome_lift, ih]
      cases readEntry v kind e with
      | error f => rfl
      | ok found =>
        obtain ⟨entry, note⟩ := found
        cases rest.mapM (entryAt? v kind) with
        | error f => rfl
        | ok others => cases entry <;> rfl
  unfold extract
  rw [← heach]
  exact Journal.outcome_noted _ _

namespace Document

/-- The document that a mapping gives. -/
def ofEntries (v : Vocabulary) (text : String) (doc : Entries) (asked : Option ContextKind) :
    Except Fault Document :=
  (kindFor v doc asked).outcome.bind fun kind => (extract v kind doc).outcome.bind fun entries =>
    if entries.isEmpty then .error (.noUnits kind)
    else .ok { kind, entries, totalLines := (Text.linesOf text).length }

lemma outcome_select (v : Vocabulary) (text : String) (doc : Entries) (asked : Option ContextKind) :
    (select v text doc asked).outcome = ofEntries v text doc asked := by
  unfold select ofEntries
  simp only [Journal.outcome_then]
  congr 2
  funext kind
  congr 1
  funext entries
  split <;> rfl

lemma outcome_load (v : Vocabulary) (text : String) (asked : Option ContextKind) :
    (load v text asked).outcome = (read text).bind fun doc => ofEntries v text doc asked := by
  unfold load
  simp only [Journal.outcome_then, Journal.outcome_lift, outcome_select]

end Document

namespace Analyzer

lemma outcome_analyze (a : Analyzer) (e : Entry) : (a.analyze e).outcome = a.unitOf e := by
  exact Journal.outcome_noted (a.unitOf e) _

lemma outcome_analyzeAll (a : Analyzer) (es : List Entry) : (a.analyzeAll es).outcome = es.mapM a.unitOf := by
  have heach : (a.analyzeEach es).outcome = es.mapM a.unitOf := by
    induction es with
    | nil => rfl
    | cons e rest ih =>
      rw [analyzeEach, List.mapM_cons]
      simp only [Journal.outcome_bind, outcome_analyze, ih]
      rfl
  unfold analyzeAll
  rw [Journal.outcome_then, heach]
  cases es.mapM a.unitOf <;> rfl

lemma name_unitOf {a : Analyzer} {e : Entry} {u : AnalyzedUnit} (h : a.unitOf e = .ok u) :
    u.name = e.name := by
  obtain ⟨own, -, h⟩ := Fault.bind_eq_ok.mp h
  obtain ⟨score, -, h⟩ := Fault.bind_eq_ok.mp h
  obtain ⟨tier, -, h⟩ := Fault.bind_eq_ok.mp h
  rw [← Except.ok.inj h]

lemma names_mapM_unitOf {a : Analyzer} {es : List Entry} {units : List AnalyzedUnit}
    (h : es.mapM a.unitOf = .ok units) : AnalyzedUnit.names units = es.map Entry.name := by
  induction es generalizing units with
  | nil =>
    obtain rfl : [] = units := Except.ok.inj h
    rfl
  | cons e rest ih =>
    rw [List.mapM_cons] at h
    obtain ⟨u, hu, h⟩ := Fault.bind_eq_ok.mp h
    obtain ⟨others, hothers, h⟩ := Fault.bind_eq_ok.mp h
    obtain rfl := Except.ok.inj h
    rw [AnalyzedUnit.names, List.map_cons, List.map_cons, name_unitOf hu]
    exact congrArg (e.name :: ·) (ih hothers)

end Analyzer

lemma outcome_diagnose (s : DiagnosticsSettings) (units : List AnalyzedUnit)
    (missing : List MissingReference) :
    (diagnose s units missing).outcome = (unitFindings s units).map (missing.map .dangling ++ ·) := by
  unfold diagnose
  rw [Journal.outcome_then, Journal.outcome_lift]
  cases unitFindings s units with
  | error f => rfl
  | ok findings => cases missing <;> rfl

namespace Engine

/-- The report on units, from the stages that may fail. -/
def reportOf (units : List AnalyzedUnit) (d : Document) (grouping : Grouping)
    (patterns : List NamingPattern) (findings : List Finding) : Report where
  kind := d.kind
  units
  graph := .ofUnits units
  patterns
  grouping
  missing := missingReferences units
  statistics := statisticsOf units
  findings := (missingReferences units).map .dangling ++ findings
  totalLines := d.totalLines

lemma outcome_load (e : Engine) (r : Request) :
    (e.load r).outcome = r.kind?.bind fun asked => (Document.read r.text).bind fun doc =>
      Document.ofEntries e.vocabulary r.text doc asked := by
  have hload : ∀ asked, (do
      begin .load
      let d ← Document.load e.vocabulary r.text asked
      Journal.note (.loaded d.entries.length d.kind d.totalLines)
      return d : Journal Document).outcome = (Document.load e.vocabulary r.text asked).outcome :=
    fun asked => Journal.outcome_noted _ _
  unfold load
  rw [Journal.outcome_then, Journal.outcome_lift]
  simp only [hload, Document.outcome_load]

lemma outcome_report (e : Engine) (d : Document) (units : List AnalyzedUnit) :
    (e.report d units).outcome =
      (e.searcher.synthesize units (.ofUnits units) d.kind).outcome.bind fun grouping =>
        (e.searcher.namingPatterns units d.kind).bind fun patterns =>
          (unitFindings e.settings.diagnostics units).map (reportOf units d grouping patterns) := by
  have hgraph : (CallGraph.build units).outcome = .ok (.ofUnits units) := rfl
  have hbegin : ∀ stage, (begin stage).outcome = .ok () := fun _ => rfl
  unfold report
  simp only [Journal.outcome_then, Journal.outcome_lift, outcome_diagnose, hgraph, hbegin, Except.bind]
  cases (e.searcher.synthesize units (.ofUnits units) d.kind).outcome with
  | error f => rfl
  | ok grouping =>
    cases e.searcher.namingPatterns units d.kind with
    | error f => rfl
    | ok patterns => cases unitFindings e.settings.diagnostics units <;> rfl

lemma outcome_run (e : Engine) (r : Request) :
    (e.run r).outcome = (e.load r).outcome.bind fun d =>
      (d.entries.mapM (e.analyzer r).unitOf).bind fun units => (e.report d units).outcome := by
  have hbegin : ∀ stage, (begin stage).outcome = .ok () := fun _ => rfl
  unfold run
  simp only [Journal.outcome_then, Analyzer.outcome_analyzeAll, hbegin, Except.bind]

variable {e : Engine} {r : Request} {d : Document} {report : Report}

lemma entries_of_load (h : (e.load r).outcome = .ok d) :
    ∃ doc, Document.read r.text = .ok doc ∧ (extract e.vocabulary d.kind doc).outcome = .ok d.entries := by
  rw [outcome_load] at h
  obtain ⟨asked, -, h⟩ := Fault.bind_eq_ok.mp h
  obtain ⟨doc, hdoc, h⟩ := Fault.bind_eq_ok.mp h
  obtain ⟨kind, -, h⟩ := Fault.bind_eq_ok.mp h
  obtain ⟨entries, hentries, h⟩ := Fault.bind_eq_ok.mp h
  refine ⟨doc, hdoc, ?_⟩
  split at h
  · simp at h
  · obtain rfl := Except.ok.inj h
    exact hentries

/-- An analysis that gives a report has come through all its stages. -/
lemma exists_reportOf (h : (e.run r).outcome = .ok report) : ∃ d units grouping patterns findings,
    (e.load r).outcome = .ok d ∧ d.entries.mapM (e.analyzer r).unitOf = .ok units ∧
    (e.searcher.synthesize units (.ofUnits units) d.kind).outcome = .ok grouping ∧
    e.searcher.namingPatterns units d.kind = .ok patterns ∧
    unitFindings e.settings.diagnostics units = .ok findings ∧
    report = reportOf units d grouping patterns findings := by
  rw [outcome_run] at h
  obtain ⟨d, hd, h⟩ := Fault.bind_eq_ok.mp h
  obtain ⟨units, hunits, h⟩ := Fault.bind_eq_ok.mp h
  rw [outcome_report] at h
  obtain ⟨grouping, hgrouping, h⟩ := Fault.bind_eq_ok.mp h
  obtain ⟨patterns, hpatterns, h⟩ := Fault.bind_eq_ok.mp h
  obtain ⟨findings, hfindings, rfl⟩ := Fault.map_eq_ok.mp h
  exact ⟨d, units, grouping, patterns, findings, hd, hunits, hgrouping, hpatterns, hfindings, rfl⟩

end Engine

end SkillAtlas
