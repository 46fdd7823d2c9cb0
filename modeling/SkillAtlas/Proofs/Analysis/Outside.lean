import SkillAtlas.Proofs.Analysis.Stages
import SkillAtlas.Proofs.Grouping.Relabel
import SkillAtlas.Proofs.Line.Calls

/-!
# Units that are defined elsewhere

The names of units that are defined elsewhere change what a report says of the calls by name of such units,
and whether they count as missing. Nothing else of a report depends on them, and neither does the failure of
an analysis.
-/

namespace SkillAtlas

section View

variable (outside : List String)

/-- The call when the units of these names are defined elsewhere. -/
def Call.seenWith (c : Call) : Call :=
  if c.context = direct ∧ c.name ∈ outside then { c with context := Call.outside } else c

/-- The edge when the units of these names are defined elsewhere. -/
def Edge.seenWith (e : Edge) : Edge :=
  { e with context := (Call.seenWith outside ⟨e.target, e.context⟩).context }

def LineParts.seenWith (p : LineParts) : LineParts :=
  { p with calls := p.calls.map (Call.seenWith outside) }

def AnalyzedUnit.seenWith (u : AnalyzedUnit) : AnalyzedUnit :=
  { u with calls := u.calls.map (Call.seenWith outside) }

def CallGraph.seenWith (g : CallGraph) : CallGraph :=
  { g with edges := g.edges.map (Edge.seenWith outside) }

/-- The unit is still missing: it is not called by one of these names. -/
def MissingReference.stays (m : MissingReference) : Bool :=
  !(m.context == Call.direct && outside.contains m.called)

/-- The finding is not about a unit that is no longer missing. -/
def Finding.stays : Finding → Bool
  | dangling ref => ref.stays outside
  | _ => true

/-- The report when the units of these names are defined elsewhere. -/
def Report.seenWith (r : Report) : Report :=
  { r with
    units := r.units.map (AnalyzedUnit.seenWith outside)
    graph := r.graph.seenWith outside
    grouping := r.grouping.relabel (AnalyzedUnit.seenWith outside)
    missing := r.missing.filter (MissingReference.stays outside)
    findings := r.findings.filter (Finding.stays outside) }

end View

variable {outside : List String}

section Units

lemma Call.seenWith_of_ne {c : Call} (h : c.context ≠ direct) : c.seenWith outside = c :=
  if_neg fun hc => h hc.1

lemma Call.name_seenWith (c : Call) : (c.seenWith outside).name = c.name := by
  unfold seenWith
  split <;> rfl

lemma Call.isCallback_seenWith (c : Call) : (c.seenWith outside).isCallback = c.isCallback := by
  by_cases hc : c.context = direct ∧ c.name ∈ outside
  · rw [seenWith, if_pos hc, isCallback, isCallback, hc.1]
    rfl
  · rw [seenWith, if_neg hc]

/-- Calls that answer events are seen as they are. -/
lemma Call.filter_isCallback_seenWith (calls : List Call) :
    (calls.map (Call.seenWith outside)).filter isCallback = calls.filter isCallback := by
  induction calls with
  | nil => rfl
  | cons c rest ih =>
    rw [List.map_cons, List.filter_cons, List.filter_cons, isCallback_seenWith, ih]
    by_cases hc : c.isCallback = true
    · have hne : c.context ≠ direct := by
        intro he
        simp [isCallback, he] at hc
      rw [if_pos hc, if_pos hc, seenWith_of_ne hne]
    · rw [if_neg hc, if_neg hc]

lemma AnalyzedUnit.keeps_seenWith (outside : List String) : Keeps (AnalyzedUnit.seenWith outside) where
  name _ := rfl
  callbacks u := Call.filter_isCallback_seenWith u.calls

lemma LineParts.append_seenWith (p q : LineParts) :
    p.seenWith outside ++ q.seenWith outside = (p ++ q).seenWith outside :=
  congrArg (fun calls => { p ++ q with calls }) List.map_append.symm

namespace Line

lemma directCalls_seenWith (outside : List String) (cs : List Char) :
    directCalls outside cs = (directCalls [] cs).map (Call.seenWith outside) := by
  unfold directCalls
  rw [List.map_map]
  refine congrArg (fun f => (findAll directCall cs).map f) (funext fun name => ?_)
  by_cases hn : String.ofList name ∈ outside
  · simp [Call.seenWith, hn]
  · simp [Call.seenWith, hn]

lemma callbackCalls_seenWith {v : Vocabulary} (hv : v.AnswersOn) (outside : List String) (cs : List Char) :
    (callbackCalls v.callbackAttributes cs).map (Call.seenWith outside) =
      callbackCalls v.callbackAttributes cs := by
  have hsame : ∀ c ∈ callbackCalls v.callbackAttributes cs, c.seenWith outside = c := by
    intro c hc
    refine Call.seenWith_of_ne fun hd => ?_
    have hstart := context_callbackCalls hv hc
    rw [hd] at hstart
    exact absurd hstart (by decide)
  exact (List.map_congr_left hsame).trans (List.map_id _)

lemma parts_seenWith {v : Vocabulary} (hv : v.AnswersOn) (outside : List String) (line : String) :
    parts v outside line = (parts v [] line).seenWith outside := by
  unfold parts LineParts.seenWith
  simp only [List.map_append, callbackCalls_seenWith hv, ← directCalls_seenWith]

lemma partsOfAll_seenWith {v : Vocabulary} (hv : v.AnswersOn) (outside : List String) (lines : List String) :
    partsOfAll v outside lines = (partsOfAll v [] lines).seenWith outside := by
  have hrun : ∀ p : LineParts, lines.foldl (fun p line => p ++ parts v outside line) (p.seenWith outside) =
      (lines.foldl (fun p line => p ++ parts v [] line) p).seenWith outside := by
    induction lines with
    | nil => exact fun p => rfl
    | cons line rest ih =>
      intro p
      rw [List.foldl_cons, List.foldl_cons, parts_seenWith hv, LineParts.append_seenWith]
      exact ih _
  exact hrun {}

end Line

lemma Entry.ownParts_seenWith (e : Entry) (own : List (String × String)) :
    (e.ownParts own).seenWith outside = e.ownParts own := by
  have hcalls : e.ownCalls.map (Call.seenWith outside) = e.ownCalls := by
    unfold ownCalls
    split
    · split
      · rfl
      · have hne : cooldownContext ≠ Call.direct := by decide
        exact congrArg (fun c => [c]) (Call.seenWith_of_ne hne)
    · rfl
  exact congrArg (fun calls => { e.ownParts own with calls }) hcalls

namespace Analyzer

lemma partsOf_seenWith {v : Vocabulary} (hv : v.AnswersOn) (w : ComplexitySettings) (outside : List String)
    (e : Entry) (own : List (String × String)) :
    (⟨v, w, outside⟩ : Analyzer).partsOf e own = ((⟨v, w, []⟩ : Analyzer).partsOf e own).seenWith outside := by
  have hown : (e.ownParts own).seenWith outside = e.ownParts own := e.ownParts_seenWith own
  unfold partsOf
  rw [Line.partsOfAll_seenWith hv, ← hown, LineParts.append_seenWith, hown]

/-- Units are analyzed as they are when nothing is defined elsewhere, and then seen with these names. -/
lemma unitOf_seenWith {v : Vocabulary} (hv : v.AnswersOn) (w : ComplexitySettings) (outside : List String)
    (e : Entry) :
    (⟨v, w, outside⟩ : Analyzer).unitOf e =
      ((⟨v, w, []⟩ : Analyzer).unitOf e).map (AnalyzedUnit.seenWith outside) := by
  unfold unitOf
  cases e.ownAttributes with
  | error f => rfl
  | ok own =>
    dsimp only [bind, Except.bind]
    rw [partsOf_seenWith hv]
    generalize (⟨v, w, []⟩ : Analyzer).partsOf e own = p
    dsimp only [LineParts.seenWith]
    rw [List.length_map]
    cases complexityScore v w e.lines.length p.actions.eraseDups p.calls.length p.guards.eraseDups.length
        p.lifecycle.eraseDups.length with
    | error f => rfl
    | ok score =>
      dsimp only
      cases tierOf w score <;> rfl

lemma mapM_unitOf_seenWith {v : Vocabulary} (hv : v.AnswersOn) (w : ComplexitySettings)
    (outside : List String) (es : List Entry) :
    es.mapM (⟨v, w, outside⟩ : Analyzer).unitOf =
      (es.mapM (⟨v, w, []⟩ : Analyzer).unitOf).map (List.map (AnalyzedUnit.seenWith outside)) := by
  induction es with
  | nil => rfl
  | cons e rest ih =>
    rw [List.mapM_cons, List.mapM_cons, unitOf_seenWith hv, ih]
    cases (⟨v, w, []⟩ : Analyzer).unitOf e with
    | error f => rfl
    | ok u => cases rest.mapM (⟨v, w, []⟩ : Analyzer).unitOf <;> rfl

end Analyzer

end Units

section Graph

namespace CallGraph

lemma hasNode_seenWith (g : CallGraph) (n : String) : (g.seenWith outside).hasNode n = g.hasNode n :=
  rfl

lemma addNode_seenWith (g : CallGraph) (n : String) :
    (g.seenWith outside).addNode n = (g.addNode n).seenWith outside := by
  rw [addNode, addNode, hasNode_seenWith]
  split <;> rfl

lemma link_seenWith (g : CallGraph) (source target : String) :
    (g.seenWith outside).link source target = (g.link source target).seenWith outside := by
  rw [link, link, addNode_seenWith]
  rfl

lemma addEdge_seenWith (g : CallGraph) (e : Edge) :
    (g.seenWith outside).addEdge (e.seenWith outside) = (g.addEdge e).seenWith outside := by
  have hedges : { g.seenWith outside with edges := (g.seenWith outside).edges ++ [e.seenWith outside] } =
      seenWith outside { g with edges := g.edges ++ [e] } := by
    simp only [seenWith, List.map_append, List.map_singleton]
  have htarget : (e.seenWith outside).target = e.target ∧ (e.seenWith outside).source = e.source :=
    ⟨rfl, rfl⟩
  unfold addEdge
  rw [hedges, htarget.1, htarget.2]
  dsimp only
  rw [hasNode_seenWith, link_seenWith]
  split <;> rfl

lemma edgesOf_seenWith (outside : List String) (u : AnalyzedUnit) :
    edgesOf (u.seenWith outside) = (edgesOf u).map (Edge.seenWith outside) := by
  unfold edgesOf AnalyzedUnit.seenWith
  simp only [List.map_map, Function.comp_def, Edge.seenWith, Call.name_seenWith]

/-- The graph has the same units and links; its edges are seen with the names. -/
lemma ofUnits_seenWith (outside : List String) (units : List AnalyzedUnit) :
    ofUnits (units.map (AnalyzedUnit.seenWith outside)) = (ofUnits units).seenWith outside := by
  have hrun : ∀ (es : List Edge) (g : CallGraph), (es.map (Edge.seenWith outside)).foldl addEdge
      (g.seenWith outside) = (es.foldl addEdge g).seenWith outside := by
    intro es
    induction es with
    | nil => exact fun g => rfl
    | cons e rest ih =>
      intro g
      rw [List.map_cons, List.foldl_cons, List.foldl_cons, addEdge_seenWith]
      exact ih _
  have hnodes : ∀ (ns : List String) (g : CallGraph), ns.foldl addNode (g.seenWith outside) =
      (ns.foldl addNode g).seenWith outside := by
    intro ns
    induction ns with
    | nil => exact fun g => rfl
    | cons n rest ih =>
      intro g
      rw [List.foldl_cons, List.foldl_cons, addNode_seenWith]
      exact ih _
  have hedges : (units.map (AnalyzedUnit.seenWith outside)).flatMap edgesOf =
      (units.flatMap edgesOf).map (Edge.seenWith outside) := by
    rw [List.flatMap_map, List.map_flatMap]
    simp only [edgesOf_seenWith]
  unfold ofUnits
  rw [(AnalyzedUnit.keeps_seenWith outside).names, hedges, ← hrun, ← hnodes]
  rfl

lemma summary_seenWith (outside : List String) (g : CallGraph) :
    (g.seenWith outside).summary = g.summary := by
  have hedges : (g.seenWith outside).edges.length = g.edges.length := List.length_map _
  have hdangling : (g.seenWith outside).danglingEdges.length = g.danglingEdges.length := by
    have hfilter : (g.seenWith outside).danglingEdges = g.danglingEdges.map (Edge.seenWith outside) :=
      List.filter_map
    rw [hfilter, List.length_map]
  unfold summary
  rw [hedges, hdangling]
  rfl

end CallGraph

end Graph

section Findings

/-- A call counts as missing when its name is not known and it is no call of a unit defined elsewhere. -/
lemma missingCalls_seenWith (known : List String) (caller : String) (calls : List Call) :
    ((calls.map (Call.seenWith outside)).filter fun c => c.context != Call.outside && !known.contains c.name).map
        (fun c => (⟨c.name, caller, c.context⟩ : MissingReference)) =
      ((calls.filter fun c => c.context != Call.outside && !known.contains c.name).map
        fun c => ⟨c.name, caller, c.context⟩).filter (MissingReference.stays outside) := by
  induction calls with
  | nil => rfl
  | cons c rest ih =>
    by_cases hc : c.context = Call.direct ∧ c.name ∈ outside
    · have hseen : c.seenWith outside = ⟨c.name, Call.outside⟩ := if_pos hc
      have hstays : MissingReference.stays outside ⟨c.name, caller, c.context⟩ = false := by
        simp [MissingReference.stays, hc.1, hc.2]
      rw [List.map_cons, hseen, List.filter_cons_of_neg (by simp), List.filter_cons, ih]
      split
      · rw [List.map_cons, List.filter_cons_of_neg (by simp [hstays])]
      · rfl
    · have hseen : c.seenWith outside = c := if_neg hc
      have hstays : MissingReference.stays outside ⟨c.name, caller, c.context⟩ = true := by
        by_cases hd : c.context = Call.direct
        · have hn : c.name ∉ outside := fun hn => hc ⟨hd, hn⟩
          simp [MissingReference.stays, hn]
        · simp [MissingReference.stays, hd]
      rw [List.map_cons, hseen, List.filter_cons, List.filter_cons]
      split
      · rw [List.map_cons, List.map_cons, List.filter_cons_of_pos hstays, ih]
      · exact ih

lemma missingReferences_seenWith (outside : List String) (units : List AnalyzedUnit) :
    missingReferences (units.map (AnalyzedUnit.seenWith outside)) =
      (missingReferences units).filter (MissingReference.stays outside) := by
  unfold missingReferences
  dsimp only
  rw [(AnalyzedUnit.keeps_seenWith outside).names, List.flatMap_map, List.filter_flatMap]
  exact congrArg (units.flatMap ·) (funext fun u => missingCalls_seenWith _ u.name u.calls)

lemma unitFindings_seenWith (s : DiagnosticsSettings) (units : List AnalyzedUnit) :
    unitFindings s (units.map (AnalyzedUnit.seenWith outside)) = unitFindings s units := by
  induction units with
  | nil => rfl
  | cons u rest ih =>
    rw [List.map_cons, unitFindings, unitFindings, ih]
    rfl

lemma stays_complexityFindings {s : DiagnosticsSettings} {u : AnalyzedUnit} {fs : List Finding}
    (h : complexityFindings s u = .ok fs) : ∀ f ∈ fs, f.stays outside = true := by
  unfold complexityFindings at h
  split at h
  · obtain rfl := Except.ok.inj h
    simp
  · obtain ⟨long, -, h⟩ := Fault.bind_eq_ok.mp h
    split at h
    · obtain ⟨told, -, h⟩ := Fault.bind_eq_ok.mp h
      obtain rfl := Except.ok.inj h
      simp [Finding.stays]
    · obtain rfl := Except.ok.inj h
      simp

/-- What is found about single units stays. -/
lemma stays_unitFindings {s : DiagnosticsSettings} {units : List AnalyzedUnit} {fs : List Finding}
    (h : unitFindings s units = .ok fs) : ∀ f ∈ fs, f.stays outside = true := by
  induction units generalizing fs with
  | nil =>
    obtain rfl := Except.ok.inj h
    simp
  | cons u rest ih =>
    obtain ⟨complex, hcomplex, h⟩ := Fault.bind_eq_ok.mp h
    obtain ⟨others, hothers, h⟩ := Fault.bind_eq_ok.mp h
    obtain rfl := Except.ok.inj h
    have hempty : ∀ f ∈ emptyFindings u, f.stays outside = true := by
      unfold emptyFindings
      split <;> simp [Finding.stays]
    intro f hf
    rcases List.mem_append.mp hf with hf | hf
    · rcases List.mem_append.mp hf with hf | hf
      · exact hempty f hf
      · exact stays_complexityFindings hcomplex f hf
    · exact ih hothers f hf

lemma filter_stays_dangling (missing : List MissingReference) :
    (missing.map Finding.dangling).filter (Finding.stays outside) =
      (missing.filter (MissingReference.stays outside)).map Finding.dangling :=
  List.filter_map

lemma statisticsOf_seenWith (units : List AnalyzedUnit) :
    statisticsOf (units.map (AnalyzedUnit.seenWith outside)) = statisticsOf units := by
  unfold statisticsOf
  simp only [List.flatMap_map, AnalyzedUnit.seenWith]

end Findings

namespace Engine

/-- A report on units that are seen with the names is the report on the units, seen with the names. -/
lemma outcome_report_seenWith (e : Engine) (d : Document) (outside : List String) (units : List AnalyzedUnit) :
    (e.report d (units.map (AnalyzedUnit.seenWith outside))).outcome =
      (e.report d units).outcome.map (Report.seenWith outside) := by
  have hkeeps := AnalyzedUnit.keeps_seenWith outside
  have hgraph := CallGraph.ofUnits_seenWith outside units
  have hnodes : (CallGraph.ofUnits (units.map (AnalyzedUnit.seenWith outside))).nodes =
      (CallGraph.ofUnits units).nodes := by rw [hgraph]; rfl
  have hlinks : (CallGraph.ofUnits (units.map (AnalyzedUnit.seenWith outside))).links =
      (CallGraph.ofUnits units).links := by rw [hgraph]; rfl
  rw [outcome_report, outcome_report, e.searcher.synthesize_relabel hkeeps units hnodes hlinks]
  refine Fault.bind_map _ fun grouping => ?_
  rw [e.searcher.namingPatterns_relabel hkeeps, unitFindings_seenWith]
  cases e.searcher.namingPatterns units d.kind with
  | error f => rfl
  | ok patterns =>
    simp only [Except.bind]
    cases hf : unitFindings e.settings.diagnostics units with
    | error f => rfl
    | ok findings =>
      have hstay : findings.filter (Finding.stays outside) = findings :=
        List.filter_eq_self.mpr (stays_unitFindings hf)
      simp only [Except.map, reportOf, Report.seenWith, hgraph,
        missingReferences_seenWith, statisticsOf_seenWith, List.filter_append, hstay, filter_stays_dangling]

lemma outcome_load_outside (e : Engine) (text : String) (context : Option String) (outside : List String) :
    (e.load ⟨text, context, outside⟩).outcome = (e.load ⟨text, context, []⟩).outcome := by
  rw [outcome_load, outcome_load]
  rfl

/-- An analysis with names of units that are defined elsewhere fails as it does without them, and else its
report is the one without them, seen with the names: calls by one of the names have another context, in the
units and along the edges, and such calls are not missing. So units have the same scores, tiers and
categories, they are in the same groups or stand alone, and patterns, statistics and the figures of the graph
are the same. -/
theorem run_seenWith (settings : Settings) (text : String) (context : Option String)
    (outside : List String) :
    let e : Engine := ⟨settings, .packaged⟩
    (e.run ⟨text, context, outside⟩).outcome =
        (e.run ⟨text, context, []⟩).outcome.map (Report.seenWith outside) ∧
      ∀ report, let seen := Report.seenWith outside report
        seen.units.map (fun u => (u.name, u.score, u.tier, u.category)) =
            report.units.map (fun u => (u.name, u.score, u.tier, u.category)) ∧
          seen.grouping.groups.map (fun p => (p.kind, p.suggestedName, p.memberNames, p.confidence)) =
            report.grouping.groups.map (fun p => (p.kind, p.suggestedName, p.memberNames, p.confidence)) ∧
          AnalyzedUnit.names seen.grouping.standalone = AnalyzedUnit.names report.grouping.standalone ∧
          seen.patterns = report.patterns ∧ seen.statistics = report.statistics ∧
          seen.graph.summary = report.graph.summary := by
  intro e
  have hkeeps := AnalyzedUnit.keeps_seenWith outside
  refine ⟨?_, fun report => ⟨?_, ?_, hkeeps.names _, rfl, rfl, CallGraph.summary_seenWith outside _⟩⟩
  · rw [outcome_run, outcome_run, outcome_load_outside]
    cases (e.load ⟨text, context, []⟩).outcome with
    | error f => rfl
    | ok d =>
      have hunits : d.entries.mapM (e.analyzer ⟨text, context, outside⟩).unitOf =
          (d.entries.mapM (e.analyzer ⟨text, context, []⟩).unitOf).map
            (List.map (AnalyzedUnit.seenWith outside)) :=
        Analyzer.mapM_unitOf_seenWith Vocabulary.packaged_answersOn _ outside d.entries
      simp only [Except.bind]
      rw [hunits]
      exact Fault.bind_map _ fun units => e.outcome_report_seenWith d outside units
  · simp only [Report.seenWith, List.map_map]
    rfl
  · simp only [Report.seenWith, Grouping.relabel, List.map_map]
    refine congrArg (fun f => report.grouping.groups.map f) (funext fun p => ?_)
    have hmembers : (p.relabel (AnalyzedUnit.seenWith outside)).memberNames = p.memberNames := hkeeps.names _
    simp only [Function.comp_apply, hmembers]
    rfl

end Engine

end SkillAtlas
