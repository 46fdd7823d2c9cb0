import SkillAtlas.Proofs.Command.Running
import SkillAtlas.Proofs.Report.Json
import SkillAtlas.Proofs.Settings.Shared
import SkillAtlas.Proofs.Yaml.Tidy

/-!
# When commands print JSON

The commands print the values of documents and settings as they are. A date, bytes or a set among the fields
of a mob, in a cooldown or in the settings ends the command that prints it with a fault, and so do a number of
too many digits and a value that holds itself, and then it has printed no JSON at all. The commands that read and
store these values accept them all.
-/

namespace SkillAtlas

open Fault (bind_eq_ok GivenIff)
open Json (Writable)

section Nested

variable {es : Entries} {v : Value}

lemma writable_put {s : String} (h : Writable (.map es)) :
    Writable (.map (Entries.put (.str s) v es)) ↔ Writable v := by
  rw [Json.writable_map] at h ⊢
  constructor
  · intro hput
    obtain ⟨e, he, rfl⟩ := Option.map_eq_some_iff.mp (Entries.named?_put_self es s v)
    exact (hput e (List.mem_of_find?_eq_some he)).2
  · exact fun hv => Entries.forall_put h (Json.isAtom_str s) hv

lemma writable_under (h : Writable (.map es)) (k : String) : Writable (.map (UserSettings.under es k)) := by
  unfold UserSettings.under
  split
  · rename_i inner hinner
    obtain ⟨e, he, hv⟩ := Option.map_eq_some_iff.mp hinner
    rw [← hv]
    exact (Json.writable_map.mp h e (List.mem_of_find?_eq_some he)).2
  · simp

/-- A value that is stored among values with a JSON form decides whether the settings have one. -/
lemma writable_setAt {parts : List String} (hp : parts ≠ []) (h : Writable (.map es)) :
    Writable (.map (UserSettings.setAt v parts es)) ↔ Writable v := by
  induction parts generalizing es with
  | nil => exact absurd rfl hp
  | cons k rest ih =>
    by_cases hr : rest = []
    · subst hr
      exact writable_put h
    · rw [UserSettings.setAt_cons hr, writable_put h, ih hr (writable_under h k)]

end Nested

namespace Command

open SkillAtlas.Command.Action

/-- Carried out on a console, the command prints some lines and then a value as JSON, exactly under a
condition. Else it ends with a fault after those lines. -/
structure PrintsIff (act : Action Unit) (c : Console) (before : List String) (v : Except Fault Value)
    (p : Prop) : Prop where
  printed : p → ∃ w line c', v = .ok w ∧ Json.write w = .ok line ∧ act.on c = (.ok (), c') ∧
    c'.output = c.output ++ before ++ [line]
  refused : ¬ p → ∃ (f : Fault) (c' : Console), f.Unwritten ∧ act.on c = (.error (.fault f), c') ∧
    c'.output = c.output ++ before

lemma printsIff_of_printJson {act : Action Unit} {c mid : Console} {before : List String}
    {v : Except Fault Value} {p : Prop} (hon : act.on c = (ofResult v >>= Setup.printJson).on mid)
    (hmid : mid.output = c.output ++ before) (hv : GivenIff (v.bind Json.write) p) :
    PrintsIff act c before v p := by
  constructor
  · intro hp
    obtain ⟨line, hline⟩ := hv.given hp
    obtain ⟨w, rfl, hw⟩ := bind_eq_ok.mp hline
    refine ⟨w, line, { mid with output := mid.output ++ [line] }, rfl, hw, ?_, by rw [hmid]⟩
    rw [hon, on_bind_of_ok (on_ofResult_ok w), Setup.printJson, hw]
    rfl
  · intro hp
    obtain ⟨f, hf, hrefused⟩ := hv.refused hp
    refine ⟨f, mid, hf, ?_, hmid⟩
    rw [hon]
    cases v with
    | error g =>
      obtain rfl := Except.error.inj hrefused
      rfl
    | ok w =>
      have hw : Json.write w = .error f := hrefused
      rw [on_bind_of_ok (on_ofResult_ok w), Setup.printJson, hw]
      rfl

namespace Setup

variable {s : Setup} {c mid : Console} {a : AnalysisArguments} {r : Report}

/-- The settings that a command of this setup finds stored. -/
def stored (s : Setup) (c : Console) : Except Fault Entries :=
  (UserSettings.load (s.filesAt c) s.settingsFile).outcome

/-- The line that stands above the stored settings. -/
def settingsHeader (s : Setup) : String :=
  s!"# {s.settingsFile.text}"

/-- The records of a grouping as a value. -/
def recordsValue (g : Grouping) : Value :=
  .list ((TemplateRecord.ofGrouping g).map TemplateRecord.toValue)

lemma printsIff_analyze (top : Int) (hj : a.json = true) (h : (s.analysis a).on c = (.ok r, mid)) :
    PrintsIff (s.carryOut (.analyze a top)) c [] (Outcome.report r).toValue r.Printable := by
  obtain ⟨e, request, hrun, -⟩ := analysis_eq_ok h
  refine @printsIff_of_printJson _ _ mid _ _ _ ?_ ?_ (Report.write_givenIff (Engine.scored_of_run hrun))
  · show (s.analyze a top).on c = _
    unfold Setup.analyze
    rw [on_bind_of_ok h, if_pos hj]
  · rw [s.quiet_analysis a c r mid h, List.append_nil]

lemma printsIff_groups (h : (s.analysis a).on c = (.ok r, mid)) :
    PrintsIff (s.carryOut (.groups a true)) c [] (.ok (recordsValue r.grouping))
      (∀ record ∈ TemplateRecord.ofGrouping r.grouping, Writable record.cooldown) := by
  refine @printsIff_of_printJson _ _ mid _ _ _ ?_ ?_ ((Json.write_givenIff _).congr ?_)
  · show (s.groups a true).on c = _
    unfold Setup.groups
    rw [on_bind_of_ok h]
    rfl
  · rw [s.quiet_analysis a c r mid h, List.append_nil]
  · rw [recordsValue, Json.writable_list, List.forall_mem_map]
    exact forall₂_congr fun record hr => TemplateRecord.writable_of_mem_ofGrouping hr

lemma printsIff_showSettings {es : Entries} (h : s.stored c = .ok es) (hes : es ≠ []) :
    PrintsIff (s.carryOut .showSettings) c [s.settingsHeader] (.ok (.map es)) (Writable (.map es)) := by
  obtain ⟨errors, hrun⟩ := on_run s.least (UserSettings.load (s.filesAt c) s.settingsFile)
    { c with files := s.filesAt c }
  rw [show (UserSettings.load (s.filesAt c) s.settingsFile).outcome = .ok es from h, on_ofResult_ok] at hrun
  let mid : Console := { files := s.filesAt c, output := c.output ++ [s.settingsHeader], errors }
  refine @printsIff_of_printJson _ _ mid _ _ _ ?_ rfl (Json.write_givenIff _)
  show s.showSettings.on c = _
  unfold Setup.showSettings
  rw [on_bind_of_ok (s.on_openSettings c), on_bind_of_ok hrun, on_bind_of_ok (on_print _), if_neg]
  · rfl
  · simpa using hes

/-- What storing a setting takes. -/
lemma setSetting_eq_ok {key text : String} {c' : Console} (h : (s.carryOut (.setSetting key text)).on c = (.ok (), c')) :
    ∃ es v, s.stored c = .ok es ∧ UserSettings.keyParts key ≠ [] ∧ UserSettings.valueOf text = .ok v := by
  change (s.setSetting key text).on c = _ at h
  unfold Setup.setSetting at h
  obtain ⟨parts, mid, hrun, h⟩ := on_bind_eq_ok.mp h
  obtain ⟨hparts, errors, rfl⟩ := runSettings_eq_ok hrun
  rw [on_bind_of_ok (s.on_openSettings _)] at h
  obtain ⟨es, mid, hwith, -⟩ := on_bind_eq_ok.mp h
  have hset := (runSettings_eq_ok hwith).1
  have hk : UserSettings.keyParts key ≠ [] := (UserSettings.partsOf_eq_ok.mp hparts).1
  rw [UserSettings.outcome_withLinked _ _ hk] at hset
  obtain ⟨before, hbefore, hset⟩ := bind_eq_ok.mp hset
  obtain ⟨l, hl, -⟩ := Fault.map_eq_ok.mp hset
  exact ⟨_, l.value, UserSettings.load_eq_ok hbefore, hk, UserSettings.valueOf_eq_ok.mpr ⟨l, hl, rfl⟩⟩

/-- A user without settings, who has a file of a mob and one of a skill. -/
def sampleSetup : Setup :=
  { configHome := ⟨true, ["home"]⟩ }

def sampleConsole (field cooldown : String) : Console where
  files := { files := [
    (Path.ofText "mobs", ("Ox: \x7bHealth: " ++ field ++ "\x7d").toUTF8),
    (Path.ofText "skills", ("Bolt: \x7bSkills: [1], Cooldown: " ++ cooldown ++ "\x7d").toUTF8)] }

def mobFile : AnalysisArguments :=
  { file := "mobs", json := true }

def skillFile : AnalysisArguments :=
  { file := "skills", context := some "skillFile" }

/-- The step is done, and comes to something of which the test holds. -/
def comesTo {α : Type} (r : Except Ending α × Console) (test : α → Bool) : Bool :=
  match r with
  | (.ok a, _) => test a
  | _ => false

/-- The step is done. -/
def done {α : Type} (r : Except Ending α × Console) : Bool :=
  comesTo r fun _ => true

/-- The step refuses a value for its kind. -/
def refuses {α : Type} (r : Except Ending α × Console) : Bool :=
  match r with
  | (.error (.fault .wrongKind), _) => true
  | _ => false

lemma exists_of_comesTo {α : Type} (act : Action α) (c : Console) {test : α → Bool}
    (h : comesTo (act.on c) test = true) : ∃ a c', act.on c = (.ok a, c') ∧ test a = true := by
  unfold comesTo at h
  split at h
  · exact ⟨_, _, by assumption, h⟩
  · simp at h

lemma exists_of_done {α : Type} (act : Action α) (c : Console) (h : done (act.on c) = true) :
    ∃ a c', act.on c = (.ok a, c') := by
  obtain ⟨a, c', hon, -⟩ := exists_of_comesTo act c h
  exact ⟨a, c', hon⟩

lemma exists_of_refuses {α : Type} (act : Action α) (c : Console) (h : refuses (act.on c) = true) :
    ∃ c', act.on c = (.error (.fault .wrongKind), c') := by
  unfold refuses at h
  split at h
  · exact ⟨_, by assumption⟩
  · simp at h

/-- One unit, which calls nothing. -/
def lone (r : Report) (n : String) : Bool :=
  r.graph.nodes == [n] && (r.graph.successors n).isEmpty

/-- The numbers of the report, but for those of its graph, have few digits, and so have those in the fields of
mobs. -/
def small (r : Report) : Bool :=
  r.units.all (fun u => (Json.write u.score).toOption.isSome && (Json.write (.map u.rawExtra)).toOption.isSome &&
    decide (Short u.lineCount)) &&
  r.patterns.all (fun p => p.confidence.isTold && p.confidence.number?.isSome) &&
  r.grouping.groups.all (fun p => p.confidence.isTold && p.confidence.number?.isSome) &&
  ([r.units.length, r.totalLines, r.graph.edges.length, r.graph.entryPoints.length, r.graph.leaves.length,
    r.graph.danglingEdges.length] ++ r.grouping.counts ++ r.statistics.counts ++
      r.findings.flatMap Finding.counts).all fun n => decide (Short n)

/-- The report on a unit that calls nothing is printed if its other numbers have few digits. -/
lemma printable_of_lone {r : Report} {n : String} (hlone : lone r n = true) (hsmall : small r = true) :
    r.Printable := by
  simp only [lone, Bool.and_eq_true, beq_iff_eq, List.isEmpty_iff] at hlone
  obtain ⟨hnodes, hcalls⟩ := hlone
  have hdepth : r.graph.maxDepth = 0 := by
    simp [CallGraph.maxDepth, CallGraph.depths, hnodes, deepen, hcalls]
  have hcycles : r.graph.cycles = [] := by
    simp [CallGraph.cycles, hnodes, tour, hcalls, Tour.enter]
  have hzero : Short 0 := Nat.pow_pos (by decide)
  have hone : Short 1 := Nat.one_lt_pow (by decide +kernel) (by decide)
  simp only [small, Bool.and_eq_true, List.all_eq_true, decide_eq_true_eq, List.forall_mem_append,
    List.forall_mem_cons, and_assoc] at hsmall
  obtain ⟨hunits, hpatterns, hgroups, hlength, hlines, hedges, hentries, hleaves, hdangling, -, hgrouping,
    hstatistics, hfindings⟩ := hsmall
  have hwritten : ∀ v, (Json.write v).toOption.isSome → Writable v := fun v hv => by
    by_contra hno
    obtain ⟨f, -, hf⟩ := (Json.write_givenIff v).refused hno
    simp [hf, Except.toOption] at hv
  have hsummary : ∀ k ∈ r.graph.summary.counts, Short k := by
    simp [GraphSummary.counts, CallGraph.summary, hnodes, hdepth, hcycles, hedges, hentries, hleaves, hdangling,
      hzero, hone]
  exact {
    scores := fun u hu => hwritten _ (hunits u hu).1
    patterns := fun p hp => (hpatterns p hp).1
    groups := fun p hp => (hgroups p hp).1
    counts := by
      simp only [Report.counts, List.cons_append, List.forall_mem_cons, List.forall_mem_append, List.forall_mem_map]
      exact ⟨hlength, hlines, ⟨⟨⟨fun u hu => (hunits u hu).2.2, hsummary⟩, hgrouping⟩, hstatistics⟩, hfindings⟩
    fields := fun u hu => hwritten _ (hunits u hu).2.1
    patternsGraded := fun p hp => (hpatterns p hp).2
    groupsGraded := fun p hp => (hgroups p hp).2 }

lemma PrintsIff.of_refuses {act : Action Unit} {before : List String} {v : Except Fault Value} {p : Prop}
    (hp : PrintsIff act c before v p) (h : refuses (act.on c) = true) : ¬ p := by
  intro hyes
  obtain ⟨w, line, c', -, -, hc, -⟩ := hp.printed hyes
  simp [refuses, hc] at h

end Setup

end Command

end SkillAtlas
