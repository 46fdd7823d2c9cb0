import Mathlib.Tactic.Lemma
import SkillAtlas.Command.Run

/-!
# Commands step by step

A command is carried out on a console, and its steps hand the console on. Reading files, settings and
documents prints nothing: a step of this kind that is done leaves the output as it was.
-/

namespace SkillAtlas

lemma Engine.run_of_analyze {e : Engine} {r : Request} {report : Report}
    (h : (e.analyze r).outcome = .ok (.report report)) : (e.run r).outcome = .ok report := by
  unfold analyze at h
  dsimp only at h
  cases ho : (e.run r).outcome with
  | ok other =>
    rw [ho] at h
    exact congrArg Except.ok (Outcome.report.inj (Except.ok.inj h))
  | error f =>
    rw [ho] at h
    dsimp only at h
    split at h <;> simp at h

namespace Command

namespace Action

variable {α β : Type} {act : Action α} {f : α → Action β} {c c' : Console} {a : α} {b : β}

/-- Carries out a step on a console. -/
def on (act : Action α) (c : Console) : Except Ending α × Console :=
  StateT.run (ExceptT.run act) c

lemma on_bind_of_ok (h : act.on c = (.ok a, c')) : (act >>= f).on c = (f a).on c' := by
  unfold on at h ⊢
  rw [ExceptT.run_bind, StateT.run_bind, h]
  rfl

lemma on_bind_of_error {e : Ending} (h : act.on c = (.error e, c')) : (act >>= f).on c = (.error e, c') := by
  unfold on at h ⊢
  rw [ExceptT.run_bind, StateT.run_bind, h]
  rfl

lemma on_bind_eq_ok : (act >>= f).on c = (.ok b, c') ↔
    ∃ a mid, act.on c = (.ok a, mid) ∧ (f a).on mid = (.ok b, c') := by
  rcases hr : act.on c with ⟨r, mid⟩
  cases r with
  | error e => simp [on_bind_of_error hr]
  | ok a => simp [on_bind_of_ok hr, and_assoc]

@[simp] lemma on_pure (a : α) : (pure a : Action α).on c = (.ok a, c) :=
  rfl

@[simp] lemma on_throw (e : Ending) : (throw e : Action α).on c = (.error e, c) :=
  rfl

@[simp] lemma on_print (line : String) : (print line).on c = (.ok (), { c with output := c.output ++ [line] }) :=
  rfl

@[simp] lemma on_ofResult_ok (a : α) : (ofResult (.ok a)).on c = (.ok a, c) :=
  rfl

@[simp] lemma on_ofResult_error (e : Fault) : (ofResult (.error e) : Action α).on c = (.error (.fault e), c) :=
  rfl

/-- Notes go to the channel for errors; the files and the output stay. -/
lemma on_ofJournal (least : Level) (j : Journal α) (c : Console) :
    ∃ errors, (ofJournal least j).on c = (.ok j.outcome, { c with errors }) := by
  have hlines : ∀ (lines : List String) (c : Console), ∃ errors,
      (do
        for line in lines do
          warn line
        return j.outcome : Action (Except Fault α)).on c = (.ok j.outcome, { c with errors }) := by
    intro lines
    induction lines with
    | nil => exact fun c => ⟨c.errors, rfl⟩
    | cons line rest ih =>
      intro c
      obtain ⟨errors, h⟩ := ih { c with errors := c.errors ++ [line] }
      simp only [List.forIn_cons, bind_assoc, pure_bind]
      exact ⟨errors, (on_bind_of_ok rfl).trans h⟩
  exact hlines _ c

lemma on_run (least : Level) (j : Journal α) (c : Console) :
    ∃ errors, (run least j).on c = (ofResult j.outcome).on { c with errors } := by
  obtain ⟨errors, h⟩ := on_ofJournal least j c
  exact ⟨errors, on_bind_of_ok h⟩

lemma run_eq_ok {least : Level} {j : Journal α} (h : (run least j).on c = (.ok a, c')) :
    j.outcome = .ok a ∧ ∃ errors, c' = { c with errors } := by
  obtain ⟨errors, hrun⟩ := on_run least j c
  rw [hrun] at h
  cases ho : j.outcome with
  | error e => simp [ho] at h
  | ok b =>
    simp only [ho, on_ofResult_ok, Prod.mk.injEq, Except.ok.injEq] at h
    exact ⟨congrArg Except.ok h.1, errors, h.2.symm⟩

lemma runSettings_eq_ok {least : Level} {j : Journal α} (h : (runSettings least j).on c = (.ok a, c')) :
    j.outcome = .ok a ∧ ∃ errors, c' = { c with errors } := by
  obtain ⟨errors, hj⟩ := on_ofJournal least j c
  unfold runSettings at h
  rw [on_bind_of_ok hj] at h
  split at h
  · obtain ⟨u, mid, -, h⟩ := on_bind_eq_ok.mp h
    simp at h
  · cases ho : j.outcome with
    | error e => simp [ho] at h
    | ok b =>
      simp only [ho, on_ofResult_ok, Prod.mk.injEq, Except.ok.injEq] at h
      exact ⟨congrArg Except.ok h.1, errors, h.2.symm⟩

/-- A step that prints nothing if it is done. -/
def Quiet (act : Action α) : Prop :=
  ∀ c a c', act.on c = (.ok a, c') → c'.output = c.output

namespace Quiet

protected lemma pure (a : α) : Quiet (pure a : Action α) := by
  rintro c b c' h
  obtain ⟨-, rfl⟩ := Prod.mk.inj h
  rfl

protected lemma throw (e : Ending) : Quiet (throw e : Action α) := by
  intro c a c' h
  simp at h

protected lemma bind (h : act.Quiet) (hf : ∀ a, (f a).Quiet) : (act >>= f).Quiet := by
  intro c b c' hb
  obtain ⟨a, mid, ha, hb⟩ := on_bind_eq_ok.mp hb
  rw [hf a mid b c' hb, h c a mid ha]

/-- What is printed before the command ends does not count: the step is not done. -/
lemma ended (act : Action β) (e : Ending) : Quiet (do let _ ← act; throw e : Action α) := by
  intro c a c' h
  obtain ⟨b, mid, -, h⟩ := on_bind_eq_ok.mp h
  simp at h

protected lemma warn (line : String) : (warn line).Quiet := by
  intro c a c' h
  obtain ⟨-, rfl⟩ := Prod.mk.inj h
  rfl

protected lemma files : files.Quiet := by
  intro c a c' h
  obtain ⟨-, rfl⟩ := Prod.mk.inj h
  rfl

protected lemma changeFiles (f : Files → Files) : (changeFiles f).Quiet := by
  intro c a c' h
  obtain ⟨-, rfl⟩ := Prod.mk.inj h
  rfl

protected lemma refuse (message : String) : Quiet (refuse message : Action α) :=
  ended (warn _) (.done 1)

protected lemma ofResult (r : Except Fault α) : (ofResult r).Quiet := by
  cases r with
  | ok a => exact .pure a
  | error e => exact .throw (.fault e)

protected lemma ofJournal (least : Level) (j : Journal α) : (ofJournal least j).Quiet := by
  intro c a c' h
  obtain ⟨errors, hj⟩ := on_ofJournal least j c
  obtain ⟨-, rfl⟩ := Prod.mk.inj (hj.symm.trans h)
  rfl

protected lemma run (least : Level) (j : Journal α) : (run least j).Quiet :=
  (Quiet.ofJournal least j).bind .ofResult

protected lemma runSettings (least : Level) (j : Journal α) : (runSettings least j).Quiet := by
  refine (Quiet.ofJournal least j).bind fun r => ?_
  split
  · exact .refuse _
  · exact .ofResult _

end Quiet

end Action

namespace Setup

open SkillAtlas.Command.Action

variable {s : Setup} {a : AnalysisArguments}

/-- The files that a command of this setup finds. -/
def filesAt (s : Setup) (c : Console) : Files :=
  c.files.makeFolder (UserSettings.folderIn s.configHome)

lemma on_openSettings (s : Setup) (c : Console) :
    s.openSettings.on c = (.ok (s.filesAt c), { c with files := s.filesAt c }) :=
  rfl

lemma readText_eq_ok {name text : String} {c c' : Console} (h : (readText name).on c = (.ok text, c')) :
    c' = c := by
  obtain ⟨f, mid, hf, h⟩ := on_bind_eq_ok.mp h
  obtain ⟨-, rfl⟩ := Prod.mk.inj hf
  dsimp only at h
  split at h
  · obtain ⟨u, mid, hrefuse, -⟩ := on_bind_eq_ok.mp h
    obtain ⟨u, mid, -, hrefuse⟩ := on_bind_eq_ok.mp hrefuse
    simp at hrefuse
  · cases hr : f.read (Path.ofText name) with
    | error e => simp [hr] at h
    | ok text =>
      rw [hr, on_ofResult_ok] at h
      exact (Prod.mk.inj h).2.symm

lemma inForce_eq_ok {c c' : Console} {inForce : Settings × Vocabulary} (h : s.inForce.on c = (.ok inForce, c')) :
    (UserSettings.inForce (s.filesAt c) s.settingsFile).outcome = .ok inForce := by
  unfold Setup.inForce at h
  rw [on_bind_of_ok (s.on_openSettings c)] at h
  exact (runSettings_eq_ok h).1

lemma quiet_readText (name : String) : (readText name).Quiet := by
  refine Quiet.files.bind fun f => ?_
  dsimp only
  split
  · exact (Quiet.refuse _).bind fun _ => Quiet.ofResult _
  · exact Quiet.ofResult _

lemma quiet_outsideNames (a : AnalysisArguments) : (outsideNames a).Quiet := by
  unfold outsideNames
  split
  · exact Quiet.pure _
  · exact Quiet.pure _
  · exact (quiet_readText _).bind fun _ => Quiet.pure _

lemma quiet_inForce (s : Setup) : s.inForce.Quiet :=
  ((Quiet.changeFiles _).bind fun _ => Quiet.files).bind fun _ => Quiet.runSettings _ _

lemma quiet_analysis (s : Setup) (a : AnalysisArguments) : (s.analysis a).Quiet := by
  refine (quiet_readText _).bind fun text => s.quiet_inForce.bind fun inForce =>
    (quiet_outsideNames a).bind fun outside => (Quiet.run _ _).bind fun outcome => ?_
  cases outcome with
  | report r => exact Quiet.pure r
  | failure f =>
    dsimp only
    split
    · exact (Quiet.ofResult _).bind fun v => Quiet.ended (printJson v) (.done 1)
    · exact Quiet.refuse _

/-- A report is that of a run with the settings in force. -/
lemma analysis_eq_ok {c c' : Console} {r : Report} (h : (s.analysis a).on c = (.ok r, c')) :
    ∃ (e : Engine) (request : Request), (e.run request).outcome = .ok r ∧
      (UserSettings.inForce (s.filesAt c) s.settingsFile).outcome = .ok (e.settings, e.vocabulary) := by
  obtain ⟨text, mid, htext, hrest⟩ := on_bind_eq_ok.mp h
  clear h
  obtain rfl := readText_eq_ok htext
  obtain ⟨⟨settings, vocabulary⟩, mid, hforce, h⟩ := on_bind_eq_ok.mp hrest
  obtain ⟨outside, mid, -, h⟩ := on_bind_eq_ok.mp h
  obtain ⟨outcome, mid, hrun, h⟩ := on_bind_eq_ok.mp h
  refine ⟨{ settings, vocabulary }, { text, context := a.context, outside }, ?_, inForce_eq_ok hforce⟩
  cases outcome with
  | report report =>
    obtain ⟨hr, -⟩ := Prod.mk.inj h
    obtain rfl := Except.ok.inj hr
    exact Engine.run_of_analyze (run_eq_ok hrun).1
  | failure f =>
    dsimp only at h
    split at h
    · obtain ⟨v, mid, -, h⟩ := on_bind_eq_ok.mp h
      obtain ⟨u, mid, -, h⟩ := on_bind_eq_ok.mp h
      simp at h
    · obtain ⟨u, mid, -, h⟩ := on_bind_eq_ok.mp h
      simp at h

end Setup

end Command

end SkillAtlas
