import Leadline.SequenceExecution
import Leadline.SequenceService

namespace Leadline.SequenceEdits

open Library SequenceStepRepository SequenceExecution

inductive Event
  | create (tenantId sequenceId : Id) (payload : SequenceStepCreate) (id : Id)
  | update (tenantId sequenceId stepId : Id) (payload : SequenceStepUpdate)
  | delete (tenantId sequenceId stepId : Id)
  | job (payload : Dict) (calls : StepCalls)

def after (settings : Settings) (db : Db) : Event → Db
  | .create tenantId sequenceId payload id =>
    (SequenceService.createStep db tenantId sequenceId payload id).after db
  | .update tenantId sequenceId stepId payload =>
    (SequenceService.updateStep db tenantId sequenceId stepId payload).after db
  | .delete tenantId sequenceId stepId => (SequenceService.deleteStep db tenantId sequenceId stepId).after db
  | .job payload calls => (processSequenceStepEvent settings db payload calls).db

def step (settings : Settings) (db : Db) (event : Event) : Option Db := some (after settings db event)

def KeepsPosition (enrollmentId : Id) (db db' : Db) : Prop :=
  ∀ row, db.enrollments.find? enrollmentId = some row → row.status = .active →
    (stepsBefore db row).Perm (stepsBefore db' row)

def Admitted (settings : Settings) (enrollmentId : Id) (db : Db) : Event → Prop
  | .job _ calls => calls.Faultless db
  | event => KeepsPosition enrollmentId db (after settings db event)

structure Positional (enrollment : SequenceEnrollment) (db : Db) (row : SequenceEnrollment) : Prop where
  found : db.enrollments.find? enrollment.id = some row
  owner : row.sequenceId = enrollment.sequenceId
  nodup : (executed enrollment.id db).Nodup
  progress : row.status = .active → (executed enrollment.id db).Perm (stepsBefore db row)

def AllExecuted (enrollment : SequenceEnrollment) (db : Db) : Prop :=
  ∀ s ∈ listForSequence db enrollment.sequenceId, s.id ∈ executed enrollment.id db

variable {settings : Settings} {enrollment row : SequenceEnrollment} {db db' : Db} {payload : Dict}
  {calls : StepCalls} {work : StepWork} {usage : Option UsageChange} {eventId : Id}

theorem Positional.start (h : Enrolled enrollment db) : Positional enrollment db enrollment where
  found := h.row
  owner := rfl
  nodup := by
    rw [h.executed]
    exact List.nodup_nil
  progress := by
    intro
    rw [h.executed, stepsBefore, h.index]
    exact List.Perm.nil

theorem id_of_found (h : Positional enrollment db row) : row.id = enrollment.id :=
  (Table.find?_eq_some_iff.mp h.found).2

theorem Positional.edit (h : Positional enrollment db row)
    (hsteps : ∃ steps, db' = { db with steps := steps })
    (hkeep : KeepsPosition enrollment.id db db') : Positional enrollment db' row := by
  obtain ⟨steps, rfl⟩ := hsteps
  refine ⟨h.found, h.owner, h.nodup, fun hactive => ?_⟩
  exact (h.progress hactive).trans (hkeep row h.found hactive)

theorem allExecuted_of_end (h : (executed enrollment.id db).Perm (stepsBefore db row))
    (howner : row.sequenceId = enrollment.sequenceId)
    (hend : (listForSequence db row.sequenceId).length ≤ row.currentStepIndex) :
    AllExecuted enrollment db := by
  intro s hs
  rw [← howner] at hs
  rw [h.mem_iff, stepsBefore, List.take_of_length_le hend]
  exact List.mem_map_of_mem hs

theorem Positional.finish (h : Positional enrollment db row) (hactive : row.status = .active)
    (hend : (listForSequence db row.sequenceId).length ≤ row.currentStepIndex) :
    Positional enrollment (completeEnrollment db row) { row with status := .completed } ∧
      AllExecuted enrollment (completeEnrollment db row) := by
  have hid := id_of_found h
  have hfind : (completeEnrollment db row).enrollments.find? enrollment.id =
      some { row with status := .completed } := by
    rw [← hid]
    apply find?_completeEnrollment
    rw [hid]
    exact h.found
  have hall : AllExecuted enrollment db := allExecuted_of_end (h.progress hactive) h.owner hend
  exact ⟨⟨hfind, h.owner, h.nodup, fun hc => by cases hc⟩, hall⟩

theorem Positional.execute (usage : Option UsageChange) (h : Positional enrollment db row)
    (hwork : work.ReadFrom db payload)
    (hrow : work.enrollment = row) (hfresh : db.timeline.Fresh eventId) :
    Positional enrollment (work.commit db usage eventId) (work.advance row) ∧
      ((work.advance row).status = .completed → AllExecuted enrollment (work.commit db usage eventId)) := by
  subst hrow
  have hid := id_of_found h
  obtain ⟨hlt, hget⟩ := List.getElem?_eq_some_iff.mp hwork.step
  have hexec : executed enrollment.id (work.commit db usage eventId) =
      executed enrollment.id db ++ [work.step.id] := by
    rw [← hid]
    exact executed_commit work usage hfresh
  have hperm : (executed enrollment.id (work.commit db usage eventId)).Perm
      (stepsBefore (work.commit db usage eventId) (work.advance work.enrollment)) := by
    have hbefore : stepsBefore (work.commit db usage eventId) (work.advance work.enrollment) =
        stepsBefore db work.enrollment ++ [work.step.id] := by
      change ((listForSequence db work.enrollment.sequenceId).take
        (work.enrollment.currentStepIndex + 1)).map
        SequenceStep.id = _
      rw [List.take_add_one, hwork.step, List.map_append]
      rfl
    rw [hexec, hbefore]
    exact (h.progress hwork.active).append_right _
  have hnodup : (executed enrollment.id (work.commit db usage eventId)).Nodup := by
    rw [hperm.nodup_iff]
    exact nodup_listForSequence.sublist ((List.take_sublist _ _).map SequenceStep.id)
  have hfind : (work.commit db usage eventId).enrollments.find? enrollment.id =
      some (work.advance work.enrollment) := by
    rw [← hid]
    exact StepWork.find?_commit hwork.row
  refine ⟨⟨hfind, h.owner, hnodup, fun _ => hperm⟩, fun hcompleted => ?_⟩
  apply allExecuted_of_end hperm h.owner
  have hlast : work.isLast = true := by
    by_contra hne
    simp [StepWork.advance, hne, hwork.active] at hcompleted
  rw [StepWork.isLast, hwork.count] at hlast
  exact of_decide_eq_true hlast

theorem Positional.other (h : Positional enrollment db row)
    (hfind : db'.enrollments.find? enrollment.id = db.enrollments.find? enrollment.id)
    (hexec : executed enrollment.id db' = executed enrollment.id db)
    (hsteps : db'.steps = db.steps) : Positional enrollment db' row := by
  have hbefore : stepsBefore db' row = stepsBefore db row := by
    simp only [stepsBefore, listForSequence, hsteps]
  refine ⟨hfind.trans h.found, h.owner, ?_, fun hactive => ?_⟩
  · rw [hexec]
    exact h.nodup
  · rw [hexec, hbefore]
    exact h.progress hactive

theorem Positional.job (settings : Settings) (payload : Dict) (h : Positional enrollment db row)
    (hcalls : calls.Faultless db) :
    ∃ row', Positional enrollment (processSequenceStepEvent settings db payload calls).db row' ∧
      (row.status = .active → row'.status = .completed →
        AllExecuted enrollment (processSequenceStepEvent settings db payload calls).db) := by
  have hsame : row.status = .active → row.status ≠ .completed := by
    intro hactive
    rw [hactive]
    decide
  rcases readStepJob_cases db payload with hread | ⟨e, hread, -, hrow, hactive, hend⟩ | ⟨work, hread, hwork⟩
  · rw [process_ignored settings hread]
    exact ⟨row, h, fun ha hc => absurd hc (hsame ha)⟩
  · rw [process_finished settings hcalls hread]
    by_cases hid : e.id = enrollment.id
    · rw [hid, h.found] at hrow
      obtain rfl := Option.some.inj hrow
      obtain ⟨hp, hall⟩ := h.finish hactive hend
      exact ⟨_, hp, fun _ _ => hall⟩
    · have hother : Positional enrollment (completeEnrollment db e) row :=
        h.other (find?_completeEnrollment_of_ne (Ne.symm hid)) rfl rfl
      exact ⟨row, hother, fun ha hc => absurd hc (hsame ha)⟩
  · obtain ⟨token, -, hr⟩ := process_executed settings hcalls hread
    rw [hr]
    by_cases hid : work.enrollment.id = enrollment.id
    · have hrow := hwork.row
      rw [hid, h.found] at hrow
      have hexecute := h.execute (work.recordUsage db calls.today token) hwork (Option.some.inj hrow).symm hcalls.fresh
      exact ⟨_, hexecute.1, fun _ hc => hexecute.2 hc⟩
    · have hother : Positional enrollment
          (work.commit db (work.recordUsage db calls.today token) calls.eventId) row :=
        h.other (StepWork.find?_commit_of_ne (Ne.symm hid)) (executed_commit_of_ne hcalls.fresh hid) rfl
      exact ⟨row, hother, fun ha hc => absurd hc (hsame ha)⟩

theorem positional_of_run {db₀ : Db} {events : List Event} (h : Enrolled enrollment db₀)
    (hrun : GuardedRun (Enabled (step settings)) (Admitted settings enrollment.id) db₀ events db) :
    ∃ row, Positional enrollment db row := by
  apply hrun.invariant (fun db => ∃ row, Positional enrollment db row)
  · rintro db event db' ⟨row, hp⟩ hok hstep
    rw [← Option.some.inj hstep]
    cases event with
    | create tenantId sequenceId payload id =>
      exact ⟨row, hp.edit SequenceService.createStep_stepsOnly hok⟩
    | update tenantId sequenceId stepId payload =>
      exact ⟨row, hp.edit SequenceService.updateStep_stepsOnly hok⟩
    | delete tenantId sequenceId stepId =>
      exact ⟨row, hp.edit SequenceService.deleteStep_stepsOnly hok⟩
    | job payload calls =>
      obtain ⟨row', hp', -⟩ := hp.job settings payload hok
      exact ⟨row', hp'⟩
  · exact ⟨enrollment, Positional.start h⟩

end Leadline.SequenceEdits

namespace Leadline

open Library SequenceStepRepository SequenceExecution SequenceEdits

theorem progress_survives_edits (settings : Settings) (enrollment : SequenceEnrollment) (db₀ db : Db)
    (events : List SequenceEdits.Event) (h : Enrolled enrollment db₀)
    (hrun : GuardedRun (Enabled (SequenceEdits.step settings))
      (SequenceEdits.Admitted settings enrollment.id) db₀ events db) :
    (executed enrollment.id db).Nodup ∧
      ∀ payload calls row row', calls.Faultless db →
        db.enrollments.find? enrollment.id = some row → row.status = .active →
        (processSequenceStepEvent settings db payload calls).db.enrollments.find? enrollment.id = some row' →
        row'.status = .completed →
        AllExecuted enrollment (processSequenceStepEvent settings db payload calls).db := by
  obtain ⟨current, hp⟩ := positional_of_run h hrun
  refine ⟨hp.nodup, ?_⟩
  intro payload calls row row' hcalls hrow hactive hrow' hcompleted
  rw [hp.found] at hrow
  obtain rfl := Option.some.inj hrow
  obtain ⟨next, hp', hall⟩ := hp.job settings payload hcalls
  rw [hp'.found] at hrow'
  obtain rfl := Option.some.inj hrow'
  exact hall hactive hcompleted

def runJob (eventId : Id) : SequenceEdits.Event :=
  .job (stepJob "tenant-seq" "enr-1").payload (faultlessCalls eventId)

def laterStep : List SequenceEdits.Event :=
  [runJob "ev-1", .create "tenant-seq" "seq-1" ⟨2, "wait", 0, none⟩ "step-c", runJob "ev-2"]

theorem progress_survives_later_step :
    ∃ db, runSteps (SequenceEdits.step {}) welcomeDb laterStep = some db ∧
      AllExecuted miaEnrolled
        (processSequenceStepEvent {} db (stepJob "tenant-seq" "enr-1").payload
          (faultlessCalls "ev-3")).db := by
  refine ⟨_, rfl, ?_⟩
  have hkeep : KeepsPosition "enr-1" (after {} welcomeDb (runJob "ev-1")) (after {}
      (after {} welcomeDb (runJob "ev-1")) (.create "tenant-seq" "seq-1"
        ⟨2, "wait", 0, none⟩ "step-c")) := by
    intro row hrow _
    have hfind : (after {} welcomeDb (runJob "ev-1")).enrollments.find? "enr-1" =
        some { miaEnrolled with currentStepIndex := 1 } := by decide +kernel
    obtain rfl := Option.some.inj (hrow.symm.trans hfind)
    have heq : stepsBefore (after {} welcomeDb (runJob "ev-1")) { miaEnrolled with currentStepIndex := 1 } =
        stepsBefore (after {} (after {} welcomeDb (runJob "ev-1"))
          (.create "tenant-seq" "seq-1" ⟨2, "wait", 0, none⟩ "step-c"))
          { miaEnrolled with currentStepIndex := 1 } := by decide +kernel
    rw [heq]
  have hrun : GuardedRun (Enabled (SequenceEdits.step {})) (SequenceEdits.Admitted {} miaEnrolled.id)
      welcomeDb laterStep _ :=
    .cons ⟨rfl, rfl, rfl, by decide⟩ rfl (.cons hkeep rfl
      (.cons ⟨rfl, rfl, rfl, by decide +kernel⟩ rfl (.nil _)))
  have hlast : (after {} (after {} (after {} welcomeDb (runJob "ev-1"))
      (.create "tenant-seq" "seq-1" ⟨2, "wait", 0, none⟩ "step-c"))
        (runJob "ev-2")).enrollments.find? "enr-1" =
        some { miaEnrolled with currentStepIndex := 2 } := by decide +kernel
  refine (progress_survives_edits {} miaEnrolled welcomeDb _ laterStep enrolled_welcomeDb hrun).2 _ _ _
    { miaEnrolled with currentStepIndex := 3, status := .completed } ?_ hlast rfl ?_ rfl
  · exact ⟨rfl, rfl, rfl, by decide +kernel⟩
  · decide +kernel

theorem edits_shift_the_position :
    Enrolled miaEnrolled welcomeDb ∧
      (∃ db, runSteps (SequenceEdits.step {}) welcomeDb
          [runJob "ev-1", .delete "tenant-seq" "seq-1" "step-a", runJob "ev-2"] = some db ∧
        (db.enrollments.find? "enr-1").map SequenceEnrollment.status = some .completed ∧
        (∃ s ∈ listForSequence db "seq-1", s.id = "step-b" ∧ s ∈ listForSequence welcomeDb "seq-1") ∧
        executed "enr-1" db = ["step-a"]) ∧
      ∃ db, runSteps (SequenceEdits.step {}) welcomeDb
          [runJob "ev-1", .create "tenant-seq" "seq-1" ⟨-1, "wait", 0, none⟩ "step-c", runJob "ev-2"] =
            some db ∧
        executed "enr-1" db = ["step-a", "step-a"] := by
  refine ⟨enrolled_welcomeDb, ⟨_, rfl, ?_, ?_, ?_⟩, _, rfl, ?_⟩
  · decide +kernel
  · exact ⟨emailStep "step-b" 1, by decide +kernel, rfl, by decide +kernel⟩
  · decide +kernel
  · decide +kernel

end Leadline
