import Leadline.Library.Cursor
import Leadline.Library.GuardedRun
import Leadline.SequencePipeline

namespace Leadline.SequenceExecution

open Library SequenceStepRepository

def executedStep (enrollmentId : Id) (event : LeadTimelineEvent) : Option String :=
  let payload := event.payload.getD []
  if event.type = "sequence_step_executed" ∧ payload.str? "enrollment_id" = some enrollmentId then
    payload.str? "step_id"
  else none

def executed (enrollmentId : Id) (db : Db) : List String :=
  db.timeline.rows.filterMap (executedStep enrollmentId)

theorem executedStep_timelineEvent (id : Id) (work : StepWork) :
    executedStep work.enrollment.id (work.timelineEvent id) = some work.step.id := by
  simp [executedStep, StepWork.timelineEvent, Dict.str?, Dict.get, List.lookup_cons]

theorem executedStep_timelineEvent_of_ne {enrollmentId : Id} (id : Id) {work : StepWork}
    (h : work.enrollment.id ≠ enrollmentId) :
    executedStep enrollmentId (work.timelineEvent id) = none := by
  simp [executedStep, StepWork.timelineEvent, Dict.str?, Dict.get, List.lookup_cons, h]

theorem executed_commit {db : Db} {eventId : Id} (work : StepWork) (usage : Option UsageChange)
    (hfresh : db.timeline.Fresh eventId) :
    executed work.enrollment.id (work.commit db usage eventId) =
      executed work.enrollment.id db ++ [work.step.id] := by
  have hfresh' : db.timeline.Fresh (work.timelineEvent eventId).id := hfresh
  simp only [executed, StepWork.commit, Table.rows_insert hfresh', List.filterMap_append,
    List.filterMap_cons, executedStep_timelineEvent, List.filterMap_nil]

theorem executed_commit_of_ne {db : Db} {usage : Option UsageChange} {eventId enrollmentId : Id}
    {work : StepWork} (hfresh : db.timeline.Fresh eventId) (h : work.enrollment.id ≠ enrollmentId) :
    executed enrollmentId (work.commit db usage eventId) = executed enrollmentId db := by
  have hfresh' : db.timeline.Fresh (work.timelineEvent eventId).id := hfresh
  simp only [executed, StepWork.commit, Table.rows_insert hfresh', List.filterMap_append,
    List.filterMap_cons, executedStep_timelineEvent_of_ne _ h, List.filterMap_nil, List.append_nil]

theorem listForSequence_commit {db : Db} {usage : Option UsageChange} {eventId : Id} {work : StepWork}
    (sequenceId : Id) :
    listForSequence (work.commit db usage eventId) sequenceId = listForSequence db sequenceId := rfl

inductive Event
  | job (payload : Dict) (calls : StepCalls)
  | other (db : Db)

def Event.isJob : Event → Bool
  | job _ _ => true
  | other _ => false

structure JobOf (enrollment : SequenceEnrollment) (payload : Dict) : Prop where
  tenant : payload.text "tenant_id" = some enrollment.tenantId
  enrollment : payload.text "enrollment_id" = some enrollment.id

structure Present (enrollment : SequenceEnrollment) (db : Db) : Prop where
  sequence : (SequenceRepository.get db enrollment.tenantId enrollment.sequenceId).isSome
  lead : (LeadRepository.get db enrollment.tenantId enrollment.leadId).isSome

structure Frame (enrollment : SequenceEnrollment) (db db' : Db) : Prop where
  row : db'.enrollments.find? enrollment.id = db.enrollments.find? enrollment.id
  executed : executed enrollment.id db' = executed enrollment.id db
  steps : listForSequence db' enrollment.sequenceId = listForSequence db enrollment.sequenceId
  present : Present enrollment db → Present enrollment db'

def step (settings : Settings) (db : Db) : Event → Option Db
  | .job payload calls => some (processSequenceStepEvent settings db payload calls).db
  | .other db' => some db'

def Admitted (enrollment : SequenceEnrollment) (db : Db) : Event → Prop
  | .job payload calls => JobOf enrollment payload ∧ calls.Faultless db
  | .other db' => Frame enrollment db db'

structure Enrolled (enrollment : SequenceEnrollment) (db : Db) : Prop where
  row : db.enrollments.find? enrollment.id = some enrollment
  active : enrollment.status = .active
  index : enrollment.currentStepIndex = 0
  executed : executed enrollment.id db = []
  present : Present enrollment db

def atCursor (enrollment : SequenceEnrollment) (c : Cursor) : SequenceEnrollment :=
  { enrollment with
    currentStepIndex := c.position
    status := if c.finished then .completed else .active }

theorem atCursor_completed (enrollment : SequenceEnrollment) (k n : ℕ) :
    (atCursor enrollment ⟨min k n, decide (0 < k ∧ n ≤ k)⟩).status = .completed ↔ 0 < k ∧ min k n = n := by
  by_cases hend : 0 < k ∧ n ≤ k
  · simp [atCursor, hend]
  · simp [atCursor, hend]

structure Follows (enrollment : SequenceEnrollment) (steps : List SequenceStep) (c : Cursor) (db : Db) :
    Prop where
  row : db.enrollments.find? enrollment.id = some (atCursor enrollment c)
  executed : executed enrollment.id db = (steps.take c.position).map SequenceStep.id
  steps : listForSequence db enrollment.sequenceId = steps
  present : Present enrollment db

variable {settings : Settings} {enrollment : SequenceEnrollment} {steps : List SequenceStep}
  {c : Cursor} {db : Db} {payload : Dict} {calls : StepCalls}

theorem Follows.frame {db' : Db} (h : Follows enrollment steps c db) (hf : Frame enrollment db db') :
    Follows enrollment steps c db' where
  row := hf.row.trans h.row
  executed := hf.executed.trans h.executed
  steps := hf.steps.trans h.steps
  present := hf.present h.present

theorem get_of_follows (h : Follows enrollment steps c db) :
    SequenceEnrollmentRepository.get db enrollment.tenantId enrollment.id =
      some (atCursor enrollment c) := by
  obtain ⟨hmem, hid⟩ := Table.find?_eq_some_iff.mp h.row
  exact ofTenant_eq_some.mpr ⟨hmem, hid, rfl⟩

inductive JobOutcome (settings : Settings) (enrollment : SequenceEnrollment) (steps : List SequenceStep)
    (c : Cursor) (db : Db) (r : StepResult) : Prop
  | late (hfinished : c.finished = true) (hr : r = ⟨db, none, [], false⟩)
  | finishes (hactive : c.finished = false) (hend : steps.length ≤ c.position)
      (hr : r = ⟨completeEnrollment db (atCursor enrollment c), none, [], false⟩)
  | executes (hactive : c.finished = false) (work : StepWork) (usage : Option UsageChange) (eventId : Id)
      (hstep : steps[c.position]? = some work.step)
      (hwork : work.enrollment = atCursor enrollment c) (hcount : work.stepCount = steps.length)
      (hlead : LeadRepository.get db enrollment.tenantId enrollment.leadId = some work.lead)
      (hfresh : db.timeline.Fresh eventId) (hdb : r.db = work.commit db usage eventId)
      (hdelivered : r.delivered =
        (executeStep settings .returns work.lead work.step.type work.step.template).message)
      (hpublished : r.published = if c.position + 1 < steps.length then
        (SQSPublisher.publish settings .returns (stepJob enrollment.tenantId enrollment.id)).2 else [])
      (hraised : r.raised = false)

theorem job_outcome (settings : Settings) (h : Follows enrollment steps c db)
    (hjob : JobOf enrollment payload) (hcalls : calls.Faultless db) :
    JobOutcome settings enrollment steps c db (processSequenceStepEvent settings db payload calls) := by
  have hget := get_of_follows h
  cases hfin : c.finished with
  | true =>
    have hread : readStepJob db payload = .ignored := by
      apply readStepJob_of_inactive
      intro tenantId enrollmentId row ht he hrow
      rw [Option.some.inj (ht.symm.trans hjob.tenant), Option.some.inj (he.symm.trans hjob.enrollment),
        hget] at hrow
      rw [← Option.some.inj hrow]
      simp [atCursor, hfin]
    exact .late hfin (process_ignored settings hread)
  | false =>
    have hactive : (atCursor enrollment c).status = .active := by simp [atCursor, hfin]
    obtain ⟨sequence, hseq⟩ := Option.isSome_iff_exists.mp h.present.sequence
    obtain ⟨lead, hlead⟩ := Option.isSome_iff_exists.mp h.present.lead
    have hread := readStepJob_of_active hjob.tenant hjob.enrollment hget hactive hseq hlead
    have hsteps : listForSequence db (atCursor enrollment c).sequenceId = steps := h.steps
    have hindex : (atCursor enrollment c).currentStepIndex = c.position := rfl
    simp only [hsteps, hindex] at hread
    cases hstep : steps[c.position]? with
    | none =>
      simp only [hstep] at hread
      exact .finishes hfin (List.getElem?_eq_none_iff.mp hstep) (process_finished settings hcalls hread)
    | some step =>
      simp only [hstep] at hread
      obtain ⟨token, -, hr⟩ := process_executed settings hcalls hread
      let work : StepWork := ⟨enrollment.tenantId, atCursor enrollment c, sequence, lead, step, steps.length⟩
      refine .executes hfin work (work.recordUsage db calls.today token) calls.eventId hstep rfl rfl hlead
        hcalls.fresh ?_ ?_ ?_ ?_
      · rw [hr]
      · rw [hr]
        rfl
      · rw [hr]
        simp only [StepWork.isLast, StepWork.followUp, atCursor]
        by_cases hlt : c.position + 1 < steps.length
        · have hge : ¬ c.position + 1 ≥ steps.length := by omega
          simp only [hlt, hge, decide_false, Bool.false_eq_true, ↓reduceIte]
        · have hge : c.position + 1 ≥ steps.length := by omega
          simp only [hlt, hge, decide_true, ↓reduceIte]
      · rw [hr]

theorem Follows.job {r : StepResult} (h : Follows enrollment steps c db)
    (hr : JobOutcome settings enrollment steps c db r) :
    Follows enrollment steps (c.advance steps.length) r.db := by
  cases hr with
  | late hfin hr =>
    rw [hr]
    simpa [Cursor.advance, hfin] using h
  | finishes hactive hend hr =>
    have hadv : c.advance steps.length = ⟨c.position, true⟩ := by
      simp [Cursor.advance, hactive, hend]
    rw [hr, hadv]
    refine ⟨?_, h.executed, h.steps, h.present.1, h.present.2⟩
    exact find?_completeEnrollment h.row
  | executes hactive work usage eventId hstep hwork hcount hlead hfresh hdb _ _ _ =>
    obtain ⟨hlt, hget⟩ := List.getElem?_eq_some_iff.mp hstep
    have hadv : c.advance steps.length = ⟨c.position + 1, decide (steps.length ≤ c.position + 1)⟩ := by
      simp [Cursor.advance, hactive, hlt]
    have hid : work.enrollment.id = enrollment.id := by rw [hwork]; rfl
    rw [hdb, hadv]
    refine ⟨?_, ?_, ?_, h.present.1, h.present.2⟩
    · have hrow := h.row
      rw [← hid] at hrow ⊢
      refine (StepWork.find?_commit hrow).trans (congrArg some ?_)
      simp only [StepWork.advance, StepWork.isLast, hwork, hcount, atCursor, hactive]
      by_cases hle : steps.length ≤ c.position + 1
      · simp [hle]
      · simp [hle]
    · have hexec := executed_commit work usage hfresh
      rw [hid] at hexec
      rw [hexec, h.executed, List.take_add_one, hstep, List.map_append]
      rfl
    · rw [listForSequence_commit]
      exact h.steps

theorem follows_start (h : Enrolled enrollment db) :
    Follows enrollment (listForSequence db enrollment.sequenceId) Cursor.start db where
  row := by
    have hstart : atCursor enrollment Cursor.start = enrollment := by
      obtain ⟨-, hactive, hindex, -, -⟩ := h
      cases enrollment
      cases hactive
      cases hindex
      rfl
    rw [hstart]
    exact h.row
  executed := by
    rw [h.executed]
    rfl
  steps := rfl
  present := h.present

theorem follows_of_run {db₀ : Db} {events : List Event} (h : Enrolled enrollment db₀)
    (hrun : GuardedRun (Enabled (step settings)) (Admitted enrollment) db₀ events db) :
    Follows enrollment (listForSequence db₀ enrollment.sequenceId)
      ((Cursor.advance (listForSequence db₀ enrollment.sequenceId).length)^[events.countP Event.isJob]
        Cursor.start) db := by
  apply hrun.trace_invariant (fun events db => Follows enrollment (listForSequence db₀ enrollment.sequenceId)
    ((Cursor.advance (listForSequence db₀ enrollment.sequenceId).length)^[events.countP Event.isJob]
      Cursor.start) db)
  · intro events db event db' hf hok hstep
    rw [List.countP_append]
    cases event with
    | job payload calls =>
      obtain ⟨hjob, hcalls⟩ := hok
      have hnext := hf.job (job_outcome settings hf hjob hcalls)
      rw [← Option.some.inj hstep]
      rwa [← Function.iterate_succ_apply' (Cursor.advance _)] at hnext
    | other db'' =>
      rw [← Option.some.inj hstep]
      exact hf.frame hok
  · exact follows_start h

structure NextJob (settings : Settings) (enrollment : SequenceEnrollment) (steps : List SequenceStep)
    (k : ℕ) (db : Db) (r : StepResult) : Prop where
  raised : r.raised = false
  executes : ∀ s, steps[k]? = some s →
    executed enrollment.id r.db = executed enrollment.id db ++ [s.id] ∧
      (∃ lead, LeadRepository.get db enrollment.tenantId enrollment.leadId = some lead ∧
        r.delivered = (executeStep settings .returns lead s.type s.template).message) ∧
      r.published = if k + 1 < steps.length then
        (SQSPublisher.publish settings .returns (stepJob enrollment.tenantId enrollment.id)).2 else []
  idle : steps.length ≤ k → executed enrollment.id r.db = executed enrollment.id db ∧
    r.delivered = none ∧ r.published = []
  unchanged : steps.length ≤ k → 0 < k → r.db = db

theorem nextJob_of_outcome {k : ℕ} {r : StepResult}
    (hr : JobOutcome settings enrollment steps ((Cursor.advance steps.length)^[k] Cursor.start) db r) :
    NextJob settings enrollment steps k db r := by
  rw [Cursor.advance_iterate] at hr
  have hnone : steps.length ≤ k → ∀ s, steps[k]? ≠ some s := by
    intro hle s hs
    rw [List.getElem?_eq_none hle] at hs
    cases hs
  cases hr with
  | late hfinished hr =>
    obtain ⟨-, hle⟩ := of_decide_eq_true hfinished
    rw [hr]
    exact ⟨rfl, fun s hs => absurd hs (hnone hle s), fun _ => ⟨rfl, rfl, rfl⟩, fun _ _ => rfl⟩
  | finishes hactive hend hr =>
    have hactive := of_decide_eq_false hactive
    have hle : steps.length ≤ k := hend.trans (min_le_left _ _)
    rw [hr]
    exact ⟨rfl, fun s hs => absurd hs (hnone hle s), fun _ => ⟨rfl, rfl, rfl⟩,
      fun _ hk => absurd ⟨hk, hle⟩ hactive⟩
  | executes hactive work usage eventId hstep hwork hcount hlead hfresh hdb hdelivered hpublished hraised =>
    obtain ⟨hlt, -⟩ := List.getElem?_eq_some_iff.mp hstep
    have hk : min k steps.length = k := by
      have hmin : min k steps.length < steps.length := hlt
      omega
    have hid : work.enrollment.id = enrollment.id := by rw [hwork]; rfl
    rw [hk] at hstep hpublished hlt
    refine ⟨hraised, ?_, fun hle => absurd hlt (Nat.not_lt.mpr hle), fun hle =>
      absurd hlt (Nat.not_lt.mpr hle)⟩
    intro s hs
    obtain rfl := Option.some.inj (hstep.symm.trans hs)
    have hexec := executed_commit work usage hfresh
    rw [hid] at hexec
    exact ⟨by rw [hdb, hexec], ⟨work.lead, hlead, hdelivered⟩, hpublished⟩

end Leadline.SequenceExecution

namespace Leadline

open Library SequenceStepRepository SequenceExecution

theorem sequential_execution_exactly_once (settings : Settings) (enrollment : SequenceEnrollment)
    (db₀ db : Db) (events : List SequenceExecution.Event) (h : Enrolled enrollment db₀)
    (hrun : GuardedRun (Enabled (SequenceExecution.step settings)) (Admitted enrollment) db₀ events db) :
    let steps := listForSequence db₀ enrollment.sequenceId
    let k := events.countP SequenceExecution.Event.isJob
    (∃ row, db.enrollments.find? enrollment.id = some row ∧
        row.currentStepIndex = (executed enrollment.id db).length ∧
        row.currentStepIndex ≤ steps.length ∧
        (row.status = .completed ↔ 0 < k ∧ row.currentStepIndex = steps.length)) ∧
      executed enrollment.id db = (steps.take k).map SequenceStep.id ∧
      ∀ payload calls, JobOf enrollment payload → calls.Faultless db →
        NextJob settings enrollment steps k db (processSequenceStepEvent settings db payload calls) := by
  intro steps k
  have hf := follows_of_run h hrun
  have hexecuted : executed enrollment.id db = (steps.take k).map SequenceStep.id := by
    rw [hf.executed, Cursor.advance_iterate, ← List.take_take, List.take_length]
  refine ⟨⟨_, hf.row, ?_⟩, hexecuted, ?_⟩
  · rw [hexecuted, Cursor.advance_iterate, List.length_map, List.length_take]
    exact ⟨rfl, min_le_right _ _, atCursor_completed enrollment _ _⟩
  · intro payload calls hjob hcalls
    exact nextJob_of_outcome (job_outcome settings hf hjob hcalls)

def mia : Lead where
  id := "lead-1"
  tenantId := "tenant-seq"
  name := some "Mia"
  email := some "mia@example.com"
  phone := some "+15550001111"
  company := none
  role := none
  channel := none
  campaign := none
  utmSource := none
  utmMedium := none
  utmCampaign := none
  status := "new"
  stage := none
  leadScore := 0
  fitScore := 0
  engagementScore := 0
  ownerUserId := none
  assignedTeamId := none
  assignedQueueName := none
  marketingOptIn := false
  allowedChannels := some []
  customFields := some []

def welcome : Sequence :=
  ⟨"seq-1", "tenant-seq", "Welcome sequence", some "First touch", "lead_created", "active"⟩

def emailStep (id : Id) (orderIndex : ℤ) : SequenceStep :=
  ⟨id, "seq-1", orderIndex, "email", 0, some "Hi, thanks for your interest."⟩

def miaEnrolled : SequenceEnrollment :=
  SequenceEnrollmentRepository.newEnrollment "enr-1" "tenant-seq" "lead-1" "seq-1"

def welcomeDb : Db where
  leads := Table.empty.insert mia
  sequences := Table.empty.insert welcome
  steps := (Table.empty.insert (emailStep "step-b" 1)).insert (emailStep "step-a" 0)
  enrollments := Table.empty.insert miaEnrolled

theorem enrolled_welcomeDb : Enrolled miaEnrolled welcomeDb where
  row := by decide
  active := rfl
  index := rfl
  executed := rfl
  present := ⟨by decide +kernel, by decide +kernel⟩

def faultlessCalls (eventId : Id) : StepCalls := ⟨.returns, .returns, .returns, 0, eventId⟩

def welcomeJobs : List SequenceExecution.Event :=
  [.job (stepJob "tenant-seq" "enr-1").payload (faultlessCalls "ev-1"),
    .job (stepJob "tenant-seq" "enr-1").payload (faultlessCalls "ev-2")]

theorem jobOf_miaEnrolled : JobOf miaEnrolled (stepJob "tenant-seq" "enr-1").payload :=
  ⟨by decide, by decide⟩

theorem sequential_execution_exactly_once_welcome :
    ∃ db, runSteps (SequenceExecution.step {}) welcomeDb welcomeJobs = some db ∧
      executed "enr-1" db = ["step-a", "step-b"] ∧
      ∃ row, db.enrollments.find? "enr-1" = some row ∧ row.status = .completed := by
  refine ⟨_, rfl, ?_⟩
  have hrun : GuardedRun (Enabled (SequenceExecution.step {}))
    (Admitted miaEnrolled) welcomeDb welcomeJobs _ :=
    .cons ⟨jobOf_miaEnrolled, rfl, rfl, rfl, by decide⟩ rfl
      (.cons ⟨jobOf_miaEnrolled, rfl, rfl, rfl, by decide +kernel⟩ rfl (.nil _))
  obtain ⟨⟨row, hrow, hindex, -, hcompleted⟩, hexecuted, -⟩ :=
    sequential_execution_exactly_once {} miaEnrolled welcomeDb _ welcomeJobs enrolled_welcomeDb hrun
  have hsteps : (listForSequence welcomeDb miaEnrolled.sequenceId).map SequenceStep.id =
      ["step-a", "step-b"] := by decide +kernel
  have hids : executed "enr-1" _ = ["step-a", "step-b"] :=
    hexecuted.trans (by rw [List.map_take, hsteps]; rfl)
  have hlength : (listForSequence welcomeDb miaEnrolled.sequenceId).length = 2 := by
    rw [← List.length_map, hsteps]
    rfl
  refine ⟨hids, row, hrow, hcompleted.mpr ⟨by decide, ?_⟩⟩
  rw [hindex, hlength]
  exact congrArg List.length hids

end Leadline
