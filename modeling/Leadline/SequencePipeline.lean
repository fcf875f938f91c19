import Leadline.Delivery
import Leadline.UsageTracking
import Mathlib.Data.List.Sort

namespace Leadline

open Library

namespace LeadRepository

def get (db : Db) (tenantId leadId : Id) : Option Lead := ofTenant Lead.tenantId db.leads tenantId leadId

end LeadRepository

namespace SequenceRepository

def get (db : Db) (tenantId sequenceId : Id) : Option Sequence :=
  ofTenant Sequence.tenantId db.sequences tenantId sequenceId

def listActiveSequencesByTrigger (db : Db) (tenantId : Id) (trigger : String) : List Sequence :=
  db.sequences.rows.filter fun s => s.tenantId = tenantId ∧ s.trigger = trigger ∧ s.status = "active"

end SequenceRepository

namespace SequenceStepRepository

/-- `order_by(order_index.asc(), id.asc())` -/
def Before (s t : SequenceStep) : Prop :=
  s.orderIndex < t.orderIndex ∨ s.orderIndex = t.orderIndex ∧ s.id ≤ t.id

instance : DecidableRel Before := fun _ _ => inferInstanceAs (Decidable (_ ∨ _ ∧ _))

def listForSequence (db : Db) (sequenceId : Id) : List SequenceStep :=
  (db.steps.rows.filter (fun s => s.sequenceId = sequenceId)).insertionSort Before

variable {db : Db} {sequenceId : Id}

theorem nodup_listForSequence : ((listForSequence db sequenceId).map SequenceStep.id).Nodup := by
  have hperm := (List.perm_insertionSort Before
    (db.steps.rows.filter (fun s => s.sequenceId = sequenceId))).map SequenceStep.id
  rw [listForSequence, hperm.nodup_iff]
  exact db.steps.nodup.sublist (List.filter_sublist.map SequenceStep.id)

theorem sorted_listForSequence : (listForSequence db sequenceId).Pairwise Before := by
  have htotal : Std.Total Before := by
    constructor
    intro s t
    unfold Before
    rcases lt_trichotomy s.orderIndex t.orderIndex with h | h | h
    · exact .inl (.inl h)
    · rcases String.le_total s.id t.id with hid | hid
      · exact .inl (.inr ⟨h, hid⟩)
      · exact .inr (.inr ⟨h.symm, hid⟩)
    · exact .inr (.inl h)
  have htrans : IsTrans SequenceStep Before := by
    constructor
    rintro s t u (hst | ⟨hst, hst'⟩) (htu | ⟨htu, htu'⟩)
    · exact .inl (hst.trans htu)
    · exact .inl (htu ▸ hst)
    · exact .inl (hst ▸ htu)
    · exact .inr ⟨hst.trans htu, String.le_trans hst' htu'⟩
  exact List.pairwise_insertionSort Before _

end SequenceStepRepository

namespace SequenceEnrollmentRepository

def get (db : Db) (tenantId enrollmentId : Id) : Option SequenceEnrollment :=
  ofTenant SequenceEnrollment.tenantId db.enrollments tenantId enrollmentId

/-- The row of `create`, with the data of both callers. -/
def newEnrollment (id tenantId leadId sequenceId : Id) : SequenceEnrollment where
  id := id
  tenantId := tenantId
  leadId := leadId
  sequenceId := sequenceId
  status := .active
  currentStepIndex := 0

end SequenceEnrollmentRepository

def stepJob (tenantId enrollmentId : Id) : QueueJob where
  queueName := "sequence_jobs"
  payload := [("event", .str "sequence.step.execute"), ("tenant_id", .str tenantId),
    ("enrollment_id", .str enrollmentId)]

def SequenceStepRepository.stepsBefore (db : Db) (row : SequenceEnrollment) : List Id :=
  ((listForSequence db row.sequenceId).take row.currentStepIndex).map SequenceStep.id

structure StepWork where
  tenantId : Id
  enrollment : SequenceEnrollment
  sequence : Sequence
  lead : Lead
  step : SequenceStep
  stepCount : ℕ

inductive StepRead
  | ignored
  | finished (enrollment : SequenceEnrollment)
  | execute (work : StepWork)

def readStepJob (db : Db) (payload : Dict) : StepRead :=
  match payload.text "tenant_id", payload.text "enrollment_id" with
  | some tenantId, some enrollmentId =>
    match SequenceEnrollmentRepository.get db tenantId enrollmentId with
    | none => .ignored
    | some enrollment =>
      if enrollment.status ≠ .active then .ignored
      else
        match SequenceRepository.get db tenantId enrollment.sequenceId with
        | none => .ignored
        | some sequence =>
          match LeadRepository.get db tenantId enrollment.leadId with
          | none => .ignored
          | some lead =>
            let orderedSteps := SequenceStepRepository.listForSequence db sequence.id
            match orderedSteps[enrollment.currentStepIndex]? with
            | none => .finished enrollment
            | some step => .execute ⟨tenantId, enrollment, sequence, lead, step, orderedSteps.length⟩
  | _, _ => .ignored

structure StepWork.ReadFrom (db : Db) (payload : Dict) (work : StepWork) : Prop where
  tenant : payload.text "tenant_id" = some work.tenantId
  enrollment : payload.text "enrollment_id" = some work.enrollment.id
  row : db.enrollments.find? work.enrollment.id = some work.enrollment
  owned : work.enrollment.tenantId = work.tenantId
  active : work.enrollment.status = .active
  sequence : SequenceRepository.get db work.tenantId work.enrollment.sequenceId = some work.sequence
  lead : LeadRepository.get db work.tenantId work.enrollment.leadId = some work.lead
  step :
    (SequenceStepRepository.listForSequence db work.enrollment.sequenceId)[work.enrollment.currentStepIndex]? =
    some work.step
  count : work.stepCount = (SequenceStepRepository.listForSequence db work.enrollment.sequenceId).length

section Reading

variable {db : Db} {payload : Dict} {tenantId enrollmentId : Id} {enrollment : SequenceEnrollment}
  {sequence : Sequence} {lead : Lead}

theorem sequence_id_of_get (h : SequenceRepository.get db tenantId enrollment.sequenceId = some sequence) :
    sequence.id = enrollment.sequenceId :=
  (ofTenant_eq_some.mp h).2.1

theorem readStepJob_of_active (ht : payload.text "tenant_id" = some tenantId)
    (he : payload.text "enrollment_id" = some enrollmentId)
    (hrow : SequenceEnrollmentRepository.get db tenantId enrollmentId = some enrollment)
    (hactive : enrollment.status = .active)
    (hseq : SequenceRepository.get db tenantId enrollment.sequenceId = some sequence)
    (hlead : LeadRepository.get db tenantId enrollment.leadId = some lead) :
    readStepJob db payload =
      let orderedSteps := SequenceStepRepository.listForSequence db enrollment.sequenceId
      match orderedSteps[enrollment.currentStepIndex]? with
      | none => .finished enrollment
      | some step => .execute ⟨tenantId, enrollment, sequence, lead, step, orderedSteps.length⟩ := by
  have hid := sequence_id_of_get hseq
  simp only [readStepJob, ht, he, hrow, hactive, ne_eq, not_true_eq_false, ↓reduceIte, hseq, hlead, hid]

theorem readStepJob_of_inactive (hrow : ∀ tenantId enrollmentId enrollment,
    payload.text "tenant_id" = some tenantId → payload.text "enrollment_id" = some enrollmentId →
      SequenceEnrollmentRepository.get db tenantId enrollmentId = some enrollment →
        enrollment.status ≠ .active) : readStepJob db payload = .ignored := by
  unfold readStepJob
  split
  · rename_i tenantId enrollmentId ht he
    split
    · rfl
    · rename_i enrollment hget
      rw [if_pos (hrow tenantId enrollmentId enrollment ht he hget)]
  · rfl

theorem readStepJob_cases (db : Db) (payload : Dict) :
    readStepJob db payload = .ignored ∨
      (∃ enrollment, readStepJob db payload = .finished enrollment ∧
        payload.text "enrollment_id" = some enrollment.id ∧
        db.enrollments.find? enrollment.id = some enrollment ∧ enrollment.status = .active ∧
        (SequenceStepRepository.listForSequence db enrollment.sequenceId).length ≤
          enrollment.currentStepIndex) ∨
      ∃ work, readStepJob db payload = .execute work ∧ work.ReadFrom db payload := by
  cases ht : payload.text "tenant_id" with
  | none => exact .inl (by simp [readStepJob, ht])
  | some tenantId =>
    cases he : payload.text "enrollment_id" with
    | none => exact .inl (by simp [readStepJob, ht, he])
    | some enrollmentId =>
      cases hrow : SequenceEnrollmentRepository.get db tenantId enrollmentId with
      | none => exact .inl (by simp [readStepJob, ht, he, hrow])
      | some enrollment =>
        by_cases hactive : enrollment.status = .active
        · cases hseq : SequenceRepository.get db tenantId enrollment.sequenceId with
          | none => exact .inl (by simp [readStepJob, ht, he, hrow, hactive, hseq])
          | some sequence =>
            cases hlead : LeadRepository.get db tenantId enrollment.leadId with
            | none => exact .inl (by simp [readStepJob, ht, he, hrow, hactive, hseq, hlead])
            | some lead =>
              have hread := readStepJob_of_active ht he hrow hactive hseq hlead
              obtain ⟨hmem, rfl, htenant⟩ := ofTenant_eq_some.mp hrow
              have hfind := Table.find?_eq_some_iff.mpr ⟨hmem, rfl⟩
              refine .inr ?_
              cases hstep : (SequenceStepRepository.listForSequence db
                  enrollment.sequenceId)[enrollment.currentStepIndex]? with
              | none =>
                rw [hread]
                simp only [hstep]
                exact .inl ⟨enrollment, rfl, rfl, hfind, hactive, List.getElem?_eq_none_iff.mp hstep⟩
              | some step =>
                rw [hread]
                simp only [hstep]
                exact .inr ⟨_, rfl, ht, he, hfind, htenant, hactive, hseq, hlead, hstep, rfl⟩
        · exact .inl (by simp [readStepJob, ht, he, hrow, hactive])

theorem finished_eq_some (h : readStepJob db payload = .finished enrollment) :
    ∃ tenantId, payload.text "tenant_id" = some tenantId ∧
      payload.text "enrollment_id" = some enrollment.id ∧
      SequenceEnrollmentRepository.get db tenantId enrollment.id = some enrollment := by
  cases ht : payload.text "tenant_id" with
  | none => simp [readStepJob, ht] at h
  | some tenantId =>
    cases he : payload.text "enrollment_id" with
    | none => simp [readStepJob, ht, he] at h
    | some enrollmentId =>
      cases hrow : SequenceEnrollmentRepository.get db tenantId enrollmentId with
      | none => simp [readStepJob, ht, he, hrow] at h
      | some row =>
        simp only [readStepJob, ht, he, hrow] at h
        split at h
        · cases h
        · split at h
          · cases h
          · split at h
            · cases h
            · split at h
              · cases h
                obtain ⟨-, hid, -⟩ := ofTenant_eq_some.mp hrow
                rw [hid]
                exact ⟨tenantId, rfl, rfl, hrow⟩
              · cases h

end Reading

namespace StepWork

def deliver (settings : Settings) (call : CallOutcome) (work : StepWork) : Handed (Option DeliveryToken) :=
  executeStep settings call work.lead work.step.type work.step.template

def recordUsage (db : Db) (today : Day) (work : StepWork) : Option DeliveryToken → Option UsageChange
  | some .email => some (UsageTrackingService.increment db work.tenantId today { emailsSent := 1 })
  | some .sms => some (UsageTrackingService.increment db work.tenantId today { smsSent := 1 })
  | none => none

def timelineEvent (id : Id) (work : StepWork) : LeadTimelineEvent where
  id := id
  tenantId := work.tenantId
  leadId := work.lead.id
  type := "sequence_step_executed"
  payload := some [("sequence_id", .str work.sequence.id), ("enrollment_id", .str work.enrollment.id),
    ("step_id", .str work.step.id), ("step_type", .str work.step.type)]

def isLast (work : StepWork) : Bool := work.enrollment.currentStepIndex + 1 ≥ work.stepCount

def followUp (work : StepWork) : QueueJob := stepJob work.tenantId work.enrollment.id

def advance (work : StepWork) (enrollment : SequenceEnrollment) : SequenceEnrollment :=
  { enrollment with
    currentStepIndex := work.enrollment.currentStepIndex + 1
    status := if work.isLast then .completed else enrollment.status }

theorem advance_id (work : StepWork) (e : SequenceEnrollment) : (work.advance e).id = e.id := rfl

def commit (db : Db) (usage : Option UsageChange) (eventId : Id) (work : StepWork) : Db :=
  { db with
    usage := match usage with
      | none => db.usage
      | some change => change.write db.usage
    timeline := db.timeline.insert (work.timelineEvent eventId)
    enrollments := db.enrollments.modify work.enrollment.id work.advance work.advance_id }

end StepWork

/-- `enrollment.status = "completed"` -/
def SequenceEnrollment.complete (e : SequenceEnrollment) : SequenceEnrollment :=
  { e with status := .completed }

theorem SequenceEnrollment.complete_id (e : SequenceEnrollment) : e.complete.id = e.id := rfl

def completeEnrollment (db : Db) (enrollment : SequenceEnrollment) : Db :=
  { db with enrollments :=
      db.enrollments.modify enrollment.id SequenceEnrollment.complete SequenceEnrollment.complete_id }

section Rows

variable {db : Db} {work : StepWork} {enrollment row : SequenceEnrollment} {usage : Option UsageChange}
  {eventId id : Id}

theorem StepWork.mem_commit : row ∈ (work.commit db usage eventId).enrollments ↔
    ∃ e ∈ db.enrollments, row = if e.id = work.enrollment.id then work.advance e else e :=
  Table.mem_modify work.advance_id

theorem StepWork.find?_commit (h : db.enrollments.find? work.enrollment.id = some row) :
    (work.commit db usage eventId).enrollments.find? work.enrollment.id = some (work.advance row) :=
  Table.find?_modify_self work.advance_id h

theorem StepWork.find?_commit_of_ne (h : id ≠ work.enrollment.id) :
    (work.commit db usage eventId).enrollments.find? id = db.enrollments.find? id :=
  Table.find?_modify_of_ne work.advance_id h

theorem mem_completeEnrollment : row ∈ (completeEnrollment db enrollment).enrollments ↔
    ∃ e ∈ db.enrollments, row = if e.id = enrollment.id then e.complete else e :=
  Table.mem_modify SequenceEnrollment.complete_id

theorem find?_completeEnrollment (h : db.enrollments.find? enrollment.id = some row) :
    (completeEnrollment db enrollment).enrollments.find? enrollment.id = some row.complete :=
  Table.find?_modify_self SequenceEnrollment.complete_id h

theorem find?_completeEnrollment_of_ne (h : id ≠ enrollment.id) :
    (completeEnrollment db enrollment).enrollments.find? id = db.enrollments.find? id :=
  Table.find?_modify_of_ne SequenceEnrollment.complete_id h

end Rows

structure StepCalls where
  send : CallOutcome
  publish : CallOutcome
  commit : CallOutcome
  today : Day
  eventId : Id

structure StepResult where
  db : Db
  delivered : Option Delivery
  published : List SentMessage
  raised : Bool

def processSequenceStepEvent (settings : Settings) (db : Db) (payload : Dict) (calls : StepCalls) :
    StepResult :=
  let committed (db' : Db) := if calls.commit.takesEffect then db' else db
  match readStepJob db payload with
  | .ignored => ⟨db, none, [], false⟩
  | .finished enrollment => ⟨committed (completeEnrollment db enrollment), none, [], calls.commit.raises⟩
  | .execute work =>
    match work.deliver settings calls.send with
    | ⟨none, message⟩ => ⟨db, message, [], true⟩
    | ⟨some token, message⟩ =>
      let db' := work.commit db (work.recordUsage db calls.today token) calls.eventId
      if work.isLast then ⟨committed db', message, [], calls.commit.raises⟩
      else
        match SQSPublisher.publish settings calls.publish work.followUp with
        | (.raised, sent) => ⟨db, message, sent, true⟩
        | (_, sent) => ⟨committed db', message, sent, calls.commit.raises⟩

theorem readFrom_of_execute {db : Db} {payload : Dict} {work : StepWork}
    (hread : readStepJob db payload = .execute work) : work.ReadFrom db payload := by
  rcases readStepJob_cases db payload with h | ⟨_, h, -⟩ | ⟨found, h, hfound⟩
  · rw [hread] at h
    cases h
  · rw [hread] at h
    cases h
  · rw [hread] at h
    cases h
    exact hfound

theorem processSequenceStepEvent_db (settings : Settings) (db : Db) (payload : Dict) (calls : StepCalls) :
    (processSequenceStepEvent settings db payload calls).db = db ∨
      (∃ enrollment, readStepJob db payload = .finished enrollment ∧
        (processSequenceStepEvent settings db payload calls).db = completeEnrollment db enrollment) ∨
      ∃ work token, readStepJob db payload = .execute work ∧
        (work.deliver settings calls.send).returned = some token ∧
        (processSequenceStepEvent settings db payload calls).db =
          work.commit db (work.recordUsage db calls.today token) calls.eventId := by
  unfold processSequenceStepEvent
  cases hread : readStepJob db payload with
  | ignored => exact .inl rfl
  | finished enrollment =>
    cases hcommit : calls.commit.takesEffect with
    | true => exact .inr (.inl ⟨enrollment, rfl, by simp⟩)
    | false => exact .inl (by simp)
  | execute work =>
    rcases hdeliver : work.deliver settings calls.send with ⟨token, message⟩
    cases token with
    | none =>
      simp only [hdeliver]
      exact .inl trivial
    | some token =>
      have hcommitted : ∀ db', (if calls.commit.takesEffect then db' else db) = db ∨
          (if calls.commit.takesEffect then db' else db) = db' := by
        intro db'
        split
        · exact .inr rfl
        · exact .inl rfl
      simp only [hdeliver]
      split
      · exact (hcommitted _).imp id fun h => .inr ⟨work, token, rfl, by rw [hdeliver], h⟩
      · split
        · exact .inl rfl
        · exact (hcommitted _).imp id fun h => .inr ⟨work, token, rfl, by rw [hdeliver], h⟩

structure StepCalls.Faultless (calls : StepCalls) (db : Db) : Prop where
  send : calls.send = .returns
  publish : calls.publish = .returns
  commit : calls.commit = .returns
  fresh : db.timeline.Fresh calls.eventId

section Faultless

variable (settings : Settings) {db : Db} {payload : Dict} {calls : StepCalls}

theorem process_ignored (hread : readStepJob db payload = .ignored) :
    processSequenceStepEvent settings db payload calls = ⟨db, none, [], false⟩ := by
  simp only [processSequenceStepEvent, hread]

theorem process_finished {enrollment : SequenceEnrollment} (hcalls : calls.Faultless db)
    (hread : readStepJob db payload = .finished enrollment) :
    processSequenceStepEvent settings db payload calls =
      ⟨completeEnrollment db enrollment, none, [], false⟩ := by
  simp only [processSequenceStepEvent, hread, hcalls.commit, CallOutcome.takesEffect,
    CallOutcome.raises, ↓reduceIte]

theorem process_executed {work : StepWork} (hcalls : calls.Faultless db)
    (hread : readStepJob db payload = .execute work) :
    ∃ token, (work.deliver settings .returns).returned = some token ∧
      processSequenceStepEvent settings db payload calls =
        ⟨work.commit db (work.recordUsage db calls.today token) calls.eventId,
          (work.deliver settings .returns).message,
          if work.isLast then [] else (SQSPublisher.publish settings .returns work.followUp).2, false⟩ := by
  obtain ⟨token, message, hexec⟩ : ∃ token message, work.deliver settings .returns = ⟨some token, message⟩ :=
    executeStep_returns
  refine ⟨token, by rw [hexec], ?_⟩
  have hdeliver : work.deliver settings calls.send = ⟨some token, message⟩ := by rw [hcalls.send, hexec]
  have hcommit : calls.commit.takesEffect = true ∧ calls.commit.raises = false := by
    rw [hcalls.commit]
    exact ⟨rfl, rfl⟩
  simp only [processSequenceStepEvent, hread, hdeliver, hexec, hcommit, hcalls.publish, ↓reduceIte]
  cases hlast : work.isLast with
  | true => rfl
  | false =>
    simp only [Bool.false_eq_true, ↓reduceIte]
    have hreturns := SQSPublisher.publish_returns settings work.followUp
    rcases hpublish : SQSPublisher.publish settings .returns work.followUp with ⟨result, sent⟩
    rw [hpublish] at hreturns
    cases result with
    | raised => exact absurd rfl hreturns
    | skipped => rfl
    | published => rfl

end Faultless

end Leadline
