import Leadline.LeadService
import Leadline.SequenceService
import Leadline.WorkerLoop

/-!
The sequence queue with its producers and any number of workers. Every call of a handler is a step
of its own; a published job is visible at once and stays until it is deleted.
-/

namespace Leadline.SequenceWorkers

open Library WorkerLoop

structure Queued where
  id : ℕ
  payload : Dict
  receives : ℕ

structure Received where
  id : ℕ
  payload : Dict
  receiveCount : ℕ

structure Handling where
  job : Received
  work : StepWork

structure Made where
  enrollment : SequenceEnrollment
  event : LeadTimelineEvent

/-- Where the handling of a job stands. `handed` says whether the provider got a message. -/
inductive Phase
  | idle
  | received (job : Received)
  | executing (h : Handling)
  | delivered (h : Handling) (token : Option DeliveryToken) (handed : Bool)
  | recorded (h : Handling) (usage : Option UsageChange) (handed : Bool)
  | published (h : Handling) (usage : Option UsageChange) (handed : Bool)
  | completing (job : Received) (enrollment : SequenceEnrollment)
  | enrolling (job : Received) (tenantId leadId : Id) (rest : List Sequence) (made : List Made)
  | returned (job : Received)
  | raised (job : Received)
  | saved (job : Received)

inductive Action
  | read
  | send (call : CallOutcome)
  | record (today : Day) (raises : Bool)
  | publish (call : CallOutcome)
  | enroll (id eventId : Id) (call : CallOutcome)
  | commit (call : CallOutcome) (eventId : Id)
  | save (call : CallOutcome) (jobId : Id) (error : String)
  | skip
  | delete (call : CallOutcome)
  | crash

structure Sent where
  enrollmentId : Id
  stepId : Id
  message : Delivery

structure Turn where
  phase : Phase
  db : Db
  jobs : List Dict := []
  sent : List Sent := []
  stored : List FailedJob := []
  deleted : Option ℕ := none
  minted : List Id := []
  aborts : Bool := false

/-- The queries of `process_sequence_trigger_event`. -/
def readTriggerJob (db : Db) (payload : Dict) : Option (Id × Id × List Sequence) :=
  match payload.text "tenant_id", payload.text "lead_id", payload.text "trigger" with
  | some tenantId, some leadId, some trigger =>
    some (tenantId, leadId, SequenceRepository.listActiveSequencesByTrigger db tenantId trigger)
  | _, _, _ => none

def readJob (db : Db) (job : Received) : Option Turn :=
  if eventOf job.payload = "sequence.step.execute" then
    match readStepJob db job.payload with
    | .ignored => some { phase := .returned job, db := db }
    | .finished enrollment => some { phase := .completing job enrollment, db := db }
    | .execute work => some { phase := .executing ⟨job, work⟩, db := db }
  else if eventOf job.payload = "sequence.trigger" then
    match readTriggerJob db job.payload with
    | none => some { phase := .returned job, db := db }
    | some (tenantId, leadId, sequences) =>
      some { phase := .enrolling job tenantId leadId sequences [], db := db }
  else none

def sendStep (settings : Settings) (db : Db) (h : Handling) (call : CallOutcome) : Turn :=
  let delivery := h.work.deliver settings call
  { phase := match delivery.returned with
      | none => .raised h.job
      | some token => .delivered h token delivery.message.isSome
    db := db
    sent := delivery.message.toList.map fun message => ⟨h.work.enrollment.id, h.work.step.id, message⟩ }

def recordStep (db : Db) (h : Handling) (token : Option DeliveryToken) (handed : Bool) (today : Day)
    (raises : Bool) : Option Turn :=
  if raises then
    if token.isSome then some { phase := .raised h.job, db := db } else none
  else some { phase := .recorded h (h.work.recordUsage db today token) handed, db := db }

def publishJob (settings : Settings) (call : CallOutcome) (job : QueueJob) : List Dict × Bool :=
  let reply := SQSPublisher.publish settings call job
  (reply.2.map fun _ => job.payload, reply.1 = .raised)

def publishStep (settings : Settings) (db : Db) (h : Handling) (usage : Option UsageChange)
    (handed : Bool) (call : CallOutcome) : Turn :=
  let reply := publishJob settings call h.work.followUp
  { phase := if reply.2 then .raised h.job else .published h usage handed, db := db, jobs := reply.1 }

def commitAll (db db' : Db) (job : Received) (call : CallOutcome) : Turn :=
  { phase := if call.raises then .raised job else .returned job
    db := if call.takesEffect then db' else db }

def commitStep (db : Db) (h : Handling) (usage : Option UsageChange) (call : CallOutcome)
    (eventId : Id) : Option Turn :=
  if db.timeline.Fresh eventId then some (commitAll db (h.work.commit db usage eventId) h.job call)
  else none

def enrolledEvent (eventId : Id) (enrollment : SequenceEnrollment) : LeadTimelineEvent where
  id := eventId
  tenantId := enrollment.tenantId
  leadId := enrollment.leadId
  type := "sequence_enrolled"
  payload := some [("sequence_id", .str enrollment.sequenceId), ("enrollment_id", .str enrollment.id)]

def enrollNext (settings : Settings) (db : Db) (minted : List Id) (job : Received) (tenantId leadId : Id)
    (sequence : Sequence) (rest : List Sequence) (made : List Made) (id eventId : Id)
    (call : CallOutcome) : Option Turn :=
  if id = "" ∨ id ∈ minted then none
  else
    let enrollment := SequenceEnrollmentRepository.newEnrollment id tenantId leadId sequence.id
    let reply := publishJob settings call (stepJob tenantId id)
    some {
      phase := if reply.2 then .raised job
        else .enrolling job tenantId leadId rest (made ++ [⟨enrollment, enrolledEvent eventId enrollment⟩])
      db := db, jobs := reply.1, minted := [id] }

def commitEnrollments (db : Db) (made : List Made) : Db :=
  { db with
    enrollments := made.foldl (fun t m => t.insert m.enrollment) db.enrollments
    timeline := made.foldl (fun t m => t.insert m.event) db.timeline }

def deleteJob (db : Db) (job : Received) (call : CallOutcome) : Turn :=
  { phase := .idle, db := db, deleted := if call.takesEffect then some job.id else none
    aborts := call.raises }

def saveJob (settings : Settings) (db : Db) (job : Received) (call : CallOutcome) (jobId : Id)
    (error : String) : Turn :=
  let queueName := lastSegment (settings.sqsSequenceJobsQueueUrl.getD "")
  let row := failedJob jobId queueName (eventOf job.payload) job.payload error job.receiveCount
  { phase := if call.raises then .idle else .saved job, db := db
    stored := if call.takesEffect then [row] else [], aborts := call.raises }

def act (settings : Settings) (db : Db) (minted : List Id) : Phase → Action → Option Turn
  | .received job, .read => readJob db job
  | .executing h, .send call => some (sendStep settings db h call)
  | .delivered h token handed, .record today raises => recordStep db h token handed today raises
  | .recorded h usage handed, .publish call =>
    if h.work.isLast then none else some (publishStep settings db h usage handed call)
  | .recorded h usage _, .commit call eventId =>
    if h.work.isLast then commitStep db h usage call eventId else none
  | .published h usage _, .commit call eventId => commitStep db h usage call eventId
  | .completing job enrollment, .commit call _ =>
    some (commitAll db (completeEnrollment db enrollment) job call)
  | .enrolling job tenantId leadId (sequence :: rest) made, .enroll id eventId call =>
    enrollNext settings db minted job tenantId leadId sequence rest made id eventId call
  | .enrolling job _ _ [] made, .commit call _ => some (commitAll db (commitEnrollments db made) job call)
  | .raised job, .save call jobId error =>
    if job.receiveCount ≥ maxRetries then some (saveJob settings db job call jobId error) else none
  | .raised job, .skip =>
    if job.receiveCount ≥ maxRetries then none else some { phase := .idle, db := db }
  | .returned job, .delete call => some (deleteJob db job call)
  | .saved job, .delete call => some (deleteJob db job call)
  | _, .crash => some { phase := .idle, db := db, aborts := true }
  | _, _ => none

inductive Acted (settings : Settings) (db : Db) (minted : List Id) : Phase → Action → Turn → Prop
  | read {job : Received} {t : Turn} (hread : readJob db job = some t) :
    Acted settings db minted (.received job) .read t
  | send (h : Handling) (call : CallOutcome) :
    Acted settings db minted (.executing h) (.send call) (sendStep settings db h call)
  | recordFailed (h : Handling) (token : Option DeliveryToken) (handed : Bool) (today : Day) :
    Acted settings db minted (.delivered h token handed) (.record today true)
      { phase := .raised h.job, db := db }
  | record (h : Handling) (token : Option DeliveryToken) (handed : Bool) (today : Day) :
    Acted settings db minted (.delivered h token handed) (.record today false)
      { phase := .recorded h (h.work.recordUsage db today token) handed, db := db }
  | publish (h : Handling) (usage : Option UsageChange) (handed : Bool) (call : CallOutcome) :
    Acted settings db minted (.recorded h usage handed) (.publish call)
      (publishStep settings db h usage handed call)
  | commitLast {h : Handling} {usage : Option UsageChange} {handed : Bool} {call : CallOutcome}
    {eventId : Id}
      {t : Turn} (hlast : h.work.isLast = true) (hcommit : commitStep db h usage call eventId = some t) :
    Acted settings db minted (.recorded h usage handed) (.commit call eventId) t
  | commit {h : Handling} {usage : Option UsageChange} {handed : Bool} {call : CallOutcome} {eventId : Id}
      {t : Turn} (hcommit : commitStep db h usage call eventId = some t) :
    Acted settings db minted (.published h usage handed) (.commit call eventId) t
  | complete (job : Received) (enrollment : SequenceEnrollment) (call : CallOutcome) (eventId : Id) :
    Acted settings db minted (.completing job enrollment) (.commit call eventId)
      (commitAll db (completeEnrollment db enrollment) job call)
  | enroll {job : Received} {tenantId leadId : Id} {sequence : Sequence} {rest : List Sequence}
      {made : List Made} {id eventId : Id} {call : CallOutcome} {t : Turn}
      (hnext :
        enrollNext settings db minted job tenantId leadId sequence rest made id eventId call = some t) :
    Acted settings db minted (.enrolling job tenantId leadId (sequence :: rest) made)
      (.enroll id eventId call) t
  | commitEnrollments (job : Received) (tenantId leadId : Id) (made : List Made) (call : CallOutcome)
      (eventId : Id) :
    Acted settings db minted (.enrolling job tenantId leadId [] made) (.commit call eventId)
      (commitAll db (commitEnrollments db made) job call)
  | save (job : Received) (call : CallOutcome) (jobId : Id) (error : String) :
    Acted settings db minted (.raised job) (.save call jobId error)
      (saveJob settings db job call jobId error)
  | skip (job : Received) : Acted settings db minted (.raised job) .skip { phase := .idle, db := db }
  | deleteReturned (job : Received) (call : CallOutcome) :
    Acted settings db minted (.returned job) (.delete call) (deleteJob db job call)
  | deleteSaved (job : Received) (call : CallOutcome) :
    Acted settings db minted (.saved job) (.delete call) (deleteJob db job call)
  | crash (p : Phase) : Acted settings db minted p .crash { phase := .idle, db := db, aborts := true }

theorem acted_of_act {settings : Settings} {db : Db} {minted : List Id} {p : Phase} {a : Action} {t : Turn}
    (h : act settings db minted p a = some t) : Acted settings db minted p a t := by
  unfold act at h
  split at h
  case h_1 => exact .read h
  case h_2 =>
    cases h
    exact .send _ _
  case h_3 =>
    unfold recordStep at h
    split at h
    · rename_i hraises
      rw [hraises]
      split at h
      · cases h
        exact .recordFailed _ _ _ _
      · cases h
    · rename_i hraises
      rw [Bool.eq_false_of_not_eq_true hraises]
      cases h
      exact .record _ _ _ _
  case h_4 =>
    split at h
    · cases h
    · cases h
      exact .publish _ _ _ _
  case h_5 =>
    split at h
    · exact .commitLast ‹_› h
    · cases h
  case h_6 => exact .commit h
  case h_7 =>
    cases h
    exact .complete _ _ _ _
  case h_8 => exact .enroll h
  case h_9 =>
    cases h
    exact .commitEnrollments _ _ _ _ _ _
  case h_10 =>
    split at h
    · cases h
      exact .save _ _ _ _
    · cases h
  case h_11 =>
    split at h
    · cases h
    · cases h
      exact .skip _
  case h_12 =>
    cases h
    exact .deleteReturned _ _
  case h_13 =>
    cases h
    exact .deleteSaved _ _
  case h_14 =>
    cases h
    exact .crash _
  case h_15 => cases h

structure Worker where
  batch : List Received
  phase : Phase

inductive Request
  | idle
  | created (enrollment : SequenceEnrollment)
  | committed (enrollment : SequenceEnrollment)
  | failed (enrollment : SequenceEnrollment)
  | closed

structure State (n : ℕ) where
  db : Db
  queue : List Queued
  nextId : ℕ
  minted : List Id
  sent : List Sent
  failedJobs : List FailedJob
  workers : Fin n → Worker
  requests : ℕ → Request

inductive Label (n : ℕ)
  | receive (i : Fin n) (ids : List ℕ)
  | next (i : Fin n)
  | worker (i : Fin n) (action : Action)
  | enroll (r : ℕ) (tenantId sequenceId leadId id : Id)
  | commit (r : ℕ) (call : CallOutcome)
  | publish (r : ℕ) (call : CallOutcome)
  | trigger (tenantId leadId : Id) (trigger : String)
  | replay (tenantId enrollmentId : Id)
  | other (leads : Table Lead.id) (timeline : Table LeadTimelineEvent.id) (usage : Table UsageRecord.key)

namespace State

variable {n : ℕ} (s : State n)

def start (n : ℕ) (db : Db) : State n where
  db := { db with enrollments := Table.empty }
  queue := []
  nextId := 0
  minted := []
  sent := []
  failedJobs := []
  workers := fun _ => ⟨[], .idle⟩
  requests := fun _ => .idle

def phase (i : Fin n) : Phase := (s.workers i).phase

def enqueue (payloads : List Dict) : State n :=
  { s with
    queue := s.queue ++ payloads.mapIdx fun k payload => ⟨s.nextId + k, payload, 0⟩
    nextId := s.nextId + payloads.length }

def apply (i : Fin n) (t : Turn) : State n :=
  let batch := if t.aborts then [] else (s.workers i).batch
  let queue := s.queue.filter fun q => some q.id ≠ t.deleted
  { enqueue { s with queue := queue } t.jobs with
    db := t.db
    minted := s.minted ++ t.minted
    sent := s.sent ++ t.sent
    failedJobs := s.failedJobs ++ t.stored
    workers := Function.update s.workers i ⟨batch, t.phase⟩ }

def receive (i : Fin n) (ids : List ℕ) : State n :=
  let jobs := ids.filterMap fun id =>
    (s.queue.find? (fun q => q.id = id)).map fun q => (⟨q.id, q.payload, q.receives + 1⟩ : Received)
  { s with
    queue := s.queue.map fun q => if q.id ∈ ids then { q with receives := q.receives + 1 } else q
    workers := Function.update s.workers i ⟨jobs, .idle⟩ }

def setRequest (r : ℕ) (request : Request) : State n :=
  { s with requests := Function.update s.requests r request }

def step (settings : Settings) (s : State n) : Label n → Option (State n)
  | .receive i ids =>
    match s.workers i with
    | ⟨[], .idle⟩ => if ids.Nodup then some (s.receive i ids) else none
    | _ => none
  | .next i =>
    match s.workers i with
    | ⟨job :: rest, .idle⟩ => some { s with workers := Function.update s.workers i ⟨rest, .received job⟩ }
    | _ => none
  | .worker i action => (act settings s.db s.minted (s.phase i) action).map (s.apply i)
  | .enroll r tenantId sequenceId leadId id =>
    match s.requests r with
    | .idle =>
      if tenantId = "" ∨ id = "" ∨ id ∈ s.minted then none
      else (SequenceService.enroll s.db tenantId sequenceId leadId id).map fun enrollment =>
        { s.setRequest r (.created enrollment) with minted := s.minted ++ [id] }
    | _ => none
  | .commit r call =>
    match s.requests r with
    | .created enrollment =>
      if call.takesEffect then
        let db := { s.db with enrollments := s.db.enrollments.insert enrollment }
        some { s.setRequest r (if call.raises then .failed enrollment
          else .committed enrollment) with db := db }
      else some (s.setRequest r .closed)
    | _ => none
  | .publish r call =>
    match s.requests r with
    | .committed enrollment =>
      let reply := publishJob settings call (stepJob enrollment.tenantId enrollment.id)
      some ((s.enqueue reply.1).setRequest r (if reply.2 then .failed enrollment else .closed))
    | _ => none
  | .trigger tenantId leadId trigger =>
    if (LeadRepository.get s.db tenantId leadId).isSome then
      some (s.enqueue [(triggerJob tenantId leadId trigger).payload])
    else none
  | .replay tenantId enrollmentId => some (s.enqueue [(stepJob tenantId enrollmentId).payload])
  | .other leads timeline usage =>
    if ∀ l ∈ s.db.leads.rows, (ofTenant Lead.tenantId leads l.tenantId l.id).isSome then
      some { s with db := { s.db with leads := leads, timeline := timeline, usage := usage } }
    else none

variable {s}

@[simp] theorem phase_apply_self (i : Fin n) (t : Turn) : (s.apply i t).phase i = t.phase := by
  simp [apply, phase]

@[simp] theorem phase_apply_of_ne {i j : Fin n} (h : j ≠ i) (t : Turn) :
    (s.apply i t).phase j = s.phase j := by
  simp [apply, phase, enqueue, h]

def Polled (s s' : State n) : Prop :=
  ∀ i, s'.phase i = s.phase i ∨ s.phase i = .idle ∧ ∃ job, s'.phase i = .received job

theorem polled_of_workers {s' : State n} (h : s'.workers = s.workers) : Polled s s' := by
  intro i
  rw [phase, h]
  exact .inl rfl

theorem polled_receive {i : Fin n} {ids : List ℕ} (h : s.workers i = ⟨[], .idle⟩) : Polled s
    (s.receive i ids) := by
  intro j
  by_cases hji : j = i
  · rw [hji]
    exact .inl (by simp [receive, phase, h])
  · exact .inl (by simp [receive, phase, hji])

theorem polled_next {i : Fin n} {job : Received} {rest : List Received}
    (h : s.workers i = ⟨job :: rest, .idle⟩) :
    Polled s { s with workers := Function.update s.workers i ⟨rest, .received job⟩ } := by
  intro j
  by_cases hji : j = i
  · rw [hji]
    exact .inr ⟨by simp [phase, h], job, by simp [phase]⟩
  · exact .inl (by simp [phase, hji])

inductive Stepped (settings : Settings) (s : State n) : Label n → State n → Prop
  | receive {i : Fin n} {ids : List ℕ} (hworker : s.workers i = ⟨[], .idle⟩) :
    Stepped settings s (.receive i ids) (s.receive i ids)
  | next {i : Fin n} {job : Received} {rest : List Received} (hworker : s.workers i = ⟨job :: rest, .idle⟩) :
    Stepped settings s (.next i) { s with workers := Function.update s.workers i ⟨rest, .received job⟩ }
  | worker {i : Fin n} {action : Action} {t : Turn} (hact : Acted settings s.db s.minted
    (s.phase i) action t) :
    Stepped settings s (.worker i action) (s.apply i t)
  | enroll {r : ℕ} {tenantId sequenceId leadId id : Id} {e : SequenceEnrollment}
    (hidle : s.requests r = .idle)
      (htenant : tenantId ≠ "") (hid : id ≠ "")
      (henroll : SequenceService.enroll s.db tenantId sequenceId leadId id = some e) :
    Stepped settings s (.enroll r tenantId sequenceId leadId id)
      { s.setRequest r (.created e) with minted := s.minted ++ [id] }
  | commit {r : ℕ} {e : SequenceEnrollment} (call : CallOutcome) (hcreated : s.requests r = .created e) :
    Stepped settings s (.commit r call)
      { s.setRequest r (if call.raises then .failed e else .committed e) with
        db := { s.db with enrollments := s.db.enrollments.insert e } }
  | commitFailed {r : ℕ} {e : SequenceEnrollment} (call : CallOutcome)
    (hcreated : s.requests r = .created e) :
    Stepped settings s (.commit r call) (s.setRequest r .closed)
  | publish {r : ℕ} {e : SequenceEnrollment} (call : CallOutcome)
    (hcommitted : s.requests r = .committed e) :
    Stepped settings s (.publish r call)
      ((s.enqueue (publishJob settings call (stepJob e.tenantId e.id)).1).setRequest r
        (if (publishJob settings call (stepJob e.tenantId e.id)).2 then .failed e else .closed))
  | trigger {tenantId leadId : Id} (trigger : String) (hlead :
    (LeadRepository.get s.db tenantId leadId).isSome) :
    Stepped settings s (.trigger tenantId leadId trigger)
      (s.enqueue [(triggerJob tenantId leadId trigger).payload])
  | replay (tenantId enrollmentId : Id) :
    Stepped settings s (.replay tenantId enrollmentId) (s.enqueue [(stepJob tenantId enrollmentId).payload])
  | other {leads : Table Lead.id} (timeline : Table LeadTimelineEvent.id) (usage : Table UsageRecord.key)
      (hleads : ∀ l ∈ s.db.leads.rows, (ofTenant Lead.tenantId leads l.tenantId l.id).isSome) :
    Stepped settings s (.other leads timeline usage)
      { s with db := { s.db with leads := leads, timeline := timeline, usage := usage } }

theorem stepped_of_step {settings : Settings} {label : Label n} {s' : State n}
    (h : s.step settings label = some s') : Stepped settings s label s' := by
  cases label with
  | receive i ids =>
    simp only [step] at h
    split at h
    · split at h
      · cases h
        exact .receive ‹_›
      · cases h
    · cases h
  | next i =>
    simp only [step] at h
    split at h
    · cases h
      exact .next ‹_›
    · cases h
  | worker i action =>
    obtain ⟨t, hact, rfl⟩ := Option.map_eq_some_iff.mp h
    exact .worker (acted_of_act hact)
  | enroll r tenantId sequenceId leadId id =>
    simp only [step] at h
    split at h
    · split at h
      · cases h
      · rename_i hidle hguard
        simp only [not_or] at hguard
        obtain ⟨e, henroll, rfl⟩ := Option.map_eq_some_iff.mp h
        exact .enroll hidle hguard.1 hguard.2.1 henroll
    · cases h
  | commit r call =>
    simp only [step] at h
    split at h
    · split at h
      · cases h
        exact .commit call ‹_›
      · cases h
        exact .commitFailed call ‹_›
    · cases h
  | publish r call =>
    simp only [step] at h
    split at h
    · cases h
      exact .publish call ‹_›
    · cases h
  | trigger tenantId leadId trigger =>
    simp only [step] at h
    split at h
    · cases h
      exact .trigger trigger ‹_›
    · cases h
  | replay tenantId enrollmentId =>
    cases h
    exact .replay tenantId enrollmentId
  | other leads timeline usage =>
    simp only [step] at h
    split at h
    · cases h
      exact .other timeline usage ‹_›
    · cases h

end State

section

variable {n : ℕ} {s : State n} {i : Fin n} {settings : Settings}

def Ends (settings : Settings) (s : State n) (i : Fin n) (p : Phase) (db : Db) (jobs : List Dict)
    (sent : List Delivery) : Prop :=
  ∃ (actions : List Action) (t : State n), runSteps (State.step settings) s
    (actions.map (Label.worker i)) = some t ∧
    t.phase i = p ∧ t.db = db ∧ t.queue.map Queued.payload = s.queue.map Queued.payload ++ jobs ∧
      t.sent.map Sent.message = s.sent.map Sent.message ++ sent

theorem ends_here {p : Phase} (h : s.phase i = p) : Ends settings s i p s.db [] [] :=
  ⟨[], s, rfl, h, rfl, by simp, by simp⟩

theorem Ends.after {turn : Turn} {p : Phase} {db : Db} {jobs : List Dict} {sent : List Delivery} (a : Action)
    (hact : act settings s.db s.minted (s.phase i) a = some turn) (hdeleted : turn.deleted = none)
    (h : Ends settings (s.apply i turn) i p db jobs sent) :
    Ends settings s i p db (turn.jobs ++ jobs) (turn.sent.map Sent.message ++ sent) := by
  obtain ⟨actions, t, hrun, hp, hdb, hqueue, hsent⟩ := h
  have hjobs : (turn.jobs.mapIdx fun k payload => (⟨s.nextId + k, payload, 0⟩ : Queued)).map Queued.payload =
      turn.jobs := by
    apply List.ext_getElem?
    intro k
    rw [List.getElem?_map, List.getElem?_mapIdx]
    cases turn.jobs[k]? <;> rfl
  refine ⟨a :: actions, t, ?_, hp, hdb, ?_, ?_⟩
  · rw [List.map_cons, runSteps, State.step, hact]
    exact hrun
  · rw [hqueue, ← List.append_assoc]
    simp [State.apply, State.enqueue, hdeleted, hjobs]
  · rw [hsent, ← List.append_assoc]
    simp [State.apply]

theorem ends_after {turn : Turn} (a : Action) (hact : act settings s.db s.minted (s.phase i) a = some turn)
    (hdeleted : turn.deleted = none) :
    Ends settings s i turn.phase turn.db turn.jobs (turn.sent.map Sent.message) := by
  have h := Ends.after a hact hdeleted (ends_here (State.phase_apply_self i turn))
  rwa [List.append_nil, List.append_nil] at h

theorem ends_commit {h : Handling} {usage : Option UsageChange} {handed : Bool} {calls : StepCalls}
    (hphase : s.phase i = .published h usage handed ∨ s.phase i = .recorded h usage handed ∧
      h.work.isLast = true)
    (hfresh : s.db.timeline.Fresh calls.eventId) :
    Ends settings s i (if calls.commit.raises then .raised h.job else .returned h.job)
      (if calls.commit.takesEffect then h.work.commit s.db usage calls.eventId else s.db) [] [] := by
  have hact : act settings s.db s.minted (s.phase i) (.commit calls.commit calls.eventId) =
      some (commitAll s.db (h.work.commit s.db usage calls.eventId) h.job calls.commit) := by
    rcases hphase with hphase | ⟨hphase, hlast⟩
    · rw [hphase, act, commitStep, if_pos hfresh]
    · rw [hphase, act, if_pos hlast, commitStep, if_pos hfresh]
  exact ends_after _ hact rfl

theorem bodies_of_publish (settings : Settings) (call : CallOutcome) (job : QueueJob) :
    ((SQSPublisher.publish settings call job).2.map fun _ => job.payload).map
      (fun d => Json.dumps (.obj d)) =
      (SQSPublisher.publish settings call job).2.map SentMessage.messageBody := by
  unfold SQSPublisher.publish
  split
  · rfl
  · cases call.takesEffect <;> rfl

def Performs (settings : Settings) (s : State n) (i : Fin n) (job : Received) (sent : List Delivery)
    (result : StepResult) : Prop :=
  ∃ jobs rest, jobs.map (fun d => Json.dumps (.obj d)) = result.published.map SentMessage.messageBody ∧
    sent ++ rest = result.delivered.toList ∧
      Ends settings s i (if result.raised then .raised job else .returned job) result.db jobs rest

theorem Performs.after {turn : Turn} {job : Received} {sent : List Delivery} {result : StepResult}
    (a : Action)
    (hact : act settings s.db s.minted (s.phase i) a = some turn) (hdeleted : turn.deleted = none)
    (hjobs : turn.jobs = [])
    (h : Performs settings (s.apply i turn) i job (sent ++ turn.sent.map Sent.message) result) :
    Performs settings s i job sent result := by
  obtain ⟨jobs, rest, hbodies, hsent, hends⟩ := h
  have hrest := hends.after a hact hdeleted
  rw [hjobs, List.nil_append] at hrest
  exact ⟨jobs, _, hbodies, by rw [← hsent, List.append_assoc], hrest⟩

theorem performs_recorded {h : Handling} {token : Option DeliveryToken} {handed : Bool} {calls : StepCalls}
    {message : Option Delivery}
    (hphase : s.phase i = .recorded h (h.work.recordUsage s.db calls.today token) handed)
    (hfresh : s.db.timeline.Fresh calls.eventId) :
    Performs settings s i h.job message.toList
      (let db' := h.work.commit s.db (h.work.recordUsage s.db calls.today token) calls.eventId
       let committed := if calls.commit.takesEffect then db' else s.db
       if h.work.isLast then ⟨committed, message, [], calls.commit.raises⟩
       else
         match SQSPublisher.publish settings calls.publish h.work.followUp with
         | (.raised, sent) => ⟨s.db, message, sent, true⟩
         | (_, sent) => ⟨committed, message, sent, calls.commit.raises⟩) := by
  dsimp only
  cases hlast : h.work.isLast with
  | true => exact ⟨[], [], rfl, List.append_nil _, ends_commit (.inr ⟨hphase, hlast⟩) hfresh⟩
  | false =>
    have hact : act settings s.db s.minted (s.phase i) (.publish calls.publish) =
        some (publishStep settings s.db h (h.work.recordUsage s.db calls.today token) handed
          calls.publish) := by
      rw [hphase, act, hlast]
      rfl
    have hbodies := bodies_of_publish settings calls.publish h.work.followUp
    rcases hpublish : SQSPublisher.publish settings calls.publish h.work.followUp with ⟨result, sent⟩
    rw [hpublish] at hbodies
    rw [publishStep, publishJob, hpublish] at hact
    cases result with
    | raised => exact ⟨_, [], hbodies, List.append_nil _, ends_after _ hact rfl⟩
    | skipped =>
      have hrest := Ends.after _ hact rfl (ends_commit (.inl (State.phase_apply_self _ _)) hfresh)
      rw [List.append_nil] at hrest
      exact ⟨_, [], hbodies, List.append_nil _, hrest⟩
    | published =>
      have hrest := Ends.after _ hact rfl (ends_commit (.inl (State.phase_apply_self _ _)) hfresh)
      rw [List.append_nil] at hrest
      exact ⟨_, [], hbodies, List.append_nil _, hrest⟩

theorem handling_alone {job : Received} {calls : StepCalls} (hphase : s.phase i = .received job)
    (hevent : eventOf job.payload = "sequence.step.execute") (hfresh : s.db.timeline.Fresh calls.eventId) :
    Performs settings s i job [] (processSequenceStepEvent settings s.db job.payload calls) := by
  have hread : act settings s.db s.minted (s.phase i) .read = readJob s.db job := by rw [hphase, act]
  rw [readJob, if_pos hevent] at hread
  unfold processSequenceStepEvent
  dsimp only
  cases hjob : readStepJob s.db job.payload with
  | ignored =>
    rw [hjob] at hread
    exact ⟨[], [], rfl, rfl, ends_after _ hread rfl⟩
  | finished enrollment =>
    rw [hjob] at hread
    apply Performs.after _ hread rfl rfl
    have hcommit : act settings (s.apply i { phase := .completing job enrollment, db := s.db }).db
        (s.apply i { phase := .completing job enrollment, db := s.db }).minted
        ((s.apply i { phase := .completing job enrollment, db := s.db }).phase i)
        (.commit calls.commit calls.eventId) =
          some (commitAll s.db (completeEnrollment s.db enrollment) job calls.commit) := by
      rw [State.phase_apply_self]
      rfl
    exact ⟨[], [], rfl, rfl, ends_after _ hcommit rfl⟩
  | execute work =>
    rw [hjob] at hread
    apply Performs.after _ hread rfl rfl
    have hsend : act settings (s.apply i { phase := .executing ⟨job, work⟩, db := s.db }).db
        (s.apply i { phase := .executing ⟨job, work⟩, db := s.db }).minted
        ((s.apply i { phase := .executing ⟨job, work⟩, db := s.db }).phase i) (.send calls.send) =
          some (sendStep settings s.db ⟨job, work⟩ calls.send) := by
      rw [State.phase_apply_self]
      rfl
    rcases hdeliver : work.deliver settings calls.send with ⟨returned, message⟩
    rw [sendStep, hdeliver] at hsend
    apply Performs.after _ hsend rfl rfl
    have hmessage : (message.toList.map fun m => (⟨work.enrollment.id, work.step.id, m⟩ : Sent)).map
        Sent.message = message.toList := by
      rw [List.map_map]
      exact List.map_id _
    dsimp only
    rw [hdeliver]
    cases returned with
    | none => exact ⟨[], [], rfl, by simpa using hmessage, ends_here (State.phase_apply_self _ _)⟩
    | some token =>
      apply Performs.after (.record calls.today false) (by rw [State.phase_apply_self]; rfl) rfl rfl
      simp only [List.map_nil, List.nil_append, List.append_nil, hmessage]
      exact performs_recorded (h := ⟨job, work⟩) (State.phase_apply_self _ _) hfresh

end

end Leadline.SequenceWorkers
