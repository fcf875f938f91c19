import Leadline.WorkerLosses

namespace Leadline

open Library WorkerLoop

inductive ReplayResponse
  | replayed (jobId : Id)
  | notFound (detail : String)
  | raised
  deriving DecidableEq

structure Replay where
  response : ReplayResponse
  sent : List SentMessage
  jobs : Table FailedJob.id

/-- `job.status = "replayed"` and `job.replayed_at = datetime.now(UTC)`. -/
def FailedJob.markReplayed (now : ℕ) (job : FailedJob) : FailedJob :=
  { job with status := .replayed, replayedAt := some now }

theorem FailedJob.markReplayed_id (now : ℕ) (job : FailedJob) : (job.markReplayed now).id = job.id := rfl

/-- `POST /v1/admin/dlq/{job_id}/replay`. A miss in the publisher is only its return value, which
is not looked at. -/
def replayDlqJob (settings : Settings) (jobs : Table FailedJob.id) (jobId : Id)
    (send commit : CallOutcome) (now : ℕ) : Replay :=
  match jobs.find? jobId with
  | none => ⟨.notFound "job not found", [], jobs⟩
  | some job =>
    match SQSPublisher.publish settings send ⟨job.queueName, job.payload⟩ with
    | (.raised, sent) => ⟨.raised, sent, jobs⟩
    | (_, sent) =>
      ⟨if commit.raises then .raised else .replayed jobId, sent,
        if commit.takesEffect then jobs.modify jobId (FailedJob.markReplayed now) fun _ => rfl else jobs⟩

namespace DeadLetterReplay

variable {settings : Settings} {jobs : Table FailedJob.id} {job : FailedJob} {u : String}
  {send commit : CallOutcome} {now : ℕ}

structure Configured (settings : Settings) (url : LogicalQueue → String) : Prop where
  eq_some : ∀ q, q.url settings = some (url q)
  ne_empty : ∀ q, url q ≠ ""
  injective : Function.Injective url

def ReplaysTo (settings : Settings) (jobs : Table FailedJob.id) (job : FailedJob) (u : String) : Prop :=
  ∀ send commit now,
    let r := replayDlqJob settings jobs job.id send commit now
    let message : SentMessage := ⟨u, Json.dumps (.obj job.payload)⟩
    (send = .returns → r.sent = [message]) ∧
      ∀ job' ∈ r.jobs, job'.id = job.id → job'.status = .replayed → message ∈ r.sent

theorem replay_sent (hjob : jobs.find? job.id = some job) :
    (replayDlqJob settings jobs job.id send commit now).sent =
      (SQSPublisher.publish settings send ⟨job.queueName, job.payload⟩).2 := by
  unfold replayDlqJob
  rw [hjob]
  dsimp only
  rcases SQSPublisher.publish settings send ⟨job.queueName, job.payload⟩ with ⟨result, sent⟩
  cases result <;> rfl

theorem replay_raised (hjob : jobs.find? job.id = some job)
    (hr : (SQSPublisher.publish settings send ⟨job.queueName, job.payload⟩).1 = .raised) :
    (replayDlqJob settings jobs job.id send commit now).jobs = jobs := by
  unfold replayDlqJob
  rw [hjob]
  dsimp only
  rcases hp : SQSPublisher.publish settings send ⟨job.queueName, job.payload⟩ with ⟨result, sent⟩
  rw [hp] at hr
  cases hr
  rfl

theorem publish_named {url : LogicalQueue → String} (hc : Configured settings url) (q : LogicalQueue)
    (payload : Dict) (send : CallOutcome) :
    SQSPublisher.publish settings send ⟨q.name, payload⟩ =
      (if send.raises then .raised else .published,
        if send.takesEffect then [⟨url q, Json.dumps (.obj payload)⟩] else []) := by
  have hurl : configured (q.url settings) = some (url q) := by
    rw [hc.eq_some]
    exact configured_eq_some.mpr ⟨rfl, hc.ne_empty q⟩
  have hmessage := SQSPublisher.message_of_name settings q payload
  rw [hurl] at hmessage
  exact SQSPublisher.publish_of_message hmessage send

theorem queue_of_publish {url : LogicalQueue → String} (hc : Configured settings url) {name : String}
    {payload : Dict} {message : SentMessage}
    (h : message ∈ (SQSPublisher.publish settings send ⟨name, payload⟩).2) :
    ∃ q : LogicalQueue, q.name = name ∧ message.queueUrl = url q := by
  unfold SQSPublisher.publish at h
  cases hl : (SQSPublisher.queueUrls settings).lookup name with
  | none => simp [hl] at h
  | some value =>
    obtain ⟨q, hname, hvalue⟩ := SQSPublisher.lookup_eq_some hl
    have hbind : configured value = some (url q) := by
      rw [← hvalue, hc.eq_some]
      exact configured_eq_some.mpr ⟨rfl, hc.ne_empty q⟩
    simp only [hl, Option.bind_some, hbind] at h
    refine ⟨q, hname, ?_⟩
    split at h
    · rw [List.mem_singleton.mp h]
    · exact absurd h List.not_mem_nil

theorem replaysTo_iff {url : LogicalQueue → String} (hc : Configured settings url) (q : LogicalQueue)
    (hjob : jobs.find? job.id = some job) (hpending : job.status = .pending) :
    ReplaysTo settings jobs job (url q) ↔ job.queueName = q.name := by
  constructor
  · intro h
    have hsent := (h .returns .returns 0).1 rfl
    rw [replay_sent hjob] at hsent
    have hmem : (⟨url q, Json.dumps (.obj job.payload)⟩ : SentMessage) ∈
        (SQSPublisher.publish settings .returns ⟨job.queueName, job.payload⟩).2 := by
      rw [hsent]
      exact List.mem_singleton_self _
    obtain ⟨p, hname, hurl⟩ := queue_of_publish hc hmem
    rw [← hname, hc.injective hurl]
  · intro hname send commit now
    have hpub := publish_named hc q job.payload send
    rw [← hname] at hpub
    constructor
    · rintro rfl
      rw [replay_sent hjob, hpub]
      rfl
    · intro job' hmem hid hstatus
      rw [replay_sent hjob, hpub]
      cases send with
      | returns => exact List.mem_singleton_self _
      | raisesAfterEffect => exact List.mem_singleton_self _
      | raisesWithoutEffect =>
        -- the endpoint ends before it marks the row
        have hjobs : (replayDlqJob settings jobs job.id .raisesWithoutEffect commit now).jobs = jobs :=
          replay_raised hjob (by rw [hpub]; rfl)
        rw [hjobs] at hmem
        have hsame := Table.find?_eq_some_iff.mp hjob
        rw [Table.eq_of_key_eq hmem hsame.1 hid, hpending] at hstatus
        exact absurd hstatus (by decide)

theorem stored_of_pollQueue {handlers : List String} {batch : List Attempt} {v handle : String}
    (h : .stored v handle job ∈ (pollQueue u handlers batch).1) :
    job.queueName = lastSegment u ∧ job.status = .pending := by
  obtain ⟨a, -, ha⟩ := mem_pollQueue h
  obtain ⟨payload, -, hcase⟩ := mem_pollMessage ha
  rcases hcase with ⟨-, he⟩ | ⟨-, r, he⟩ | ⟨-, error, attempts, he⟩ | he
  · cases he
  · cases he
  · cases he
    exact ⟨rfl, rfl⟩
  · cases he

end DeadLetterReplay

open DeadLetterReplay

theorem replay_reaches_origin_iff (settings : Settings) (url : LogicalQueue → String)
    (hc : Configured settings url) (q : LogicalQueue) (handlers : List String)
    (batch : List Attempt) (handle : String) (job : FailedJob)
    (hstored : .stored (url q) handle job ∈ (pollQueue (url q) handlers batch).1)
    (jobs : Table FailedJob.id) (hjob : jobs.find? job.id = some job) :
    ReplaysTo settings jobs job (url q) ↔ lastSegment (url q) = q.name := by
  obtain ⟨hname, hpending⟩ := stored_of_pollQueue hstored
  rw [replaysTo_iff hc q hjob hpending, hname]

def prefixedUrl (pre : String) (q : LogicalQueue) : String := pre ++ q.name

def prefixedSettings (pre : String) : Settings where
  sqsAiJobsQueueUrl := some (prefixedUrl pre .aiJobs)
  sqsRoutingJobsQueueUrl := some (prefixedUrl pre .routingJobs)
  sqsEmailJobsQueueUrl := some (prefixedUrl pre .emailJobs)
  sqsSmsJobsQueueUrl := some (prefixedUrl pre .smsJobs)
  sqsSequenceJobsQueueUrl := some (prefixedUrl pre .sequenceJobs)
  sqsIntegrationJobsQueueUrl := some (prefixedUrl pre .integrationJobs)

theorem prefixed_configured {pre : String} (hpre : pre ≠ "") :
    Configured (prefixedSettings pre) (prefixedUrl pre) where
  eq_some q := by cases q <;> rfl
  ne_empty q h := hpre (String.append_eq_empty_iff.mp h).1
  injective p q h := LogicalQueue.name_injective ((String.append_right_inj pre).mp h)

def thirdFailure : Attempt :=
  ⟨⟨"r-1", some failingBody, some 3⟩, some "provider timeout", .returns, .returns, "j-1"⟩

theorem stored_thirdFailure (u : String) :
    ∃ job, .stored u "r-1" job ∈ (pollQueue u eventHandlers [thirdFailure]).1 := by
  have hbody : (payloadOf (some failingBody)).any (fun p => eventOf p ∈ eventHandlers) = true := by
    decide +kernel
  obtain ⟨payload, hp, hev⟩ := (Option.any_eq_true _ _).mp hbody
  have hev := of_decide_eq_true hev
  refine ⟨failedJob "j-1" (lastSegment u) (eventOf payload) payload "provider timeout" 3, ?_⟩
  simp [pollQueue, pollMessage, hp, hev, thirdFailure, Outcome.andThen, call, maxRetries,
    CallOutcome.takesEffect, CallOutcome.raises]

theorem replay_misses_prefixed_queue :
    ∃ job, .stored "https://sqs/leadline-routing_jobs" "r-1" job ∈
        (pollQueue "https://sqs/leadline-routing_jobs" eventHandlers [thirdFailure]).1 ∧
      Configured (prefixedSettings "https://sqs/leadline-") (prefixedUrl "https://sqs/leadline-") ∧
      prefixedUrl "https://sqs/leadline-" .routingJobs = "https://sqs/leadline-routing_jobs" ∧
      ¬ ReplaysTo (prefixedSettings "https://sqs/leadline-") (Table.empty.insert job) job
        "https://sqs/leadline-routing_jobs" := by
  obtain ⟨job, hjob⟩ := stored_thirdFailure "https://sqs/leadline-routing_jobs"
  have hc : Configured (prefixedSettings "https://sqs/leadline-") (prefixedUrl "https://sqs/leadline-") :=
    prefixed_configured (by decide)
  refine ⟨job, hjob, hc, by decide +kernel, ?_⟩
  obtain ⟨hname, hpending⟩ := stored_of_pollQueue hjob
  have hfind : ((Table.empty : Table FailedJob.id).insert job).find? job.id = some job :=
    Table.find?_insert_self fun a ha => absurd ha (Table.not_mem_empty a)
  have hiff := replaysTo_iff hc .routingJobs hfind hpending
  have hurl : prefixedUrl "https://sqs/leadline-" .routingJobs = "https://sqs/leadline-routing_jobs" := by
    decide +kernel
  rw [hurl, hname] at hiff
  rw [hiff]
  decide +kernel

theorem replay_reaches_origin_routing :
    ∃ job, ReplaysTo (prefixedSettings "https://sqs/") (Table.empty.insert job) job
      (prefixedUrl "https://sqs/" .routingJobs) := by
  obtain ⟨job, hjob⟩ := stored_thirdFailure (prefixedUrl "https://sqs/" .routingJobs)
  have hfind : ((Table.empty : Table FailedJob.id).insert job).find? job.id = some job :=
    Table.find?_insert_self fun a ha => absurd ha (Table.not_mem_empty a)
  have hiff := replay_reaches_origin_iff _ _ (prefixed_configured (by decide)) .routingJobs eventHandlers
    [thirdFailure] "r-1" job hjob _ hfind
  exact ⟨job, hiff.mpr (by decide +kernel)⟩

end Leadline
