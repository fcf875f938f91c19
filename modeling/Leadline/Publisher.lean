import Leadline.Rows

namespace Leadline

open Library

/-- The settings of `app/core/config.py` that the modelled code reads. -/
structure Settings where
  sqsAiJobsQueueUrl : Option String := none
  sqsRoutingJobsQueueUrl : Option String := none
  sqsEmailJobsQueueUrl : Option String := none
  sqsSmsJobsQueueUrl : Option String := none
  sqsSequenceJobsQueueUrl : Option String := none
  sqsIntegrationJobsQueueUrl : Option String := none
  sesFromEmail : Option String := none
  twilioAccountSid : Option String := none
  twilioAuthToken : Option String := none
  twilioFromPhone : Option String := none
  svixWebhookSecret : Option String := none
  hubspotWebhookSecret : Option String := none
  integrationMaxRetries : ℤ := 3
  openaiApiKey : Option String := none
  openaiModelMini : String := "gpt-4o-mini"
  openaiModelFull : String := "gpt-4o"
  aiPromptVersion : String := "v1"

/-- The truth value of an optional setting: `None` and the empty string are both unset. -/
def configured (value : Option String) : Option String := value.filter (· ≠ "")

theorem configured_eq_some {value : Option String} {s : String} :
    configured value = some s ↔ value = some s ∧ s ≠ "" := by
  simp [configured, Option.filter_eq_some_iff]

/-- How a call to a remote service ends: a call that raises may still have taken effect. -/
inductive CallOutcome
  | returns
  | raisesAfterEffect
  | raisesWithoutEffect
  deriving DecidableEq

namespace CallOutcome

def takesEffect : CallOutcome → Bool
  | returns => true
  | raisesAfterEffect => true
  | raisesWithoutEffect => false

def raises : CallOutcome → Bool
  | returns => false
  | raisesAfterEffect => true
  | raisesWithoutEffect => true

end CallOutcome

structure QueueJob where
  queueName : String
  payload : Dict

/-- The queues of `SQSPublisher._queue_urls`. -/
inductive LogicalQueue
  | aiJobs
  | routingJobs
  | emailJobs
  | smsJobs
  | sequenceJobs
  | integrationJobs
  deriving DecidableEq

namespace LogicalQueue

def all : List LogicalQueue := [aiJobs, routingJobs, emailJobs, smsJobs, sequenceJobs, integrationJobs]

def name : LogicalQueue → String
  | aiJobs => "ai_jobs"
  | routingJobs => "routing_jobs"
  | emailJobs => "email_jobs"
  | smsJobs => "sms_jobs"
  | sequenceJobs => "sequence_jobs"
  | integrationJobs => "integration_jobs"

def url (settings : Settings) : LogicalQueue → Option String
  | aiJobs => settings.sqsAiJobsQueueUrl
  | routingJobs => settings.sqsRoutingJobsQueueUrl
  | emailJobs => settings.sqsEmailJobsQueueUrl
  | smsJobs => settings.sqsSmsJobsQueueUrl
  | sequenceJobs => settings.sqsSequenceJobsQueueUrl
  | integrationJobs => settings.sqsIntegrationJobsQueueUrl

theorem name_injective : Function.Injective name := by
  intro p q h
  cases p <;> cases q <;> first | rfl | exact absurd h (by decide)

end LogicalQueue

structure SentMessage where
  queueUrl : String
  messageBody : String
  deriving DecidableEq

namespace SQSPublisher

def queueUrls (settings : Settings) : List (String × Option String) :=
  LogicalQueue.all.map fun q => (q.name, q.url settings)

/-- What `publish` returns: `False` for a queue without a URL, `True`, or an exception of the
client. The messages that reached a queue come with it. -/
inductive Result
  | skipped
  | published
  | raised
  deriving DecidableEq

def publish (settings : Settings) (send : CallOutcome) (job : QueueJob) : Result × List SentMessage :=
  match ((queueUrls settings).lookup job.queueName).bind configured with
  | none => (.skipped, [])
  | some queueUrl =>
    (if send.raises then .raised else .published,
      if send.takesEffect then [⟨queueUrl, Json.dumps (.obj job.payload)⟩] else [])

def publishAll (settings : Settings) : List (QueueJob × CallOutcome) → Result × List SentMessage
  | [] => (.published, [])
  | (job, send) :: rest =>
    match publish settings send job with
    | (.raised, sent) => (.raised, sent)
    | (_, sent) => ((publishAll settings rest).1, sent ++ (publishAll settings rest).2)

def message (settings : Settings) (job : QueueJob) : Option SentMessage :=
  (((queueUrls settings).lookup job.queueName).bind configured).map fun url =>
    ⟨url, Json.dumps (.obj job.payload)⟩

theorem lookup_name (settings : Settings) (q : LogicalQueue) :
    (queueUrls settings).lookup q.name = some (q.url settings) := by
  cases q <;> rfl

theorem message_of_name (settings : Settings) (q : LogicalQueue) (payload : Dict) :
    message settings ⟨q.name, payload⟩ = (configured (q.url settings)).map fun url =>
      ⟨url, Json.dumps (.obj payload)⟩ := by
  rw [message, lookup_name, Option.bind_some]

theorem publish_of_message {settings : Settings} {job : QueueJob} {m : SentMessage}
    (h : message settings job = some m) (send : CallOutcome) :
    publish settings send job =
      (if send.raises then .raised else .published, if send.takesEffect then [m] else []) := by
  obtain ⟨url, hurl, rfl⟩ := Option.map_eq_some_iff.mp h
  simp only [publish, hurl]

theorem publish_of_no_message {settings : Settings} {job : QueueJob} (h : message settings job = none)
    (send : CallOutcome) : publish settings send job = (.skipped, []) := by
  have hurl := Option.map_eq_none_iff.mp h
  simp only [publish, hurl]

def reached : List CallOutcome → ℕ
  | [] => 0
  | .returns :: rest => reached rest + 1
  | .raisesAfterEffect :: _ => 1
  | .raisesWithoutEffect :: _ => 0

theorem publishAll_eq {settings : Settings} {jobs : List QueueJob} {calls : List CallOutcome}
    (hurls : ∀ job ∈ jobs, (message settings job).isSome) (hlength : jobs.length = calls.length) :
    publishAll settings (jobs.zip calls) =
      (if calls.all (· = .returns) then .published else .raised,
        (jobs.take (reached calls)).filterMap (message settings)) := by
  induction jobs generalizing calls with
  | nil =>
    rw [List.length_nil] at hlength
    rw [List.eq_nil_of_length_eq_zero hlength.symm]
    rfl
  | cons job jobs ih =>
    cases calls with
    | nil => cases hlength
    | cons send calls =>
      obtain ⟨m, hm⟩ := Option.isSome_iff_exists.mp (hurls job List.mem_cons_self)
      have hrest := ih (fun j hj => hurls j (List.mem_cons_of_mem job hj)) (Nat.succ.inj hlength)
      rw [List.zip_cons_cons, publishAll, publish_of_message hm]
      cases send with
      | returns =>
        simp only [CallOutcome.raises, CallOutcome.takesEffect, Bool.false_eq_true, if_false, if_true, hrest,
          reached, List.take_succ_cons, List.filterMap_cons, hm, List.all_cons, decide_true, Bool.true_and]
        rfl
      | raisesAfterEffect => simp [CallOutcome.raises, CallOutcome.takesEffect, reached, hm]
      | raisesWithoutEffect => simp [CallOutcome.raises, CallOutcome.takesEffect, reached]

theorem publish_returns (settings : Settings) (job : QueueJob) :
    (publish settings .returns job).1 ≠ .raised := by
  unfold publish
  split
  · exact Result.noConfusion
  · exact Result.noConfusion

theorem lookup_eq_some {settings : Settings} {n : String} {u : Option String}
    (h : (queueUrls settings).lookup n = some u) : ∃ q : LogicalQueue, q.name = n ∧ q.url settings = u := by
  obtain ⟨l₁, l₂, hl, -⟩ := List.lookup_eq_some_iff.mp h
  have hm : (n, u) ∈ queueUrls settings := by rw [hl]; simp
  obtain ⟨q, -, hq⟩ := List.mem_map.mp hm
  exact ⟨q, congrArg Prod.fst hq, congrArg Prod.snd hq⟩

end SQSPublisher

end Leadline
