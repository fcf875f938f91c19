import Leadline.JobCascade
import Leadline.Library.JsonTexts
import Leadline.RequestEffects

namespace Leadline

open Library Json

namespace PublishedJobs

structure Addressed (job : QueueJob) (event : JobEvent) : Prop where
  named : WorkerLoop.eventOf job.payload = event.name
  queued : job.queueName = event.queue.name
  readable : WellFormed (.obj job.payload)

theorem wellFormed_texts (fields : List (String × String)) (hkeys : (fields.map Prod.fst).Nodup) :
    WellFormed (.obj (fields.map fun p => (p.1, .str p.2))) := by
  constructor
  · rwa [List.map_map]
  · intro p hp
    obtain ⟨q, -, rfl⟩ := List.mem_map.mp hp
    exact .str _

theorem stepJob_addressed (tenantId enrollmentId : Id) :
    Addressed (stepJob tenantId enrollmentId) .sequenceStepExecute where
  named := rfl
  queued := rfl
  readable := wellFormed_texts [("event", "sequence.step.execute"), ("tenant_id", tenantId),
    ("enrollment_id", enrollmentId)] (by simp)

theorem messageCreatedJob_addressed (tenantId sessionId messageId : Id) :
    Addressed (messageCreatedJob tenantId sessionId messageId) .messageCreated where
  named := rfl
  queued := rfl
  readable := wellFormed_texts [("event", "message.created"), ("tenant_id", tenantId),
    ("session_id", sessionId), ("message_id", messageId)] (by simp)

theorem timelineJob_addressed (tenantId leadId eventId : Id) :
    Addressed (timelineJob tenantId leadId eventId) .integrationTimelineCreated where
  named := rfl
  queued := rfl
  readable := wellFormed_texts [("event", "integration.timeline.created"), ("tenant_id", tenantId),
    ("lead_id", leadId), ("timeline_event_id", eventId)] (by simp)

theorem lifecycleJobs_addressed {tenantId leadId : Id} {event : String} {job : QueueJob}
    (hevent : event ∈ ["lead.created", "lead.updated", "lead.score_updated"])
    (hjob : job ∈ lifecycleJobs tenantId leadId event) : ∃ e, Addressed job e := by
  have hrouting : WellFormed (.obj (routingJob tenantId leadId event).payload) :=
    wellFormed_texts [("event", event), ("tenant_id", tenantId), ("lead_id", leadId)] (by simp)
  have hintegration : WellFormed (.obj (integrationJob tenantId leadId event).payload) :=
    wellFormed_texts [("event", "integration." ++ event), ("tenant_id", tenantId), ("lead_id", leadId)] (by simp)
  have htrigger : WellFormed (.obj (triggerJob tenantId leadId (triggerOf event)).payload) :=
    wellFormed_texts [("event", "sequence.trigger"), ("tenant_id", tenantId), ("lead_id", leadId),
      ("trigger", triggerOf event)] (by simp)
  simp only [lifecycleJobs, List.mem_cons, List.not_mem_nil, or_false] at hjob
  rcases hjob with rfl | rfl | rfl
  · simp only [List.mem_cons, List.not_mem_nil, or_false] at hevent
    rcases hevent with rfl | rfl | rfl
    · exact ⟨.leadCreated, rfl, rfl, hrouting⟩
    · exact ⟨.leadUpdated, rfl, rfl, hrouting⟩
    · exact ⟨.leadScoreUpdated, rfl, rfl, hrouting⟩
  · simp only [List.mem_cons, List.not_mem_nil, or_false] at hevent
    rcases hevent with rfl | rfl | rfl
    · exact ⟨.integrationLeadCreated, rfl, rfl, hintegration⟩
    · exact ⟨.integrationLeadUpdated, rfl, rfl, hintegration⟩
    · exact ⟨.integrationLeadScoreUpdated, rfl, rfl, hintegration⟩
  · exact ⟨.sequenceTrigger, rfl, rfl, htrigger⟩

theorem effect_addressed {lower : String → String} {db : Db} {tenantId : Id} {inputs : Inputs} {r : Request}
    {writes : List Write} {after : List QueueJob} (h : Request.Effect lower db tenantId inputs r writes after) :
    ∀ job ∈ after, ∃ event, Addressed job event := by
  intro job hjob
  cases h with
  | createLead => exact lifecycleJobs_addressed (by simp) hjob
  | updateLead => exact lifecycleJobs_addressed (by simp) hjob
  | createTimelineEvent =>
    rw [List.mem_singleton.mp hjob]
    exact ⟨_, timelineJob_addressed _ _ _⟩
  | createMessage =>
    rw [List.mem_singleton.mp hjob]
    exact ⟨_, messageCreatedJob_addressed _ _ _⟩
  | enrollLead =>
    rw [List.mem_singleton.mp hjob]
    exact ⟨_, stepJob_addressed _ _⟩
  | _ => cases hjob

theorem publishes_addressed {db : Db} {payload : Dict} {job : QueueJob} (h : JobEvent.Publishes db payload job) :
    ∃ event, Addressed job event := by
  cases h with
  | step htenant => exact ⟨_, stepJob_addressed _ _⟩
  | score hfound hlead hjob => exact lifecycleJobs_addressed (by simp) hjob

theorem jobs_of_run {α : Type} {work : Work α} {p : QueueJob → Prop} (h : work.EachJob p) (settings : Settings)
    (db : Db) (calls : Calls) : ∀ job ∈ (work.run settings db calls).jobs, p job := by
  intro job hjob
  rcases work.run_cases settings db calls with ⟨-, hjobs⟩ | ⟨c, rfl, -, -, hjobs⟩
  · obtain ⟨c, rfl, hbefore⟩ := hjobs job hjob
    exact h.1 job hbefore
  · rcases hjobs job hjob with hbefore | hafter
    · exact h.1 job hbefore
    · exact h.2 job hafter

def AllAddressed (w : World) : Prop := ∀ job ∈ w.jobs, ∃ event, Addressed job event

theorem AllAddressed.step {d : Deployment} {w w' : World} {label : Label} (h : AllAddressed w)
    (hstep : Step d w label w') : AllAddressed w' := by
  cases hstep with
  | request tenantId request inputs hids =>
    have heach : (request.work d.py.lower w.db tenantId inputs).EachJob fun job => ∃ event, Addressed job event := by
      have heffect := request.work_hasEffect d.py.lower w.db tenantId inputs
      cases hwork : request.work d.py.lower w.db tenantId inputs with
      | commits c =>
        rw [hwork] at heffect
        refine ⟨?_, effect_addressed heffect.2⟩
        rw [heffect.1]
        simp
      | _ => trivial
    intro job hjob
    rcases List.mem_append.mp hjob with hold | hnew
    · exact h job hold
    · exact jobs_of_run heach d.settings w.db inputs.calls job hnew
  | job done event inputs hdone hevent hids =>
    have heach := (event.handle_publishes d w.db w.cache done.payload inputs).imp fun _ => publishes_addressed
    intro job hjob
    rcases List.mem_append.mp hjob with hold | hnew
    · exact h job hold
    · exact jobs_of_run heach d.settings w.db inputs.calls job hnew

theorem payloadOf_message {settings : Settings} {job : QueueJob} {m : SentMessage} {send : CallOutcome}
    (hjob : WellFormed (.obj job.payload)) (hm : m ∈ (SQSPublisher.publish settings send job).2) :
    WorkerLoop.payloadOf (some m.messageBody) = some job.payload := by
  unfold SQSPublisher.publish at hm
  split at hm
  · cases hm
  · dsimp only at hm
    split at hm
    · rw [List.mem_singleton.mp hm, WorkerLoop.payloadOf, Option.getD_some, loads_dumps hjob]
    · cases hm

theorem queueUrl_of_publish {settings : Settings} {job : QueueJob} {m : SentMessage} {send : CallOutcome}
    {q : LogicalQueue} (hqueue : job.queueName = q.name) (hm : m ∈ (SQSPublisher.publish settings send job).2) :
    q.url settings = some m.queueUrl := by
  unfold SQSPublisher.publish at hm
  rw [hqueue, SQSPublisher.lookup_name, Option.bind_some] at hm
  split at hm
  · cases hm
  · rename_i url hurl
    dsimp only at hm
    split at hm
    · rw [List.mem_singleton.mp hm]
      exact (configured_eq_some.mp hurl).1
    · cases hm

theorem eventHandlers_eq : WorkerLoop.eventHandlers = JobEvent.all.map JobEvent.name := rfl

theorem name_mem_eventHandlers (event : JobEvent) : event.name ∈ WorkerLoop.eventHandlers := by
  rw [eventHandlers_eq]
  apply List.mem_map_of_mem
  cases event <;> decide

theorem head_pollMessage {queueUrl : String} {a : WorkerLoop.Attempt} {payload : Dict} {event : JobEvent}
    (hpayload : WorkerLoop.payloadOf a.message.body = some payload)
    (hevent : WorkerLoop.eventOf payload = event.name) :
    (WorkerLoop.pollMessage queueUrl WorkerLoop.eventHandlers a).1.head? =
      some (.handled queueUrl a.message.receiptHandle a.handler.isNone) := by
  have hmem := name_mem_eventHandlers event
  rw [← hevent] at hmem
  simp only [WorkerLoop.pollMessage, hpayload, if_pos hmem]
  cases a.handler with
  | none => rfl
  | some error =>
    dsimp only
    split <;> rfl

end PublishedJobs

open PublishedJobs

theorem published_jobs_reach_handlers (d : Deployment) (w₀ w : World) (labels : List Label) (h₀ : w₀.jobs = [])
    (hrun : Run (Step d) w₀ labels w) : ∀ job ∈ w.jobs, ∃ event : JobEvent,
      ∀ send, ∀ m ∈ (SQSPublisher.publish d.settings send job).2,
        event.queue.url d.settings = some m.queueUrl ∧
          WorkerLoop.payloadOf (some m.messageBody) = some job.payload ∧
          JobEvent.ofPayload job.payload = some event ∧
          ∀ a : WorkerLoop.Attempt, a.message.body = some m.messageBody →
            (WorkerLoop.pollMessage m.queueUrl WorkerLoop.eventHandlers a).1.head? =
              some (.handled m.queueUrl a.message.receiptHandle a.handler.isNone) := by
  have hall : AllAddressed w := by
    apply hrun.invariant AllAddressed
    · exact fun _ _ _ h _ hstep => h.step hstep
    · intro job hjob
      rw [h₀] at hjob
      cases hjob
  intro job hjob
  obtain ⟨event, haddressed⟩ := hall job hjob
  refine ⟨event, fun send m hm => ?_⟩
  have hpayload := payloadOf_message haddressed.readable hm
  refine ⟨queueUrl_of_publish haddressed.queued hm, hpayload, JobEvent.ofPayload_eq_some.mpr haddressed.named, ?_⟩
  intro a ha
  exact head_pollMessage (by rw [ha, hpayload]) haddressed.named

namespace PublishedJobs

def newLeadInputs : Inputs where
  newId k := if k = 0 then "lead-1" else "event-1"
  today := 1

def oneLead : World :=
  ({ db := {} } : World).afterRequest plainDeployment "tenant-a" (.createLead { name := some "Ada" }) newLeadInputs

theorem oneLead_run : Run (Step plainDeployment) { db := {} }
    [.request "tenant-a" (.createLead { name := some "Ada" }) newLeadInputs] oneLead :=
  .cons trivial (.request _ _ _ (by decide +kernel)) (.nil _)

end PublishedJobs

theorem published_jobs_reach_handlers_lead :
    oneLead.jobs.map QueueJob.queueName = ["sequence_jobs"] ∧
      ∀ job ∈ oneLead.jobs, ∃ event : JobEvent,
        ∀ send, ∀ m ∈ (SQSPublisher.publish plainDeployment.settings send job).2,
          WorkerLoop.payloadOf (some m.messageBody) = some job.payload ∧
            JobEvent.ofPayload job.payload = some event := by
  refine ⟨by decide +kernel, fun job hjob => ?_⟩
  obtain ⟨event, hevent⟩ := published_jobs_reach_handlers plainDeployment _ _ _ rfl oneLead_run job hjob
  exact ⟨event, fun send m hm => ⟨(hevent send m hm).2.1, (hevent send m hm).2.2.1⟩⟩

end Leadline
