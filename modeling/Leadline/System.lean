import Leadline.Api
import Leadline.IntegrationEvents
import Leadline.MessageEvents
import Leadline.SequenceTriggers

/-!
The endpoints and the workers over one database. A request or the handling of a job is one step,
and a job that was published is handled any number of times.
-/

namespace Leadline

open Library

/-- What the program runs with. `getattr` is that of the routing engine. -/
structure Deployment where
  settings : Settings
  py : Python
  getattr : Lead → String → Option FieldValue
  encrypt : Dict → Dict

/-- The keys of `_event_handlers`. -/
inductive JobEvent
  | messageCreated
  | leadCreated
  | leadUpdated
  | leadScoreUpdated
  | sequenceTrigger
  | sequenceStepExecute
  | integrationLeadCreated
  | integrationLeadUpdated
  | integrationLeadScoreUpdated
  | integrationTimelineCreated
  deriving DecidableEq

namespace JobEvent

def name : JobEvent → String
  | messageCreated => "message.created"
  | leadCreated => "lead.created"
  | leadUpdated => "lead.updated"
  | leadScoreUpdated => "lead.score_updated"
  | sequenceTrigger => "sequence.trigger"
  | sequenceStepExecute => "sequence.step.execute"
  | integrationLeadCreated => "integration.lead.created"
  | integrationLeadUpdated => "integration.lead.updated"
  | integrationLeadScoreUpdated => "integration.lead.score_updated"
  | integrationTimelineCreated => "integration.timeline.created"

def all : List JobEvent :=
  [messageCreated, leadCreated, leadUpdated, leadScoreUpdated, sequenceTrigger, sequenceStepExecute,
    integrationLeadCreated, integrationLeadUpdated, integrationLeadScoreUpdated, integrationTimelineCreated]

end JobEvent

structure JobInputs extends Inputs where
  send : CallOutcome := .returns
  analysis : AnalysisCalls := {}
  hubspot : ProviderCall := .declined
  slackRaises : Bool := false
  svixRaises : Bool := false
  now : Timestamp := 0

def JobEvent.handle (d : Deployment) (db : Db) (cache : AICache) (payload : Dict) (inputs : JobInputs) :
    JobEvent → Work Unit × AICache
  | messageCreated =>
    processMessageCreatedEvent d.py d.settings db cache payload inputs.analysis inputs.today (inputs.newId 0)
  | leadCreated => (processRoutingEvent d.py d.getattr db payload (inputs.newId 0), cache)
  | leadUpdated => (processRoutingEvent d.py d.getattr db payload (inputs.newId 0), cache)
  | leadScoreUpdated => (processRoutingEvent d.py d.getattr db payload (inputs.newId 0), cache)
  | sequenceTrigger => (SequenceTriggers.processSequenceTriggerEvent db payload inputs.newId, cache)
  | sequenceStepExecute =>
    (SequenceRequests.processSequenceStepEvent d.settings db payload inputs.send inputs.today (inputs.newId 0), cache)
  | integrationLeadCreated => integration
  | integrationLeadUpdated => integration
  | integrationLeadScoreUpdated => integration
  | integrationTimelineCreated => integration
where
  integration : Work Unit × AICache :=
    (processIntegrationEvent d.encrypt db payload
      ⟨inputs.hubspot, inputs.slackRaises, inputs.svixRaises, inputs.newId 0, inputs.now⟩, cache)

def RowWrite.addedIds {α : Type} (key : α → Id) : RowWrite α → List Id
  | add row => [key row]
  | _ => []

theorem RowWrite.key_mem_of_apply {α : Type} {key : α → Id} {t : Table key} {ids : List Id} {w : RowWrite α}
    (h : ∀ a ∈ t, key a ∈ ids) (hadded : ∀ id ∈ w.addedIds key, id ∈ ids) : ∀ a ∈ w.apply t, key a ∈ ids := by
  intro a ha
  cases w with
  | add row =>
    rcases Table.mem_of_mem_insert ha with hold | rfl
    · exact h a hold
    · exact hadded _ (List.mem_singleton_self _)
  | set row =>
    obtain ⟨old, hold, rfl⟩ := Table.mem_put.mp ha
    split
    · rename_i hkey
      rw [← hkey]
      exact h old hold
    · exact h old hold
  | delete id => exact h a (Table.mem_erase.mp ha).1

def Write.addedIds : Write → List Id
  | lead w => w.addedIds Lead.id
  | timelineEvent w => w.addedIds LeadTimelineEvent.id
  | session w => w.addedIds Session.id
  | message w => w.addedIds Message.id
  | routingRule w => w.addedIds RoutingRule.id
  | sequence w => w.addedIds Sequence.id
  | step w => w.addedIds SequenceStep.id
  | enrollment w => w.addedIds SequenceEnrollment.id
  | connection w => w.addedIds IntegrationConnection.id
  | usage _ => []

def Work.newIds {α : Type} : Work α → List Id
  | commits c => c.writes.flatMap Write.addedIds
  | _ => []

/-- `jobs` are all that were published, `ids` all that were given to a row. -/
structure World where
  db : Db
  cache : AICache := fun _ => none
  jobs : List QueueJob := []
  ids : List Id := []
  replies : List (Id × Answer Reply) := []

inductive Label
  | request (tenantId : Id) (request : Request) (inputs : Inputs)
  | job (job : QueueJob) (event : JobEvent) (inputs : JobInputs)

/-- A reply that could not be rendered is an internal error. -/
def Answer.rendered {α : Type} : Answer (Option α) → Answer α
  | returned (some value) => .returned value
  | returned none => .raised
  | refused e => .refused e
  | raised => .raised

/-- Ids are unique over all tables: `uuid4` never gives one twice. -/
def World.NewIds (w : World) (ids : List Id) : Prop := ids.Nodup ∧ ∀ id ∈ ids, id ∉ w.ids

instance (w : World) (ids : List Id) : Decidable (w.NewIds ids) :=
  inferInstanceAs (Decidable (_ ∧ ∀ id ∈ ids, id ∉ w.ids))

namespace World

variable (d : Deployment) (w : World)

def afterRequest (tenantId : Id) (request : Request) (inputs : Inputs) : World :=
  let work := request.work d.py.lower w.db tenantId inputs
  let outcome := work.run d.settings w.db inputs.calls
  { w with
    db := outcome.db
    jobs := w.jobs ++ outcome.jobs
    ids := w.ids ++ work.newIds
    replies := w.replies ++ [(tenantId, outcome.answer.rendered)] }

def afterJob (job : QueueJob) (event : JobEvent) (inputs : JobInputs) : World :=
  let handled := event.handle d w.db w.cache job.payload inputs
  let outcome := handled.1.run d.settings w.db inputs.calls
  { w with
    db := outcome.db
    cache := handled.2
    jobs := w.jobs ++ outcome.jobs
    ids := w.ids ++ handled.1.newIds }

end World

inductive Step (d : Deployment) (w : World) : Label → World → Prop
  | request (tenantId : Id) (request : Request) (inputs : Inputs)
      (hids : w.NewIds (request.work d.py.lower w.db tenantId inputs).newIds) :
      Step d w (.request tenantId request inputs) (w.afterRequest d tenantId request inputs)
  | job (job : QueueJob) (event : JobEvent) (inputs : JobInputs) (hjob : job ∈ w.jobs)
      (hevent : WorkerLoop.eventOf job.payload = event.name)
      (hids : w.NewIds (event.handle d w.db w.cache job.payload inputs).1.newIds) :
      Step d w (.job job event inputs) (w.afterJob d job event inputs)

def plainDeployment : Deployment where
  settings :=
    { sqsAiJobsQueueUrl := some "https://sqs/ai_jobs", sqsSequenceJobsQueueUrl := some "https://sqs/sequence_jobs" }
  py := .ascii
  getattr _ _ := none
  encrypt d := d

end Leadline
