import Leadline.Library.Json
import Leadline.Library.Table

/-!
The tables of `app/models` as far as the modelled operations read or write them. Timestamps are
left out: a table keeps its rows in creation order, which is the order of `created_at`.
-/

namespace Leadline

open Library

/-- Primary keys are `uuid4` strings; a tenant id comes from the token or the tenants table. -/
abbrev Id := String

/-- A day of the UTC calendar, counted from a fixed one. -/
abbrev Day := ℕ

abbrev Timestamp := ℤ

structure Tenant where
  id : Id
  name : String
  slug : String
  plan : String
  status : String
  settings : Json

structure Lead where
  id : Id
  tenantId : Id
  name : Option String
  email : Option String
  phone : Option String
  company : Option String
  role : Option String
  channel : Option String
  campaign : Option String
  utmSource : Option String
  utmMedium : Option String
  utmCampaign : Option String
  status : String
  stage : Option String
  leadScore : ℤ
  fitScore : ℤ
  engagementScore : ℤ
  ownerUserId : Option Id
  assignedTeamId : Option Id
  assignedQueueName : Option String
  marketingOptIn : Bool
  /-- An update with a null stores the JSON null, here `none`; so for the custom fields. -/
  allowedChannels : Option (List String)
  customFields : Option Dict

structure LeadTimelineEvent where
  id : Id
  tenantId : Id
  leadId : Id
  type : String
  /-- `none` is the JSON null. -/
  payload : Option Dict

structure Session where
  id : Id
  tenantId : Id
  visitorId : String
  leadId : Option Id
  startedAt : Option Timestamp
  endedAt : Option Timestamp
  sessionMetadata : Option Dict

structure Message where
  id : Id
  tenantId : Id
  sessionId : Id
  senderType : String
  content : String
  intent : Option String
  entities : Option Dict
  sentiment : Option String
  urgency : Option String
  topics : Option (List String)

structure RoutingRule where
  id : Id
  tenantId : Id
  name : String
  priority : ℤ
  enabled : Bool
  conditions : Option (List Dict)
  action : String
  actionPayload : Option Dict

@[ext]
structure Usage where
  aiTokensUsed : ℕ := 0
  messagesSent : ℕ := 0
  emailsSent : ℕ := 0
  smsSent : ℕ := 0
  leadsCreated : ℕ := 0
  sessionsCreated : ℕ := 0
  deriving DecidableEq

def Usage.add (u v : Usage) : Usage where
  aiTokensUsed := u.aiTokensUsed + v.aiTokensUsed
  messagesSent := u.messagesSent + v.messagesSent
  emailsSent := u.emailsSent + v.emailsSent
  smsSent := u.smsSent + v.smsSent
  leadsCreated := u.leadsCreated + v.leadsCreated
  sessionsCreated := u.sessionsCreated + v.sessionsCreated

structure UsageRecord where
  tenantId : Id
  recordDate : Day
  usage : Usage

/-- The columns of `uq_usage_tenant_date`. -/
def UsageRecord.key (r : UsageRecord) : Id × Day := (r.tenantId, r.recordDate)

structure Sequence where
  id : Id
  tenantId : Id
  name : String
  description : Option String
  trigger : String
  status : String

structure SequenceStep where
  id : Id
  sequenceId : Id
  orderIndex : ℤ
  type : String
  delaySeconds : ℤ
  template : Option String
  deriving DecidableEq

inductive EnrollmentStatus
  | active
  | completed
  deriving DecidableEq

structure SequenceEnrollment where
  id : Id
  tenantId : Id
  leadId : Id
  sequenceId : Id
  status : EnrollmentStatus
  currentStepIndex : ℕ
  deriving DecidableEq

inductive FailedJobStatus
  | pending
  | replayed
  deriving DecidableEq

structure FailedJob where
  id : Id
  queueName : String
  eventType : String
  payload : Dict
  error : String
  attempts : ℕ
  status : FailedJobStatus
  tenantId : Option String
  replayedAt : Option ℕ

structure IntegrationConnection where
  id : Id
  tenantId : Id
  type : String
  authData : Dict
  status : String
  lastSyncAt : Option Timestamp

inductive WebhookStatus
  | received
  | retry
  | failed
  | processed
  deriving DecidableEq

structure WebhookEvent where
  id : Id
  tenantId : Id
  provider : String
  sourceEventId : String
  eventType : String
  payload : Dict
  signatureValid : Bool
  status : WebhookStatus
  attempts : ℕ
  lastError : Option String

structure Db where
  tenants : Table Tenant.id := .empty
  leads : Table Lead.id := .empty
  timeline : Table LeadTimelineEvent.id := .empty
  usage : Table UsageRecord.key := .empty
  sequences : Table Sequence.id := .empty
  steps : Table SequenceStep.id := .empty
  enrollments : Table SequenceEnrollment.id := .empty
  sessions : Table Session.id := .empty
  messages : Table Message.id := .empty
  routingRules : Table RoutingRule.id := .empty
  integrationConnections : Table IntegrationConnection.id := .empty
  webhookEvents : Table WebhookEvent.id := .empty

/-- `select(..).where(id == .., tenant_id == ..)` -/
def ofTenant {α : Type} {key : α → Id} (tenantId : α → Id) (t : Table key) (tenant id : Id) : Option α :=
  (t.find? id).filter (fun a => tenantId a = tenant)

theorem ofTenant_eq_some {α : Type} {key : α → Id} {tenantId : α → Id} {t : Table key} {tenant id : Id}
    {a : α} : ofTenant tenantId t tenant id = some a ↔ a ∈ t ∧ key a = id ∧ tenantId a = tenant := by
  rw [ofTenant, Option.filter_eq_some_iff, Table.find?_eq_some_iff, and_assoc]
  simp

/-- `setattr` of a column that takes no null. -/
def setColumn {α : Type} (old : α) : Option (Option α) → Option α
  | none => some old
  | some value => value

/-- `.first()` of a query without an order: any of its rows. -/
def firstOf {α : Type} (choice : ℕ) (rows : List α) : Option α := rows[choice % rows.length]?

theorem mem_of_firstOf {α : Type} {choice : ℕ} {rows : List α} {a : α} (h : firstOf choice rows = some a) :
    a ∈ rows :=
  List.mem_of_getElem? h

theorem firstOf_eq_none {α : Type} {choice : ℕ} {rows : List α} :
    firstOf choice rows = none ↔ rows = [] := by
  unfold firstOf
  cases rows with
  | nil => simp
  | cons a rows =>
    have hlt : choice % (a :: rows).length < (a :: rows).length := by
      apply Nat.mod_lt
      simp
    simp only [List.getElem?_eq_none_iff, reduceCtorEq, iff_false]
    omega

end Leadline
