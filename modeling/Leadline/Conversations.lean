import Leadline.Transactions

namespace Leadline

open Library

structure SessionCreate where
  visitorId : String
  leadId : Option Id := none
  startedAt : Option Timestamp := none
  endedAt : Option Timestamp := none
  metadata : Dict := []

structure SessionUpdate where
  leadId : Option (Option Id) := none
  endedAt : Option (Option Timestamp) := none
  metadata : Option (Option Dict) := none

structure MessageCreate where
  senderType : String
  content : String
  intent : Option String := none
  entities : Dict := []
  sentiment : Option String := none
  urgency : Option String := none
  topics : List String := []

structure MessageUpdate where
  senderType : Option (Option String) := none
  content : Option (Option String) := none
  intent : Option (Option String) := none
  entities : Option (Option Dict) := none
  sentiment : Option (Option String) := none
  urgency : Option (Option String) := none
  topics : Option (Option (List String)) := none

def SessionUpdate.apply (data : SessionUpdate) (s : Session) : Session :=
  { s with
    leadId := data.leadId.getD s.leadId
    endedAt := data.endedAt.getD s.endedAt
    sessionMetadata := data.metadata.getD s.sessionMetadata }

def MessageUpdate.apply (data : MessageUpdate) (m : Message) : Option Message := do
  let senderType ← setColumn m.senderType data.senderType
  let content ← setColumn m.content data.content
  pure { m with
    senderType := senderType
    content := content
    intent := data.intent.getD m.intent
    entities := data.entities.getD m.entities
    sentiment := data.sentiment.getD m.sentiment
    urgency := data.urgency.getD m.urgency
    topics := data.topics.getD m.topics }

theorem MessageUpdate.apply_eq_some {data : MessageUpdate} {m updated : Message} (h : data.apply m = some updated) :
    updated.id = m.id ∧ updated.tenantId = m.tenantId ∧ updated.sessionId = m.sessionId ∧
      updated.entities = data.entities.getD m.entities ∧ updated.topics = data.topics.getD m.topics := by
  simp only [apply, Option.bind_eq_bind, Option.bind_eq_some_iff, Option.pure_def, Option.some.injEq] at h
  obtain ⟨_, -, _, -, rfl⟩ := h
  exact ⟨rfl, rfl, rfl, rfl, rfl⟩

namespace SessionRepository

def create (id tenantId : Id) (data : SessionCreate) : Session where
  id := id
  tenantId := tenantId
  visitorId := data.visitorId
  leadId := data.leadId
  startedAt := data.startedAt
  endedAt := data.endedAt
  sessionMetadata := some data.metadata

def get (db : Db) (tenantId sessionId : Id) : Option Session :=
  ofTenant Session.tenantId db.sessions tenantId sessionId

def list (db : Db) (tenantId : Id) : List Session := (db.sessions.rows.filter fun s => s.tenantId = tenantId).reverse

end SessionRepository

namespace MessageRepository

def create (id tenantId sessionId : Id) (data : MessageCreate) : Message where
  id := id
  tenantId := tenantId
  sessionId := sessionId
  senderType := data.senderType
  content := data.content
  intent := data.intent
  entities := some data.entities
  sentiment := data.sentiment
  urgency := data.urgency
  topics := some data.topics

def get (db : Db) (tenantId messageId : Id) : Option Message :=
  ofTenant Message.tenantId db.messages tenantId messageId

def listForSession (db : Db) (tenantId sessionId : Id) : List Message :=
  db.messages.rows.filter fun m => m.tenantId = tenantId ∧ m.sessionId = sessionId

end MessageRepository

def sessionNotFound : HTTPException := ⟨404, "session not found"⟩

def messageNotFound : HTTPException := ⟨404, "message not found"⟩

def leadOrSessionNotFound : HTTPException := ⟨404, "lead or session not found"⟩

def messageCreatedJob (tenantId sessionId messageId : Id) : QueueJob where
  queueName := "ai_jobs"
  payload := [("event", .str "message.created"), ("tenant_id", .str tenantId),
    ("session_id", .str sessionId), ("message_id", .str messageId)]

namespace ConversationService

/-- The foreign key of `lead_id`, which names no tenant. -/
def LeadExists (db : Db) (leadId : Option Id) : Prop := ∀ id ∈ leadId, (db.leads.find? id).isSome

instance (db : Db) (leadId : Option Id) : Decidable (LeadExists db leadId) :=
  inferInstanceAs (Decidable (∀ id ∈ leadId, _))

variable (db : Db) (tenantId : Id)

def insertSession (payload : SessionCreate) (id : Id) (today : Day) : Work Session :=
  let record := SessionRepository.create id tenantId payload
  if LeadExists db payload.leadId then
    let usage := UsageTrackingService.increment db tenantId today { sessionsCreated := 1 }
    .commits { writes := [.session (.add record), .usage usage], value := record }
  else .raised

def createSession (payload : SessionCreate) (id : Id) (today : Day) : Work Session :=
  match PlanLimitService.enforceSessionCreationLimit db tenantId with
  | .error e => .refused e
  | .ok _ => insertSession db tenantId payload id today

def listSessions : Work (List Session) := .answered (SessionRepository.list db tenantId)

def getSession (sessionId : Id) : Work Session :=
  match SessionRepository.get db tenantId sessionId with
  | none => .refused sessionNotFound
  | some record => .answered record

def updateSession (sessionId : Id) (payload : SessionUpdate) : Work Session :=
  match SessionRepository.get db tenantId sessionId with
  | none => .refused sessionNotFound
  | some record =>
    let updated := payload.apply record
    if LeadExists db payload.leadId.join then .commits { writes := [.session (.set updated)], value := updated }
    else .raised

def deleteSession (sessionId : Id) : Work Unit :=
  match SessionRepository.get db tenantId sessionId with
  | none => .refused sessionNotFound
  | some record => .commits { writes := [.session (.delete record.id)], value := () }

def attachSessionToLead (leadId sessionId : Id) : Work Session :=
  match LeadRepository.get db tenantId leadId with
  | none => .refused leadOrSessionNotFound
  | some _ =>
    match SessionRepository.get db tenantId sessionId with
    | none => .refused leadOrSessionNotFound
    | some record =>
      let updated := { record with leadId := some leadId }
      .commits { writes := [.session (.set updated)], value := updated }

def insertMessage (sessionId : Id) (payload : MessageCreate) (id : Id) : Work Message :=
  match SessionRepository.get db tenantId sessionId with
  | none => .refused sessionNotFound
  | some _ =>
    let message := MessageRepository.create id tenantId sessionId payload
    .commits
      { writes := [.message (.add message)], value := message
        after := [messageCreatedJob tenantId sessionId message.id] }

def createMessage (sessionId : Id) (payload : MessageCreate) (id : Id) : Work Message :=
  match PlanLimitService.enforceMessageCreationLimit db tenantId with
  | .error e => .refused e
  | .ok _ => insertMessage db tenantId sessionId payload id

def listMessages (sessionId : Id) : Work (List Message) :=
  .answered (MessageRepository.listForSession db tenantId sessionId)

def getMessage (messageId : Id) : Work Message :=
  match MessageRepository.get db tenantId messageId with
  | none => .refused messageNotFound
  | some message => .answered message

def updateMessage (messageId : Id) (payload : MessageUpdate) : Work Message :=
  match MessageRepository.get db tenantId messageId with
  | none => .refused messageNotFound
  | some message =>
    match payload.apply message with
    | none => .raised
    | some updated => .commits { writes := [.message (.set updated)], value := updated }

def deleteMessage (messageId : Id) : Work Unit :=
  match MessageRepository.get db tenantId messageId with
  | none => .refused messageNotFound
  | some message => .commits { writes := [.message (.delete message.id)], value := () }

end ConversationService

end Leadline
