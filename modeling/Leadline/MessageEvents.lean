import Leadline.Conversations
import Leadline.MessageAnalysis

namespace Leadline

open Library

def scoreUpdatedJobs (tenantId leadId : Id) : List QueueJob :=
  [{ queueName := "routing_jobs"
     payload := [("event", .str "lead.score_updated"), ("tenant_id", .str tenantId), ("lead_id", .str leadId)] },
    { queueName := "integration_jobs"
      payload := [("event", .str "integration.lead.score_updated"), ("tenant_id", .str tenantId),
        ("lead_id", .str leadId)] },
    { queueName := "sequence_jobs"
      payload := [("event", .str "sequence.trigger"), ("tenant_id", .str tenantId), ("lead_id", .str leadId),
        ("trigger", .str "score_updated")] }]

theorem scoreUpdatedJobs_eq (tenantId leadId : Id) :
    scoreUpdatedJobs tenantId leadId = lifecycleJobs tenantId leadId "lead.score_updated" := rfl

namespace MessageEvents

def findMessage (db : Db) (tenantId sessionId messageId : Id) : Option Message :=
  (MessageRepository.get db tenantId messageId).filter fun m => m.sessionId = sessionId

def annotate (understanding : MessageUnderstanding) (m : Message) : Message :=
  { m with
    intent := some understanding.intent
    entities := some understanding.entities
    sentiment := some understanding.sentiment
    urgency := some understanding.urgency
    topics := some understanding.topics }

def sessionLeadId (db : Db) (tenantId sessionId : Id) : Option Id :=
  (SessionRepository.get db tenantId sessionId).bind fun s => configured s.leadId

def applyScores (scores : LeadScoreResult) (l : Lead) : Lead :=
  { l with
    fitScore := scores.fitScore, engagementScore := scores.engagementScore, leadScore := scores.leadScore }

def scoredEvent (id tenantId messageId : Id) (lead : Lead) (understanding : MessageUnderstanding)
    (scores : LeadScoreResult) : LeadTimelineEvent where
  id := id
  tenantId := tenantId
  leadId := lead.id
  type := "ai_scored"
  payload := some [("message_id", .str messageId), ("intent", .str understanding.intent),
    ("sentiment", .str understanding.sentiment), ("urgency", .str understanding.urgency),
    ("model", .str understanding.model), ("prompt_version", .str understanding.promptVersion),
    ("fit_score", .int scores.fitScore), ("engagement_score", .int scores.engagementScore),
    ("lead_score", .int scores.leadScore)]

def scoreWrites (db : Db) (tenantId sessionId messageId : Id) (understanding : MessageUnderstanding)
    (eventId : Id) : List Write :=
  match (sessionLeadId db tenantId sessionId).bind (LeadRepository.get db tenantId) with
  | none => []
  | some lead =>
    let scores := computeInitialScores understanding (MessageRepository.listForSession db tenantId sessionId).length
    [.lead (.set (applyScores scores lead)),
      .timelineEvent (.add (scoredEvent eventId tenantId messageId lead understanding scores))]

/-- Negative totals do not occur: `total_tokens` counts. -/
def analysisUsage (understanding : MessageUnderstanding) : Usage where
  aiTokensUsed := understanding.tokensUsed.toNat
  messagesSent := 1

def storeAnalysis (db : Db) (tenantId sessionId : Id) (message : Message) (understanding : MessageUnderstanding)
    (today : Day) (eventId : Id) : Commit Unit where
  writes := [.message (.set (annotate understanding message)),
      .usage (UsageTrackingService.increment db tenantId today (analysisUsage understanding))] ++
    scoreWrites db tenantId sessionId message.id understanding eventId
  value := ()
  after := (sessionLeadId db tenantId sessionId).elim [] (scoreUpdatedJobs tenantId)

section Writes

variable {db : Db} {tenantId sessionId messageId eventId : Id} {understanding : MessageUnderstanding} {w : Write}

theorem mem_scoreWrites (h : w ∈ scoreWrites db tenantId sessionId messageId understanding eventId) :
    ∃ leadId lead scores, LeadRepository.get db tenantId leadId = some lead ∧
      (w = .lead (.set (applyScores scores lead)) ∨
        w = .timelineEvent (.add (scoredEvent eventId tenantId messageId lead understanding scores))) := by
  unfold scoreWrites at h
  split at h
  · cases h
  · rename_i lead hlead
    obtain ⟨leadId, -, hget⟩ := Option.bind_eq_some_iff.mp hlead
    rcases List.mem_cons.mp h with hw | h
    · exact ⟨leadId, lead, _, hget, .inl hw⟩
    · exact ⟨leadId, lead, _, hget, .inr (List.mem_singleton.mp h)⟩

theorem mem_storeAnalysis {message : Message} {today : Day}
    (h : w ∈ (storeAnalysis db tenantId sessionId message understanding today eventId).writes) :
    w = .message (.set (annotate understanding message)) ∨
      w = .usage (UsageTrackingService.increment db tenantId today (analysisUsage understanding)) ∨
      w ∈ scoreWrites db tenantId sessionId message.id understanding eventId := by
  rcases List.mem_append.mp h with h | h
  · rcases List.mem_cons.mp h with hw | h
    · exact .inl hw
    · exact .inr (.inl (List.mem_singleton.mp h))
  · exact .inr (.inr h)

end Writes

end MessageEvents

structure AnalysisJob where
  tenantId : Id
  sessionId : Id
  message : Message

def readAnalysisJob (db : Db) (payload : Dict) : Option AnalysisJob :=
  match payload.text "tenant_id", payload.text "session_id", payload.text "message_id" with
  | some tenantId, some sessionId, some messageId =>
    (MessageEvents.findMessage db tenantId sessionId messageId).map fun message => ⟨tenantId, sessionId, message⟩
  | _, _, _ => none

def processMessageCreatedEvent (py : Python) (settings : Settings) (db : Db) (cache : AICache) (payload : Dict)
    (calls : AnalysisCalls) (today : Day) (eventId : Id) : Work Unit × AICache :=
  match readAnalysisJob db payload with
  | none => (.answered (), cache)
  | some job =>
    let analysis :=
      AIOrchestrator.analyzeMessage py settings cache calls job.tenantId job.message.id job.message.content
    match analysis.understanding with
    | none => (.raised, analysis.cache)
    | some understanding =>
      (.commits (MessageEvents.storeAnalysis db job.tenantId job.sessionId job.message understanding today eventId),
        analysis.cache)

theorem readAnalysisJob_eq_some {db : Db} {payload : Dict} {job : AnalysisJob}
    (h : readAnalysisJob db payload = some job) :
    payload.text "tenant_id" = some job.tenantId ∧ payload.text "session_id" = some job.sessionId ∧
      payload.text "message_id" = some job.message.id ∧ job.message ∈ db.messages ∧
      job.message.tenantId = job.tenantId ∧ job.message.sessionId = job.sessionId := by
  unfold readAnalysisJob at h
  split at h
  · rename_i tenantId sessionId messageId ht hs hm
    obtain ⟨message, hmessage, rfl⟩ := Option.map_eq_some_iff.mp h
    obtain ⟨hget, hsession⟩ := Option.filter_eq_some_iff.mp hmessage
    obtain ⟨hmem, rfl, htenant⟩ := ofTenant_eq_some.mp hget
    exact ⟨ht, hs, hm, hmem, htenant, of_decide_eq_true hsession⟩
  · cases h

theorem processMessageCreatedEvent_cases (py : Python) (settings : Settings) (db : Db) (cache : AICache)
    (payload : Dict) (calls : AnalysisCalls) (today : Day) (eventId : Id) :
    processMessageCreatedEvent py settings db cache payload calls today eventId = (.answered (), cache) ∨
      (processMessageCreatedEvent py settings db cache payload calls today eventId).1 = .raised ∨
      ∃ job understanding, readAnalysisJob db payload = some job ∧
        (AIOrchestrator.analyzeMessage py settings cache calls job.tenantId job.message.id
          job.message.content).understanding = some understanding ∧
        (processMessageCreatedEvent py settings db cache payload calls today eventId).1 = .commits
          (MessageEvents.storeAnalysis db job.tenantId job.sessionId job.message understanding today eventId) := by
  unfold processMessageCreatedEvent
  cases hjob : readAnalysisJob db payload with
  | none => exact .inl rfl
  | some job =>
    dsimp only
    cases hunderstanding : (AIOrchestrator.analyzeMessage py settings cache calls job.tenantId job.message.id
        job.message.content).understanding with
    | none => exact .inr (.inl rfl)
    | some understanding => exact .inr (.inr ⟨job, understanding, rfl, hunderstanding, rfl⟩)

end Leadline
