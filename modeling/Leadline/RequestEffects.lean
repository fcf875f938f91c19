import Leadline.System

namespace Leadline

open Library

section Work

variable {α : Type}

def Work.HasEffect (p : List Write → List QueueJob → Prop) : Work α → Prop
  | commits c => c.before = [] ∧ p c.writes c.after
  | _ => True

variable {p : List Write → List QueueJob → Prop} {work : Work α}

theorem Work.hasEffect_map {β : Type} {f : α → β} : (work.map f).HasEffect p ↔ work.HasEffect p := by
  cases work <;> exact Iff.rfl

theorem Work.HasEffect.each {q : Write → Prop} (h : work.HasEffect p)
    (hq : ∀ writes after, p writes after → ∀ w ∈ writes, q w) : work.Each q := by
  cases work with
  | commits c => exact hq c.writes c.after h.2
  | _ => trivial

theorem Work.HasEffect.written (h : work.HasEffect p) (settings : Settings) (calls : Calls) :
    work.written settings calls = [] ∨ ∃ after, p (work.written settings calls) after := by
  rcases Work.written_or_nil settings calls work with hnone | ⟨c, rfl, hall⟩
  · exact .inl hnone
  · rw [hall]
    exact .inr ⟨c.after, h.2⟩

end Work

inductive Request.Effect (lower : String → String) (db : Db) (tenantId : Id) (inputs : Inputs) :
    Request → List Write → List QueueJob → Prop
  | createLead {payload : LeadCreate} {new : NewLead}
      (hlimit : PlanLimitService.enforceLeadCreationLimit db tenantId = .ok ())
      (hnew : LeadRepository.findDuplicateByEmailOrPhone db tenantId (payload.normalized lower).email
        (payload.normalized lower).phone inputs.choice = none)
      (hrows : LeadService.newLead db tenantId (inputs.newId 0) (inputs.newId 1) inputs.today
        (payload.normalized lower) = new) :
      Effect lower db tenantId inputs (.createLead payload)
        [.lead (.add new.lead), .timelineEvent (.add new.event), .usage new.usage]
        (lifecycleJobs tenantId new.lead.id "lead.created")
  | updateLead {leadId : Id} {payload : LeadUpdate} {lead updated : Lead}
      (hget : LeadRepository.get db tenantId leadId = some lead)
      (happly : (payload.normalized lower).apply lead = some updated) :
      Effect lower db tenantId inputs (.updateLead leadId payload) [.lead (.set updated)]
        (lifecycleJobs tenantId leadId "lead.updated")
  | deleteLead {leadId : Id} {lead : Lead} (hget : LeadRepository.get db tenantId leadId = some lead) :
      Effect lower db tenantId inputs (.deleteLead leadId) [.lead (.delete lead.id)] []
  | createTimelineEvent {leadId : Id} {payload : TimelineEventCreate} {lead : Lead}
      (hget : LeadRepository.get db tenantId leadId = some lead) :
      Effect lower db tenantId inputs (.createTimelineEvent leadId payload)
        [.timelineEvent (.add (LeadTimelineRepository.create (inputs.newId 0) tenantId leadId payload))]
        [timelineJob tenantId leadId (inputs.newId 0)]
  | updateTimelineEvent {eventId : Id} {payload : TimelineEventUpdate} {event updated : LeadTimelineEvent}
      (hget : LeadTimelineRepository.get db tenantId eventId = some event)
      (happly : payload.apply event = some updated) :
      Effect lower db tenantId inputs (.updateTimelineEvent eventId payload) [.timelineEvent (.set updated)] []
  | deleteTimelineEvent {eventId : Id} {event : LeadTimelineEvent}
      (hget : LeadTimelineRepository.get db tenantId eventId = some event) :
      Effect lower db tenantId inputs (.deleteTimelineEvent eventId) [.timelineEvent (.delete event.id)] []
  | attachSession {leadId sessionId : Id} {lead : Lead} {record : Session}
      (hlead : LeadRepository.get db tenantId leadId = some lead)
      (hget : SessionRepository.get db tenantId sessionId = some record) :
      Effect lower db tenantId inputs (.attachSession leadId sessionId)
        [.session (.set { record with leadId := some leadId })] []
  | createSession {payload : SessionCreate}
      (hlimit : PlanLimitService.enforceSessionCreationLimit db tenantId = .ok ())
      (hlead : ConversationService.LeadExists db payload.leadId) :
      Effect lower db tenantId inputs (.createSession payload)
        [.session (.add (SessionRepository.create (inputs.newId 0) tenantId payload)),
          .usage (UsageTrackingService.increment db tenantId inputs.today { sessionsCreated := 1 })] []
  | updateSession {sessionId : Id} {payload : SessionUpdate} {record : Session}
      (hget : SessionRepository.get db tenantId sessionId = some record)
      (hlead : ConversationService.LeadExists db payload.leadId.join) :
      Effect lower db tenantId inputs (.updateSession sessionId payload) [.session (.set (payload.apply record))] []
  | deleteSession {sessionId : Id} {record : Session}
      (hget : SessionRepository.get db tenantId sessionId = some record) :
      Effect lower db tenantId inputs (.deleteSession sessionId) [.session (.delete record.id)] []
  | createMessage {sessionId : Id} {payload : MessageCreate} {record : Session}
      (hlimit : PlanLimitService.enforceMessageCreationLimit db tenantId = .ok ())
      (hget : SessionRepository.get db tenantId sessionId = some record) :
      Effect lower db tenantId inputs (.createMessage sessionId payload)
        [.message (.add (MessageRepository.create (inputs.newId 0) tenantId sessionId payload))]
        [messageCreatedJob tenantId sessionId (inputs.newId 0)]
  | updateMessage {messageId : Id} {payload : MessageUpdate} {message updated : Message}
      (hget : MessageRepository.get db tenantId messageId = some message)
      (happly : payload.apply message = some updated) :
      Effect lower db tenantId inputs (.updateMessage messageId payload) [.message (.set updated)] []
  | deleteMessage {messageId : Id} {message : Message}
      (hget : MessageRepository.get db tenantId messageId = some message) :
      Effect lower db tenantId inputs (.deleteMessage messageId) [.message (.delete message.id)] []
  | createRule {payload : RoutingRuleCreate} :
      Effect lower db tenantId inputs (.createRule payload)
        [.routingRule (.add (RoutingRuleRepository.create (inputs.newId 0) tenantId payload))] []
  | updateRule {ruleId : Id} {payload : RoutingRuleUpdate} {record updated : RoutingRule}
      (hget : RoutingRuleRepository.get db tenantId ruleId = some record)
      (happly : payload.apply record = some updated) :
      Effect lower db tenantId inputs (.updateRule ruleId payload) [.routingRule (.set updated)] []
  | deleteRule {ruleId : Id} {record : RoutingRule}
      (hget : RoutingRuleRepository.get db tenantId ruleId = some record) :
      Effect lower db tenantId inputs (.deleteRule ruleId) [.routingRule (.delete record.id)] []
  | createSequence {payload : SequenceCreate} :
      Effect lower db tenantId inputs (.createSequence payload)
        [.sequence (.add (SequenceRepository.create (inputs.newId 0) tenantId payload))] []
  | updateSequence {sequenceId : Id} {payload : SequenceUpdate} {record updated : Sequence}
      (hget : SequenceRepository.get db tenantId sequenceId = some record)
      (happly : payload.apply record = some updated) :
      Effect lower db tenantId inputs (.updateSequence sequenceId payload) [.sequence (.set updated)] []
  | deleteSequence {sequenceId : Id} {record : Sequence}
      (hget : SequenceRepository.get db tenantId sequenceId = some record) :
      Effect lower db tenantId inputs (.deleteSequence sequenceId) [.sequence (.delete record.id)] []
  | createStep {sequenceId : Id} {payload : SequenceStepCreate} {record : Sequence}
      (hget : SequenceRepository.get db tenantId sequenceId = some record) :
      Effect lower db tenantId inputs (.createStep sequenceId payload)
        [.step (.add (SequenceStepRepository.create (inputs.newId 0) sequenceId payload))] []
  | updateStep {sequenceId stepId : Id} {payload : SequenceStepUpdate} {record updated : SequenceStep}
      (hfind : SequenceService.findStep db tenantId sequenceId stepId = some record)
      (happly : payload.apply record = some updated) :
      Effect lower db tenantId inputs (.updateStep sequenceId stepId payload) [.step (.set updated)] []
  | deleteStep {sequenceId stepId : Id} {record : SequenceStep}
      (hfind : SequenceService.findStep db tenantId sequenceId stepId = some record) :
      Effect lower db tenantId inputs (.deleteStep sequenceId stepId) [.step (.delete record.id)] []
  | enrollLead {sequenceId leadId : Id} {enrollment : SequenceEnrollment}
      (henroll : SequenceService.enroll db tenantId sequenceId leadId (inputs.newId 0) = some enrollment) :
      Effect lower db tenantId inputs (.enrollLead sequenceId leadId) [.enrollment (.add enrollment)]
        [stepJob tenantId enrollment.id]

theorem Request.work_hasEffect (lower : String → String) (db : Db) (tenantId : Id) (inputs : Inputs) (r : Request) :
    (r.work lower db tenantId inputs).HasEffect (Effect lower db tenantId inputs r) := by
  cases r with
  | createLead payload =>
    rw [work, Work.hasEffect_map]
    unfold LeadRequests.createLead
    split
    · trivial
    · rename_i hlimit
      dsimp only
      split
      · trivial
      · rename_i hnew
        exact ⟨rfl, .createLead hlimit hnew rfl⟩
  | updateLead leadId payload =>
    rw [work, Work.hasEffect_map]
    unfold LeadRequests.updateLead
    split
    · trivial
    · rename_i lead hget
      split
      · trivial
      · rename_i updated happly
        exact ⟨rfl, .updateLead hget happly⟩
  | deleteLead leadId =>
    rw [work, Work.hasEffect_map]
    unfold LeadRequests.deleteLead
    split
    · trivial
    · rename_i lead hget
      exact ⟨rfl, .deleteLead hget⟩
  | createTimelineEvent leadId payload =>
    rw [work, Work.hasEffect_map]
    unfold LeadRequests.createTimelineEvent
    split
    · trivial
    · rename_i lead hget
      exact ⟨rfl, .createTimelineEvent hget⟩
  | updateTimelineEvent eventId payload =>
    rw [work, Work.hasEffect_map]
    unfold LeadRequests.updateTimelineEvent
    split
    · trivial
    · rename_i event hget
      split
      · trivial
      · rename_i updated happly
        exact ⟨rfl, .updateTimelineEvent hget happly⟩
  | deleteTimelineEvent eventId =>
    rw [work, Work.hasEffect_map]
    unfold LeadRequests.deleteTimelineEvent
    split
    · trivial
    · rename_i event hget
      exact ⟨rfl, .deleteTimelineEvent hget⟩
  | attachSession leadId sessionId =>
    rw [work, Work.hasEffect_map]
    unfold ConversationService.attachSessionToLead
    split
    · trivial
    · rename_i lead hlead
      split
      · trivial
      · rename_i record hget
        exact ⟨rfl, .attachSession hlead hget⟩
  | createSession payload =>
    rw [work, Work.hasEffect_map]
    unfold ConversationService.createSession ConversationService.insertSession
    split
    · trivial
    · rename_i hlimit
      dsimp only
      split
      · rename_i hlead
        exact ⟨rfl, .createSession hlimit hlead⟩
      · trivial
  | updateSession sessionId payload =>
    rw [work, Work.hasEffect_map]
    unfold ConversationService.updateSession
    split
    · trivial
    · rename_i record hget
      dsimp only
      split
      · rename_i hlead
        exact ⟨rfl, .updateSession hget hlead⟩
      · trivial
  | deleteSession sessionId =>
    rw [work, Work.hasEffect_map]
    unfold ConversationService.deleteSession
    split
    · trivial
    · rename_i record hget
      exact ⟨rfl, .deleteSession hget⟩
  | createMessage sessionId payload =>
    rw [work, Work.hasEffect_map]
    unfold ConversationService.createMessage ConversationService.insertMessage
    split
    · trivial
    · rename_i hlimit
      split
      · trivial
      · rename_i record hget
        exact ⟨rfl, .createMessage hlimit hget⟩
  | updateMessage messageId payload =>
    rw [work, Work.hasEffect_map]
    unfold ConversationService.updateMessage
    split
    · trivial
    · rename_i message hget
      split
      · trivial
      · rename_i updated happly
        exact ⟨rfl, .updateMessage hget happly⟩
  | deleteMessage messageId =>
    rw [work, Work.hasEffect_map]
    unfold ConversationService.deleteMessage
    split
    · trivial
    · rename_i message hget
      exact ⟨rfl, .deleteMessage hget⟩
  | createRule payload => exact ⟨rfl, .createRule⟩
  | updateRule ruleId payload =>
    rw [work, Work.hasEffect_map]
    unfold RoutingService.updateRule
    split
    · trivial
    · rename_i record hget
      split
      · trivial
      · rename_i updated happly
        exact ⟨rfl, .updateRule hget happly⟩
  | deleteRule ruleId =>
    rw [work, Work.hasEffect_map]
    unfold RoutingService.deleteRule
    split
    · trivial
    · rename_i record hget
      exact ⟨rfl, .deleteRule hget⟩
  | createSequence payload => exact ⟨rfl, .createSequence⟩
  | updateSequence sequenceId payload =>
    rw [work, Work.hasEffect_map]
    unfold SequenceRequests.updateSequence
    split
    · trivial
    · rename_i record hget
      split
      · trivial
      · rename_i updated happly
        exact ⟨rfl, .updateSequence hget happly⟩
  | deleteSequence sequenceId =>
    rw [work, Work.hasEffect_map]
    unfold SequenceRequests.deleteSequence
    split
    · trivial
    · rename_i record hget
      exact ⟨rfl, .deleteSequence hget⟩
  | createStep sequenceId payload =>
    rw [work, Work.hasEffect_map]
    unfold SequenceRequests.createStep
    split
    · trivial
    · rename_i record hget
      exact ⟨rfl, .createStep hget⟩
  | updateStep sequenceId stepId payload =>
    rw [work, Work.hasEffect_map]
    unfold SequenceRequests.updateStep
    split
    · trivial
    · rename_i record hfind
      split
      · trivial
      · rename_i updated happly
        exact ⟨rfl, .updateStep hfind happly⟩
  | deleteStep sequenceId stepId =>
    rw [work, Work.hasEffect_map]
    unfold SequenceRequests.deleteStep
    split
    · trivial
    · rename_i record hfind
      exact ⟨rfl, .deleteStep hfind⟩
  | enrollLead sequenceId leadId =>
    rw [work, Work.hasEffect_map]
    unfold SequenceRequests.enrollLead
    split
    · trivial
    · rename_i enrollment henroll
      exact ⟨rfl, .enrollLead henroll⟩
  | _ =>
    -- What is left reads.
    rw [work, Work.hasEffect_map]
    simp only [LeadRequests.listLeads, LeadRequests.getLead, LeadRequests.listTimelineEvents,
      LeadRequests.getTimelineEvent, ConversationService.listSessions, ConversationService.getSession,
      ConversationService.listMessages, ConversationService.getMessage, RoutingService.listRules,
      RoutingService.getRule, SequenceRequests.listSequences, SequenceRequests.getSequence,
      SequenceRequests.listSteps]
    repeat' split
    all_goals trivial

def Work.EachJob {α : Type} (p : QueueJob → Prop) : Work α → Prop
  | commits c => (∀ job ∈ c.before, p job) ∧ ∀ job ∈ c.after, p job
  | _ => True

theorem Work.EachJob.imp {α : Type} {p q : QueueJob → Prop} {work : Work α} (h : work.EachJob p)
    (himp : ∀ job, p job → q job) : work.EachJob q := by
  cases work with
  | commits c => exact ⟨fun job hjob => himp job (h.1 job hjob), fun job hjob => himp job (h.2 job hjob)⟩
  | _ => trivial

inductive JobEvent.Writes (d : Deployment) (db : Db) (payload : Dict) (inputs : JobInputs) : JobEvent → Write → Prop
  | annotate {job : AnalysisJob} {understanding : MessageUnderstanding} (hjob : readAnalysisJob db payload = some job) :
      Writes d db payload inputs .messageCreated (.message (.set (MessageEvents.annotate understanding job.message)))
  | countAnalysis {job : AnalysisJob} {understanding : MessageUnderstanding}
      (hjob : readAnalysisJob db payload = some job) :
      Writes d db payload inputs .messageCreated (.usage (UsageTrackingService.increment db job.tenantId inputs.today
        (MessageEvents.analysisUsage understanding)))
  | score {job : AnalysisJob} {leadId : Id} {lead : Lead} {scores : LeadScoreResult}
      (hjob : readAnalysisJob db payload = some job)
      (hget : LeadRepository.get db job.tenantId leadId = some lead) :
      Writes d db payload inputs .messageCreated (.lead (.set (MessageEvents.applyScores scores lead)))
  | addScored {job : AnalysisJob} {leadId : Id} {lead : Lead} {understanding : MessageUnderstanding}
      {scores : LeadScoreResult} (hjob : readAnalysisJob db payload = some job)
      (hget : LeadRepository.get db job.tenantId leadId = some lead) :
      Writes d db payload inputs .messageCreated (.timelineEvent (.add
        (MessageEvents.scoredEvent (inputs.newId 0) job.tenantId job.message.id lead understanding scores)))
  | route {event : JobEvent} {tenantId leadId : Id} {lead : Lead} {decision : RoutingDecision}
      (htenant : payload.text "tenant_id" = some tenantId)
      (hget : LeadRepository.get db tenantId leadId = some lead) :
      Writes d db payload inputs event (.lead (.set (RoutingEngine.applyRoutingDecision d.py lead decision)))
  | addRouted {event : JobEvent} {tenantId leadId : Id} {lead : Lead} {decision : RoutingDecision}
      (htenant : payload.text "tenant_id" = some tenantId)
      (hget : LeadRepository.get db tenantId leadId = some lead) :
      Writes d db payload inputs event
        (.timelineEvent (.add (RoutingService.evaluatedEvent (inputs.newId 0) tenantId lead decision)))
  | enroll {tenantId leadId id : Id} {sequences : List Sequence} {sequence : Sequence}
      (hread : SequenceWorkers.readTriggerJob db payload = some (tenantId, leadId, sequences))
      (hsequence : sequence ∈ sequences) (hlead : ConversationService.LeadExists db (some leadId)) :
      Writes d db payload inputs .sequenceTrigger
        (.enrollment (.add (SequenceEnrollmentRepository.newEnrollment id tenantId leadId sequence.id)))
  | addEnrolled {tenantId leadId id eventId : Id} {sequences : List Sequence} {sequence : Sequence}
      (hread : SequenceWorkers.readTriggerJob db payload = some (tenantId, leadId, sequences))
      (hsequence : sequence ∈ sequences) (hlead : ConversationService.LeadExists db (some leadId)) :
      Writes d db payload inputs .sequenceTrigger (.timelineEvent (.add (SequenceWorkers.enrolledEvent eventId
        (SequenceEnrollmentRepository.newEnrollment id tenantId leadId sequence.id))))
  | complete {enrollment : SequenceEnrollment} (hread : readStepJob db payload = .finished enrollment) :
      Writes d db payload inputs .sequenceStepExecute (.enrollment (.set enrollment.complete))
  | countDelivery {work : StepWork} {added : Usage} (hread : readStepJob db payload = .execute work)
      (hadded : added = { emailsSent := 1 } ∨ added = { smsSent := 1 }) :
      Writes d db payload inputs .sequenceStepExecute
        (.usage (UsageTrackingService.increment db work.tenantId inputs.today added))
  | addExecuted {work : StepWork} (hread : readStepJob db payload = .execute work) :
      Writes d db payload inputs .sequenceStepExecute (.timelineEvent (.add (work.timelineEvent (inputs.newId 0))))
  | advance {work : StepWork} (hread : readStepJob db payload = .execute work) :
      Writes d db payload inputs .sequenceStepExecute (.enrollment (.set (work.advance work.enrollment)))
  | connect {event : JobEvent} {connection : IntegrationConnection}
      (htenant : payload.text "tenant_id" = some connection.tenantId) (hid : connection.id = inputs.newId 0) :
      Writes d db payload inputs event (.connection (.add connection))
  | reconnect {event : JobEvent} {old connection : IntegrationConnection}
      (htenant : payload.text "tenant_id" = some connection.tenantId) (hold : old ∈ db.integrationConnections)
      (hid : connection.id = old.id) (howner : old.tenantId = connection.tenantId) :
      Writes d db payload inputs event (.connection (.set connection))

inductive JobEvent.Publishes (db : Db) (payload : Dict) : QueueJob → Prop
  | step {tenantId enrollmentId : Id} (htenant : payload.text "tenant_id" = some tenantId) :
      Publishes db payload (stepJob tenantId enrollmentId)
  | score {found : AnalysisJob} {leadId : Id} {job : QueueJob} (hfound : readAnalysisJob db payload = some found)
      (hlead : MessageEvents.sessionLeadId db found.tenantId found.sessionId = some leadId)
      (hjob : job ∈ lifecycleJobs found.tenantId leadId "lead.score_updated") : Publishes db payload job

section Handlers

variable {d : Deployment} {db : Db} {payload : Dict} {inputs : JobInputs} {event : JobEvent}
  {cache : AICache}

theorem routing_writes : (processRoutingEvent d.py d.getattr db payload (inputs.newId 0)).Each
    (event.Writes d db payload inputs) := by
  rcases processRoutingEvent_cases d.py d.getattr db payload (inputs.newId 0) with
    hw | hw | ⟨tenantId, leadId, lead, decision, htenant, -, hget, hw⟩
  · rw [hw]
    trivial
  · rw [hw]
    trivial
  · rw [hw]
    intro w hmem
    rcases List.mem_cons.mp hmem with rfl | hmem
    · exact .route htenant hget
    · rw [List.mem_singleton.mp hmem]
      exact .addRouted htenant hget

theorem integration_writes : (JobEvent.handle.integration d db cache payload inputs).1.Each
    (event.Writes d db payload inputs) := by
  unfold JobEvent.handle.integration
  rcases processIntegrationEvent_cases d.encrypt db payload
      ⟨inputs.hubspot, inputs.slackRaises, inputs.svixRaises, inputs.newId 0, inputs.now⟩ with
    hw | hw | ⟨tenantId, writes, htenant, hwrites, hw⟩
  · rw [hw]
    trivial
  · rw [hw]
    trivial
  · rw [hw]
    intro w hmem
    rcases hwrites with rfl | hwrites
    · cases hmem
    · rcases IntegrationEvents.syncWrites_cases hwrites with
        rfl | ⟨c, hid, rfl, rfl⟩ | ⟨old, hold, c, hid, howner, rfl, rfl⟩
      · cases hmem
      · rw [List.mem_singleton.mp hmem]
        exact .connect htenant hid
      · rw [List.mem_singleton.mp hmem]
        exact .reconnect htenant hold hid howner

theorem message_writes : (JobEvent.messageCreated.handle d db cache payload inputs).1.Each
    (JobEvent.messageCreated.Writes d db payload inputs) := by
  rcases processMessageCreatedEvent_cases d.py d.settings db cache payload inputs.analysis inputs.today
      (inputs.newId 0) with hw | hw | ⟨job, understanding, hjob, -, hw⟩
  · rw [JobEvent.handle, hw]
    trivial
  · rw [JobEvent.handle, hw]
    trivial
  · rw [JobEvent.handle, hw]
    intro w hmem
    rcases MessageEvents.mem_storeAnalysis hmem with rfl | rfl | hmem
    · exact .annotate hjob
    · exact .countAnalysis hjob
    · obtain ⟨leadId, lead, scores, hget, rfl | rfl⟩ := MessageEvents.mem_scoreWrites hmem
      · exact .score hjob hget
      · exact .addScored hjob hget

theorem trigger_writes : (JobEvent.sequenceTrigger.handle d db cache payload inputs).1.Each
    (JobEvent.sequenceTrigger.Writes d db payload inputs) := by
  rcases SequenceTriggers.processSequenceTriggerEvent_cases db payload inputs.newId with
    hw | hw | ⟨tenantId, leadId, sequences, hread, hexists, hw⟩
  · rw [JobEvent.handle, hw]
    trivial
  · rw [JobEvent.handle, hw]
    trivial
  · rw [JobEvent.handle, hw]
    intro w hmem
    obtain ⟨sequence, hsequence, _, hadded⟩ := SequenceTriggers.mem_writes_madeBy hmem
    have hlead : ConversationService.LeadExists db (some leadId) :=
      hexists.resolve_left (List.ne_nil_of_mem hsequence)
    rcases hadded with rfl | rfl
    · exact .enroll hread hsequence hlead
    · exact .addEnrolled hread hsequence hlead

theorem step_writes : (JobEvent.sequenceStepExecute.handle d db cache payload inputs).1.Each
    (JobEvent.sequenceStepExecute.Writes d db payload inputs) := by
  rcases SequenceRequests.processSequenceStepEvent_cases d.settings db payload inputs.send inputs.today
      (inputs.newId 0) with hw | hw | ⟨e, hread, hw⟩ | ⟨work, token, hread, -, hw⟩
  · rw [JobEvent.handle, hw]
    trivial
  · rw [JobEvent.handle, hw]
    trivial
  · rw [JobEvent.handle, hw]
    intro w hmem
    rw [List.mem_singleton.mp hmem]
    exact .complete hread
  · rw [JobEvent.handle, hw]
    intro w hmem
    rcases SequenceRequests.mem_stepWrites hmem with ⟨change, hchange, rfl⟩ | rfl | rfl
    · cases token with
      | none => cases hchange
      | some token =>
        cases token with
        | email =>
          rw [← Option.some.inj hchange]
          exact .countDelivery hread (.inl rfl)
        | sms =>
          rw [← Option.some.inj hchange]
          exact .countDelivery hread (.inr rfl)
    · exact .addExecuted hread
    · exact .advance hread

theorem JobEvent.handle_writes (d : Deployment) (db : Db) (cache : AICache) (payload : Dict) (inputs : JobInputs)
    (event : JobEvent) : (event.handle d db cache payload inputs).1.Each (event.Writes d db payload inputs) := by
  cases event with
  | messageCreated => exact message_writes
  | leadCreated => exact routing_writes
  | leadUpdated => exact routing_writes
  | leadScoreUpdated => exact routing_writes
  | sequenceTrigger => exact trigger_writes
  | sequenceStepExecute => exact step_writes
  | integrationLeadCreated => exact integration_writes
  | integrationLeadUpdated => exact integration_writes
  | integrationLeadScoreUpdated => exact integration_writes
  | integrationTimelineCreated => exact integration_writes

theorem routing_publishes : (processRoutingEvent d.py d.getattr db payload (inputs.newId 0)).EachJob
    (JobEvent.Publishes db payload) := by
  rcases processRoutingEvent_cases d.py d.getattr db payload (inputs.newId 0) with
    hw | hw | ⟨tenantId, leadId, lead, decision, -, -, -, hw⟩
  · rw [hw]
    trivial
  · rw [hw]
    trivial
  · rw [hw]
    exact ⟨fun _ hjob => absurd hjob List.not_mem_nil, fun _ hjob => absurd hjob List.not_mem_nil⟩

theorem integration_publishes : (JobEvent.handle.integration d db cache payload inputs).1.EachJob
    (JobEvent.Publishes db payload) := by
  unfold JobEvent.handle.integration
  rcases processIntegrationEvent_cases d.encrypt db payload
      ⟨inputs.hubspot, inputs.slackRaises, inputs.svixRaises, inputs.newId 0, inputs.now⟩ with
    hw | hw | ⟨tenantId, writes, -, -, hw⟩
  · rw [hw]
    trivial
  · rw [hw]
    trivial
  · rw [hw]
    exact ⟨fun _ hjob => absurd hjob List.not_mem_nil, fun _ hjob => absurd hjob List.not_mem_nil⟩

theorem message_publishes : (JobEvent.messageCreated.handle d db cache payload inputs).1.EachJob
    (JobEvent.Publishes db payload) := by
  rcases processMessageCreatedEvent_cases d.py d.settings db cache payload inputs.analysis inputs.today
      (inputs.newId 0) with hw | hw | ⟨found, understanding, hfound, -, hw⟩
  · rw [JobEvent.handle, hw]
    trivial
  · rw [JobEvent.handle, hw]
    trivial
  · rw [JobEvent.handle, hw]
    refine ⟨fun _ hjob => absurd hjob List.not_mem_nil, fun job hjob => ?_⟩
    simp only [MessageEvents.storeAnalysis] at hjob
    cases hlead : MessageEvents.sessionLeadId db found.tenantId found.sessionId with
    | none =>
      rw [hlead] at hjob
      cases hjob
    | some leadId =>
      rw [hlead] at hjob
      exact .score hfound hlead hjob

theorem trigger_publishes : (JobEvent.sequenceTrigger.handle d db cache payload inputs).1.EachJob
    (JobEvent.Publishes db payload) := by
  rcases SequenceTriggers.processSequenceTriggerEvent_cases db payload inputs.newId with
    hw | hw | ⟨tenantId, leadId, sequences, hread, -, hw⟩
  · rw [JobEvent.handle, hw]
    trivial
  · rw [JobEvent.handle, hw]
    trivial
  · rw [JobEvent.handle, hw]
    obtain ⟨_, htenant, -⟩ := SequenceTriggers.readTriggerJob_reads hread
    refine ⟨fun job hjob => ?_, fun _ hjob => absurd hjob List.not_mem_nil⟩
    obtain ⟨made, -, rfl⟩ := List.mem_map.mp hjob
    exact .step htenant

theorem step_publishes : (JobEvent.sequenceStepExecute.handle d db cache payload inputs).1.EachJob
    (JobEvent.Publishes db payload) := by
  rcases SequenceRequests.processSequenceStepEvent_cases d.settings db payload inputs.send inputs.today
      (inputs.newId 0) with hw | hw | ⟨e, -, hw⟩ | ⟨work, token, -, hwork, hw⟩
  · rw [JobEvent.handle, hw]
    trivial
  · rw [JobEvent.handle, hw]
    trivial
  · rw [JobEvent.handle, hw]
    exact ⟨fun _ hjob => absurd hjob List.not_mem_nil, fun _ hjob => absurd hjob List.not_mem_nil⟩
  · rw [JobEvent.handle, hw]
    refine ⟨fun job hjob => ?_, fun _ hjob => absurd hjob List.not_mem_nil⟩
    cases hlast : work.isLast with
    | true =>
      simp only [hlast, if_true] at hjob
      cases hjob
    | false =>
      simp only [hlast, Bool.false_eq_true, if_false] at hjob
      rw [List.mem_singleton.mp hjob]
      exact .step hwork.tenant

theorem JobEvent.handle_publishes (d : Deployment) (db : Db) (cache : AICache) (payload : Dict) (inputs : JobInputs)
    (event : JobEvent) : (event.handle d db cache payload inputs).1.EachJob (Publishes db payload) := by
  cases event with
  | messageCreated => exact message_publishes
  | leadCreated => exact routing_publishes
  | leadUpdated => exact routing_publishes
  | leadScoreUpdated => exact routing_publishes
  | sequenceTrigger => exact trigger_publishes
  | sequenceStepExecute => exact step_publishes
  | integrationLeadCreated => exact integration_publishes
  | integrationLeadUpdated => exact integration_publishes
  | integrationLeadScoreUpdated => exact integration_publishes
  | integrationTimelineCreated => exact integration_publishes

end Handlers

end Leadline
