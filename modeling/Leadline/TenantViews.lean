import Leadline.TenantReferences

namespace Leadline

open Library Table

namespace TenantViews

structure Agree (tenantId : Id) (db db' : Db) : Prop where
  tenant : db.tenants.find? tenantId = db'.tenants.find? tenantId
  leads : db.leads.view Lead.tenantId tenantId = db'.leads.view Lead.tenantId tenantId
  timeline : db.timeline.view LeadTimelineEvent.tenantId tenantId =
    db'.timeline.view LeadTimelineEvent.tenantId tenantId
  sessions : db.sessions.view Session.tenantId tenantId = db'.sessions.view Session.tenantId tenantId
  messages : db.messages.view Message.tenantId tenantId = db'.messages.view Message.tenantId tenantId
  routingRules : db.routingRules.view RoutingRule.tenantId tenantId =
    db'.routingRules.view RoutingRule.tenantId tenantId
  sequences : db.sequences.view Sequence.tenantId tenantId = db'.sequences.view Sequence.tenantId tenantId
  steps : ∀ sequenceId, TenantWrites.OwnsSequence db tenantId sequenceId →
    db.steps.view SequenceStep.sequenceId sequenceId = db'.steps.view SequenceStep.sequenceId sequenceId
  enrollments : db.enrollments.view SequenceEnrollment.tenantId tenantId =
    db'.enrollments.view SequenceEnrollment.tenantId tenantId
  connections : db.integrationConnections.view IntegrationConnection.tenantId tenantId =
    db'.integrationConnections.view IntegrationConnection.tenantId tenantId
  usage : db.usage.view UsageRecord.tenantId tenantId = db'.usage.view UsageRecord.tenantId tenantId

theorem Agree.refl (tenantId : Id) (db : Db) : Agree tenantId db db where
  tenant := rfl
  leads := rfl
  timeline := rfl
  sessions := rfl
  messages := rfl
  routingRules := rfl
  sequences := rfl
  steps _ _ := rfl
  enrollments := rfl
  connections := rfl
  usage := rfl

variable {tenantId : Id} {db db' db'' : Db}

theorem Agree.symm (h : Agree tenantId db db') : Agree tenantId db' db where
  tenant := h.tenant.symm
  leads := h.leads.symm
  timeline := h.timeline.symm
  sessions := h.sessions.symm
  messages := h.messages.symm
  routingRules := h.routingRules.symm
  sequences := h.sequences.symm
  steps k hk := (h.steps k ((owns_congr h.sequences).mpr hk)).symm
  enrollments := h.enrollments.symm
  connections := h.connections.symm
  usage := h.usage.symm

theorem Agree.trans (h : Agree tenantId db db') (h' : Agree tenantId db' db'') : Agree tenantId db db'' where
  tenant := h.tenant.trans h'.tenant
  leads := h.leads.trans h'.leads
  timeline := h.timeline.trans h'.timeline
  sessions := h.sessions.trans h'.sessions
  messages := h.messages.trans h'.messages
  routingRules := h.routingRules.trans h'.routingRules
  sequences := h.sequences.trans h'.sequences
  steps k hk := (h.steps k hk).trans (h'.steps k ((owns_congr h.sequences).mp hk))
  enrollments := h.enrollments.trans h'.enrollments
  connections := h.connections.trans h'.connections
  usage := h.usage.trans h'.usage

theorem ofTenant_congr {α : Type} {key owner : α → Id} {t t' : Table key} (id : Id)
    (h : t.view owner tenantId = t'.view owner tenantId) :
    ofTenant owner t tenantId id = ofTenant owner t' tenantId id := by
  unfold ofTenant
  rw [filter_find?, filter_find?, h]

namespace Agree

variable (h : Agree tenantId db db')

include h

theorem lead (id : Id) : LeadRepository.get db tenantId id = LeadRepository.get db' tenantId id :=
  ofTenant_congr id h.leads

theorem timelineEvent (id : Id) :
    LeadTimelineRepository.get db tenantId id = LeadTimelineRepository.get db' tenantId id :=
  ofTenant_congr id h.timeline

theorem session (id : Id) : SessionRepository.get db tenantId id = SessionRepository.get db' tenantId id :=
  ofTenant_congr id h.sessions

theorem message (id : Id) : MessageRepository.get db tenantId id = MessageRepository.get db' tenantId id :=
  ofTenant_congr id h.messages

theorem routingRule (id : Id) :
    RoutingRuleRepository.get db tenantId id = RoutingRuleRepository.get db' tenantId id :=
  ofTenant_congr id h.routingRules

theorem sequence (id : Id) : SequenceRepository.get db tenantId id = SequenceRepository.get db' tenantId id :=
  ofTenant_congr id h.sequences

theorem enrollment (id : Id) :
    SequenceEnrollmentRepository.get db tenantId id = SequenceEnrollmentRepository.get db' tenantId id :=
  ofTenant_congr id h.enrollments

theorem planLimits : PlanLimitService.getPlanLimits db tenantId = PlanLimitService.getPlanLimits db' tenantId := by
  unfold PlanLimitService.getPlanLimits
  rw [h.tenant]

theorem leadLimit :
    PlanLimitService.enforceLeadCreationLimit db tenantId = PlanLimitService.enforceLeadCreationLimit db' tenantId := by
  unfold PlanLimitService.enforceLeadCreationLimit
  rw [countP_rows, countP_rows, h.leads, h.planLimits]

theorem sessionLimit : PlanLimitService.enforceSessionCreationLimit db tenantId =
    PlanLimitService.enforceSessionCreationLimit db' tenantId := by
  unfold PlanLimitService.enforceSessionCreationLimit
  rw [countP_rows, countP_rows, h.sessions, h.planLimits]

theorem messageLimit : PlanLimitService.enforceMessageCreationLimit db tenantId =
    PlanLimitService.enforceMessageCreationLimit db' tenantId := by
  unfold PlanLimitService.enforceMessageCreationLimit
  rw [countP_rows, countP_rows, h.messages, h.planLimits]

theorem duplicate (email phone : Option String) (choice : ℕ) :
    LeadRepository.findDuplicateByEmailOrPhone db tenantId email phone choice =
      LeadRepository.findDuplicateByEmailOrPhone db' tenantId email phone choice := by
  unfold LeadRepository.findDuplicateByEmailOrPhone
  rw [filter_congr (fun l hl => (of_decide_eq_true hl).1) h.leads]

theorem increment (today : Day) (added : Usage) :
    UsageTrackingService.increment db tenantId today added =
      UsageTrackingService.increment db' tenantId today added := by
  have hfind : db.usage.find? (tenantId, today) = db'.usage.find? (tenantId, today) :=
    find?_congr (fun _ hr => (Prod.mk.inj hr).1) h.usage
  unfold UsageTrackingService.increment
  rw [hfind]

theorem leadList (status : Option String) :
    LeadRepository.list db tenantId status = LeadRepository.list db' tenantId status := by
  unfold LeadRepository.list
  rw [filter_congr (fun l hl => (of_decide_eq_true hl).1) h.leads]

theorem timelineList (leadId : Id) :
    LeadTimelineRepository.listForLead db tenantId leadId = LeadTimelineRepository.listForLead db' tenantId leadId := by
  unfold LeadTimelineRepository.listForLead
  rw [filter_congr (fun e he => (of_decide_eq_true he).1) h.timeline]

theorem sessionList : SessionRepository.list db tenantId = SessionRepository.list db' tenantId := by
  unfold SessionRepository.list
  rw [filter_congr (fun s hs => of_decide_eq_true hs) h.sessions]

theorem messageList (sessionId : Id) :
    MessageRepository.listForSession db tenantId sessionId = MessageRepository.listForSession db' tenantId sessionId :=
  filter_congr (fun _ hm => (of_decide_eq_true hm).1) h.messages

theorem ruleList : RoutingRuleRepository.listRules db tenantId = RoutingRuleRepository.listRules db' tenantId := by
  unfold RoutingRuleRepository.listRules
  rw [filter_congr (fun r hr => of_decide_eq_true hr) h.routingRules]

theorem enabledRules :
    RoutingRuleRepository.listEnabledRules db tenantId = RoutingRuleRepository.listEnabledRules db' tenantId := by
  unfold RoutingRuleRepository.listEnabledRules
  rw [filter_congr (fun r hr => (of_decide_eq_true hr).1) h.routingRules]

theorem sequenceList :
    SequenceRepository.listSequences db tenantId = SequenceRepository.listSequences db' tenantId := by
  unfold SequenceRepository.listSequences
  rw [filter_congr (fun s hs => of_decide_eq_true hs) h.sequences]

theorem activeSequences (trigger : String) :
    SequenceRepository.listActiveSequencesByTrigger db tenantId trigger =
      SequenceRepository.listActiveSequencesByTrigger db' tenantId trigger :=
  filter_congr (fun _ hs => (of_decide_eq_true hs).1) h.sequences

theorem stepList {sequenceId : Id} (hown : TenantWrites.OwnsSequence db tenantId sequenceId) :
    SequenceStepRepository.listForSequence db sequenceId = SequenceStepRepository.listForSequence db' sequenceId := by
  unfold SequenceStepRepository.listForSequence
  rw [filter_congr (fun s hs => of_decide_eq_true hs) (h.steps sequenceId hown)]

theorem step (sequenceId stepId : Id) :
    SequenceService.findStep db tenantId sequenceId stepId =
      SequenceService.findStep db' tenantId sequenceId stepId := by
  unfold SequenceService.findStep
  rw [h.sequence]
  cases hget : SequenceRepository.get db' tenantId sequenceId with
  | none => rfl
  | some sequence =>
    rw [← h.sequence] at hget
    rw [Option.bind_some, Option.bind_some]
    exact ofTenant_congr stepId (h.steps sequenceId (TenantReferences.owns_of_get hget))

theorem connection (type : String) :
    IntegrationConnectionRepository.getByType db.integrationConnections tenantId type =
      IntegrationConnectionRepository.getByType db'.integrationConnections tenantId type := by
  unfold IntegrationConnectionRepository.getByType
  rw [filter_congr (fun c hc => (of_decide_eq_true hc).1) h.connections]

theorem newLead (id eventId : Id) (today : Day) (data : LeadCreate) :
    LeadService.newLead db tenantId id eventId today data = LeadService.newLead db' tenantId id eventId today data := by
  unfold LeadService.newLead
  rw [h.increment]

theorem enroll (sequenceId leadId id : Id) :
    SequenceService.enroll db tenantId sequenceId leadId id =
      SequenceService.enroll db' tenantId sequenceId leadId id := by
  unfold SequenceService.enroll
  rw [h.sequence, h.lead]

theorem leadExists {leadId : Option Id} (hown : ¬TenantReferences.Foreign db tenantId leadId)
    (hown' : ¬TenantReferences.Foreign db' tenantId leadId) :
    ConversationService.LeadExists db leadId ↔ ConversationService.LeadExists db' leadId := by
  have hthere : ∀ {db : Db} {x : Id}, TenantWrites.OwnsLead db tenantId x → (db.leads.find? x).isSome := by
    rintro db _ ⟨l, hl, rfl, -⟩
    rw [find?_eq_some_iff.mpr ⟨hl, rfl⟩]
    rfl
  constructor
  · intro hexists x hx
    exact hthere ((owns_congr h.leads).mp (TenantReferences.ownsLead_of_exists hexists hown x hx))
  · intro hexists x hx
    exact hthere ((owns_congr h.leads).mpr (TenantReferences.ownsLead_of_exists hexists hown' x hx))

end Agree

open TenantReferences

theorem createSession_congr {payload : SessionCreate} {id : Id} {today : Day} (h : Agree tenantId db db')
    (hown : ¬TakesForeignLead db tenantId (.createSession payload))
    (hown' : ¬TakesForeignLead db' tenantId (.createSession payload)) :
    ConversationService.createSession db tenantId payload id today =
      ConversationService.createSession db' tenantId payload id today := by
  unfold ConversationService.createSession
  cases hlimit : PlanLimitService.enforceSessionCreationLimit db tenantId with
  | error e =>
    rw [h.sessionLimit] at hlimit
    rw [hlimit]
  | ok _ =>
    have hlead : ¬Foreign db tenantId payload.leadId := fun hforeign => hown ⟨hlimit, hforeign⟩
    rw [h.sessionLimit] at hlimit
    have hlead' : ¬Foreign db' tenantId payload.leadId := fun hforeign => hown' ⟨hlimit, hforeign⟩
    have hexists := h.leadExists hlead hlead'
    rw [hlimit]
    simp only [ConversationService.insertSession, h.increment, hexists]

theorem updateSession_congr {payload : SessionUpdate} {sessionId : Id} (h : Agree tenantId db db')
    (hown : ¬TakesForeignLead db tenantId (.updateSession sessionId payload))
    (hown' : ¬TakesForeignLead db' tenantId (.updateSession sessionId payload)) :
    ConversationService.updateSession db tenantId sessionId payload =
      ConversationService.updateSession db' tenantId sessionId payload := by
  unfold ConversationService.updateSession
  cases hget : SessionRepository.get db tenantId sessionId with
  | none =>
    rw [h.session] at hget
    rw [hget]
  | some record =>
    have hlead : ¬Foreign db tenantId payload.leadId.join :=
      fun hforeign => hown ⟨by rw [hget]; rfl, hforeign⟩
    rw [h.session] at hget
    have hlead' : ¬Foreign db' tenantId payload.leadId.join :=
      fun hforeign => hown' ⟨by rw [hget]; rfl, hforeign⟩
    have hexists := h.leadExists hlead hlead'
    rw [hget]
    simp only [hexists]

theorem request_congr (lower : String → String) (inputs : Inputs) {r : Request} (h : Agree tenantId db db')
    (hown : ¬TakesForeignLead db tenantId r) (hown' : ¬TakesForeignLead db' tenantId r) :
    r.work lower db tenantId inputs = r.work lower db' tenantId inputs := by
  cases r with
  | createSession payload => simp only [Request.work, createSession_congr h hown hown']
  | updateSession sessionId payload => simp only [Request.work, updateSession_congr h hown hown']
  | listSteps sequenceId =>
    simp only [Request.work, SequenceRequests.listSteps]
    cases hget : SequenceRepository.get db tenantId sequenceId with
    | none =>
      rw [h.sequence] at hget
      rw [hget]
    | some sequence =>
      have hsteps := h.stepList (owns_of_get hget)
      rw [h.sequence] at hget
      rw [hget, hsteps]
  | _ =>
    simp only [Request.work, LeadRequests.createLead, LeadRequests.listLeads, LeadRequests.getLead,
      LeadRequests.updateLead, LeadRequests.deleteLead, LeadRequests.createTimelineEvent,
      LeadRequests.listTimelineEvents, LeadRequests.getTimelineEvent, LeadRequests.updateTimelineEvent,
      LeadRequests.deleteTimelineEvent, ConversationService.attachSessionToLead,
      ConversationService.listSessions, ConversationService.getSession, ConversationService.deleteSession,
      ConversationService.createMessage, ConversationService.insertMessage, ConversationService.listMessages,
      ConversationService.getMessage, ConversationService.updateMessage, ConversationService.deleteMessage,
      RoutingService.createRule, RoutingService.listRules, RoutingService.getRule, RoutingService.updateRule,
      RoutingService.deleteRule, SequenceRequests.createSequence, SequenceRequests.listSequences,
      SequenceRequests.getSequence, SequenceRequests.updateSequence, SequenceRequests.deleteSequence,
      SequenceRequests.createStep, SequenceRequests.updateStep, SequenceRequests.deleteStep,
      SequenceRequests.enrollLead, h.leadLimit, h.messageLimit, h.duplicate, h.newLead, h.lead, h.leadList,
      h.timelineEvent, h.timelineList, h.session, h.sessionList, h.message, h.messageList, h.routingRule,
      h.ruleList, h.sequence, h.sequenceList, h.step, h.enroll]

theorem text_tenant {payload : Dict} (htenant : payload.str? "tenant_id" = some tenantId) :
    payload.text "tenant_id" = none ∨ payload.text "tenant_id" = some tenantId := by
  cases ht : payload.text "tenant_id" with
  | none => exact .inl rfl
  | some t =>
    rw [Dict.eq_of_text htenant ht]
    exact .inr rfl

def CachesAgree (tenantId : Id) (cache cache' : AICache) : Prop :=
  ∀ key : CacheKey, key.tenantId = tenantId → cache key = cache' key

variable {cache cache' : AICache} {payload : Dict}

theorem analyzeMessage_congr (py : Python) (settings : Settings) (calls : AnalysisCalls) (messageId : Id)
    (content : String) (hcache : CachesAgree tenantId cache cache') :
    (AIOrchestrator.analyzeMessage py settings cache calls tenantId messageId content).understanding =
        (AIOrchestrator.analyzeMessage py settings cache' calls tenantId messageId content).understanding ∧
      CachesAgree tenantId (AIOrchestrator.analyzeMessage py settings cache calls tenantId messageId content).cache
        (AIOrchestrator.analyzeMessage py settings cache' calls tenantId messageId content).cache := by
  have hcached : AIOrchestrator.cached cache calls (AIOrchestrator.cacheKey settings tenantId messageId content) =
      AIOrchestrator.cached cache' calls (AIOrchestrator.cacheKey settings tenantId messageId content) := by
    unfold AIOrchestrator.cached
    rw [hcache _ rfl]
  unfold AIOrchestrator.analyzeMessage
  dsimp only
  rw [hcached]
  cases AIOrchestrator.cached cache' calls (AIOrchestrator.cacheKey settings tenantId messageId content) with
  | some raw => exact ⟨rfl, hcache⟩
  | none =>
    refine ⟨rfl, fun key hkey => ?_⟩
    dsimp only
    split
    · simp only [Function.update_apply, hcache key hkey]
    · exact hcache key hkey

theorem analyzeMessage_other (py : Python) (settings : Settings) (calls : AnalysisCalls) (messageId : Id)
    (content : String) {key : CacheKey} (hne : key.tenantId ≠ tenantId) :
    (AIOrchestrator.analyzeMessage py settings cache calls tenantId messageId content).cache key = cache key := by
  have hkey : key ≠ AIOrchestrator.cacheKey settings tenantId messageId content := by
    rintro rfl
    exact hne rfl
  unfold AIOrchestrator.analyzeMessage
  dsimp only
  cases AIOrchestrator.cached cache calls (AIOrchestrator.cacheKey settings tenantId messageId content) with
  | some raw => rfl
  | none =>
    dsimp only
    split
    · rw [Function.update_apply, if_neg hkey]
    · rfl

theorem storeAnalysis_congr {sessionId eventId : Id} {message : Message} {understanding : MessageUnderstanding}
    {today : Day} (h : Agree tenantId db db') :
    MessageEvents.storeAnalysis db tenantId sessionId message understanding today eventId =
      MessageEvents.storeAnalysis db' tenantId sessionId message understanding today eventId := by
  have hlead : MessageEvents.sessionLeadId db tenantId sessionId = MessageEvents.sessionLeadId db' tenantId sessionId := by
    unfold MessageEvents.sessionLeadId
    rw [h.session]
  have hget : LeadRepository.get db tenantId = LeadRepository.get db' tenantId := funext h.lead
  have hscores : MessageEvents.scoreWrites db tenantId sessionId message.id understanding eventId =
      MessageEvents.scoreWrites db' tenantId sessionId message.id understanding eventId := by
    unfold MessageEvents.scoreWrites
    rw [hlead, hget, h.messageList]
  unfold MessageEvents.storeAnalysis
  rw [hlead, hscores, h.increment]

theorem messageCreated_congr (py : Python) (settings : Settings) (calls : AnalysisCalls) (today : Day) (eventId : Id)
    (h : Agree tenantId db db') (hcache : CachesAgree tenantId cache cache')
    (htenant : payload.str? "tenant_id" = some tenantId) :
    (processMessageCreatedEvent py settings db cache payload calls today eventId).1 =
        (processMessageCreatedEvent py settings db' cache' payload calls today eventId).1 ∧
      CachesAgree tenantId (processMessageCreatedEvent py settings db cache payload calls today eventId).2
        (processMessageCreatedEvent py settings db' cache' payload calls today eventId).2 := by
  have hread : readAnalysisJob db payload = readAnalysisJob db' payload := by
    unfold readAnalysisJob
    rcases text_tenant htenant with ht | ht
    · rw [ht]
    · rw [ht]
      cases payload.text "session_id" with
      | none => rfl
      | some sessionId =>
        cases payload.text "message_id" with
        | none => rfl
        | some messageId => simp only [MessageEvents.findMessage, h.message]
  unfold processMessageCreatedEvent
  rw [hread]
  cases hjob : readAnalysisJob db' payload with
  | none => exact ⟨rfl, hcache⟩
  | some job =>
    obtain ⟨ht, -⟩ := readAnalysisJob_eq_some hjob
    obtain rfl := Dict.eq_of_text htenant ht
    obtain ⟨hunderstanding, hagree⟩ :=
      analyzeMessage_congr py settings calls job.message.id job.message.content hcache
    dsimp only
    rw [hunderstanding]
    cases (AIOrchestrator.analyzeMessage py settings cache' calls job.tenantId job.message.id
        job.message.content).understanding with
    | none => exact ⟨rfl, hagree⟩
    | some understanding =>
      refine ⟨?_, hagree⟩
      dsimp only
      rw [storeAnalysis_congr h]

theorem routing_congr (py : Python) (getattr : Lead → String → Option FieldValue) (eventId : Id)
    (h : Agree tenantId db db') (htenant : payload.str? "tenant_id" = some tenantId) :
    processRoutingEvent py getattr db payload eventId = processRoutingEvent py getattr db' payload eventId := by
  unfold processRoutingEvent
  rcases text_tenant htenant with ht | ht
  · rw [ht]
  · rw [ht]
    cases payload.text "lead_id" with
    | none => rfl
    | some leadId => simp only [RoutingService.evaluateAndApply, h.lead, h.enabledRules]

theorem trigger_congr (newId : ℕ → Id) (h : Agree tenantId db db')
    (htenant : payload.str? "tenant_id" = some tenantId)
    (hlead : ∀ leadId ∈ payload.str? "lead_id", ¬Foreign db tenantId (some leadId) ∧ ¬Foreign db' tenantId (some leadId)) :
    SequenceTriggers.processSequenceTriggerEvent db payload newId =
      SequenceTriggers.processSequenceTriggerEvent db' payload newId := by
  unfold SequenceTriggers.processSequenceTriggerEvent SequenceWorkers.readTriggerJob
  rcases text_tenant htenant with ht | ht
  · rw [ht]
  · rw [ht]
    cases hl : payload.text "lead_id" with
    | none => rfl
    | some leadId =>
      cases payload.text "trigger" with
      | none => rfl
      | some trigger =>
        obtain ⟨hown, hown'⟩ := hlead leadId (Dict.text_eq_some.mp hl).1
        simp only [h.activeSequences, h.leadExists hown hown']

theorem readStepJob_congr (h : Agree tenantId db db') (htenant : payload.str? "tenant_id" = some tenantId) :
    readStepJob db payload = readStepJob db' payload := by
  unfold readStepJob
  rcases text_tenant htenant with ht | ht
  · rw [ht]
  · rw [ht]
    cases payload.text "enrollment_id" with
    | none => rfl
    | some enrollmentId =>
      dsimp only
      rw [h.enrollment]
      cases SequenceEnrollmentRepository.get db' tenantId enrollmentId with
      | none => rfl
      | some enrollment =>
        dsimp only
        rw [h.lead]
        cases hget : SequenceRepository.get db tenantId enrollment.sequenceId with
        | none =>
          rw [h.sequence] at hget
          rw [hget]
        | some sequence =>
          have hsteps := h.stepList (owns_row_of_get hget)
          rw [h.sequence] at hget
          rw [hget]
          dsimp only
          rw [hsteps]

theorem step_congr (settings : Settings) (send : CallOutcome) (today : Day) (eventId : Id)
    (h : Agree tenantId db db') (htenant : payload.str? "tenant_id" = some tenantId) :
    SequenceRequests.processSequenceStepEvent settings db payload send today eventId =
      SequenceRequests.processSequenceStepEvent settings db' payload send today eventId := by
  unfold SequenceRequests.processSequenceStepEvent
  rw [readStepJob_congr h htenant]
  rcases readStepJob_cases db' payload with hread | ⟨e, hread, -⟩ | ⟨work, hread, hwork⟩
  · rw [hread]
  · rw [hread]
  · rw [hread]
    obtain rfl := Dict.eq_of_text htenant hwork.tenant
    have husage : ∀ token, work.recordUsage db today token = work.recordUsage db' today token := by
      intro token
      cases token with
      | none => rfl
      | some token => cases token <;> simp only [StepWork.recordUsage, h.increment]
    simp only [husage]

theorem integration_congr (encrypt : Dict → Dict) (calls : IntegrationCalls) (h : Agree tenantId db db')
    (htenant : payload.str? "tenant_id" = some tenantId) :
    processIntegrationEvent encrypt db payload calls = processIntegrationEvent encrypt db' payload calls := by
  unfold processIntegrationEvent
  cases payload.text "event" with
  | none => rfl
  | some event =>
    rcases text_tenant htenant with ht | ht
    · rw [ht]
    · rw [ht]
      cases payload.text "lead_id" with
      | none => rfl
      | some leadId =>
        simp only [h.lead, IntegrationEvents.leadWork, IntegrationEvents.syncWrites,
          IntegrationEvents.connectionWrite, h.connection]

theorem job_congr (d : Deployment) (inputs : JobInputs) (h : Agree tenantId db db')
    (hcache : CachesAgree tenantId cache cache') (htenant : payload.str? "tenant_id" = some tenantId)
    (hlead : ∀ leadId ∈ payload.str? "lead_id", ¬Foreign db tenantId (some leadId) ∧ ¬Foreign db' tenantId (some leadId))
    (event : JobEvent) :
    (event.handle d db cache payload inputs).1 = (event.handle d db' cache' payload inputs).1 ∧
      CachesAgree tenantId (event.handle d db cache payload inputs).2 (event.handle d db' cache' payload inputs).2 := by
  have hrouting := routing_congr d.py d.getattr (inputs.newId 0) h htenant
  have hintegration := integration_congr d.encrypt
    ⟨inputs.hubspot, inputs.slackRaises, inputs.svixRaises, inputs.newId 0, inputs.now⟩ h htenant
  cases event with
  | messageCreated =>
    exact messageCreated_congr d.py d.settings inputs.analysis inputs.today (inputs.newId 0) h hcache htenant
  | leadCreated => exact ⟨hrouting, hcache⟩
  | leadUpdated => exact ⟨hrouting, hcache⟩
  | leadScoreUpdated => exact ⟨hrouting, hcache⟩
  | sequenceTrigger => exact ⟨trigger_congr inputs.newId h htenant hlead, hcache⟩
  | sequenceStepExecute =>
    exact ⟨step_congr d.settings inputs.send inputs.today (inputs.newId 0) h htenant, hcache⟩
  | integrationLeadCreated => exact ⟨hintegration, hcache⟩
  | integrationLeadUpdated => exact ⟨hintegration, hcache⟩
  | integrationLeadScoreUpdated => exact ⟨hintegration, hcache⟩
  | integrationTimelineCreated => exact ⟨hintegration, hcache⟩

theorem cache_other (d : Deployment) (inputs : JobInputs) (htenant : payload.str? "tenant_id" = some tenantId)
    (event : JobEvent) {key : CacheKey} (hne : key.tenantId ≠ tenantId) :
    (event.handle d db cache payload inputs).2 key = cache key := by
  cases event with
  | messageCreated =>
    unfold JobEvent.handle processMessageCreatedEvent
    cases hjob : readAnalysisJob db payload with
    | none => rfl
    | some job =>
      obtain ⟨ht, -⟩ := readAnalysisJob_eq_some hjob
      obtain rfl := Dict.eq_of_text htenant ht
      dsimp only
      split
      · exact analyzeMessage_other d.py d.settings inputs.analysis job.message.id job.message.content hne
      · exact analyzeMessage_other d.py d.settings inputs.analysis job.message.id job.message.content hne
  | _ => rfl

end TenantViews

end Leadline
