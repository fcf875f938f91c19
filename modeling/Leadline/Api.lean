import Leadline.Conversations
import Leadline.LeadRequests
import Leadline.Routing
import Leadline.SequenceRequests

/-!
The endpoints with their response schemas. A response shows the columns of a row and refuses a
null where the schema has none.
-/

namespace Leadline

open Library

def Lead.Renders (l : Lead) : Prop := l.allowedChannels.isSome ∧ l.customFields.isSome

instance (l : Lead) : Decidable l.Renders := inferInstanceAs (Decidable (_ ∧ _))

def LeadTimelineEvent.Renders (e : LeadTimelineEvent) : Prop := e.payload.isSome

instance (e : LeadTimelineEvent) : Decidable e.Renders := inferInstanceAs (Decidable (_ = true))

def Session.Renders (s : Session) : Prop := s.sessionMetadata.isSome

instance (s : Session) : Decidable s.Renders := inferInstanceAs (Decidable (_ = true))

def Message.Renders (m : Message) : Prop := m.entities.isSome ∧ m.topics.isSome

instance (m : Message) : Decidable m.Renders := inferInstanceAs (Decidable (_ ∧ _))

def RoutingRule.Renders (r : RoutingRule) : Prop := r.conditions.isSome ∧ r.actionPayload.isSome

instance (r : RoutingRule) : Decidable r.Renders := inferInstanceAs (Decidable (_ ∧ _))

abbrev LeadResponse := { l : Lead // l.Renders }

abbrev TimelineEventResponse := { e : LeadTimelineEvent // e.Renders }

abbrev SessionResponse := { s : Session // s.Renders }

abbrev MessageResponse := { m : Message // m.Renders }

abbrev RoutingRuleResponse := { r : RoutingRule // r.Renders }

abbrev SequenceResponse := Sequence

abbrev SequenceStepResponse := SequenceStep

abbrev SequenceEnrollmentResponse := SequenceEnrollment

/-- `model_validate`, or `none` where it raises. -/
def modelValidate {α : Type} (p : α → Prop) [DecidablePred p] (row : α) : Option { a : α // p a } :=
  if h : p row then some ⟨row, h⟩ else none

def modelValidateAll {α : Type} (p : α → Prop) [DecidablePred p] : List α → Option (List { a : α // p a })
  | [] => some []
  | row :: rows => do
    let first ← modelValidate p row
    let rest ← modelValidateAll p rows
    pure (first :: rest)

inductive Reply
  | leadCreated (deduplicated : Bool) (lead : LeadResponse)
  | lead (lead : LeadResponse)
  | leads (leads : List LeadResponse)
  | timelineEvent (event : TimelineEventResponse)
  | timelineEvents (events : List TimelineEventResponse)
  | attached (sessionId leadId : Id)
  | session (session : SessionResponse)
  | sessions (sessions : List SessionResponse)
  | message (message : MessageResponse)
  | messages (messages : List MessageResponse)
  | rule (rule : RoutingRuleResponse)
  | rules (rules : List RoutingRuleResponse)
  | sequence (sequence : SequenceResponse)
  | sequences (sequences : List SequenceResponse)
  | step (step : SequenceStepResponse)
  | steps (steps : List SequenceStepResponse)
  | enrollment (enrollment : SequenceEnrollmentResponse)
  | noContent

inductive Request
  | createLead (payload : LeadCreate)
  | listLeads (status : Option String)
  | getLead (leadId : Id)
  | updateLead (leadId : Id) (payload : LeadUpdate)
  | deleteLead (leadId : Id)
  | createTimelineEvent (leadId : Id) (payload : TimelineEventCreate)
  | listTimelineEvents (leadId : Id)
  | getTimelineEvent (eventId : Id)
  | updateTimelineEvent (eventId : Id) (payload : TimelineEventUpdate)
  | deleteTimelineEvent (eventId : Id)
  | attachSession (leadId sessionId : Id)
  | createSession (payload : SessionCreate)
  | listSessions
  | getSession (sessionId : Id)
  | updateSession (sessionId : Id) (payload : SessionUpdate)
  | deleteSession (sessionId : Id)
  | createMessage (sessionId : Id) (payload : MessageCreate)
  | listMessages (sessionId : Id)
  | getMessage (messageId : Id)
  | updateMessage (messageId : Id) (payload : MessageUpdate)
  | deleteMessage (messageId : Id)
  | createRule (payload : RoutingRuleCreate)
  | listRules
  | getRule (ruleId : Id)
  | updateRule (ruleId : Id) (payload : RoutingRuleUpdate)
  | deleteRule (ruleId : Id)
  | createSequence (payload : SequenceCreate)
  | listSequences
  | getSequence (sequenceId : Id)
  | updateSequence (sequenceId : Id) (payload : SequenceUpdate)
  | deleteSequence (sequenceId : Id)
  | createStep (sequenceId : Id) (payload : SequenceStepCreate)
  | listSteps (sequenceId : Id)
  | updateStep (sequenceId stepId : Id) (payload : SequenceStepUpdate)
  | deleteStep (sequenceId stepId : Id)
  | enrollLead (sequenceId leadId : Id)

structure Inputs where
  newId : ℕ → Id
  today : Day
  choice : ℕ := 0
  calls : Calls := {}

/-- The transaction of an endpoint; `none` in place of a reply that its schema refuses. -/
def Request.work (lower : String → String) (db : Db) (tenantId : Id) (inputs : Inputs) :
    Request → Work (Option Reply)
  | createLead payload =>
    (LeadRequests.createLead lower db tenantId payload (inputs.newId 0) (inputs.newId 1) inputs.today
      inputs.choice).map fun outcome =>
        (modelValidate Lead.Renders outcome.lead).map (.leadCreated outcome.deduplicated)
  | listLeads status =>
    (LeadRequests.listLeads db tenantId status).map fun rows =>
      (modelValidateAll Lead.Renders rows).map .leads
  | getLead leadId =>
    (LeadRequests.getLead db tenantId leadId).map fun row => (modelValidate Lead.Renders row).map .lead
  | updateLead leadId payload =>
    (LeadRequests.updateLead lower db tenantId leadId payload).map fun row =>
      (modelValidate Lead.Renders row).map .lead
  | deleteLead leadId => (LeadRequests.deleteLead db tenantId leadId).map fun _ => some .noContent
  | createTimelineEvent leadId payload =>
    (LeadRequests.createTimelineEvent db tenantId leadId payload (inputs.newId 0)).map fun row =>
      (modelValidate LeadTimelineEvent.Renders row).map .timelineEvent
  | listTimelineEvents leadId =>
    (LeadRequests.listTimelineEvents db tenantId leadId).map fun rows =>
      (modelValidateAll LeadTimelineEvent.Renders rows).map .timelineEvents
  | getTimelineEvent eventId =>
    (LeadRequests.getTimelineEvent db tenantId eventId).map fun row =>
      (modelValidate LeadTimelineEvent.Renders row).map .timelineEvent
  | updateTimelineEvent eventId payload =>
    (LeadRequests.updateTimelineEvent db tenantId eventId payload).map fun row =>
      (modelValidate LeadTimelineEvent.Renders row).map .timelineEvent
  | deleteTimelineEvent eventId =>
    (LeadRequests.deleteTimelineEvent db tenantId eventId).map fun _ => some .noContent
  | attachSession leadId sessionId =>
    (ConversationService.attachSessionToLead db tenantId leadId sessionId).map fun record =>
      some (.attached record.id leadId)
  | createSession payload =>
    (ConversationService.createSession db tenantId payload (inputs.newId 0) inputs.today).map fun row =>
      (modelValidate Session.Renders row).map .session
  | listSessions =>
    (ConversationService.listSessions db tenantId).map fun rows =>
      (modelValidateAll Session.Renders rows).map .sessions
  | getSession sessionId =>
    (ConversationService.getSession db tenantId sessionId).map fun row =>
      (modelValidate Session.Renders row).map .session
  | updateSession sessionId payload =>
    (ConversationService.updateSession db tenantId sessionId payload).map fun row =>
      (modelValidate Session.Renders row).map .session
  | deleteSession sessionId => (ConversationService.deleteSession db tenantId sessionId).map fun _ => some .noContent
  | createMessage sessionId payload =>
    (ConversationService.createMessage db tenantId sessionId payload (inputs.newId 0)).map fun row =>
      (modelValidate Message.Renders row).map .message
  | listMessages sessionId =>
    (ConversationService.listMessages db tenantId sessionId).map fun rows =>
      (modelValidateAll Message.Renders rows).map .messages
  | getMessage messageId =>
    (ConversationService.getMessage db tenantId messageId).map fun row =>
      (modelValidate Message.Renders row).map .message
  | updateMessage messageId payload =>
    (ConversationService.updateMessage db tenantId messageId payload).map fun row =>
      (modelValidate Message.Renders row).map .message
  | deleteMessage messageId => (ConversationService.deleteMessage db tenantId messageId).map fun _ => some .noContent
  | createRule payload =>
    (RoutingService.createRule tenantId payload (inputs.newId 0)).map fun row =>
      (modelValidate RoutingRule.Renders row).map .rule
  | listRules =>
    (RoutingService.listRules db tenantId).map fun rows =>
      (modelValidateAll RoutingRule.Renders rows).map .rules
  | getRule ruleId =>
    (RoutingService.getRule db tenantId ruleId).map fun row => (modelValidate RoutingRule.Renders row).map .rule
  | updateRule ruleId payload =>
    (RoutingService.updateRule db tenantId ruleId payload).map fun row =>
      (modelValidate RoutingRule.Renders row).map .rule
  | deleteRule ruleId => (RoutingService.deleteRule db tenantId ruleId).map fun _ => some .noContent
  | createSequence payload =>
    (SequenceRequests.createSequence tenantId payload (inputs.newId 0)).map fun row => some (.sequence row)
  | listSequences => (SequenceRequests.listSequences db tenantId).map fun rows => some (.sequences rows)
  | getSequence sequenceId =>
    (SequenceRequests.getSequence db tenantId sequenceId).map fun row => some (.sequence row)
  | updateSequence sequenceId payload =>
    (SequenceRequests.updateSequence db tenantId sequenceId payload).map fun row => some (.sequence row)
  | deleteSequence sequenceId => (SequenceRequests.deleteSequence db tenantId sequenceId).map fun _ => some .noContent
  | createStep sequenceId payload =>
    (SequenceRequests.createStep db tenantId sequenceId payload (inputs.newId 0)).map fun row => some (.step row)
  | listSteps sequenceId => (SequenceRequests.listSteps db tenantId sequenceId).map fun rows => some (.steps rows)
  | updateStep sequenceId stepId payload =>
    (SequenceRequests.updateStep db tenantId sequenceId stepId payload).map fun row => some (.step row)
  | deleteStep sequenceId stepId =>
    (SequenceRequests.deleteStep db tenantId sequenceId stepId).map fun _ => some .noContent
  | enrollLead sequenceId leadId =>
    (SequenceRequests.enrollLead db tenantId sequenceId leadId (inputs.newId 0)).map fun row =>
      some (.enrollment row)

theorem modelValidate_isSome {α : Type} {p : α → Prop} [DecidablePred p] {row : α} :
    (modelValidate p row).isSome ↔ p row := by
  unfold modelValidate
  split
  · simpa
  · simpa

theorem modelValidateAll_isSome {α : Type} {p : α → Prop} [DecidablePred p] {rows : List α}
    (h : ∀ row ∈ rows, p row) : (modelValidateAll p rows).isSome := by
  induction rows with
  | nil => rfl
  | cons row rows ih =>
    have hfirst : modelValidate p row = some ⟨row, h row List.mem_cons_self⟩ := dif_pos (h row List.mem_cons_self)
    obtain ⟨rest, hrest⟩ := Option.isSome_iff_exists.mp (ih fun r hr => h r (List.mem_cons_of_mem row hr))
    simp [modelValidateAll, hfirst, hrest]

end Leadline
