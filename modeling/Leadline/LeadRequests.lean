import Leadline.Transactions

namespace Leadline

open Library

structure TimelineEventCreate where
  type : String
  payload : Dict := []

structure TimelineEventUpdate where
  type : Option (Option String) := none
  payload : Option (Option Dict) := none

def TimelineEventUpdate.apply (data : TimelineEventUpdate) (e : LeadTimelineEvent) : Option LeadTimelineEvent := do
  let type ← setColumn e.type data.type
  pure { e with type := type, payload := data.payload.getD e.payload }

theorem TimelineEventUpdate.apply_eq_some {data : TimelineEventUpdate} {e updated : LeadTimelineEvent}
    (h : data.apply e = some updated) :
    updated.id = e.id ∧ updated.tenantId = e.tenantId ∧ updated.leadId = e.leadId ∧
      updated.payload = data.payload.getD e.payload := by
  simp only [apply, Option.bind_eq_bind, Option.bind_eq_some_iff, Option.pure_def, Option.some.injEq] at h
  obtain ⟨_, -, rfl⟩ := h
  exact ⟨rfl, rfl, rfl, rfl⟩

namespace LeadTimelineRepository

def create (id tenantId leadId : Id) (data : TimelineEventCreate) : LeadTimelineEvent where
  id := id
  tenantId := tenantId
  leadId := leadId
  type := data.type
  payload := some data.payload

def get (db : Db) (tenantId eventId : Id) : Option LeadTimelineEvent :=
  ofTenant LeadTimelineEvent.tenantId db.timeline tenantId eventId

def listForLead (db : Db) (tenantId leadId : Id) : List LeadTimelineEvent :=
  (db.timeline.rows.filter fun e => e.tenantId = tenantId ∧ e.leadId = leadId).reverse

end LeadTimelineRepository

def LeadRepository.list (db : Db) (tenantId : Id) (status : Option String) : List Lead :=
  (db.leads.rows.filter fun l => l.tenantId = tenantId ∧ ∀ s ∈ configured status, l.status = s).reverse

def timelineEventNotFound : HTTPException := ⟨404, "timeline event not found"⟩

def timelineJob (tenantId leadId eventId : Id) : QueueJob where
  queueName := "integration_jobs"
  payload := [("event", .str "integration.timeline.created"), ("tenant_id", .str tenantId),
    ("lead_id", .str leadId), ("timeline_event_id", .str eventId)]

namespace LeadRequests

variable (lower : String → String) (db : Db) (tenantId : Id)

def createLead (payload : LeadCreate) (id eventId : Id) (today : Day) (choice : ℕ) : Work LeadCreateOutcome :=
  match PlanLimitService.enforceLeadCreationLimit db tenantId with
  | .error e => .refused e
  | .ok _ =>
    let data := payload.normalized lower
    match LeadRepository.findDuplicateByEmailOrPhone db tenantId data.email data.phone choice with
    | some existing => .answered ⟨true, existing⟩
    | none =>
      let new := LeadService.newLead db tenantId id eventId today data
      .commits
        { writes := [.lead (.add new.lead), .timelineEvent (.add new.event), .usage new.usage]
          value := ⟨false, new.lead⟩
          after := lifecycleJobs tenantId new.lead.id "lead.created" }

def listLeads (status : Option String) : Work (List Lead) := .answered (LeadRepository.list db tenantId status)

def getLead (leadId : Id) : Work Lead :=
  match LeadRepository.get db tenantId leadId with
  | none => .refused leadNotFound
  | some lead => .answered lead

def updateLead (leadId : Id) (payload : LeadUpdate) : Work Lead :=
  match LeadRepository.get db tenantId leadId with
  | none => .refused leadNotFound
  | some lead =>
    match (payload.normalized lower).apply lead with
    | none => .raised
    | some updated =>
      .commits
        { writes := [.lead (.set updated)], value := updated
          after := lifecycleJobs tenantId leadId "lead.updated" }

def deleteLead (leadId : Id) : Work Unit :=
  match LeadRepository.get db tenantId leadId with
  | none => .refused leadNotFound
  | some lead => .commits { writes := [.lead (.delete lead.id)], value := () }

def createTimelineEvent (leadId : Id) (payload : TimelineEventCreate) (id : Id) : Work LeadTimelineEvent :=
  match LeadRepository.get db tenantId leadId with
  | none => .refused leadNotFound
  | some _ =>
    let event := LeadTimelineRepository.create id tenantId leadId payload
    .commits
      { writes := [.timelineEvent (.add event)], value := event
        after := [timelineJob tenantId leadId event.id] }

def listTimelineEvents (leadId : Id) : Work (List LeadTimelineEvent) :=
  .answered (LeadTimelineRepository.listForLead db tenantId leadId)

def getTimelineEvent (eventId : Id) : Work LeadTimelineEvent :=
  match LeadTimelineRepository.get db tenantId eventId with
  | none => .refused timelineEventNotFound
  | some event => .answered event

def updateTimelineEvent (eventId : Id) (payload : TimelineEventUpdate) : Work LeadTimelineEvent :=
  match LeadTimelineRepository.get db tenantId eventId with
  | none => .refused timelineEventNotFound
  | some event =>
    match payload.apply event with
    | none => .raised
    | some updated => .commits { writes := [.timelineEvent (.set updated)], value := updated }

def deleteTimelineEvent (eventId : Id) : Work Unit :=
  match LeadTimelineRepository.get db tenantId eventId with
  | none => .refused timelineEventNotFound
  | some event => .commits { writes := [.timelineEvent (.delete event.id)], value := () }

end LeadRequests

def Outcome.handled {α : Type} (settings : Settings) (o : Outcome α) : Handled α :=
  ⟨o.answer, o.db, o.jobs.filterMap (SQSPublisher.message settings)⟩

namespace LeadRequests

def callsOf (calls : WriteCalls) : Calls := { commit := calls.commit, after := calls.lifecycle.toList }

variable {settings : Settings} {db db' : Db} {tenantId leadId : Id}

theorem commitAndPublish_eq {α : Type} {event : String} {calls : WriteCalls} {value : α} {writes : List Write}
    (hdb : db' = db.writeAll writes) :
    LeadService.commitAndPublish settings db db' tenantId leadId event calls value =
      ((Work.commits
        { writes := writes, value := value, after := lifecycleJobs tenantId leadId event }).run settings db
          (callsOf calls)).handled settings := by
  subst hdb
  have hsend := SQSPublisher.publishAll_zip settings
    (show (lifecycleJobs tenantId leadId event).length = calls.lifecycle.toList.length from rfl)
  simp only [LeadService.commitAndPublish, publishLifecycle, hsend, Work.run, SQSPublisher.deliver, callsOf]
  by_cases hraises : calls.commit.raises
  · simp [hraises, Outcome.handled]
    rfl
  · rcases SQSPublisher.deliver settings (lifecycleJobs tenantId leadId event) calls.lifecycle.toList with
      ⟨raised, sent⟩
    cases raised with
    | true =>
      simp [hraises, Outcome.handled]
      rfl
    | false =>
      simp [hraises, Outcome.handled]
      rfl

theorem createLead_eq (lower : String → String) (payload : LeadCreate) (calls : CreateCalls) :
    LeadService.createLead lower settings db tenantId payload calls =
      ((createLead lower db tenantId payload calls.id calls.eventId calls.today calls.choice).run settings db
        (callsOf calls.toWriteCalls)).handled settings := by
  unfold LeadService.createLead createLead
  cases PlanLimitService.enforceLeadCreationLimit db tenantId with
  | error e => rfl
  | ok _ =>
    dsimp only
    cases LeadRepository.findDuplicateByEmailOrPhone db tenantId (payload.normalized lower).email
        (payload.normalized lower).phone calls.choice with
    | some existing => rfl
    | none =>
      apply commitAndPublish_eq
      rfl

theorem writeLead_eq {updated : Lead} (hid : updated.id = leadId) :
    LeadService.writeLead db leadId updated = db.write (.lead (.set updated)) := by
  subst hid
  have hrows : (db.leads.modify updated.id (LeadService.overwriteLead updated)
      (LeadService.overwriteLead_id updated)) = db.leads.put updated := by
    apply Table.ext_rows
    apply List.map_congr_left
    intro l _
    split
    · rename_i h
      rw [LeadService.overwriteLead, h]
    · rfl
  rw [LeadService.writeLead, hrows]
  rfl

theorem updateLead_eq (lower : String → String) (payload : LeadUpdate) (calls : WriteCalls) :
    LeadService.updateLead lower settings db tenantId leadId payload calls =
      ((updateLead lower db tenantId leadId payload).run settings db (callsOf calls)).handled settings := by
  unfold LeadService.updateLead updateLead
  cases hget : LeadRepository.get db tenantId leadId with
  | none => rfl
  | some lead =>
    dsimp only
    cases happly : (payload.normalized lower).apply lead with
    | none => rfl
    | some updated =>
      have hid : updated.id = leadId := by
        rw [(LeadUpdate.apply_eq_some happly).1]
        exact (ofTenant_eq_some.mp hget).2.1
      apply commitAndPublish_eq
      exact writeLead_eq hid

theorem deleteLead_eq (commit : CallOutcome) :
    LeadService.deleteLead db tenantId leadId commit =
      ((deleteLead db tenantId leadId).run settings db { commit := commit }).handled settings := by
  unfold LeadService.deleteLead deleteLead
  cases hget : LeadRepository.get db tenantId leadId with
  | none => rfl
  | some lead =>
    obtain ⟨-, hid, -⟩ := ofTenant_eq_some.mp hget
    cases commit with
    | returns => simp [Work.run, SQSPublisher.deliver, CallOutcome.raises, CallOutcome.takesEffect,
        Outcome.handled, Db.writeAll, Db.write, hid]
    | raisesAfterEffect => simp [Work.run, SQSPublisher.deliver, CallOutcome.raises, CallOutcome.takesEffect,
        Outcome.handled, Db.writeAll, Db.write, hid]
    | raisesWithoutEffect => simp [Work.run, SQSPublisher.deliver, CallOutcome.raises, CallOutcome.takesEffect,
        Outcome.handled]

end LeadRequests

end Leadline
