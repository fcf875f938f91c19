import Leadline.PlanLimits
import Leadline.SequencePipeline

namespace Leadline

open Library

/-- The characters `str.strip` takes away. -/
def isSpace (c : Char) : Bool :=
  let n := c.toNat
  9 ≤ n && n ≤ 13 || 28 ≤ n && n ≤ 32 || n = 0x85 || n = 0xa0 || n = 0x1680 || 0x2000 ≤ n && n ≤ 0x200a ||
    n = 0x2028 || n = 0x2029 || n = 0x202f || n = 0x205f || n = 0x3000

def strip (s : String) : String :=
  String.ofList ((s.toList.dropWhile isSpace).reverse.dropWhile isSpace).reverse

def normalizeEmail (lower : String → String) (email : Option String) : Option String :=
  (configured email).map fun email => lower (strip email)

def isPhoneChar (c : Char) : Bool := '0' ≤ c && c ≤ '9' || c = '+'

def normalizePhone (phone : Option String) : Option String :=
  configured ((configured phone).map fun phone => String.ofList (phone.toList.filter isPhoneChar))

structure LeadCreate where
  name : Option String := none
  email : Option String := none
  phone : Option String := none
  company : Option String := none
  role : Option String := none
  channel : Option String := none
  campaign : Option String := none
  utmSource : Option String := none
  utmMedium : Option String := none
  utmCampaign : Option String := none
  status : String := "new"
  stage : Option String := none
  leadScore : ℤ := 0
  fitScore : ℤ := 0
  engagementScore : ℤ := 0
  ownerUserId : Option Id := none
  assignedTeamId : Option Id := none
  assignedQueueName : Option String := none
  marketingOptIn : Bool := false
  allowedChannels : List String := []
  customFields : Dict := []

/-- `none` for a field that is not in the body, `some none` for a null. -/
structure LeadUpdate where
  name : Option (Option String) := none
  email : Option (Option String) := none
  phone : Option (Option String) := none
  company : Option (Option String) := none
  role : Option (Option String) := none
  channel : Option (Option String) := none
  campaign : Option (Option String) := none
  utmSource : Option (Option String) := none
  utmMedium : Option (Option String) := none
  utmCampaign : Option (Option String) := none
  status : Option (Option String) := none
  stage : Option (Option String) := none
  leadScore : Option (Option ℤ) := none
  fitScore : Option (Option ℤ) := none
  engagementScore : Option (Option ℤ) := none
  ownerUserId : Option (Option Id) := none
  assignedTeamId : Option (Option Id) := none
  assignedQueueName : Option (Option String) := none
  marketingOptIn : Option (Option Bool) := none
  allowedChannels : Option (Option (List String)) := none
  customFields : Option (Option Dict) := none

def LeadCreate.normalized (lower : String → String) (payload : LeadCreate) : LeadCreate :=
  { payload with email := normalizeEmail lower payload.email, phone := normalizePhone payload.phone }

def LeadUpdate.normalized (lower : String → String) (payload : LeadUpdate) : LeadUpdate :=
  { payload with
    email := payload.email.map (normalizeEmail lower), phone := payload.phone.map normalizePhone }

/-- The row after the update, or `none` where the flush fails on a null. -/
def LeadUpdate.apply (data : LeadUpdate) (lead : Lead) : Option Lead := do
  let status ← setColumn lead.status data.status
  let leadScore ← setColumn lead.leadScore data.leadScore
  let fitScore ← setColumn lead.fitScore data.fitScore
  let engagementScore ← setColumn lead.engagementScore data.engagementScore
  let marketingOptIn ← setColumn lead.marketingOptIn data.marketingOptIn
  pure { lead with
    name := data.name.getD lead.name
    email := data.email.getD lead.email
    phone := data.phone.getD lead.phone
    company := data.company.getD lead.company
    role := data.role.getD lead.role
    channel := data.channel.getD lead.channel
    campaign := data.campaign.getD lead.campaign
    utmSource := data.utmSource.getD lead.utmSource
    utmMedium := data.utmMedium.getD lead.utmMedium
    utmCampaign := data.utmCampaign.getD lead.utmCampaign
    status := status
    stage := data.stage.getD lead.stage
    leadScore := leadScore
    fitScore := fitScore
    engagementScore := engagementScore
    ownerUserId := data.ownerUserId.getD lead.ownerUserId
    assignedTeamId := data.assignedTeamId.getD lead.assignedTeamId
    assignedQueueName := data.assignedQueueName.getD lead.assignedQueueName
    marketingOptIn := marketingOptIn
    allowedChannels := data.allowedChannels.getD lead.allowedChannels
    customFields := data.customFields.getD lead.customFields }

theorem LeadUpdate.apply_eq_some {data : LeadUpdate} {lead updated : Lead}
    (h : data.apply lead = some updated) :
    updated.id = lead.id ∧ updated.tenantId = lead.tenantId ∧ updated.email = data.email.getD lead.email ∧
      updated.phone = data.phone.getD lead.phone := by
  simp only [apply, Option.bind_eq_bind, Option.bind_eq_some_iff, Option.pure_def, Option.some.injEq] at h
  obtain ⟨_, -, _, -, _, -, _, -, _, -, rfl⟩ := h
  exact ⟨rfl, rfl, rfl, rfl⟩

def MatchesColumn (value column : Option String) : Prop := configured value ≠ none ∧ column = value

instance (value column : Option String) : Decidable (MatchesColumn value column) :=
  inferInstanceAs (Decidable (_ ∧ _))

theorem matchesColumn_iff {value column : Option String} :
    MatchesColumn value column ↔ ∃ v, configured value = some v ∧ configured column = some v := by
  constructor
  · rintro ⟨hv, rfl⟩
    obtain ⟨v, hv⟩ := Option.ne_none_iff_exists'.mp hv
    exact ⟨v, hv, hv⟩
  · rintro ⟨v, hv, hc⟩
    refine ⟨by simp [hv], ?_⟩
    rw [(configured_eq_some.mp hv).1, (configured_eq_some.mp hc).1]

def Lead.Duplicates (l : Lead) (tenantId : Id) (email phone : Option String) : Prop :=
  l.tenantId = tenantId ∧ (MatchesColumn email l.email ∨ MatchesColumn phone l.phone)

instance (l : Lead) (tenantId : Id) (email phone : Option String) :
    Decidable (l.Duplicates tenantId email phone) :=
  inferInstanceAs (Decidable (_ ∧ _))

namespace LeadRepository

def create (id tenantId : Id) (data : LeadCreate) : Lead where
  id := id
  tenantId := tenantId
  name := data.name
  email := data.email
  phone := data.phone
  company := data.company
  role := data.role
  channel := data.channel
  campaign := data.campaign
  utmSource := data.utmSource
  utmMedium := data.utmMedium
  utmCampaign := data.utmCampaign
  status := data.status
  stage := data.stage
  leadScore := data.leadScore
  fitScore := data.fitScore
  engagementScore := data.engagementScore
  ownerUserId := data.ownerUserId
  assignedTeamId := data.assignedTeamId
  assignedQueueName := data.assignedQueueName
  marketingOptIn := data.marketingOptIn
  allowedChannels := some data.allowedChannels
  customFields := some data.customFields

def findDuplicateByEmailOrPhone (db : Db) (tenantId : Id) (email phone : Option String) (choice : ℕ) :
    Option Lead :=
  firstOf choice (db.leads.rows.filter (fun l => l.Duplicates tenantId email phone))

variable {db : Db} {tenantId : Id} {email phone : Option String} {choice : ℕ} {l : Lead}

theorem findDuplicate_eq_none :
    findDuplicateByEmailOrPhone db tenantId email phone choice = none ↔
      ∀ l ∈ db.leads, ¬l.Duplicates tenantId email phone := by
  rw [findDuplicateByEmailOrPhone, firstOf_eq_none, List.filter_eq_nil_iff]
  simp [Table.mem_def]

theorem findDuplicate_eq_some (h : findDuplicateByEmailOrPhone db tenantId email phone choice = some l) :
    l ∈ db.leads ∧ l.Duplicates tenantId email phone := by
  have hm := mem_of_firstOf h
  rw [List.mem_filter] at hm
  exact ⟨hm.1, of_decide_eq_true hm.2⟩

end LeadRepository

def routingJob (tenantId leadId : Id) (event : String) : QueueJob where
  queueName := "routing_jobs"
  payload := [("event", .str event), ("tenant_id", .str tenantId), ("lead_id", .str leadId)]

def integrationJob (tenantId leadId : Id) (event : String) : QueueJob where
  queueName := "integration_jobs"
  payload := [("event", .str ("integration." ++ event)), ("tenant_id", .str tenantId),
    ("lead_id", .str leadId)]

def triggerJob (tenantId leadId : Id) (trigger : String) : QueueJob where
  queueName := "sequence_jobs"
  payload := [("event", .str "sequence.trigger"), ("tenant_id", .str tenantId), ("lead_id", .str leadId),
    ("trigger", .str trigger)]

def triggerMap : List (String × String) :=
  [("lead.created", "lead_created"), ("lead.updated", "lead_updated"),
    ("lead.score_updated", "score_updated")]

def triggerOf (event : String) : String :=
  (triggerMap.lookup event).getD (String.ofList (event.toList.map fun c => if c = '.' then '_' else c))

/-- The three jobs of `_publish_lifecycle`, in its order. -/
def lifecycleJobs (tenantId leadId : Id) (event : String) : List QueueJob :=
  [routingJob tenantId leadId event, integrationJob tenantId leadId event,
    triggerJob tenantId leadId (triggerOf event)]

structure LifecycleCalls where
  routing : CallOutcome := .returns
  integration : CallOutcome := .returns
  sequence : CallOutcome := .returns

def LifecycleCalls.toList (calls : LifecycleCalls) : List CallOutcome :=
  [calls.routing, calls.integration, calls.sequence]

def publishLifecycle (settings : Settings) (tenantId leadId : Id) (event : String) (calls : LifecycleCalls) :
    SQSPublisher.Result × List SentMessage :=
  SQSPublisher.publishAll settings ((lifecycleJobs tenantId leadId event).zip calls.toList)

structure LeadCreateOutcome where
  deduplicated : Bool
  lead : Lead

inductive Answer (α : Type)
  | returned (a : α)
  | refused (e : HTTPException)
  | raised

def Answer.value {α : Type} : Answer α → Option α
  | returned a => some a
  | _ => none

structure Handled (α : Type) where
  answer : Answer α
  db : Db
  sent : List SentMessage := []

def leadNotFound : HTTPException := ⟨404, "lead not found"⟩

/-- What a write request meets outside of the program. A flush that fails counts as its commit. -/
structure WriteCalls where
  commit : CallOutcome := .returns
  lifecycle : LifecycleCalls := {}

structure CreateCalls extends WriteCalls where
  id : Id
  eventId : Id
  today : Day
  choice : ℕ := 0

structure NewLead where
  lead : Lead
  event : LeadTimelineEvent
  usage : UsageChange

def NewLead.commit (new : NewLead) (db : Db) : Db :=
  { db with
    leads := db.leads.insert new.lead
    timeline := db.timeline.insert new.event
    usage := new.usage.write db.usage }

namespace LeadService

def newLead (db : Db) (tenantId id eventId : Id) (today : Day) (data : LeadCreate) : NewLead where
  lead := LeadRepository.create id tenantId data
  event := ⟨eventId, tenantId, id, "lead_created", some [("source", .str "api")]⟩
  usage := UsageTrackingService.increment db tenantId today { leadsCreated := 1 }

def overwriteLead (updated stored : Lead) : Lead := { updated with id := stored.id }

theorem overwriteLead_id (updated stored : Lead) : (overwriteLead updated stored).id = stored.id := rfl

def writeLead (db : Db) (leadId : Id) (updated : Lead) : Db :=
  { db with leads := db.leads.modify leadId (overwriteLead updated) (overwriteLead_id updated) }

def commitAndPublish {α : Type} (settings : Settings) (db db' : Db) (tenantId leadId : Id) (event : String)
    (calls : WriteCalls) (value : α) : Handled α :=
  let after := if calls.commit.takesEffect then db' else db
  if calls.commit.raises then ⟨.raised, after, []⟩
  else
    match publishLifecycle settings tenantId leadId event calls.lifecycle with
    | (.raised, sent) => ⟨.raised, after, sent⟩
    | (_, sent) => ⟨.returned value, after, sent⟩

variable (lower : String → String) (settings : Settings) (db : Db) (tenantId : Id)

def createLead (payload : LeadCreate) (calls : CreateCalls) : Handled LeadCreateOutcome :=
  match PlanLimitService.enforceLeadCreationLimit db tenantId with
  | .error e => ⟨.refused e, db, []⟩
  | .ok _ =>
    let data := payload.normalized lower
    match LeadRepository.findDuplicateByEmailOrPhone db tenantId data.email data.phone calls.choice with
    | some existing => ⟨.returned ⟨true, existing⟩, db, []⟩
    | none =>
      let new := newLead db tenantId calls.id calls.eventId calls.today data
      commitAndPublish settings db (new.commit db) tenantId new.lead.id "lead.created" calls.toWriteCalls
        ⟨false, new.lead⟩

def updateLead (leadId : Id) (payload : LeadUpdate) (calls : WriteCalls) : Handled Lead :=
  match LeadRepository.get db tenantId leadId with
  | none => ⟨.refused leadNotFound, db, []⟩
  | some lead =>
    match (payload.normalized lower).apply lead with
    | none => ⟨.raised, db, []⟩
    | some updated =>
      commitAndPublish settings db (writeLead db leadId updated) tenantId leadId "lead.updated" calls updated

/-- `ON DELETE SET NULL` -/
def detachFrom (leadId : Id) (s : Session) : Session := { s with leadId := s.leadId.filter (· ≠ leadId) }

def removeLead (leadId : Id) : Db :=
  { db with
    leads := db.leads.erase leadId
    timeline := db.timeline.filter fun e => e.leadId ≠ leadId
    enrollments := db.enrollments.filter fun e => e.leadId ≠ leadId
    sessions := db.sessions.mapRows (detachFrom leadId) fun _ => rfl }

def deleteLead (leadId : Id) (commit : CallOutcome) : Handled Unit :=
  match LeadRepository.get db tenantId leadId with
  | none => ⟨.refused leadNotFound, db, []⟩
  | some _ =>
    let after := if commit.takesEffect then removeLead db leadId else db
    ⟨if commit.raises then .raised else .returned (), after, []⟩

variable {settings db tenantId}

theorem mem_writeLead {leadId : Id} {lead updated : Lead} (h : lead ∈ db.leads) (hlead : lead.id = leadId)
    (hid : updated.id = lead.id) : updated ∈ (writeLead db leadId updated).leads := by
  have hm := Table.mem_modify_self (overwriteLead_id updated) h hlead
  rw [overwriteLead, ← hid] at hm
  exact hm

theorem mem_writeLead_of_ne {leadId : Id} {b updated : Lead} (h : b ∈ db.leads) (hne : b.id ≠ leadId) :
    b ∈ (writeLead db leadId updated).leads :=
  (Table.mem_modify_of_ne (overwriteLead_id updated) hne).mpr h

theorem detachFrom_id (leadId : Id) (s : Session) : (detachFrom leadId s).id = s.id := rfl

theorem detachFrom_of_ne {leadId : Id} {s : Session} (h : s.leadId ≠ some leadId) : detachFrom leadId s = s := by
  have hlead : s.leadId.filter (· ≠ leadId) = s.leadId := by
    cases hs : s.leadId with
    | none => rfl
    | some l =>
      rw [hs] at h
      rw [Option.filter_some, if_pos]
      exact decide_eq_true fun he => h (congrArg some he)
  rw [detachFrom, hlead]

theorem sessions_removeLead (db : Db) (leadId : Id) :
    (removeLead db leadId).sessions = db.sessions.mapRows (detachFrom leadId) (detachFrom_id leadId) := rfl

theorem mem_sessions_removeLead {leadId : Id} {s : Session} :
    s ∈ (removeLead db leadId).sessions ↔ ∃ old ∈ db.sessions, s = detachFrom leadId old := by
  rw [sessions_removeLead]
  exact Table.mem_mapRows

theorem commitAndPublish_db {α : Type} {db' : Db} {leadId : Id} {event : String} {calls : WriteCalls}
    {value : α} : (commitAndPublish settings db db' tenantId leadId event calls value).db =
      if calls.commit.takesEffect then db' else db := by
  unfold commitAndPublish
  dsimp only
  split
  · rfl
  · split <;> rfl

theorem createLead_cases (lower : String → String) (settings : Settings) (db : Db) (tenantId : Id)
    (payload : LeadCreate) (calls : CreateCalls) :
    (∃ e, createLead lower settings db tenantId payload calls = ⟨.refused e, db, []⟩) ∨
      (∃ existing ∈ db.leads,
        existing.Duplicates tenantId (payload.normalized lower).email (payload.normalized lower).phone ∧
          createLead lower settings db tenantId payload calls = ⟨.returned ⟨true, existing⟩, db, []⟩) ∨
      ((∀ l ∈ db.leads,
          ¬l.Duplicates tenantId (payload.normalized lower).email (payload.normalized lower).phone) ∧
        ∃ new, new = newLead db tenantId calls.id calls.eventId calls.today (payload.normalized lower) ∧
          createLead lower settings db tenantId payload calls =
            commitAndPublish settings db (new.commit db) tenantId new.lead.id "lead.created"
              calls.toWriteCalls ⟨false, new.lead⟩) := by
  unfold createLead
  cases PlanLimitService.enforceLeadCreationLimit db tenantId with
  | error e => exact .inl ⟨e, rfl⟩
  | ok _ =>
    dsimp only
    cases hd : LeadRepository.findDuplicateByEmailOrPhone db tenantId (payload.normalized lower).email
        (payload.normalized lower).phone calls.choice with
    | some existing =>
      obtain ⟨hm, hdup⟩ := LeadRepository.findDuplicate_eq_some hd
      exact .inr (.inl ⟨existing, hm, hdup, rfl⟩)
    | none => exact .inr (.inr ⟨LeadRepository.findDuplicate_eq_none.mp hd, _, rfl, rfl⟩)

end LeadService

end Leadline
