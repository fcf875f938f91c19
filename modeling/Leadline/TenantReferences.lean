import Leadline.Library.GuardedRun
import Leadline.RequestEffects
import Leadline.TenantWrites

namespace Leadline

open Library Table

namespace TenantReferences

open TenantWrites

structure References (db : Db) : Prop where
  sessionLead : RefersWithin Session.tenantId Session.leadId db.sessions Lead.tenantId db.leads
  eventLead :
    RefersWithin LeadTimelineEvent.tenantId (fun e => some e.leadId) db.timeline Lead.tenantId db.leads
  enrollmentLead :
    RefersWithin SequenceEnrollment.tenantId (fun e => some e.leadId) db.enrollments Lead.tenantId db.leads
  enrollmentSequence :
    RefersWithin SequenceEnrollment.tenantId (fun e => some e.sequenceId) db.enrollments Sequence.tenantId
      db.sequences
  messageSession :
    RefersWithin Message.tenantId (fun m => some m.sessionId) db.messages Session.tenantId db.sessions

variable {db db' : Db} {tenantId : Id} {w : Write}

theorem refs_of_mem {p : Id → Prop} {k : Id} (h : p k) : ∀ x ∈ some k, p x := by
  intro x hx
  rwa [← Option.some.inj hx]

theorem References.removeLead (h : References db) (leadId : Id) : References (LeadService.removeLead db leadId) where
  sessionLead := by
    intro s hs k hk
    obtain ⟨old, hold, rfl⟩ := LeadService.mem_sessions_removeLead.mp hs
    obtain ⟨hlead, hne⟩ := Option.filter_eq_some_iff.mp hk
    exact (h.sessionLead old hold k hlead).erase (of_decide_eq_true hne)
  eventLead := h.eventLead.cascade fun e _ hp => by simpa using hp
  enrollmentLead := h.enrollmentLead.cascade fun e _ hp => by simpa using hp
  enrollmentSequence := h.enrollmentSequence.filter
  messageSession := by
    apply h.messageSession.retarget
    intro m _ k _ hown
    rw [LeadService.sessions_removeLead]
    exact hown.mapRows fun _ => rfl

theorem References.write (h : References db) (hw : Within db tenantId w) : References (db.write w) := by
  cases w with
  | lead w =>
    cases w with
    | add row =>
      have hkeep := (Within.keeps hw trivial).leads
      exact { h with
        sessionLead := h.sessionLead.retarget fun _ _ _ _ => hkeep _ _
        eventLead := h.eventLead.retarget fun _ _ _ _ => hkeep _ _
        enrollmentLead := h.enrollmentLead.retarget fun _ _ _ _ => hkeep _ _ }
    | set row =>
      have hkeep := (Within.keeps hw trivial).leads
      exact { h with
        sessionLead := h.sessionLead.retarget fun _ _ _ _ => hkeep _ _
        eventLead := h.eventLead.retarget fun _ _ _ _ => hkeep _ _
        enrollmentLead := h.enrollmentLead.retarget fun _ _ _ _ => hkeep _ _ }
    | delete id => exact h.removeLead id
  | timelineEvent w =>
    exact { h with eventLead := RowWithin.refers hw (fun _ _ hr => refs_of_mem hr) h.eventLead }
  | session w =>
    have hrefers := RowWithin.refers hw (fun _ _ hr => hr) h.sessionLead
    cases w with
    | add row =>
      have hkeep := (Within.keeps hw trivial).sessions
      exact { h with
        sessionLead := hrefers, messageSession := h.messageSession.retarget fun _ _ _ _ => hkeep _ _ }
    | set row =>
      have hkeep := (Within.keeps hw trivial).sessions
      exact { h with
        sessionLead := hrefers, messageSession := h.messageSession.retarget fun _ _ _ _ => hkeep _ _ }
    | delete id =>
      exact { h with
        sessionLead := hrefers, messageSession := h.messageSession.cascade fun m _ hp => by simpa using hp }
  | message w =>
    exact { h with messageSession := RowWithin.refers hw (fun _ _ hr => refs_of_mem hr) h.messageSession }
  | routingRule w => exact { h with }
  | sequence w =>
    cases w with
    | add row =>
      have hkeep := (Within.keeps hw trivial).sequences
      exact { h with enrollmentSequence := h.enrollmentSequence.retarget fun _ _ _ _ => hkeep _ _ }
    | set row =>
      have hkeep := (Within.keeps hw trivial).sequences
      exact { h with enrollmentSequence := h.enrollmentSequence.retarget fun _ _ _ _ => hkeep _ _ }
    | delete id =>
      exact { h with
        enrollmentLead := h.enrollmentLead.filter
        enrollmentSequence := h.enrollmentSequence.cascade fun e _ hp => by simpa using hp }
  | step w => exact { h with }
  | enrollment w =>
    exact { h with
      enrollmentLead := RowWithin.refers hw (fun _ _ hr => refs_of_mem hr.1) h.enrollmentLead
      enrollmentSequence := RowWithin.refers hw (fun _ _ hr => refs_of_mem hr.2) h.enrollmentSequence }
  | connection w => exact { h with }
  | usage change => exact { h with }

theorem References.writeAll {writes : List Write} (h : References db) (hw : WritesWithin tenantId db writes) :
    References (db.writeAll writes) :=
  hw.invariant References (fun _ _ _ hdb hwithin => hdb.write hwithin) h

structure Known (db : Db) (ids : List Id) : Prop where
  leads : ∀ l ∈ db.leads, l.id ∈ ids
  timeline : ∀ e ∈ db.timeline, e.id ∈ ids
  sessions : ∀ s ∈ db.sessions, s.id ∈ ids
  messages : ∀ m ∈ db.messages, m.id ∈ ids
  routingRules : ∀ r ∈ db.routingRules, r.id ∈ ids
  sequences : ∀ s ∈ db.sequences, s.id ∈ ids
  steps : ∀ s ∈ db.steps, s.id ∈ ids ∧ s.sequenceId ∈ ids
  enrollments : ∀ e ∈ db.enrollments, e.id ∈ ids
  connections : ∀ c ∈ db.integrationConnections, c.id ∈ ids

theorem Known.mono {ids ids' : List Id} (h : Known db ids) (hsub : ∀ id ∈ ids, id ∈ ids') : Known db ids' where
  leads l hl := hsub _ (h.leads l hl)
  timeline e he := hsub _ (h.timeline e he)
  sessions s hs := hsub _ (h.sessions s hs)
  messages m hm := hsub _ (h.messages m hm)
  routingRules r hr := hsub _ (h.routingRules r hr)
  sequences s hs := hsub _ (h.sequences s hs)
  steps s hs := ⟨hsub _ (h.steps s hs).1, hsub _ (h.steps s hs).2⟩
  enrollments e he := hsub _ (h.enrollments e he)
  connections c hc := hsub _ (h.connections c hc)

theorem Known.write {ids : List Id} (h : Known db ids) (hw : Within db tenantId w)
    (hadded : ∀ id ∈ w.addedIds, id ∈ ids) : Known (db.write w) ids := by
  cases w with
  | lead w =>
    have hkeys := RowWrite.key_mem_of_apply h.leads hadded
    cases w with
    | add row => exact { h with leads := hkeys }
    | set row => exact { h with leads := hkeys }
    | delete id =>
      refine { h with
        leads := hkeys
        timeline := fun e he => h.timeline e (mem_filter.mp he).1
        enrollments := fun e he => h.enrollments e (mem_filter.mp he).1
        sessions := ?_ }
      intro s hs
      obtain ⟨old, hold, rfl⟩ := LeadService.mem_sessions_removeLead.mp hs
      exact h.sessions old hold
  | timelineEvent w => exact { h with timeline := RowWrite.key_mem_of_apply h.timeline hadded }
  | session w =>
    have hkeys := RowWrite.key_mem_of_apply h.sessions hadded
    cases w with
    | add row => exact { h with sessions := hkeys }
    | set row => exact { h with sessions := hkeys }
    | delete id =>
      exact { h with sessions := hkeys, messages := fun m hm => h.messages m (mem_filter.mp hm).1 }
  | message w => exact { h with messages := RowWrite.key_mem_of_apply h.messages hadded }
  | routingRule w => exact { h with routingRules := RowWrite.key_mem_of_apply h.routingRules hadded }
  | sequence w =>
    have hkeys := RowWrite.key_mem_of_apply h.sequences hadded
    cases w with
    | add row => exact { h with sequences := hkeys }
    | set row => exact { h with sequences := hkeys }
    | delete id =>
      exact { h with
        sequences := hkeys
        steps := fun s hs => h.steps s (mem_filter.mp hs).1
        enrollments := fun e he => h.enrollments e (mem_filter.mp he).1 }
  | step w =>
    have hkeys := RowWrite.key_mem_of_apply (fun s hs => (h.steps s hs).1) hadded
    refine { h with steps := fun s hs => ⟨hkeys s hs, ?_⟩ }
    obtain ⟨sequenceId, ⟨sequence, hmem, rfl, -⟩, hrow⟩ := hw
    have hsequence := h.sequences sequence hmem
    cases w with
    | add row =>
      rcases mem_of_mem_insert hs with hold | rfl
      · exact (h.steps s hold).2
      · rw [hrow.1]
        exact hsequence
    | set row =>
      rcases mem_of_mem_put hs with rfl | ⟨hold, -⟩
      · rw [hrow.2.1]
        exact hsequence
      · exact (h.steps s hold).2
    | delete id => exact (h.steps s (mem_erase.mp hs).1).2
  | enrollment w => exact { h with enrollments := RowWrite.key_mem_of_apply h.enrollments hadded }
  | connection w => exact { h with connections := RowWrite.key_mem_of_apply h.connections hadded }
  | usage change => exact { h with }

theorem Known.writeAll {ids : List Id} {writes : List Write} (h : Known db ids)
    (hw : WritesWithin tenantId db writes) (hadded : ∀ id ∈ writes.flatMap Write.addedIds, id ∈ ids) :
    Known (db.writeAll writes) ids := by
  apply hw.invariant (fun db => Known db ids)
  · intro db w hmem hdb hwithin
    apply hdb.write hwithin
    exact fun id hid => hadded id (List.mem_flatMap.mpr ⟨w, hmem, hid⟩)
  · exact h

def JobWithin (db : Db) (tenantId : Id) (job : QueueJob) : Prop :=
  job.payload.str? "tenant_id" = some tenantId ∧ ∀ leadId ∈ job.payload.str? "lead_id", OwnsLead db tenantId leadId

structure CommitWithin {α : Type} (db : Db) (tenantId : Id) (c : Commit α) : Prop where
  writes : WritesWithin tenantId db c.writes
  before : ∀ job ∈ c.before, JobWithin db tenantId job
  after : ∀ job ∈ c.after, JobWithin (db.writeAll c.writes) tenantId job

def WorkWithin {α : Type} (db : Db) (tenantId : Id) : Work α → Prop
  | .commits c => CommitWithin db tenantId c
  | _ => True

theorem lifecycleJobs_within {leadId : Id} {event : String} (h : OwnsLead db tenantId leadId) :
    ∀ job ∈ lifecycleJobs tenantId leadId event, JobWithin db tenantId job := by
  have hone : ∀ job : QueueJob, job.payload.str? "tenant_id" = some tenantId →
      job.payload.str? "lead_id" = some leadId → JobWithin db tenantId job := by
    intro job htenant hlead
    refine ⟨htenant, fun x hx => ?_⟩
    rw [hlead] at hx
    rwa [← Option.some.inj hx]
  intro job hjob
  rcases List.mem_cons.mp hjob with rfl | hjob
  · exact hone _ rfl rfl
  · rcases List.mem_cons.mp hjob with rfl | hjob
    · exact hone _ rfl rfl
    · rw [List.mem_singleton.mp hjob]
      exact hone _ rfl rfl

theorem jobWithin_of_noLead {job : QueueJob} (htenant : job.payload.str? "tenant_id" = some tenantId)
    (hlead : job.payload.str? "lead_id" = none) : JobWithin db tenantId job := by
  refine ⟨htenant, fun x hx => ?_⟩
  rw [hlead] at hx
  cases hx

section Rows

variable {α : Type} {key : α → Id} {owner : α → Id} {t : Table key} {id : Id} {a b : α} {refs : α → Prop}

theorem owns_of_get (h : ofTenant owner t tenantId id = some a) : t.Owns owner tenantId id := by
  obtain ⟨hmem, hid, ho⟩ := ofTenant_eq_some.mp h
  exact ⟨a, hmem, hid, ho⟩

theorem set_within (h : ofTenant owner t tenantId id = some a) (hid : key b = key a) (ho : owner b = owner a)
    (hrefs : refs b) : RowWithin owner t tenantId refs (.set b) := by
  obtain ⟨hmem, rfl, howner⟩ := ofTenant_eq_some.mp h
  refine ⟨?_, ho.trans howner, hrefs⟩
  rw [hid]
  exact ⟨a, hmem, rfl, howner⟩

theorem set_owned (h : ofTenant owner t tenantId id = some a) (hid : key b = key a) (ho : owner b = owner a) :
    RowWithin owner t tenantId (fun _ => True) (.set b) :=
  set_within h hid ho trivial

theorem owns_row_of_get (h : ofTenant owner t tenantId id = some a) : t.Owns owner tenantId (key a) := by
  obtain ⟨hmem, -, ho⟩ := ofTenant_eq_some.mp h
  exact ⟨a, hmem, rfl, ho⟩

end Rows

def Foreign (db : Db) (tenantId : Id) (leadId : Option Id) : Prop :=
  ∃ l ∈ db.leads, leadId = some l.id ∧ l.tenantId ≠ tenantId

def TakesForeignLead (db : Db) (tenantId : Id) : Request → Prop
  | .createSession payload =>
    PlanLimitService.enforceSessionCreationLimit db tenantId = .ok () ∧ Foreign db tenantId payload.leadId
  | .updateSession sessionId payload =>
    (SessionRepository.get db tenantId sessionId).isSome ∧ Foreign db tenantId payload.leadId.join
  | _ => False

theorem Foreign.exists {leadId : Option Id} (h : Foreign db tenantId leadId) :
    ConversationService.LeadExists db leadId := by
  obtain ⟨l, hl, rfl, -⟩ := h
  intro x hx
  rw [Option.isSome_iff_exists]
  exact ⟨l, find?_eq_some_iff.mpr ⟨hl, Option.some.inj hx⟩⟩

theorem ownsLead_of_exists {leadId : Option Id} (hexists : ConversationService.LeadExists db leadId)
    (hown : ¬Foreign db tenantId leadId) : ∀ x ∈ leadId, OwnsLead db tenantId x := by
  intro x hx
  obtain ⟨l, hl⟩ := Option.isSome_iff_exists.mp (hexists x hx)
  obtain ⟨hmem, rfl⟩ := find?_eq_some_iff.mp hl
  refine ⟨l, hmem, rfl, ?_⟩
  by_contra hne
  exact hown ⟨l, hmem, hx, hne⟩

theorem findStep_eq_some {sequenceId stepId : Id} {step : SequenceStep}
    (h : SequenceService.findStep db tenantId sequenceId stepId = some step) :
    OwnsSequence db tenantId sequenceId ∧ step ∈ db.steps ∧ step.id = stepId ∧ step.sequenceId = sequenceId := by
  obtain ⟨sequence, hsequence, hstep⟩ := Option.bind_eq_some_iff.mp h
  obtain ⟨hfind, hof⟩ := Option.filter_eq_some_iff.mp hstep
  obtain ⟨hmem, hid⟩ := find?_eq_some_iff.mp hfind
  exact ⟨owns_of_get hsequence, hmem, hid, of_decide_eq_true hof⟩

structure EffectWithin (db : Db) (tenantId : Id) (committed : List Write) (jobs : List QueueJob) : Prop where
  writes : WritesWithin tenantId db committed
  after : ∀ job ∈ jobs, JobWithin (db.writeAll committed) tenantId job

theorem EffectWithin.silent (hw : Within db tenantId w) : EffectWithin db tenantId [w] [] where
  writes := .one hw
  after _ hjob := absurd hjob List.not_mem_nil

theorem EffectWithin.noLead {job : QueueJob} (hw : Within db tenantId w)
    (htenant : job.payload.str? "tenant_id" = some tenantId) (hlead : job.payload.str? "lead_id" = none) :
    EffectWithin db tenantId [w] [job] where
  writes := .one hw
  after other hjob := by
    rw [List.mem_singleton.mp hjob]
    exact jobWithin_of_noLead htenant hlead

section Requests

variable {lower : String → String} {inputs : Inputs}

theorem updateSession_refs {payload : SessionUpdate} {sessionId : Id} {record : Session} (h : References db)
    (hget : SessionRepository.get db tenantId sessionId = some record)
    (hlead : ∀ x ∈ payload.leadId.join, OwnsLead db tenantId x) :
    ∀ x ∈ (payload.apply record).leadId, OwnsLead db tenantId x := by
  obtain ⟨hmem, -, ho⟩ := ofTenant_eq_some.mp hget
  intro x hx
  cases hbody : payload.leadId with
  | none =>
    rw [SessionUpdate.apply, hbody] at hx
    have hold := h.sessionLead record hmem x hx
    rwa [ho] at hold
  | some leadId =>
    rw [SessionUpdate.apply, hbody] at hx
    apply hlead
    rw [hbody]
    exact hx

theorem effect_within (h : References db) {r : Request} {writes : List Write} {after : List QueueJob}
    (heffect : r.Effect lower db tenantId inputs writes after)
    (hfresh : ∀ id ∈ writes.flatMap Write.addedIds, db.leads.Fresh id) (hown : ¬TakesForeignLead db tenantId r) :
    EffectWithin db tenantId writes after := by
  cases heffect with
  | @createLead payload new hlimit hnew hrows =>
    subst hrows
    let lead := LeadRepository.create (inputs.newId 0) tenantId (payload.normalized lower)
    have hid : db.leads.Fresh lead.id := hfresh _ List.mem_cons_self
    have hlead : OwnsLead (db.write (.lead (.add lead))) tenantId lead.id := owns_insert_self hid
    have husage := UsageTrackingService.increment_tenantId db tenantId inputs.today { leadsCreated := 1 }
    exact ⟨⟨⟨rfl, trivial⟩, ⟨rfl, hlead⟩, husage, trivial⟩, lifecycleJobs_within hlead⟩
  | updateLead hget happly =>
    obtain ⟨hid, ho, -, -⟩ := LeadUpdate.apply_eq_some happly
    have hw : Within db tenantId (.lead (.set _)) := set_owned hget hid ho
    refine ⟨.one hw, ?_⟩
    apply lifecycleJobs_within
    exact (hw.keeps trivial).leads _ _ (owns_of_get hget)
  | deleteLead hget => exact .silent (owns_row_of_get hget)
  | @createTimelineEvent leadId payload lead hget =>
    have hw : Within db tenantId
        (.timelineEvent (.add (LeadTimelineRepository.create (inputs.newId 0) tenantId leadId payload))) :=
      ⟨rfl, owns_of_get hget⟩
    refine ⟨.one hw, fun job hjob => ?_⟩
    rw [List.mem_singleton.mp hjob]
    refine ⟨rfl, fun x hx => ?_⟩
    rw [← Option.some.inj hx]
    exact (hw.keeps trivial).leads _ _ (owns_of_get hget)
  | @updateTimelineEvent eventId payload event updated hget happly =>
    obtain ⟨hid, ho, hlead, -⟩ := TimelineEventUpdate.apply_eq_some happly
    obtain ⟨hmem, -, howner⟩ := ofTenant_eq_some.mp hget
    apply EffectWithin.silent
    apply set_within hget hid ho
    have hold := h.eventLead event hmem _ rfl
    rwa [howner, ← hlead] at hold
  | deleteTimelineEvent hget => exact .silent (owns_row_of_get hget)
  | attachSession hlead hget =>
    apply EffectWithin.silent
    apply set_within hget rfl rfl
    exact refs_of_mem (owns_of_get hlead)
  | createSession hlimit hexists =>
    have hlead := ownsLead_of_exists hexists fun hforeign => hown ⟨hlimit, hforeign⟩
    have husage := UsageTrackingService.increment_tenantId db tenantId inputs.today { sessionsCreated := 1 }
    exact ⟨⟨⟨rfl, hlead⟩, husage, trivial⟩, fun _ hjob => absurd hjob List.not_mem_nil⟩
  | updateSession hget hexists =>
    apply EffectWithin.silent
    apply set_within hget rfl rfl
    apply updateSession_refs h hget
    exact ownsLead_of_exists hexists fun hforeign => hown ⟨by rw [hget]; rfl, hforeign⟩
  | deleteSession hget => exact .silent (owns_row_of_get hget)
  | createMessage hlimit hget => exact .noLead ⟨rfl, owns_of_get hget⟩ rfl rfl
  | @updateMessage messageId payload message updated hget happly =>
    obtain ⟨hid, ho, hsession, -⟩ := MessageUpdate.apply_eq_some happly
    obtain ⟨hmem, -, howner⟩ := ofTenant_eq_some.mp hget
    apply EffectWithin.silent
    apply set_within hget hid ho
    have hold := h.messageSession message hmem _ rfl
    rwa [howner, ← hsession] at hold
  | deleteMessage hget => exact .silent (owns_row_of_get hget)
  | createRule => exact .silent ⟨rfl, trivial⟩
  | updateRule hget happly =>
    obtain ⟨hid, ho, -⟩ := RoutingRuleUpdate.apply_eq_some happly
    exact .silent (set_owned hget hid ho)
  | deleteRule hget => exact .silent (owns_row_of_get hget)
  | createSequence => exact .silent ⟨rfl, trivial⟩
  | updateSequence hget happly =>
    obtain ⟨hid, ho⟩ := SequenceUpdate.apply_eq_some happly
    exact .silent (set_owned hget hid ho)
  | deleteSequence hget => exact .silent (owns_row_of_get hget)
  | createStep hget => exact .silent ⟨_, owns_of_get hget, rfl, trivial⟩
  | @updateStep sequenceId stepId payload record updated hfind happly =>
    obtain ⟨hid, ho⟩ := SequenceStepUpdate.apply_eq_some happly
    obtain ⟨hsequence, hmem, -, hof⟩ := findStep_eq_some hfind
    apply EffectWithin.silent
    refine ⟨sequenceId, hsequence, ?_, ho.trans hof, trivial⟩
    rw [hid]
    exact ⟨record, hmem, rfl, hof⟩
  | deleteStep hfind =>
    obtain ⟨hsequence, hmem, -, hof⟩ := findStep_eq_some hfind
    exact .silent ⟨_, hsequence, _, hmem, rfl, hof⟩
  | enrollLead henroll =>
    obtain ⟨hsequence, hlead, rfl⟩ := SequenceService.enroll_eq_some.mp henroll
    obtain ⟨_, hsequence⟩ := Option.isSome_iff_exists.mp hsequence
    obtain ⟨_, hlead⟩ := Option.isSome_iff_exists.mp hlead
    exact .noLead ⟨rfl, owns_of_get hlead, owns_of_get hsequence⟩ rfl rfl

theorem request_within (lower : String → String) (inputs : Inputs) (h : References db) {r : Request}
    (hfresh : ∀ id ∈ (r.work lower db tenantId inputs).newIds, db.leads.Fresh id)
    (hown : ¬TakesForeignLead db tenantId r) : WorkWithin db tenantId (r.work lower db tenantId inputs) := by
  have heffect := r.work_hasEffect lower db tenantId inputs
  cases hwork : r.work lower db tenantId inputs with
  | commits c =>
    rw [hwork] at heffect hfresh
    obtain ⟨hbefore, heffect⟩ := heffect
    obtain ⟨hwrites, hafter⟩ := effect_within h heffect hfresh hown
    refine ⟨hwrites, ?_, hafter⟩
    rw [hbefore]
    exact fun _ hjob => absurd hjob List.not_mem_nil
  | _ => trivial

end Requests

theorem JobWithin.keeps {db' : Db} {job : QueueJob} (h : JobWithin db tenantId job) (hkeeps : Keeps db db') :
    JobWithin db' tenantId job :=
  ⟨h.1, fun leadId hlead => hkeeps.leads _ _ (h.2 leadId hlead)⟩

theorem workWithin_of_grows {α : Type} {work : Work α} (hwrites : work.Each fun w => Grows w ∧ Within db tenantId w)
    (hjobs : work.EachJob (JobWithin db tenantId)) : WorkWithin db tenantId work := by
  cases work with
  | commits c =>
    have hgrows := fun w hw => (hwrites w hw).1
    have hchain := WritesWithin.of_grows hgrows fun w hw => (hwrites w hw).2
    exact ⟨hchain, hjobs.1, fun job hjob => (hjobs.2 job hjob).keeps (hchain.keeps hgrows)⟩
  | _ => trivial

theorem stepJob_within (enrollmentId : Id) : JobWithin db tenantId (stepJob tenantId enrollmentId) :=
  jobWithin_of_noLead rfl rfl

theorem sessionLeadId_owned {sessionId leadId : Id} (h : References db)
    (hlead : MessageEvents.sessionLeadId db tenantId sessionId = some leadId) : OwnsLead db tenantId leadId := by
  obtain ⟨s, hget, hs⟩ := Option.bind_eq_some_iff.mp hlead
  obtain ⟨hmem, -, ho⟩ := ofTenant_eq_some.mp hget
  have hold := h.sessionLead s hmem leadId (configured_eq_some.mp hs).1
  rwa [ho] at hold

section Handlers

variable {d : Deployment} {payload : Dict} {inputs : JobInputs} {event : JobEvent}

theorem job_writes_within (h : References db) (htenant : payload.str? "tenant_id" = some tenantId)
    (hlead : ∀ leadId ∈ payload.str? "lead_id", ∀ l ∈ db.leads, l.id = leadId → l.tenantId = tenantId)
    (hw : event.Writes d db payload inputs w) : Grows w ∧ Within db tenantId w := by
  have hrefs : ∀ e ∈ db.enrollments, e.tenantId = tenantId →
      OwnsLead db tenantId e.leadId ∧ OwnsSequence db tenantId e.sequenceId := by
    intro e he ho
    have hlead := h.enrollmentLead e he _ rfl
    have hsequence := h.enrollmentSequence e he _ rfl
    rw [ho] at hlead hsequence
    exact ⟨hlead, hsequence⟩
  have hnamed : ∀ {other leadId : Id} {sequences : List Sequence},
      SequenceWorkers.readTriggerJob db payload = some (other, leadId, sequences) →
        ConversationService.LeadExists db (some leadId) → other = tenantId ∧ OwnsLead db tenantId leadId ∧
          ∀ s ∈ sequences, OwnsSequence db tenantId s.id := by
    intro other leadId sequences hread hexists
    obtain ⟨trigger, ht, hl, -, rfl⟩ := SequenceTriggers.readTriggerJob_reads hread
    obtain rfl := Dict.eq_of_text htenant ht
    obtain ⟨l, hfind⟩ := Option.isSome_iff_exists.mp (hexists leadId rfl)
    obtain ⟨hmem, hid⟩ := find?_eq_some_iff.mp hfind
    refine ⟨rfl, ⟨l, hmem, hid, hlead leadId (Dict.text_eq_some.mp hl).1 l hmem hid⟩, ?_⟩
    intro s hs
    obtain ⟨hrow, hactive⟩ := List.mem_filter.mp hs
    exact ⟨s, hrow, rfl, (of_decide_eq_true hactive).1⟩
  cases hw with
  | @annotate job understanding hjob =>
    obtain ⟨ht, -, -, hmem, ho, -⟩ := readAnalysisJob_eq_some hjob
    obtain rfl := Dict.eq_of_text htenant ht
    refine ⟨trivial, ⟨job.message, hmem, rfl, ho⟩, ho, ?_⟩
    have hold := h.messageSession job.message hmem _ rfl
    rwa [ho] at hold
  | countAnalysis hjob =>
    obtain rfl := Dict.eq_of_text htenant (readAnalysisJob_eq_some hjob).1
    exact ⟨trivial, UsageTrackingService.increment_tenantId db _ inputs.today _⟩
  | score hjob hget =>
    obtain rfl := Dict.eq_of_text htenant (readAnalysisJob_eq_some hjob).1
    exact ⟨trivial, set_owned hget rfl rfl⟩
  | addScored hjob hget =>
    obtain rfl := Dict.eq_of_text htenant (readAnalysisJob_eq_some hjob).1
    exact ⟨trivial, rfl, owns_row_of_get hget⟩
  | @route event other leadId lead decision ht hget =>
    obtain rfl := Dict.eq_of_text htenant ht
    obtain ⟨owner, team, queue, hframe⟩ := RoutingEngine.applyRoutingDecision_frame d.py lead decision
    rw [hframe]
    exact ⟨trivial, set_owned hget rfl rfl⟩
  | addRouted ht hget =>
    obtain rfl := Dict.eq_of_text htenant ht
    exact ⟨trivial, rfl, owns_row_of_get hget⟩
  | enroll hread hsequence hexists =>
    obtain ⟨rfl, howns, hsequences⟩ := hnamed hread hexists
    exact ⟨trivial, rfl, howns, hsequences _ hsequence⟩
  | addEnrolled hread hsequence hexists =>
    obtain ⟨rfl, howns, -⟩ := hnamed hread hexists
    exact ⟨trivial, rfl, howns⟩
  | @complete e hread =>
    obtain ⟨_, ht, -, hget⟩ := finished_eq_some hread
    obtain rfl := Dict.eq_of_text htenant ht
    obtain ⟨hmem, -, ho⟩ := ofTenant_eq_some.mp hget
    exact ⟨trivial, ⟨e, hmem, rfl, ho⟩, ho, hrefs e hmem ho⟩
  | countDelivery hread hadded =>
    obtain rfl := Dict.eq_of_text htenant (readFrom_of_execute hread).tenant
    exact ⟨trivial, UsageTrackingService.increment_tenantId db _ inputs.today _⟩
  | addExecuted hread =>
    have hwork := readFrom_of_execute hread
    obtain rfl := Dict.eq_of_text htenant hwork.tenant
    exact ⟨trivial, rfl, owns_row_of_get hwork.lead⟩
  | @advance work hread =>
    have hwork := readFrom_of_execute hread
    obtain rfl := Dict.eq_of_text htenant hwork.tenant
    have hmem := (find?_eq_some_iff.mp hwork.row).1
    exact ⟨trivial, ⟨work.enrollment, hmem, rfl, hwork.owned⟩, hwork.owned, hrefs work.enrollment hmem hwork.owned⟩
  | connect ht hid => exact ⟨trivial, (Dict.eq_of_text htenant ht).symm, trivial⟩
  | @reconnect event old connection ht hold hid howner =>
    have ho : connection.tenantId = tenantId := (Dict.eq_of_text htenant ht).symm
    refine ⟨trivial, ?_, ho, trivial⟩
    rw [hid]
    exact ⟨old, hold, rfl, howner.trans ho⟩

theorem publishes_within {job : QueueJob} (h : References db) (htenant : payload.str? "tenant_id" = some tenantId)
    (hjob : JobEvent.Publishes db payload job) : JobWithin db tenantId job := by
  cases hjob with
  | @step other enrollmentId ht =>
    obtain rfl := Dict.eq_of_text htenant ht
    exact stepJob_within enrollmentId
  | score hfound hlead hmem =>
    obtain rfl := Dict.eq_of_text htenant (readAnalysisJob_eq_some hfound).1
    exact lifecycleJobs_within (sessionLeadId_owned h hlead) job hmem

end Handlers

theorem job_within (d : Deployment) (cache : AICache) {payload : Dict} (inputs : JobInputs) (h : References db)
    (htenant : payload.str? "tenant_id" = some tenantId)
    (hlead : ∀ leadId ∈ payload.str? "lead_id", ∀ l ∈ db.leads, l.id = leadId → l.tenantId = tenantId)
    (event : JobEvent) : WorkWithin db tenantId (event.handle d db cache payload inputs).1 := by
  apply workWithin_of_grows
  · exact (event.handle_writes d db cache payload inputs).imp fun _ => job_writes_within h htenant hlead
  · exact (event.handle_publishes d db cache payload inputs).imp fun _ => publishes_within h htenant

def JobSound (db : Db) (ids : List Id) (job : QueueJob) : Prop :=
  ∃ tenantId, job.payload.str? "tenant_id" = some tenantId ∧
    ∀ leadId ∈ job.payload.str? "lead_id",
      leadId ∈ ids ∧ ∀ l ∈ db.leads, l.id = leadId → l.tenantId = tenantId

structure Sound (w : World) : Prop where
  references : References w.db
  known : Known w.db w.ids
  jobs : ∀ job ∈ w.jobs, JobSound w.db w.ids job

variable {ids ids' : List Id} {job : QueueJob} {writes : List Write}

theorem JobSound.mono (h : JobSound db ids job) (hsub : ∀ id ∈ ids, id ∈ ids') : JobSound db ids' job := by
  obtain ⟨tenantId, htenant, hlead⟩ := h
  exact ⟨tenantId, htenant, fun x hx => ⟨hsub x (hlead x hx).1, (hlead x hx).2⟩⟩

theorem JobWithin.sound (h : JobWithin db tenantId job) (hknown : Known db ids) : JobSound db ids job := by
  refine ⟨tenantId, h.1, fun x hx => ?_⟩
  have howns := h.2 x hx
  obtain ⟨l, hl, rfl, -⟩ := h.2 x hx
  exact ⟨hknown.leads l hl, fun l' hl' hid => howns.owner_eq hl' hid⟩

theorem mem_leads_write (hw : Within db tenantId w) {l : Lead} (hl : l ∈ (db.write w).leads) :
    (∃ old ∈ db.leads, l.id = old.id ∧ l.tenantId = old.tenantId) ∨ l.id ∈ w.addedIds := by
  have hsame : ∀ {l : Lead}, l ∈ db.leads → ∃ old ∈ db.leads, l.id = old.id ∧ l.tenantId = old.tenantId :=
    fun hl => ⟨_, hl, rfl, rfl⟩
  cases w with
  | lead w =>
    cases w with
    | add row =>
      rcases mem_of_mem_insert hl with hold | rfl
      · exact .inl (hsame hold)
      · exact .inr (List.mem_singleton_self _)
    | set row =>
      rcases mem_of_mem_put hl with rfl | ⟨hold, -⟩
      · obtain ⟨⟨old, hold, hid, ho⟩, howner, -⟩ := hw
        exact .inl ⟨old, hold, hid.symm, howner.trans ho.symm⟩
      · exact .inl (hsame hold)
    | delete id => exact .inl (hsame (mem_erase.mp hl).1)
  | session w => cases w <;> exact .inl (hsame hl)
  | sequence w => cases w <;> exact .inl (hsame hl)
  | _ => exact .inl (hsame hl)

theorem JobSound.write (h : JobSound db ids job) (hw : Within db tenantId w)
    (hnew : ∀ id ∈ w.addedIds, id ∉ ids) : JobSound (db.write w) ids job := by
  obtain ⟨owner, htenant, hlead⟩ := h
  refine ⟨owner, htenant, fun x hx => ?_⟩
  obtain ⟨hknown, hown⟩ := hlead x hx
  refine ⟨hknown, ?_⟩
  rintro l hl rfl
  rcases mem_leads_write hw hl with ⟨old, hold, hid, ho⟩ | hadded
  · rw [ho]
    exact hown old hold hid.symm
  · exact absurd hknown (hnew _ hadded)

theorem JobSound.writeAll (h : JobSound db ids job) (hw : WritesWithin tenantId db writes)
    (hnew : ∀ id ∈ writes.flatMap Write.addedIds, id ∉ ids) : JobSound (db.writeAll writes) ids job := by
  apply hw.invariant (fun db => JobSound db ids job)
  · intro db w hmem hdb hwithin
    apply hdb.write hwithin
    exact fun id hid => hnew id (List.mem_flatMap.mpr ⟨w, hmem, hid⟩)
  · exact h

theorem Sound.run {α : Type} {w : World} {work : Work α} (h : Sound w) (hwork : WorkWithin w.db tenantId work)
    (hids : w.NewIds work.newIds) (settings : Settings) (calls : Calls) :
    References (work.run settings w.db calls).db ∧
      Known (work.run settings w.db calls).db (w.ids ++ work.newIds) ∧
      ∀ job ∈ w.jobs ++ (work.run settings w.db calls).jobs,
        JobSound (work.run settings w.db calls).db (w.ids ++ work.newIds) job := by
  have hsub : ∀ id ∈ w.ids, id ∈ w.ids ++ work.newIds := fun _ hid => List.mem_append_left _ hid
  rcases work.run_cases settings w.db calls with ⟨hdb, hjobs⟩ | ⟨c, rfl, -, hdb, hjobs⟩
  · rw [hdb]
    refine ⟨h.references, h.known.mono hsub, fun job hjob => ?_⟩
    rcases List.mem_append.mp hjob with hjob | hjob
    · exact (h.jobs job hjob).mono hsub
    · obtain ⟨c, rfl, hbefore⟩ := hjobs job hjob
      exact ((hwork.before job hbefore).sound h.known).mono hsub
  · have hadded : ∀ id ∈ c.writes.flatMap Write.addedIds, id ∈ w.ids ++ (Work.commits c).newIds :=
      fun _ hid => List.mem_append_right _ hid
    have hknown := (h.known.mono hsub).writeAll hwork.writes hadded
    have hold : ∀ job, JobSound w.db w.ids job → JobSound (w.db.writeAll c.writes) w.ids job :=
      fun job hjob => hjob.writeAll hwork.writes hids.2
    rw [hdb]
    refine ⟨h.references.writeAll hwork.writes, hknown, fun job hjob => ?_⟩
    rcases List.mem_append.mp hjob with hjob | hjob
    · exact (hold job (h.jobs job hjob)).mono hsub
    · rcases hjobs job hjob with hbefore | hafter
      · exact (hold job ((hwork.before job hbefore).sound h.known)).mono hsub
      · exact (hwork.after job hafter).sound hknown

def Admitted (w : World) : Label → Prop
  | .request tenantId request inputs =>
    ¬(TakesForeignLead w.db tenantId request ∧ inputs.calls.commit.takesEffect)
  | .job _ _ _ => True

theorem not_references {s : Session} (hs : s ∈ db.sessions) (hforeign : Foreign db s.tenantId s.leadId) :
    ¬References db := by
  intro h
  obtain ⟨l, hl, hlead, hne⟩ := hforeign
  exact hne ((h.sessionLead s hs l.id hlead).owner_eq hl rfl)

theorem work_of_foreign (lower : String → String) (inputs : Inputs) {r : Request}
    (hforeign : TakesForeignLead db tenantId r)
    (hfresh : ∀ id ∈ (r.work lower db tenantId inputs).newIds, db.sessions.Fresh id) :
    ∃ writes value, r.work lower db tenantId inputs = .commits { writes := writes, value := value } ∧
      ¬References (db.writeAll writes) := by
  cases r with
  | createSession payload =>
    obtain ⟨hlimit, hlead⟩ := hforeign
    let record := SessionRepository.create (inputs.newId 0) tenantId payload
    let usage := UsageTrackingService.increment db tenantId inputs.today { sessionsCreated := 1 }
    have hwork : (Request.createSession payload).work lower db tenantId inputs = .commits
        { writes := [.session (.add record), .usage usage]
          value := (modelValidate Session.Renders record).map .session } := by
      simp only [Request.work, ConversationService.createSession, ConversationService.insertSession, hlimit,
        if_pos hlead.exists]
      rfl
    refine ⟨_, _, hwork, ?_⟩
    rw [hwork] at hfresh
    have hrow : record ∈ (db.writeAll [.session (.add record), .usage usage]).sessions :=
      (mem_insert (hfresh _ List.mem_cons_self)).mpr (.inr rfl)
    exact not_references hrow hlead
  | updateSession sessionId payload =>
    obtain ⟨hfound, hlead⟩ := hforeign
    obtain ⟨record, hget⟩ := Option.isSome_iff_exists.mp hfound
    obtain ⟨hmem, -, ho⟩ := ofTenant_eq_some.mp hget
    have hwork : (Request.updateSession sessionId payload).work lower db tenantId inputs = .commits
        { writes := [.session (.set (payload.apply record))]
          value := (modelValidate Session.Renders (payload.apply record)).map .session } := by
      simp only [Request.work, ConversationService.updateSession, hget, if_pos hlead.exists]
      rfl
    refine ⟨_, _, hwork, ?_⟩
    have hrow : payload.apply record ∈ (db.writeAll [.session (.set (payload.apply record))]).sessions :=
      mem_put_self hmem rfl
    have htaken : Foreign db record.tenantId (payload.apply record).leadId := by
      rw [ho]
      obtain ⟨l, hl, hbody, hne⟩ := hlead
      refine ⟨l, hl, ?_, hne⟩
      rw [SessionUpdate.apply, Option.join_eq_some_iff.mp hbody]
      rfl
    exact not_references hrow htaken
  | _ => exact False.elim hforeign

theorem Known.fresh (h : Known db ids) {id : Id} (hid : id ∉ ids) : db.leads.Fresh id ∧ db.sessions.Fresh id := by
  constructor
  · rintro l hl rfl
    exact hid (h.leads l hl)
  · rintro s hs rfl
    exact hid (h.sessions s hs)

variable {d : Deployment} {w w' : World} {label : Label}

theorem Sound.idle (h : Sound w) (hdb : w'.db = w.db) (hids : ∀ id ∈ w.ids, id ∈ w'.ids)
    (hjobs : ∀ job ∈ w'.jobs, job ∈ w.jobs) : Sound w' where
  references := by
    rw [hdb]
    exact h.references
  known := by
    rw [hdb]
    exact h.known.mono hids
  jobs job hjob := by
    rw [hdb]
    exact (h.jobs job (hjobs job hjob)).mono hids

theorem Sound.step (h : Sound w) (hstep : Step d w label w') :
    (Admitted w label → Sound w') ∧ (¬Admitted w label → ¬References w'.db) := by
  cases hstep with
  | request tenantId request inputs hids =>
    have hfresh : ∀ id ∈ (request.work d.py.lower w.db tenantId inputs).newIds,
        w.db.leads.Fresh id ∧ w.db.sessions.Fresh id := fun id hid => h.known.fresh (hids.2 id hid)
    by_cases hforeign : TakesForeignLead w.db tenantId request
    · obtain ⟨writes, value, hwork, hbroken⟩ :=
        work_of_foreign d.py.lower inputs hforeign fun id hid => (hfresh id hid).2
      by_cases heffect : inputs.calls.commit.takesEffect
      · constructor
        · exact fun hok => absurd ⟨hforeign, heffect⟩ hok
        · intro _
          rw [World.afterRequest, Work.run_db, hwork, Work.written_of_committed rfl heffect]
          exact hbroken
      · refine ⟨fun _ => ?_, fun hok => absurd (fun hbad => heffect hbad.2) hok⟩
        rcases (request.work d.py.lower w.db tenantId inputs).run_cases d.settings w.db inputs.calls with
          ⟨hdb, hjobs⟩ | ⟨_, _, hlanded, _⟩
        · apply h.idle hdb
          · exact fun id hid => List.mem_append_left _ hid
          · intro job hjob
            rcases List.mem_append.mp hjob with hold | hnew
            · exact hold
            · obtain ⟨c, hc, hbefore⟩ := hjobs job hnew
              rw [hwork] at hc
              rw [← Work.commits.inj hc] at hbefore
              cases hbefore
        · exact absurd hlanded heffect
    · have hwork := request_within d.py.lower inputs h.references (fun id hid => (hfresh id hid).1) hforeign
      have hrun := h.run hwork hids d.settings inputs.calls
      exact ⟨fun _ => ⟨hrun.1, hrun.2.1, hrun.2.2⟩, fun hok => absurd (fun hbad => hforeign hbad.1) hok⟩
  | job job event inputs hjob hevent hids =>
    obtain ⟨tenantId, htenant, hlead⟩ := h.jobs job hjob
    have hwork := job_within d w.cache inputs h.references htenant (fun x hx => (hlead x hx).2) event
    have hrun := h.run hwork hids d.settings inputs.calls
    exact ⟨fun _ => ⟨hrun.1, hrun.2.1, hrun.2.2⟩, fun hok => absurd trivial hok⟩

theorem sound_of_tenants (tenants : Table Tenant.id) : Sound { db := { tenants := tenants } } where
  references :=
    { sessionLead := fun s hs => absurd hs (not_mem_empty s)
      eventLead := fun e he => absurd he (not_mem_empty e)
      enrollmentLead := fun e he => absurd he (not_mem_empty e)
      enrollmentSequence := fun e he => absurd he (not_mem_empty e)
      messageSession := fun m hm => absurd hm (not_mem_empty m) }
  known :=
    { leads := fun l hl => absurd hl (not_mem_empty l)
      timeline := fun e he => absurd he (not_mem_empty e)
      sessions := fun s hs => absurd hs (not_mem_empty s)
      messages := fun m hm => absurd hm (not_mem_empty m)
      routingRules := fun r hr => absurd hr (not_mem_empty r)
      sequences := fun s hs => absurd hs (not_mem_empty s)
      steps := fun s hs => absurd hs (not_mem_empty s)
      enrollments := fun e he => absurd he (not_mem_empty e)
      connections := fun c hc => absurd hc (not_mem_empty c) }
  jobs _ hjob := absurd hjob List.not_mem_nil

end TenantReferences

open TenantReferences

theorem references_stay_with_tenant (d : Deployment) (w₀ w : World) (labels : List Label) (h₀ : Sound w₀)
    (hrun : GuardedRun (Step d) TenantReferences.Admitted w₀ labels w) :
    References w.db ∧
      ∀ label w', Step d w label w' → (References w'.db ↔ TenantReferences.Admitted w label) := by
  have h : Sound w := by
    apply hrun.invariant Sound
    · intro w label w' h hok hstep
      exact (h.step hstep).1 hok
    · exact h₀
  refine ⟨h.references, fun label w' hstep => ⟨fun hrefs => ?_, fun hok => ?_⟩⟩
  · by_contra hbad
    exact (h.step hstep).2 hbad hrefs
  · exact ((h.step hstep).1 hok).references

namespace TenantReferences

def leadInputs : Inputs where
  newId k := if k = 0 then "lead-1" else "event-1"
  today := 1

def sessionInputs : Inputs where
  newId _ := "session-1"
  today := 1

def demoLead : Request := .createLead { name := some "Ada" }

def demoSession : Request := .createSession { visitorId := "visitor-1", leadId := some "lead-1" }

end TenantReferences

theorem references_stay_with_tenant_session :
    ∃ w : World, References w.db ∧ w.db.sessions.rows.map Session.leadId = [some "lead-1"] := by
  have hsame : ¬TakesForeignLead ({ db := {} : World }.afterRequest plainDeployment "tenant-a" demoLead leadInputs).db
      "tenant-a" demoSession := by
    rintro ⟨-, l, hl, -, hne⟩
    have hall : ∀ l ∈ ({ db := {} : World }.afterRequest plainDeployment "tenant-a" demoLead leadInputs).db.leads,
        l.tenantId = "tenant-a" := by decide +kernel
    exact hne (hall l hl)
  have hrun : GuardedRun (Step plainDeployment) TenantReferences.Admitted { db := {} }
      [.request "tenant-a" demoLead leadInputs, .request "tenant-a" demoSession sessionInputs] _ :=
    .cons (fun h => h.1) (.request _ _ _ (by decide +kernel))
      (.cons (fun h => hsame h.1) (.request _ _ _ (by decide +kernel)) (.nil _))
  exact ⟨_, (references_stay_with_tenant plainDeployment _ _ _ (sound_of_tenants .empty) hrun).1, by decide +kernel⟩

theorem session_takes_foreign_lead :
    ∃ w : World,
      Run (Step plainDeployment) { db := {} }
        [.request "tenant-a" demoLead leadInputs, .request "tenant-b" demoSession sessionInputs] w ∧
        ¬References w.db := by
  let w₁ : World := { db := {} : World }.afterRequest plainDeployment "tenant-a" demoLead leadInputs
  have hfirst : Step plainDeployment { db := {} } (.request "tenant-a" demoLead leadInputs) w₁ :=
    .request _ _ _ (by decide +kernel)
  have hsecond : Step plainDeployment w₁ (.request "tenant-b" demoSession sessionInputs) _ :=
    .request _ _ _ (by decide +kernel)
  have hforeign : ∃ l ∈ w₁.db.leads.rows, some "lead-1" = some l.id ∧ l.tenantId ≠ "tenant-b" := by decide +kernel
  have hsound : Sound w₁ := ((sound_of_tenants .empty).step hfirst).1 fun h => h.1
  exact ⟨_, .cons trivial hfirst (.cons trivial hsecond (.nil _)),
    (hsound.step hsecond).2 fun hok => hok ⟨⟨rfl, hforeign⟩, rfl⟩⟩

end Leadline
