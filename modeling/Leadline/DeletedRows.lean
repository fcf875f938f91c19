import Leadline.System

namespace Leadline

open Library

namespace DeletedRows

section

variable (d : Deployment) (db : Db) (cache : AICache) (payload : Dict) (inputs : JobInputs)

def Gone {α : Type} {key : α → Id} (t : Table key) (field : String) : Prop :=
  ∃ id, payload.text field = some id ∧ t.find? id = none

def Orphaned : Prop :=
  ∃ e ∈ db.enrollments, payload.text "enrollment_id" = some e.id ∧
    (db.leads.find? e.leadId = none ∨ db.sequences.find? e.sequenceId = none)

def RowDeleted : JobEvent → Prop
  | .messageCreated => Gone payload db.sessions "session_id" ∨ Gone payload db.messages "message_id"
  | .sequenceStepExecute => Gone payload db.enrollments "enrollment_id" ∨ Orphaned db payload
  | _ => Gone payload db.leads "lead_id"

def CallsProvider : JobEvent → Prop
  | .messageCreated => (readAnalysisJob db payload).isSome
  | .sequenceStepExecute => ∃ work, readStepJob db payload = .execute work
  | .integrationLeadCreated => CallsIntegration
  | .integrationLeadUpdated => CallsIntegration
  | .integrationLeadScoreUpdated => CallsIntegration
  | _ => False
where
  CallsIntegration : Prop :=
    ∃ tenantId leadId, payload.text "tenant_id" = some tenantId ∧ payload.text "lead_id" = some leadId ∧
      (LeadRepository.get db tenantId leadId).isSome

structure Harmless (event : JobEvent) : Prop where
  returns : ((event.handle d db cache payload inputs).1.run d.settings db {}).answer = .returned ()
  unchanged : ((event.handle d db cache payload inputs).1.run d.settings db {}).db = db
  publishesNothing : ((event.handle d db cache payload inputs).1.run d.settings db {}).jobs = []
  cache : (event.handle d db cache payload inputs).2 = cache
  sendsNothing : ¬CallsProvider db payload event

def HasActiveSequence : Prop :=
  ∃ tenantId trigger, payload.text "tenant_id" = some tenantId ∧ payload.text "trigger" = some trigger ∧
    ∃ s ∈ db.sequences, s.tenantId = tenantId ∧ s.trigger = trigger ∧ s.status = "active"

end

variable {d : Deployment} {db : Db} {cache : AICache} {payload : Dict} {inputs : JobInputs}

theorem harmless_of_answered {event : JobEvent} (h : (event.handle d db cache payload inputs).1 = .answered ())
    (hcache : (event.handle d db cache payload inputs).2 = cache) (hsend : ¬CallsProvider db payload event) :
    Harmless d db cache payload inputs event := by
  refine ⟨?_, ?_, ?_, hcache, hsend⟩
  · rw [h]
    rfl
  · rw [h]
    rfl
  · rw [h]
    rfl

theorem get_of_gone {α : Type} {key : α → Id} {tenantId : α → Id} {t : Table key} {tenant id : Id}
    (h : t.find? id = none) : ofTenant tenantId t tenant id = none := by
  rw [ofTenant, h]
  rfl

theorem lead_of_gone (h : Gone payload db.leads "lead_id") {tenantId leadId : Id}
    (hlead : payload.text "lead_id" = some leadId) : LeadRepository.get db tenantId leadId = none := by
  obtain ⟨id, hid, hgone⟩ := h
  rw [hlead] at hid
  rw [← Option.some.inj hid] at hgone
  exact get_of_gone hgone

theorem routing_answered (h : Gone payload db.leads "lead_id") (py : Python)
    (getattr : Lead → String → Option FieldValue) (eventId : Id) :
    processRoutingEvent py getattr db payload eventId = .answered () := by
  unfold processRoutingEvent
  split
  · rename_i tenantId leadId ht hl
    simp only [RoutingService.evaluateAndApply, lead_of_gone h hl]
    rfl
  · rfl

theorem integration_answered (h : Gone payload db.leads "lead_id") (encrypt : Dict → Dict)
    (calls : IntegrationCalls) : processIntegrationEvent encrypt db payload calls = .answered () := by
  unfold processIntegrationEvent
  split
  · rename_i event tenantId leadId he ht hl
    simp only [lead_of_gone h hl]
  · rfl

theorem not_callsIntegration (h : Gone payload db.leads "lead_id") : ¬CallsProvider.CallsIntegration db payload := by
  rintro ⟨tenantId, leadId, -, hl, hlead⟩
  rw [lead_of_gone h hl] at hlead
  cases hlead

theorem step_ignored (h : RowDeleted db payload .sequenceStepExecute) : readStepJob db payload = .ignored := by
  unfold readStepJob
  split
  · rename_i tenantId enrollmentId ht he
    rcases h with ⟨id, hid, hgone⟩ | ⟨e, hmem, hid, hrows⟩
    · rw [he] at hid
      rw [← Option.some.inj hid] at hgone
      rw [SequenceEnrollmentRepository.get, get_of_gone hgone]
    · rw [he] at hid
      cases hget : SequenceEnrollmentRepository.get db tenantId enrollmentId with
      | none => rfl
      | some enrollment =>
        obtain ⟨hmem', hid', -⟩ := ofTenant_eq_some.mp hget
        have hsame : enrollment = e := Table.eq_of_key_eq hmem' hmem (hid'.trans (Option.some.inj hid))
        dsimp only
        split
        · rfl
        · rcases hrows with hlead | hsequence
          · rw [hsame, LeadRepository.get, get_of_gone hlead]
            split
            · rfl
            · rfl
          · rw [hsame, SequenceRepository.get, get_of_gone hsequence]
  · rfl

theorem analysis_ignored (hkeys : ∀ m ∈ db.messages, (db.sessions.find? m.sessionId).isSome)
    (h : RowDeleted db payload .messageCreated) : readAnalysisJob db payload = none := by
  cases hread : readAnalysisJob db payload with
  | none => rfl
  | some found =>
    obtain ⟨-, hs, hm, hmem, -, hsession⟩ := readAnalysisJob_eq_some hread
    rcases h with ⟨id, hid, hgone⟩ | ⟨id, hid, hgone⟩
    · rw [hs] at hid
      have hsome := hkeys _ hmem
      rw [hsession, Option.some.inj hid, hgone] at hsome
      cases hsome
    · rw [hm] at hid
      rw [← Option.some.inj hid] at hgone
      exact absurd rfl (Table.find?_eq_none_iff.mp hgone _ hmem)

theorem hasActiveSequence_iff {tenantId leadId : Id} {sequences : List Sequence}
    (h : SequenceWorkers.readTriggerJob db payload = some (tenantId, leadId, sequences)) :
    HasActiveSequence db payload ↔ sequences ≠ [] := by
  obtain ⟨trigger, ht, -, htrigger, rfl⟩ := SequenceTriggers.readTriggerJob_reads h
  constructor
  · rintro ⟨tenantId', trigger', ht', htrigger', s, hs, howner, hon, hactive⟩ hnil
    rw [ht] at ht'
    rw [htrigger] at htrigger'
    have hmem : s ∈ SequenceRepository.listActiveSequencesByTrigger db tenantId trigger := by
      apply List.mem_filter.mpr
      refine ⟨hs, decide_eq_true ⟨?_, ?_, hactive⟩⟩
      · rw [howner, Option.some.inj ht']
      · rw [hon, Option.some.inj htrigger']
    rw [hnil] at hmem
    cases hmem
  · intro hne
    obtain ⟨s, hs⟩ := List.exists_mem_of_ne_nil _ hne
    obtain ⟨hmem, hs⟩ := List.mem_filter.mp hs
    exact ⟨tenantId, trigger, ht, htrigger, s, hmem, of_decide_eq_true hs⟩

theorem trigger_harmless_iff (h : Gone payload db.leads "lead_id") :
    Harmless d db cache payload inputs .sequenceTrigger ↔ ¬HasActiveSequence db payload := by
  cases hread : SequenceWorkers.readTriggerJob db payload with
  | none =>
    apply iff_of_true
    · apply harmless_of_answered
      · simp only [JobEvent.handle, SequenceTriggers.processSequenceTriggerEvent, hread]
      · rfl
      · exact id
    · rintro ⟨tenantId, trigger, ht, htrigger, -⟩
      obtain ⟨leadId, hl, -⟩ := h
      simp only [SequenceWorkers.readTriggerJob, ht, hl, htrigger] at hread
      cases hread
  | some r =>
    obtain ⟨tenantId, leadId, sequences⟩ := r
    rw [hasActiveSequence_iff hread, not_ne_iff]
    obtain ⟨trigger, -, hl, -, -⟩ := SequenceTriggers.readTriggerJob_reads hread
    have hlead : ¬ConversationService.LeadExists db (some leadId) := by
      intro hexists
      obtain ⟨id, hid, hgone⟩ := h
      rw [hl] at hid
      have hsome := hexists leadId rfl
      rw [Option.some.inj hid, hgone] at hsome
      cases hsome
    cases sequences with
    | nil =>
      have hhandle : (JobEvent.handle d db cache payload inputs .sequenceTrigger).1 =
          .commits ⟨[], (), [], []⟩ := by
        simp only [JobEvent.handle, SequenceTriggers.processSequenceTriggerEvent, hread]
        rfl
      apply iff_of_true _ rfl
      refine ⟨?_, ?_, ?_, rfl, id⟩
      · rw [hhandle]
        rfl
      · rw [hhandle]
        exact (Work.run_empty ()).1
      · rw [hhandle]
        exact (Work.run_empty ()).2
    | cons sequence rest =>
      apply iff_of_false _ (List.cons_ne_nil sequence rest)
      intro hharmless
      have hreturns := hharmless.returns
      simp only [JobEvent.handle, SequenceTriggers.processSequenceTriggerEvent, hread, List.isEmpty_cons,
        Bool.false_eq_true, hlead, or_self, if_false] at hreturns
      cases hreturns

end DeletedRows

open DeletedRows

theorem deleted_rows_harmless (d : Deployment) (db : Db) (cache : AICache) (event : JobEvent) (payload : Dict)
    (inputs : JobInputs) (hkeys : ∀ m ∈ db.messages, (db.sessions.find? m.sessionId).isSome)
    (hdeleted : RowDeleted db payload event) :
    Harmless d db cache payload inputs event ↔
      ¬(event = .sequenceTrigger ∧ HasActiveSequence db payload) := by
  have hother : event ≠ .sequenceTrigger →
      ((event.handle d db cache payload inputs).1 = .answered () ∧
        (event.handle d db cache payload inputs).2 = cache ∧ ¬CallsProvider db payload event) →
      (Harmless d db cache payload inputs event ↔
        ¬(event = .sequenceTrigger ∧ HasActiveSequence db payload)) := by
    rintro hne ⟨hanswered, hcache, hsend⟩
    exact iff_of_true (harmless_of_answered hanswered hcache hsend) fun h => hne h.1
  cases event with
  | sequenceTrigger =>
    rw [trigger_harmless_iff hdeleted]
    simp
  | messageCreated =>
    have hread := analysis_ignored hkeys hdeleted
    refine hother (by decide) ⟨?_, ?_, ?_⟩
    · simp only [JobEvent.handle, processMessageCreatedEvent, hread]
    · simp only [JobEvent.handle, processMessageCreatedEvent, hread]
    · simp [CallsProvider, hread]
  | sequenceStepExecute =>
    have hread := step_ignored hdeleted
    refine hother (by decide) ⟨?_, rfl, ?_⟩
    · simp only [JobEvent.handle, SequenceRequests.processSequenceStepEvent, hread]
    · rintro ⟨work, hwork⟩
      rw [hread] at hwork
      cases hwork
  | leadCreated => exact hother (by decide) ⟨routing_answered hdeleted _ _ _, rfl, id⟩
  | leadUpdated => exact hother (by decide) ⟨routing_answered hdeleted _ _ _, rfl, id⟩
  | leadScoreUpdated => exact hother (by decide) ⟨routing_answered hdeleted _ _ _, rfl, id⟩
  | integrationLeadCreated =>
    exact hother (by decide) ⟨integration_answered hdeleted _ _, rfl, not_callsIntegration hdeleted⟩
  | integrationLeadUpdated =>
    exact hother (by decide) ⟨integration_answered hdeleted _ _, rfl, not_callsIntegration hdeleted⟩
  | integrationLeadScoreUpdated =>
    exact hother (by decide) ⟨integration_answered hdeleted _ _, rfl, not_callsIntegration hdeleted⟩
  | integrationTimelineCreated => exact hother (by decide) ⟨integration_answered hdeleted _ _, rfl, id⟩

namespace DeletedRows

def plainInputs : JobInputs := { newId := fun _ => "id-1", today := 1 }

def leadDeleted : Db :=
  LeadService.removeLead
    { leads := Table.empty.insert (LeadRepository.create "lead-1" "tenant-1" {})
      sequences := Table.empty.insert ⟨"sequence-1", "tenant-1", "Welcome", none, "lead_created", "active"⟩ } "lead-1"

end DeletedRows

theorem deleted_rows_harmless_routing :
    Harmless plainDeployment leadDeleted (fun _ => none) (routingJob "tenant-1" "lead-1" "lead.created").payload
      plainInputs .leadCreated :=
  (deleted_rows_harmless plainDeployment leadDeleted (fun _ => none) .leadCreated _ plainInputs
    (fun m hm => absurd hm (Table.not_mem_empty m)) ⟨"lead-1", by decide, by decide⟩).mpr fun h => by cases h.1

theorem trigger_of_deleted_lead_raises :
    RowDeleted leadDeleted (triggerJob "tenant-1" "lead-1" "lead_created").payload .sequenceTrigger ∧
      ((JobEvent.sequenceTrigger.handle plainDeployment leadDeleted (fun _ => none)
        (triggerJob "tenant-1" "lead-1" "lead_created").payload plainInputs).1.run plainDeployment.settings
          leadDeleted {}).answer = .raised :=
  ⟨⟨"lead-1", by decide, by decide⟩, by rfl⟩

end Leadline
