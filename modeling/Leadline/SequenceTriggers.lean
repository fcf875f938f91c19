import Leadline.Conversations
import Leadline.SequenceWorkers

namespace Leadline

open Library

namespace SequenceTriggers

open SequenceWorkers

def madeBy (newId : ℕ → Id) (tenantId leadId : Id) (sequences : List Sequence) : List Made :=
  sequences.zipIdx.map fun (sequence, k) =>
    let enrollment := SequenceEnrollmentRepository.newEnrollment (newId (2 * k)) tenantId leadId sequence.id
    ⟨enrollment, enrolledEvent (newId (2 * k + 1)) enrollment⟩

def writes (made : List Made) : List Write :=
  made.flatMap fun m => [.enrollment (.add m.enrollment), .timelineEvent (.add m.event)]

def jobs (tenantId : Id) (made : List Made) : List QueueJob := made.map fun m => stepJob tenantId m.enrollment.id

def processSequenceTriggerEvent (db : Db) (payload : Dict) (newId : ℕ → Id) : Work Unit :=
  match readTriggerJob db payload with
  | none => .answered ()
  | some (tenantId, leadId, sequences) =>
    if sequences.isEmpty ∨ ConversationService.LeadExists db (some leadId) then
      let made := madeBy newId tenantId leadId sequences
      .commits { writes := writes made, value := (), before := jobs tenantId made }
    else .raised

theorem processSequenceTriggerEvent_cases (db : Db) (payload : Dict) (newId : ℕ → Id) :
    processSequenceTriggerEvent db payload newId = .answered () ∨
      processSequenceTriggerEvent db payload newId = .raised ∨
      ∃ tenantId leadId sequences, readTriggerJob db payload = some (tenantId, leadId, sequences) ∧
        (sequences = [] ∨ ConversationService.LeadExists db (some leadId)) ∧
        processSequenceTriggerEvent db payload newId = .commits
          { writes := writes (madeBy newId tenantId leadId sequences), value := ()
            before := jobs tenantId (madeBy newId tenantId leadId sequences) } := by
  unfold processSequenceTriggerEvent
  cases hread : readTriggerJob db payload with
  | none => exact .inl rfl
  | some r =>
    obtain ⟨tenantId, leadId, sequences⟩ := r
    dsimp only
    split
    · rename_i hlead
      exact .inr (.inr ⟨tenantId, leadId, sequences, rfl, hlead.imp List.isEmpty_iff.mp id, rfl⟩)
    · exact .inr (.inl rfl)

theorem readTriggerJob_reads {db : Db} {payload : Dict} {tenantId leadId : Id} {sequences : List Sequence}
    (h : readTriggerJob db payload = some (tenantId, leadId, sequences)) :
    ∃ trigger, payload.text "tenant_id" = some tenantId ∧ payload.text "lead_id" = some leadId ∧
      payload.text "trigger" = some trigger ∧
      sequences = SequenceRepository.listActiveSequencesByTrigger db tenantId trigger := by
  unfold readTriggerJob at h
  split at h
  · rename_i t l trigger ht hl htrigger
    obtain ⟨rfl, hrest⟩ := Prod.mk.inj (Option.some.inj h)
    obtain ⟨rfl, rfl⟩ := Prod.mk.inj hrest
    exact ⟨trigger, ht, hl, htrigger, rfl⟩
  · cases h

theorem mem_writes_madeBy {newId : ℕ → Id} {tenantId leadId : Id} {sequences : List Sequence} {w : Write}
    (h : w ∈ writes (madeBy newId tenantId leadId sequences)) :
    ∃ sequence ∈ sequences, ∃ k,
      let enrollment := SequenceEnrollmentRepository.newEnrollment (newId (2 * k)) tenantId leadId sequence.id
      w = .enrollment (.add enrollment) ∨ w = .timelineEvent (.add (enrolledEvent (newId (2 * k + 1)) enrollment)) := by
  obtain ⟨made, hmade, hw⟩ := List.mem_flatMap.mp h
  obtain ⟨⟨sequence, k⟩, hmem, rfl⟩ := List.mem_map.mp hmade
  refine ⟨sequence, List.fst_mem_of_mem_zipIdx hmem, k, ?_⟩
  rcases List.mem_cons.mp hw with rfl | hw
  · exact .inl rfl
  · exact .inr (List.mem_singleton.mp hw)

theorem writeAll_writes (db : Db) (made : List Made) : db.writeAll (writes made) = commitEnrollments db made := by
  induction made generalizing db with
  | nil => rfl
  | cons m made ih =>
    have hfirst : db.writeAll (writes (m :: made)) =
        (commitEnrollments db [m]).writeAll (writes made) := rfl
    rw [hfirst, ih]
    rfl

theorem writeAll_leads (db : Db) (made : List Made) : (db.writeAll (writes made)).leads = db.leads := by
  rw [writeAll_writes]
  rfl

theorem writeAll_sequences (db : Db) (made : List Made) : (db.writeAll (writes made)).sequences = db.sequences := by
  rw [writeAll_writes]
  rfl

theorem readTriggerJob_congr {db db' : Db} (h : db'.sequences = db.sequences) (payload : Dict) :
    readTriggerJob db' payload = readTriggerJob db payload := by
  simp only [readTriggerJob, SequenceRepository.listActiveSequencesByTrigger, h]

theorem length_commitEnrollments {db : Db} {m : Made} {made : List Made}
    (hid : db.enrollments.Fresh m.enrollment.id) :
    db.enrollments.rows.length < (commitEnrollments db (m :: made)).enrollments.rows.length := by
  have hgrows : ∀ (made : List Made) (t : Table SequenceEnrollment.id),
      t.rows.length ≤ (made.foldl (fun t m => t.insert m.enrollment) t).rows.length := by
    intro made
    induction made with
    | nil => exact fun t => Nat.le_refl _
    | cons n made ih =>
      intro t
      have hone : t.rows.length ≤ (t.insert n.enrollment).rows.length := by
        unfold Table.insert
        split
        · exact Nat.le_refl _
        · simp
      exact hone.trans (ih _)
  have hfirst : (db.enrollments.insert m.enrollment).rows.length = db.enrollments.rows.length + 1 := by
    rw [Table.rows_insert hid, List.length_append]
    rfl
  have hrest := hgrows made (db.enrollments.insert m.enrollment)
  have hall : (commitEnrollments db (m :: made)).enrollments =
      made.foldl (fun t m => t.insert m.enrollment) (db.enrollments.insert m.enrollment) := rfl
  rw [hall]
  omega

end SequenceTriggers

end Leadline
