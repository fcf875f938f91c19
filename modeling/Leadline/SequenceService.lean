import Leadline.SequencePipeline

namespace Leadline

open Library

structure SequenceStepCreate where
  orderIndex : ℤ
  type : String
  delaySeconds : ℤ := 0
  template : Option String := none

structure SequenceStepUpdate where
  orderIndex : Option (Option ℤ) := none
  type : Option (Option String) := none
  delaySeconds : Option (Option ℤ) := none
  template : Option (Option String) := none

def SequenceStepUpdate.apply (payload : SequenceStepUpdate) (s : SequenceStep) : Option SequenceStep := do
  let orderIndex ← setColumn s.orderIndex payload.orderIndex
  let type ← setColumn s.type payload.type
  let delaySeconds ← setColumn s.delaySeconds payload.delaySeconds
  pure { s with
    orderIndex := orderIndex, type := type, delaySeconds := delaySeconds
    template := payload.template.getD s.template }

inductive EditResult
  | notFound
  | raised
  | committed (db : Db)

def EditResult.after (db : Db) : EditResult → Db
  | notFound => db
  | raised => db
  | committed db' => db'

namespace SequenceService

def findStep (db : Db) (tenantId sequenceId stepId : Id) : Option SequenceStep :=
  (SequenceRepository.get db tenantId sequenceId).bind fun _ =>
    (db.steps.find? stepId).filter (fun s => s.sequenceId = sequenceId)

def createStep (db : Db) (tenantId sequenceId : Id) (payload : SequenceStepCreate) (id : Id) : EditResult :=
  match SequenceRepository.get db tenantId sequenceId with
  | none => .notFound
  | some _ => .committed { db with steps := db.steps.insert ⟨id, sequenceId, payload.orderIndex,
      payload.type, payload.delaySeconds, payload.template⟩ }

def updateStep (db : Db) (tenantId sequenceId stepId : Id) (payload : SequenceStepUpdate) : EditResult :=
  match findStep db tenantId sequenceId stepId with
  | none => .notFound
  | some s =>
    match payload.apply s with
    | none => .raised
    | some updated =>
      let steps := db.steps.modify stepId (fun s => { updated with id := s.id }) fun _ => rfl
      .committed { db with steps := steps }

def deleteStep (db : Db) (tenantId sequenceId stepId : Id) : EditResult :=
  match findStep db tenantId sequenceId stepId with
  | none => .notFound
  | some _ => .committed { db with steps := db.steps.erase stepId }

def enroll (db : Db) (tenantId sequenceId leadId id : Id) : Option SequenceEnrollment :=
  match SequenceRepository.get db tenantId sequenceId, LeadRepository.get db tenantId leadId with
  | some _, some _ => some (SequenceEnrollmentRepository.newEnrollment id tenantId leadId sequenceId)
  | _, _ => none

theorem enroll_eq_some {db : Db} {tenantId sequenceId leadId id : Id} {enrollment : SequenceEnrollment} :
    enroll db tenantId sequenceId leadId id = some enrollment ↔
      (SequenceRepository.get db tenantId sequenceId).isSome ∧
        (LeadRepository.get db tenantId leadId).isSome ∧
        enrollment = SequenceEnrollmentRepository.newEnrollment id tenantId leadId sequenceId := by
  unfold enroll
  cases SequenceRepository.get db tenantId sequenceId with
  | none => simp
  | some sequence =>
    cases LeadRepository.get db tenantId leadId with
    | none => simp
    | some lead => simp [eq_comm]

end SequenceService

def EditResult.StepsOnly (db : Db) (r : EditResult) : Prop :=
  ∃ steps, r.after db = { db with steps := steps }

theorem EditResult.stepsOnly_of {db : Db} {r : EditResult}
    (h : ∀ db', r = .committed db' → ∃ steps, db' = { db with steps := steps }) : r.StepsOnly db := by
  cases r with
  | notFound => exact ⟨db.steps, rfl⟩
  | raised => exact ⟨db.steps, rfl⟩
  | committed db' => exact h db' rfl

namespace SequenceService

variable {db : Db} {tenantId sequenceId stepId id : Id}

theorem createStep_stepsOnly {payload : SequenceStepCreate} :
    (createStep db tenantId sequenceId payload id).StepsOnly db := by
  apply EditResult.stepsOnly_of
  intro db' h
  unfold createStep at h
  split at h
  · cases h
  · cases h
    exact ⟨_, rfl⟩

theorem updateStep_stepsOnly {payload : SequenceStepUpdate} :
    (updateStep db tenantId sequenceId stepId payload).StepsOnly db := by
  apply EditResult.stepsOnly_of
  intro db' h
  unfold updateStep at h
  split at h
  · cases h
  · split at h
    · cases h
    · cases h
      exact ⟨_, rfl⟩

theorem deleteStep_stepsOnly : (deleteStep db tenantId sequenceId stepId).StepsOnly db := by
  apply EditResult.stepsOnly_of
  intro db' h
  unfold deleteStep at h
  split at h
  · cases h
  · cases h
    exact ⟨_, rfl⟩

end SequenceService

end Leadline
