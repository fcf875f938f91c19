import Leadline.SequenceService
import Leadline.Transactions

namespace Leadline

open Library

structure SequenceCreate where
  name : String
  description : Option String := none
  trigger : String
  status : String := "draft"

structure SequenceUpdate where
  name : Option (Option String) := none
  description : Option (Option String) := none
  trigger : Option (Option String) := none
  status : Option (Option String) := none

def SequenceUpdate.apply (data : SequenceUpdate) (s : Sequence) : Option Sequence := do
  let name ← setColumn s.name data.name
  let trigger ← setColumn s.trigger data.trigger
  let status ← setColumn s.status data.status
  pure { s with
    name := name, description := data.description.getD s.description, trigger := trigger, status := status }

theorem SequenceUpdate.apply_eq_some {data : SequenceUpdate} {s updated : Sequence}
    (h : data.apply s = some updated) : updated.id = s.id ∧ updated.tenantId = s.tenantId := by
  simp only [apply, Option.bind_eq_bind, Option.bind_eq_some_iff, Option.pure_def, Option.some.injEq] at h
  obtain ⟨_, -, _, -, _, -, rfl⟩ := h
  exact ⟨rfl, rfl⟩

theorem SequenceStepUpdate.apply_eq_some {data : SequenceStepUpdate} {s updated : SequenceStep}
    (h : data.apply s = some updated) : updated.id = s.id ∧ updated.sequenceId = s.sequenceId := by
  simp only [apply, Option.bind_eq_bind, Option.bind_eq_some_iff, Option.pure_def, Option.some.injEq] at h
  obtain ⟨_, -, _, -, _, -, rfl⟩ := h
  exact ⟨rfl, rfl⟩

namespace SequenceRepository

def create (id tenantId : Id) (data : SequenceCreate) : Sequence where
  id := id
  tenantId := tenantId
  name := data.name
  description := data.description
  trigger := data.trigger
  status := data.status

def listSequences (db : Db) (tenantId : Id) : List Sequence :=
  (db.sequences.rows.filter fun s => s.tenantId = tenantId).reverse

end SequenceRepository

def SequenceStepRepository.create (id sequenceId : Id) (data : SequenceStepCreate) : SequenceStep where
  id := id
  sequenceId := sequenceId
  orderIndex := data.orderIndex
  type := data.type
  delaySeconds := data.delaySeconds
  template := data.template

def sequenceNotFound : HTTPException := ⟨404, "sequence not found"⟩

def stepNotFound : HTTPException := ⟨404, "step not found"⟩

def leadOrSequenceNotFound : HTTPException := ⟨404, "lead or sequence not found"⟩

namespace SequenceRequests

section Requests

variable (db : Db) (tenantId : Id)

def createSequence (payload : SequenceCreate) (id : Id) : Work Sequence :=
  let record := SequenceRepository.create id tenantId payload
  .commits { writes := [.sequence (.add record)], value := record }

def listSequences : Work (List Sequence) := .answered (SequenceRepository.listSequences db tenantId)

def getSequence (sequenceId : Id) : Work Sequence :=
  match SequenceRepository.get db tenantId sequenceId with
  | none => .refused sequenceNotFound
  | some record => .answered record

def updateSequence (sequenceId : Id) (payload : SequenceUpdate) : Work Sequence :=
  match SequenceRepository.get db tenantId sequenceId with
  | none => .refused sequenceNotFound
  | some record =>
    match payload.apply record with
    | none => .raised
    | some updated => .commits { writes := [.sequence (.set updated)], value := updated }

def deleteSequence (sequenceId : Id) : Work Unit :=
  match SequenceRepository.get db tenantId sequenceId with
  | none => .refused sequenceNotFound
  | some record => .commits { writes := [.sequence (.delete record.id)], value := () }

def createStep (sequenceId : Id) (payload : SequenceStepCreate) (id : Id) : Work SequenceStep :=
  match SequenceRepository.get db tenantId sequenceId with
  | none => .refused sequenceNotFound
  | some _ =>
    let record := SequenceStepRepository.create id sequenceId payload
    .commits { writes := [.step (.add record)], value := record }

def listSteps (sequenceId : Id) : Work (List SequenceStep) :=
  match SequenceRepository.get db tenantId sequenceId with
  | none => .answered []
  | some _ => .answered (SequenceStepRepository.listForSequence db sequenceId)

def updateStep (sequenceId stepId : Id) (payload : SequenceStepUpdate) : Work SequenceStep :=
  match SequenceService.findStep db tenantId sequenceId stepId with
  | none => .refused stepNotFound
  | some record =>
    match payload.apply record with
    | none => .raised
    | some updated => .commits { writes := [.step (.set updated)], value := updated }

def deleteStep (sequenceId stepId : Id) : Work Unit :=
  match SequenceService.findStep db tenantId sequenceId stepId with
  | none => .refused stepNotFound
  | some record => .commits { writes := [.step (.delete record.id)], value := () }

def enrollLead (sequenceId leadId id : Id) : Work SequenceEnrollment :=
  match SequenceService.enroll db tenantId sequenceId leadId id with
  | none => .refused leadOrSequenceNotFound
  | some enrollment =>
    .commits
      { writes := [.enrollment (.add enrollment)], value := enrollment
        after := [stepJob tenantId enrollment.id] }

end Requests

def usageWrites : Option UsageChange → List Write
  | none => []
  | some change => [.usage change]

/-- `send` is how the provider's call ends. -/
def processSequenceStepEvent (settings : Settings) (db : Db) (payload : Dict) (send : CallOutcome) (today : Day)
    (eventId : Id) : Work Unit :=
  match readStepJob db payload with
  | .ignored => .answered ()
  | .finished enrollment => .commits { writes := [.enrollment (.set enrollment.complete)], value := () }
  | .execute work =>
    match (work.deliver settings send).returned with
    | none => .raised
    | some token =>
      .commits
        { writes := usageWrites (work.recordUsage db today token) ++
            [.timelineEvent (.add (work.timelineEvent eventId)), .enrollment (.set (work.advance work.enrollment))]
          value := ()
          before := if work.isLast then [] else [work.followUp] }

variable {settings : Settings} {db : Db} {tenantId sequenceId stepId id : Id}

theorem createStep_after (payload : SequenceStepCreate) :
    (SequenceService.createStep db tenantId sequenceId payload id).after db =
      ((createStep db tenantId sequenceId payload id).run settings db {}).db := by
  unfold SequenceService.createStep createStep
  cases SequenceRepository.get db tenantId sequenceId with
  | none => rfl
  | some sequence => rfl

theorem deleteStep_after :
    (SequenceService.deleteStep db tenantId sequenceId stepId).after db =
      ((deleteStep db tenantId sequenceId stepId).run settings db {}).db := by
  unfold SequenceService.deleteStep deleteStep
  cases hfind : SequenceService.findStep db tenantId sequenceId stepId with
  | none => rfl
  | some s =>
    obtain ⟨_, -, hs⟩ := Option.bind_eq_some_iff.mp hfind
    have hid := (Table.find?_eq_some_iff.mp (Option.filter_eq_some_iff.mp hs).1).2
    simp only [EditResult.after, Work.run, SQSPublisher.deliver, CallOutcome.takesEffect, CallOutcome.raises,
      if_true, Bool.false_eq_true, if_false, Db.writeAll, List.foldl_cons, List.foldl_nil, Db.write,
      RowWrite.apply, hid]

theorem updateStep_after (payload : SequenceStepUpdate) :
    (SequenceService.updateStep db tenantId sequenceId stepId payload).after db =
      ((updateStep db tenantId sequenceId stepId payload).run settings db {}).db := by
  unfold SequenceService.updateStep updateStep
  cases hfind : SequenceService.findStep db tenantId sequenceId stepId with
  | none => rfl
  | some s =>
    dsimp only
    cases happly : payload.apply s with
    | none => rfl
    | some updated =>
      obtain ⟨_, -, hs⟩ := Option.bind_eq_some_iff.mp hfind
      have hrow := (Option.filter_eq_some_iff.mp hs).1
      have hid : updated.id = s.id := (SequenceStepUpdate.apply_eq_some happly).1
      have hput := Table.modify_eq_put (f := fun s => { updated with id := s.id }) (fun _ => rfl) hrow
      dsimp only
      rw [hput, ← hid]
      rfl

theorem writeAll_complete {enrollment : SequenceEnrollment}
    (hrow : db.enrollments.find? enrollment.id = some enrollment) :
    db.writeAll [.enrollment (.set enrollment.complete)] = completeEnrollment db enrollment := by
  have hput := Table.modify_eq_put SequenceEnrollment.complete_id hrow
  unfold completeEnrollment
  rw [hput]
  rfl

theorem writeAll_commit {work : StepWork} (usage : Option UsageChange) (eventId : Id)
    (hrow : db.enrollments.find? work.enrollment.id = some work.enrollment) :
    db.writeAll (usageWrites usage ++
      [.timelineEvent (.add (work.timelineEvent eventId)), .enrollment (.set (work.advance work.enrollment))]) =
      work.commit db usage eventId := by
  have hput := Table.modify_eq_put work.advance_id hrow
  unfold StepWork.commit
  rw [hput]
  cases usage with
  | none => rfl
  | some change => rfl

theorem processSequenceStepEvent_eq (payload : Dict) (calls : StepCalls) :
    (Leadline.processSequenceStepEvent settings db payload calls).db =
      ((processSequenceStepEvent settings db payload calls.send calls.today calls.eventId).run settings db
        ⟨[calls.publish], calls.commit, []⟩).db := by
  unfold Leadline.processSequenceStepEvent processSequenceStepEvent
  rcases readStepJob_cases db payload with hread | ⟨e, hread, -, hrow, -, -⟩ | ⟨work, hread, hwork⟩
  · simp only [hread, Work.run]
  · simp only [hread, ← writeAll_complete hrow, Work.run_db, Work.written, SQSPublisher.deliver]
    cases calls.commit with
    | returns => rfl
    | raisesAfterEffect => rfl
    | raisesWithoutEffect => rfl
  · simp only [hread, Work.run_db]
    rcases work.deliver settings calls.send with ⟨token, message⟩
    cases token with
    | none => rfl
    | some token =>
      dsimp only [Work.written]
      rw [← writeAll_commit _ _ hwork.row]
      cases work.isLast with
      | true =>
        cases calls.commit with
        | returns => rfl
        | raisesAfterEffect => rfl
        | raisesWithoutEffect => rfl
      | false =>
        have hraised : (SQSPublisher.publish settings calls.publish work.followUp).1 = .raised ↔
            (SQSPublisher.deliver settings [work.followUp] [calls.publish]).1 = true :=
          SQSPublisher.publish_raised_iff
        simp only [Bool.false_eq_true, if_false]
        rcases hpublish : SQSPublisher.publish settings calls.publish work.followUp with ⟨result, sent⟩
        rw [hpublish] at hraised
        cases result with
        | raised =>
          rw [if_pos (hraised.mp rfl)]
          rfl
        | skipped =>
          rw [if_neg fun h => SQSPublisher.Result.noConfusion (hraised.mpr h)]
          cases calls.commit with
          | returns => rfl
          | raisesAfterEffect => rfl
          | raisesWithoutEffect => rfl
        | published =>
          rw [if_neg fun h => SQSPublisher.Result.noConfusion (hraised.mpr h)]
          cases calls.commit with
          | returns => rfl
          | raisesAfterEffect => rfl
          | raisesWithoutEffect => rfl

theorem mem_stepWrites {usage : Option UsageChange} {event : LeadTimelineEvent} {enrollment : SequenceEnrollment}
    {w : Write}
    (h : w ∈ usageWrites usage ++ [.timelineEvent (.add event), .enrollment (.set enrollment)]) :
    (∃ change ∈ usage, w = .usage change) ∨ w = .timelineEvent (.add event) ∨ w = .enrollment (.set enrollment) := by
  rcases List.mem_append.mp h with h | h
  · cases usage with
    | none => cases h
    | some change => exact .inl ⟨change, rfl, List.mem_singleton.mp h⟩
  · rcases List.mem_cons.mp h with rfl | h
    · exact .inr (.inl rfl)
    · exact .inr (.inr (List.mem_singleton.mp h))

theorem processSequenceStepEvent_cases (settings : Settings) (db : Db) (payload : Dict) (send : CallOutcome)
    (today : Day) (eventId : Id) :
    processSequenceStepEvent settings db payload send today eventId = .answered () ∨
      processSequenceStepEvent settings db payload send today eventId = .raised ∨
      (∃ enrollment, readStepJob db payload = .finished enrollment ∧
        processSequenceStepEvent settings db payload send today eventId =
          .commits { writes := [.enrollment (.set enrollment.complete)], value := () }) ∨
      ∃ work token, readStepJob db payload = .execute work ∧ work.ReadFrom db payload ∧
        processSequenceStepEvent settings db payload send today eventId = .commits
          { writes := usageWrites (work.recordUsage db today token) ++
              [.timelineEvent (.add (work.timelineEvent eventId)),
                .enrollment (.set (work.advance work.enrollment))]
            value := ()
            before := if work.isLast then [] else [work.followUp] } := by
  unfold processSequenceStepEvent
  rcases readStepJob_cases db payload with hread | ⟨e, hread, -, -, -, -⟩ | ⟨work, hread, hwork⟩
  · simp only [hread]
    exact .inl trivial
  · simp only [hread]
    exact .inr (.inr (.inl ⟨e, rfl, rfl⟩))
  · simp only [hread]
    cases (work.deliver settings send).returned with
    | none => exact .inr (.inl rfl)
    | some token => exact .inr (.inr (.inr ⟨work, token, rfl, hwork, rfl⟩))

end SequenceRequests

end Leadline
