import Leadline.Library.GuardedRun
import Leadline.SequencePipeline

namespace Leadline

open Library

namespace StepDelays

structure Execution where
  enrollmentId : Id
  index : ℕ
  time : Timestamp
  delivered : Option Delivery

structure Progress where
  db : Db
  now : Timestamp
  executions : List Execution := []
  published : List SentMessage := []

structure Handling where
  payload : Dict
  calls : StepCalls
  time : Timestamp

def executions (settings : Settings) (db : Db) (h : Handling) : List Execution :=
  match readStepJob db h.payload with
  | .execute work =>
    [⟨work.enrollment.id, work.enrollment.currentStepIndex, h.time,
      (processSequenceStepEvent settings db h.payload h.calls).delivered⟩]
  | _ => []

def Progress.next (settings : Settings) (s : Progress) (h : Handling) : Progress where
  db := (processSequenceStepEvent settings s.db h.payload h.calls).db
  now := h.time
  executions := s.executions ++ StepDelays.executions settings s.db h
  published := s.published ++ (processSequenceStepEvent settings s.db h.payload h.calls).published

def HandlingStep (settings : Settings) (s : Progress) (h : Handling) (s' : Progress) : Prop := s' = s.next settings h

/-- The clock does not go back; a job is handled whenever the queue gives it out. -/
def Later (s : Progress) (h : Handling) : Prop := s.now ≤ h.time

variable (delay : SequenceStep → ℤ)

def delayStep (s : SequenceStep) : SequenceStep := { s with delaySeconds := delay s }

theorem delayStep_id (s : SequenceStep) : (delayStep delay s).id = s.id := rfl

def delayDb (db : Db) : Db := { db with steps := db.steps.mapRows (delayStep delay) (delayStep_id delay) }

def delayWork (work : StepWork) : StepWork := { work with step := delayStep delay work.step }

def delayRead : StepRead → StepRead
  | .ignored => .ignored
  | .finished enrollment => .finished enrollment
  | .execute work => .execute (delayWork delay work)

def Progress.delayed (s : Progress) : Progress := { s with db := delayDb delay s.db }

theorem listForSequence_delayDb (db : Db) (sequenceId : Id) :
    SequenceStepRepository.listForSequence (delayDb delay db) sequenceId =
      (SequenceStepRepository.listForSequence db sequenceId).map (delayStep delay) := by
  unfold SequenceStepRepository.listForSequence
  rw [List.map_insertionSort SequenceStepRepository.Before SequenceStepRepository.Before (delayStep delay)]
  · simp only [delayDb, Table.mapRows, List.filter_map]
    rfl
  · intro s _ t _
    exact Iff.rfl

theorem readStepJob_delayDb (db : Db) (payload : Dict) :
    readStepJob (delayDb delay db) payload = delayRead delay (readStepJob db payload) := by
  unfold readStepJob
  split
  · rename_i tenantId enrollmentId ht he
    have henrollment : SequenceEnrollmentRepository.get (delayDb delay db) tenantId enrollmentId =
        SequenceEnrollmentRepository.get db tenantId enrollmentId := rfl
    rw [henrollment]
    cases SequenceEnrollmentRepository.get db tenantId enrollmentId with
    | none => rfl
    | some enrollment =>
      dsimp only
      split
      · rfl
      · have hsequence : SequenceRepository.get (delayDb delay db) tenantId enrollment.sequenceId =
            SequenceRepository.get db tenantId enrollment.sequenceId := rfl
        have hlead : LeadRepository.get (delayDb delay db) tenantId enrollment.leadId =
            LeadRepository.get db tenantId enrollment.leadId := rfl
        rw [hsequence]
        cases SequenceRepository.get db tenantId enrollment.sequenceId with
        | none => rfl
        | some sequence =>
          dsimp only
          rw [hlead]
          cases LeadRepository.get db tenantId enrollment.leadId with
          | none => rfl
          | some lead =>
            dsimp only
            rw [listForSequence_delayDb, List.getElem?_map, List.length_map]
            cases (SequenceStepRepository.listForSequence db sequence.id)[enrollment.currentStepIndex]? with
            | none => rfl
            | some step => rfl
  · rfl

theorem process_delayDb (settings : Settings) (db : Db) (payload : Dict) (calls : StepCalls) :
    processSequenceStepEvent settings (delayDb delay db) payload calls =
      { processSequenceStepEvent settings db payload calls with
        db := delayDb delay (processSequenceStepEvent settings db payload calls).db } := by
  unfold processSequenceStepEvent
  rw [readStepJob_delayDb]
  cases readStepJob db payload with
  | ignored => rfl
  | finished enrollment =>
    simp only [delayRead]
    cases calls.commit with
    | returns => rfl
    | raisesAfterEffect => rfl
    | raisesWithoutEffect => rfl
  | execute work =>
    have hdeliver : (delayWork delay work).deliver settings calls.send = work.deliver settings calls.send := rfl
    have hlast : (delayWork delay work).isLast = work.isLast := rfl
    have hfollowUp : (delayWork delay work).followUp = work.followUp := rfl
    simp only [delayRead, hdeliver, hlast, hfollowUp]
    rcases work.deliver settings calls.send with ⟨token, message⟩
    cases token with
    | none => rfl
    | some token =>
      have hcommit : (delayWork delay work).commit (delayDb delay db)
          ((delayWork delay work).recordUsage (delayDb delay db) calls.today token) calls.eventId =
            delayDb delay (work.commit db (work.recordUsage db calls.today token) calls.eventId) := rfl
      have hcommitted : ∀ db' : Db, (if calls.commit.takesEffect then delayDb delay db' else delayDb delay db) =
          delayDb delay (if calls.commit.takesEffect then db' else db) := by
        intro db'
        split
        · rfl
        · rfl
      simp only [hcommit, hcommitted]
      split
      · rfl
      · split
        · rfl
        · rfl

theorem executions_delayDb (settings : Settings) (db : Db) (h : Handling) :
    executions settings (delayDb delay db) h = executions settings db h := by
  unfold executions
  rw [readStepJob_delayDb, process_delayDb]
  cases readStepJob db h.payload with
  | ignored => rfl
  | finished enrollment => rfl
  | execute work => rfl

theorem next_delayed (settings : Settings) (s : Progress) (h : Handling) :
    (s.delayed delay).next settings h = (s.next settings h).delayed delay := by
  simp only [Progress.next, Progress.delayed, process_delayDb, executions_delayDb]

theorem run_delayed {settings : Settings} {s s' : Progress} {handlings : List Handling}
    (hrun : GuardedRun (HandlingStep settings) Later s handlings s') :
    GuardedRun (HandlingStep settings) Later (s.delayed delay) handlings (s'.delayed delay) := by
  induction hrun with
  | nil s => exact .nil _
  | cons hok hstep _ ih =>
    subst hstep
    exact .cons hok (next_delayed delay settings _ _).symm ih

variable {settings : Settings} {s s' : Progress} {h : Handling} {enrollmentId : Id} {start : Timestamp}

structure InOrder (enrollmentId : Id) (start : Timestamp) (s : Progress) : Prop where
  started : start ≤ s.now
  past : ∀ x ∈ s.executions, x.enrollmentId = enrollmentId → start ≤ x.time ∧ x.time ≤ s.now
  previous : ∀ x ∈ s.executions, x.enrollmentId = enrollmentId → 0 < x.index →
    ∃ y ∈ s.executions, y.enrollmentId = enrollmentId ∧ y.index + 1 = x.index ∧ y.time ≤ x.time
  reached : ∀ e ∈ s.db.enrollments, e.id = enrollmentId → ∀ k < e.currentStepIndex,
    ∃ y ∈ s.executions, y.enrollmentId = enrollmentId ∧ y.index = k

theorem enrollments_next {e : SequenceEnrollment} (he : e ∈ (s.next settings h).db.enrollments) :
    ∃ old ∈ s.db.enrollments, old.id = e.id ∧ (e.currentStepIndex = old.currentStepIndex ∨
      e.currentStepIndex = old.currentStepIndex + 1 ∧
        ∃ y ∈ executions settings s.db h, y.enrollmentId = e.id ∧ y.index = old.currentStepIndex) := by
  have hdb : (s.next settings h).db = (processSequenceStepEvent settings s.db h.payload h.calls).db := rfl
  rcases processSequenceStepEvent_db settings s.db h.payload h.calls with
    hsame | ⟨enrollment, -, hfinished⟩ | ⟨work, token, hread, -, hexecuted⟩
  · rw [hdb, hsame] at he
    exact ⟨e, he, rfl, .inl rfl⟩
  · rw [hdb, hfinished] at he
    obtain ⟨old, hold, rfl⟩ := mem_completeEnrollment.mp he
    refine ⟨old, hold, ?_⟩
    split
    · exact ⟨rfl, .inl rfl⟩
    · exact ⟨rfl, .inl rfl⟩
  · rw [hdb, hexecuted] at he
    obtain ⟨old, hold, rfl⟩ := StepWork.mem_commit.mp he
    refine ⟨old, hold, ?_⟩
    split
    · rename_i hid
      have hrow := (Table.find?_eq_some_iff.mp (readFrom_of_execute hread).row).1
      have hsame : old = work.enrollment := Table.eq_of_key_eq hold hrow hid
      subst hsame
      refine ⟨rfl, .inr ⟨rfl, ?_⟩⟩
      unfold executions
      rw [hread]
      exact ⟨_, List.mem_singleton_self _, rfl, rfl⟩
    · exact ⟨rfl, .inl rfl⟩

theorem mem_executions {x : Execution} (hx : x ∈ executions settings s.db h) :
    x.time = h.time ∧ ∃ e ∈ s.db.enrollments, e.id = x.enrollmentId ∧ e.currentStepIndex = x.index := by
  unfold executions at hx
  split at hx
  · rename_i work hread
    rw [List.mem_singleton.mp hx]
    obtain ⟨hrow, -⟩ := Table.find?_eq_some_iff.mp (readFrom_of_execute hread).row
    exact ⟨rfl, work.enrollment, hrow, rfl, rfl⟩
  · cases hx

theorem InOrder.next (hs : InOrder enrollmentId start s) (hlater : Later s h) :
    InOrder enrollmentId start (s.next settings h) where
  started := hs.started.trans hlater
  past := by
    intro x hx hid
    rcases List.mem_append.mp hx with hold | hnew
    · obtain ⟨hstart, hnow⟩ := hs.past x hold hid
      exact ⟨hstart, hnow.trans hlater⟩
    · obtain ⟨htime, -⟩ := mem_executions hnew
      rw [htime]
      exact ⟨hs.started.trans hlater, le_refl _⟩
  previous := by
    intro x hx hid hpos
    rcases List.mem_append.mp hx with hold | hnew
    · obtain ⟨y, hy, hyx⟩ := hs.previous x hold hid hpos
      exact ⟨y, List.mem_append_left _ hy, hyx⟩
    · obtain ⟨htime, e, he, heid, hindex⟩ := mem_executions hnew
      obtain ⟨y, hy, hyid, hyindex⟩ := hs.reached e he (heid.trans hid) (x.index - 1) (by omega)
      refine ⟨y, List.mem_append_left _ hy, hyid, by omega, ?_⟩
      rw [htime]
      exact (hs.past y hy hyid).2.trans hlater
  reached := by
    intro e he hid k hk
    obtain ⟨old, hold, hsame, hindex | ⟨hindex, y, hy, hyid, hyindex⟩⟩ := enrollments_next he
    · obtain ⟨y, hy, hyk⟩ := hs.reached old hold (hsame.trans hid) k (by omega)
      exact ⟨y, List.mem_append_left _ hy, hyk⟩
    · by_cases hlast : k = old.currentStepIndex
      · exact ⟨y, List.mem_append_right _ hy, hyid.trans hid, hyindex.trans hlast.symm⟩
      · obtain ⟨z, hz, hzk⟩ := hs.reached old hold (hsame.trans hid) k (by omega)
        exact ⟨z, List.mem_append_left _ hz, hzk⟩

end StepDelays

open StepDelays

theorem step_delays_not_applied (settings : Settings) (s₀ s : Progress) (handlings : List Handling)
    (enrollmentId : Id) (hnew : ∀ e ∈ s₀.db.enrollments, e.id = enrollmentId → e.currentStepIndex = 0)
    (hnone : s₀.executions = [])
    (hrun : GuardedRun (HandlingStep settings) Later s₀ handlings s) :
    (∀ x ∈ s.executions, x.enrollmentId = enrollmentId → s₀.now ≤ x.time ∧
      (0 < x.index → ∃ y ∈ s.executions, y.enrollmentId = enrollmentId ∧ y.index + 1 = x.index ∧
        y.time ≤ x.time)) ∧
    ∀ delay, GuardedRun (HandlingStep settings) Later (s₀.delayed delay) handlings (s.delayed delay) := by
  have hstart : InOrder enrollmentId s₀.now s₀ := by
    refine ⟨le_refl _, ?_, ?_, ?_⟩
    · simp [hnone]
    · simp [hnone]
    · intro e he hid k hk
      rw [hnew e he hid] at hk
      omega
  have horder : InOrder enrollmentId s₀.now s := by
    apply hrun.invariant (InOrder enrollmentId s₀.now) _ hstart
    rintro s h s' hs hok rfl
    exact hs.next hok
  exact ⟨fun x hx hid => ⟨(horder.past x hx hid).1, horder.previous x hx hid⟩, fun delay => run_delayed delay hrun⟩

namespace StepDelays

def enrolled : Progress where
  now := 0
  db :=
    { leads := Table.empty.insert
        (⟨"lead-1", "tenant-1", none, some "ada@example.com", none, none, none, none, none, none, none, none,
          "new", none, 0, 0, 0, none, none, none, false, some [], some []⟩ : Lead)
      sequences := Table.empty.insert ⟨"sequence-1", "tenant-1", "Welcome", none, "lead_created", "active"⟩
      steps := (Table.empty.insert ⟨"step-1", "sequence-1", 0, "email", 3600, some "Hello"⟩).insert
        ⟨"step-2", "sequence-1", 1, "email", 86400, some "Any questions?"⟩
      enrollments := Table.empty.insert
        (SequenceEnrollmentRepository.newEnrollment "enrollment-1" "tenant-1" "lead-1" "sequence-1") }

def handleAt (time : Timestamp) (eventId : Id) : Handling where
  payload := (stepJob "tenant-1" "enrollment-1").payload
  calls := { send := .returns, publish := .returns, commit := .returns, today := 1, eventId := eventId }
  time := time

def afterTwo : Progress := (enrolled.next {} (handleAt 0 "event-1")).next {} (handleAt 5 "event-2")

theorem run_of_two :
    GuardedRun (HandlingStep {}) Later enrolled [handleAt 0 "event-1", handleAt 5 "event-2"] afterTwo :=
  .cons (le_refl (0 : ℤ)) rfl (.cons (show (0 : ℤ) ≤ 5 by decide) rfl (.nil _))

end StepDelays

theorem step_delays_not_applied_two :
    GuardedRun (HandlingStep {}) Later (enrolled.delayed fun _ => 0) [handleAt 0 "event-1", handleAt 5 "event-2"]
      (afterTwo.delayed fun _ => 0) :=
  (step_delays_not_applied {} enrolled afterTwo _ "enrollment-1" (by decide +kernel) rfl run_of_two).2 fun _ => 0

theorem steps_executed_early :
    GuardedRun (HandlingStep {}) Later enrolled [handleAt 0 "event-1", handleAt 5 "event-2"] afterTwo ∧
      enrolled.now = 0 ∧
      (SequenceStepRepository.listForSequence enrolled.db "sequence-1").map SequenceStep.delaySeconds =
        [3600, 86400] ∧
      afterTwo.executions.map (fun x => (x.enrollmentId, x.index, x.time)) =
        [("enrollment-1", 0, 0), ("enrollment-1", 1, 5)] :=
  ⟨run_of_two, rfl, by decide +kernel, by decide +kernel⟩

end Leadline
