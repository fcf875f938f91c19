import Leadline.JobCascade
import Mathlib.Algebra.Order.BigOperators.Group.List
import Mathlib.Algebra.Order.Ring.Nat

/-!
Why the workers come to an end: a job pays for its handlings and for the jobs that they put on the
queues, and an enrollment for the jobs of its remaining steps.
-/

namespace Leadline.JobCascade

open Library WorkQueue SequenceStepRepository SequenceWorkers

def perJob : ℕ := 1 + WorkerLoop.maxRetries

def stepCount (db : Db) (sequenceId : Id) : ℕ := (listForSequence db sequenceId).length

def enrolling (db : Db) (payload : Dict) : ℕ :=
  match readTriggerJob db payload with
  | none => 0
  | some (_, _, sequences) => (sequences.map fun s => perJob * (1 + stepCount db s.id)).sum

def following (db : Db) (payload : Dict) : JobEvent → ℕ
  | .messageCreated => ((followers db payload).map fun job => perJob + enrolling db job.payload).sum
  | .sequenceTrigger => enrolling db payload
  | _ => 0

def cost (db : Db) (q : Queued) : ℕ :=
  1 + (WorkerLoop.maxRetries - q.receives) + (JobEvent.ofPayload q.job.payload).elim 0 (following db q.job.payload)

def remaining (db : Db) (e : SequenceEnrollment) : ℕ :=
  if e.status = .active then stepCount db e.sequenceId - e.currentStepIndex else 0

def potential (db : Db) (w : World) : ℕ := perJob * (w.db.enrollments.rows.map (remaining db)).sum

variable {d : Deployment} {db db' : Db} {payload : Dict} {w : World} {q : Queued} {inputs : JobInputs}

theorem stepCount_congr (h : Fixed db db') : stepCount db' = stepCount db := by
  funext sequenceId
  simp only [stepCount, listForSequence, h.steps]

theorem enrolling_congr (h : Fixed db db') : enrolling db' = enrolling db := by
  funext payload
  simp only [enrolling, SequenceTriggers.readTriggerJob_congr h.sequences, stepCount_congr h]

theorem followers_congr (h : Fixed db db') : followers db' = followers db := by
  funext payload
  simp only [followers, MessageEvents.sessionLeadId, SessionRepository.get, h.sessions]

theorem cost_congr (h : Fixed db db') : cost db' = cost db := by
  have hfollowing : following db' = following db := by
    funext payload event
    simp only [following, followers_congr h, enrolling_congr h]
  funext q
  simp only [cost, hfollowing]

theorem potential_congr (h : Fixed db db') : potential db' = potential db := by
  have hremaining : remaining db' = remaining db := by
    funext e
    simp only [remaining, stepCount_congr h]
  funext w
  simp only [potential, hremaining]

theorem cost_pos (db : Db) (q : Queued) : 0 < cost db q := by
  unfold cost
  omega

theorem cost_again (db : Db) (q : Queued) : ((q.again .raised).map (cost db)).sum < cost db q := by
  unfold Queued.again
  dsimp only
  split
  · rename_i hretry
    rw [Multiset.map_singleton, Multiset.sum_singleton]
    unfold cost
    dsimp only
    omega
  · rw [Multiset.map_zero, Multiset.sum_zero]
    exact cost_pos db q

theorem sum_published_le (db : Db) (jobs : List QueueJob) (p : QueueJob → Bool) :
    ((published (jobs.filter p)).map (cost db)).sum ≤ (jobs.map fun job => cost db ⟨job, 0⟩).sum := by
  have hcosts : ((published (jobs.filter p)).map (cost db)).sum =
      ((jobs.filter p).map fun job => cost db ⟨job, 0⟩).sum := by
    simp only [published, Multiset.map_coe, Multiset.sum_coe, List.map_map]
    rfl
  rw [hcosts]
  apply List.Sublist.sum_le_sum (List.filter_sublist.map _)
  intro n _
  exact Nat.zero_le n

theorem cost_stepJob (db : Db) (tenantId enrollmentId : Id) : cost db ⟨stepJob tenantId enrollmentId, 0⟩ = perJob := by
  have hevent : JobEvent.ofPayload (stepJob tenantId enrollmentId).payload = some .sequenceStepExecute :=
    JobEvent.ofPayload_eq_some.mpr rfl
  simp only [cost, hevent, Option.elim_some, following, perJob]
  rfl

theorem cost_scoreUpdatedJobs (db : Db) {tenantId leadId : Id} {job : QueueJob}
    (h : job ∈ scoreUpdatedJobs tenantId leadId) : cost db ⟨job, 0⟩ ≤ perJob + enrolling db job.payload := by
  obtain ⟨event, hevent, -, hne⟩ := event_of_scoreUpdatedJobs h
  have hfollowing : following db job.payload event ≤ enrolling db job.payload := by
    unfold following
    split
    · exact absurd rfl hne
    · exact Nat.le_refl _
    · exact Nat.zero_le _
  simp only [cost, hevent, Option.elim_some, perJob]
  omega

theorem cost_followers (db : Db) (payload : Dict) :
    ((followers db payload).map fun job => cost db ⟨job, 0⟩).sum ≤ following db payload .messageCreated := by
  apply List.sum_le_sum
  intro job hjob
  obtain ⟨tenantId, leadId, hmem⟩ := mem_followers hjob
  exact cost_scoreUpdatedJobs db hmem

theorem sum_remaining_complete (db : Db) (enrollment : SequenceEnrollment) :
    ((completeEnrollment db enrollment).enrollments.rows.map (remaining db)).sum ≤
      (db.enrollments.rows.map (remaining db)).sum := by
  simp only [completeEnrollment, Table.modify, List.map_map]
  apply List.sum_le_sum
  intro e _
  rw [Function.comp_apply]
  split
  · exact Nat.zero_le _
  · exact Nat.le_refl _

theorem sum_remaining_commit {work : StepWork} {usage : Option UsageChange} {eventId : Id}
    (hread : work.ReadFrom db payload) :
    ((work.commit db usage eventId).enrollments.rows.map (remaining db)).sum <
      (db.enrollments.rows.map (remaining db)).sum := by
  obtain ⟨hmem, -⟩ := Table.find?_eq_some_iff.mp hread.row
  have hadvance : remaining db (work.advance work.enrollment) < remaining db work.enrollment := by
    obtain ⟨hlt, -⟩ := List.getElem?_eq_some_iff.mp hread.step
    have hsteps : stepCount db work.enrollment.sequenceId =
      (listForSequence db work.enrollment.sequenceId).length := rfl
    simp only [remaining, StepWork.advance, hread.active]
    split
    · simp only [reduceCtorEq, if_false, if_true]
      omega
    · simp only [if_true]
      omega
  simp only [StepWork.commit, Table.modify, List.map_map]
  apply List.sum_lt_sum
  · intro e he
    rw [Function.comp_apply]
    split
    · rename_i hid
      rw [Table.eq_of_key_eq he hmem hid]
      exact hadvance.le
    · exact Nat.le_refl _
  · refine ⟨work.enrollment, hmem, ?_⟩
    rw [Function.comp_apply, if_pos rfl]
    exact hadvance

theorem sum_remaining_commitEnrollments (db db' : Db) (made : List Made) :
    ((commitEnrollments db' made).enrollments.rows.map (remaining db)).sum ≤
      (db'.enrollments.rows.map (remaining db)).sum + (made.map fun m => remaining db m.enrollment).sum := by
  induction made generalizing db' with
  | nil => exact Nat.le_refl _
  | cons m made ih =>
    have hinsert : ((db'.enrollments.insert m.enrollment).rows.map (remaining db)).sum ≤
        (db'.enrollments.rows.map (remaining db)).sum + remaining db m.enrollment := by
      by_cases hid : db'.enrollments.Fresh m.enrollment.id
      · simp [Table.rows_insert hid]
      · rw [Table.insert_of_not_fresh hid]
        omega
    have hrest := ih (commitEnrollments db' [m])
    have hfirst : (commitEnrollments db' [m]).enrollments = db'.enrollments.insert m.enrollment := rfl
    rw [hfirst] at hrest
    have hall : (commitEnrollments db' (m :: made)).enrollments =
      (commitEnrollments (commitEnrollments db' [m]) made).enrollments := rfl
    rw [hall, List.map_cons, List.sum_cons]
    omega

theorem sum_madeBy (db : Db) (newId : ℕ → Id) (tenantId leadId : Id) (sequences : List Sequence) :
    let made := SequenceTriggers.madeBy newId tenantId leadId sequences
    ((SequenceTriggers.jobs tenantId made).map fun job => cost db ⟨job, 0⟩).sum +
        perJob * (made.map fun m => remaining db m.enrollment).sum =
      (sequences.map fun s => perJob * (1 + stepCount db s.id)).sum := by
  have hcosts : ∀ made : List Made, ((SequenceTriggers.jobs tenantId made).map fun job => cost db ⟨job, 0⟩).sum +
      perJob * (made.map fun m => remaining db m.enrollment).sum =
      (made.map fun m => perJob * (1 + remaining db m.enrollment)).sum := by
    intro made
    induction made with
    | nil => rfl
    | cons m made ih =>
      simp only [SequenceTriggers.jobs, List.map_cons, List.sum_cons, cost_stepJob] at ih ⊢
      rw [← ih]
      simp only [Nat.mul_add, Nat.mul_one]
      omega
  dsimp only
  rw [hcosts, SequenceTriggers.madeBy]
  have hfst := congrArg (List.map fun s : Sequence => perJob * (1 + stepCount db s.id))
    (List.zipIdx_map_fst 0 sequences)
  rw [← hfst, List.map_map, List.map_map]
  rfl

theorem Handled.paid {newId : ℕ → Id} {event : JobEvent} {c : Commit Unit}
    (h : Handled db payload newId event (.commits c)) (p : QueueJob → Bool) :
    ((published ((c.before ++ c.after).filter p)).map (cost db)).sum +
        perJob * ((db.writeAll c.writes).enrollments.rows.map (remaining db)).sum ≤
      following db payload event + perJob * (db.enrollments.rows.map (remaining db)).sum := by
  have hjobs := sum_published_le db (c.before ++ c.after) p
  cases h with
  | aside c hevent hwrites hids hbefore hafter =>
    rw [(untouched_writeAll hwrites).enrollments]
    rw [hbefore, List.nil_append] at hjobs ⊢
    rcases hafter with hnone | ⟨rfl, hafter⟩
    · rw [hnone] at hjobs ⊢
      exact Nat.add_le_add_right (hjobs.trans (Nat.zero_le _)) _
    · rw [hafter] at hjobs ⊢
      exact Nat.add_le_add_right (hjobs.trans (cost_followers db payload)) _
  | enrolls tenantId leadId sequences hevent hread =>
    subst hevent
    have hmade := sum_madeBy db newId tenantId leadId sequences
    have hrows := sum_remaining_commitEnrollments db db (SequenceTriggers.madeBy newId tenantId leadId sequences)
    have hfollowing : following db payload .sequenceTrigger =
        (sequences.map fun s => perJob * (1 + stepCount db s.id)).sum := by
      simp only [following, enrolling, hread]
    have hscaled := Nat.mul_le_mul_left perJob hrows
    rw [Nat.mul_add] at hscaled
    dsimp only at hjobs hmade ⊢
    rw [List.append_nil] at hjobs ⊢
    rw [SequenceTriggers.writeAll_writes, hfollowing, ← hmade]
    omega
  | finishes enrollment hevent hread =>
    obtain ⟨_, -, -, hget⟩ := finished_eq_some hread
    obtain ⟨hmem, -, -⟩ := ofTenant_eq_some.mp hget
    have hrows := sum_remaining_complete db enrollment
    dsimp only
    rw [SequenceRequests.writeAll_complete (Table.find?_eq_some_iff.mpr ⟨hmem, rfl⟩)]
    have hscaled := Nat.mul_le_mul_left perJob hrows
    have hnone : ((published (List.filter p ([] ++ []))).map (cost db)).sum = 0 := rfl
    omega
  | executes work usage hevent hread =>
    have hrows : ((work.commit db usage (newId 0)).enrollments.rows.map (remaining db)).sum <
      (db.enrollments.rows.map (remaining db)).sum := sum_remaining_commit hread
    dsimp only at hjobs ⊢
    rw [SequenceRequests.writeAll_commit usage (newId 0) hread.row]
    have hscaled := Nat.mul_le_mul_left perJob (Nat.succ_le_of_lt hrows)
    rw [Nat.mul_succ] at hscaled
    have hone : (((if work.isLast then [] else [work.followUp]) ++ []).map fun job => cost db ⟨job, 0⟩).sum ≤
        perJob := by
      split
      · exact Nat.zero_le _
      · have hcost := cost_stepJob db work.tenantId work.enrollment.id
        exact hcost.le
    omega

theorem handle_paid (hok : Faultless d w q inputs) :
    ((handle d w q inputs).2.map (cost w.db)).sum + potential w.db (handle d w q inputs).1 <
      cost w.db q + potential w.db w := by
  unfold potential
  cases handle_cases hok with
  | idle hdb hids hmade =>
    rw [hdb, hmade, Multiset.map_zero, Multiset.sum_zero]
    exact Nat.add_lt_add_right (cost_pos w.db q) _
  | failed event hevent hstep hdb hids hmade =>
    rw [hdb, hmade]
    exact Nat.add_lt_add_right (cost_again w.db q) _
  | commits event c hevent hhandled hfresh hdb hids hmade =>
    have hpaid := hhandled.paid fun job => (SQSPublisher.message d.settings job).isSome
    have hcost : following w.db q.job.payload event < cost w.db q := by
      simp only [cost, hevent, Option.elim_some]
      omega
    rw [hdb, hmade]
    omega

variable {c c' : State World Queued}

theorem run_length {labels : List (Queued × JobInputs)}
    (hrun : GuardedRun (WorkQueue.Step (handle d)) (Admitted d) c labels c') :
    Fixed c.store.db c'.store.db ∧
      labels.length + total (cost c.store.db) (potential c.store.db) c' ≤
        total (cost c.store.db) (potential c.store.db) c := by
  apply hrun.invariant_measure (fun c' => Fixed c.store.db c'.store.db)
    (total (cost c.store.db) (potential c.store.db))
  · rintro c' ⟨q, inputs⟩ c'' hfixed hok hstep
    constructor
    · rw [hstep.store]
      exact hfixed.trans (handle_fixed hok)
    · apply hstep.total_lt
      have hpaid := handle_paid hok
      rwa [cost_congr hfixed, potential_congr hfixed] at hpaid
  · exact Fixed.refl c.store.db

end Leadline.JobCascade
