import Leadline.CascadeTermination
import Mathlib.Data.Fintype.EquivFin
import Mathlib.Data.Set.Finite.List

namespace Leadline.JobCascade

open Library WorkQueue SequenceStepRepository SequenceWorkers TenantWrites
open SequenceExecution (executed executedStep executed_commit executed_commit_of_ne)

structure Underway (db : Db) (e : SequenceEnrollment) : Prop where
  tenant : e.tenantId ≠ ""
  id : e.id ≠ ""
  sequence : (SequenceRepository.get db e.tenantId e.sequenceId).isSome
  executed : executed e.id db = stepsBefore db e
  ended : e.status = .completed → stepCount db e.sequenceId ≤ e.currentStepIndex

structure Tracked (db₀ db : Db) (ids : List Id) : Prop where
  enrollments : ∀ e ∈ db.enrollments, e.id ∈ ids
  timeline : ∀ e ∈ db.timeline, e.id ∈ ids
  executed : ∀ id, executed id db ≠ [] → id ∈ ids
  underway : ∀ e ∈ db.enrollments, db₀.enrollments.Fresh e.id → Underway db e

def Owes (db₀ : Db) (w : World) (e : SequenceEnrollment) : Prop :=
  e ∈ w.db.enrollments ∧ db₀.enrollments.Fresh e.id ∧ e.status = .active ∧ OwnsLead w.db e.tenantId e.leadId

def Pays (q : Queued) (e : SequenceEnrollment) : Prop := q.job.payload = jobOf e

variable {d : Deployment} {db db' db₀ : Db} {payload : Dict} {w : World} {q : Queued} {inputs : JobInputs}
  {event : JobEvent} {e : SequenceEnrollment}

theorem stepsBefore_congr (h : Fixed db db') (e : SequenceEnrollment) : stepsBefore db' e = stepsBefore db e := by
  simp only [stepsBefore, listForSequence, h.steps]

theorem Underway.of_fixed (h : Underway db e) (hfixed : Fixed db db')
    (hexecuted : SequenceExecution.executed e.id db' = SequenceExecution.executed e.id db) : Underway db' e where
  tenant := h.tenant
  id := h.id
  sequence := by
    have hsequence := h.sequence
    rwa [SequenceRepository.get, hfixed.sequences]
  executed := by rw [hexecuted, h.executed, stepsBefore_congr hfixed]
  ended := by
    rw [stepCount_congr hfixed]
    exact h.ended

theorem finished_ends {enrollment : SequenceEnrollment} (h : readStepJob db payload = .finished enrollment) :
    db.enrollments.find? enrollment.id = some enrollment ∧ payload.text "enrollment_id" = some enrollment.id ∧
      stepCount db enrollment.sequenceId ≤ enrollment.currentStepIndex := by
  rcases readStepJob_cases db payload with hread | ⟨e, hread, htext, hrow, -, hend⟩ | ⟨work, hread, -⟩
  · rw [hread] at h
    cases h
  · rw [hread] at h
    cases h
    exact ⟨hrow, htext, hend⟩
  · rw [hread] at h
    cases h

theorem underway_complete {enrollment : SequenceEnrollment} (h : readStepJob db payload = .finished enrollment)
    (hold : Underway db enrollment) : Underway (completeEnrollment db enrollment) enrollment.complete where
  tenant := hold.tenant
  id := hold.id
  sequence := hold.sequence
  executed := hold.executed
  ended _ := (finished_ends h).2.2

theorem underway_advance {work : StepWork} {usage : Option UsageChange} {eventId : Id} (hread : work.ReadFrom db payload)
    (hfresh : db.timeline.Fresh eventId) (hold : Underway db work.enrollment) :
    Underway (work.commit db usage eventId) (work.advance work.enrollment) where
  tenant := hold.tenant
  id := hold.id
  sequence := hold.sequence
  executed := by
    have hexecuted := executed_commit work usage hfresh
    have hprevious := hold.executed
    have hsteps : stepsBefore (work.commit db usage eventId) (work.advance work.enrollment) =
      ((listForSequence db work.enrollment.sequenceId).take (work.enrollment.currentStepIndex + 1)).map
        SequenceStep.id := rfl
    rw [hsteps, List.take_add_one, hread.step, List.map_append]
    exact hexecuted.trans (congrArg (· ++ [work.step.id]) hprevious)
  ended := by
    intro hcompleted
    have hcount := hread.count
    have hgoal : stepCount db work.enrollment.sequenceId ≤ work.enrollment.currentStepIndex + 1 := by
      by_cases hlast : work.isLast = true
      · have hle := of_decide_eq_true hlast
        unfold stepCount
        omega
      · simp [StepWork.advance, hlast, hread.active] at hcompleted
    exact hgoal

theorem executed_commitEnrollments (made : List Made) (hmade : ∀ m ∈ made, m.event.type ≠ "sequence_step_executed")
    (id : Id) : executed id (commitEnrollments db made) = executed id db := by
  induction made generalizing db with
  | nil => rfl
  | cons m made ih =>
    have hrest : executed id (commitEnrollments (commitEnrollments db [m]) made) =
      executed id (commitEnrollments db [m]) := ih fun n hn => hmade n (List.mem_cons_of_mem m hn)
    have hfirst : executed id (commitEnrollments db [m]) = executed id db :=
      executed_insert (hmade m List.mem_cons_self)
    exact hrest.trans hfirst

theorem mem_madeBy {newId : ℕ → Id} {tenantId leadId : Id} {sequences : List Sequence} {m : Made}
    (h : m ∈ SequenceTriggers.madeBy newId tenantId leadId sequences) : ∃ sequence ∈ sequences, ∃ k,
      m.enrollment = SequenceEnrollmentRepository.newEnrollment (newId (2 * k)) tenantId leadId sequence.id ∧
        m.event = enrolledEvent (newId (2 * k + 1)) m.enrollment := by
  obtain ⟨⟨sequence, k⟩, hmem, rfl⟩ := List.mem_map.mp h
  exact ⟨sequence, List.fst_mem_of_mem_zipIdx hmem, k, rfl, rfl⟩

theorem added_of_mem {made : List Made} {m : Made} (h : m ∈ made) :
    m.enrollment.id ∈ (SequenceTriggers.writes made).flatMap Write.addedIds ∧
      m.event.id ∈ (SequenceTriggers.writes made).flatMap Write.addedIds := by
  have hwrites : ∀ write ∈ [Write.enrollment (.add m.enrollment), .timelineEvent (.add m.event)],
      write ∈ SequenceTriggers.writes made := fun write hwrite => List.mem_flatMap.mpr ⟨m, h, hwrite⟩
  constructor
  · exact List.mem_flatMap.mpr ⟨_, hwrites _ List.mem_cons_self, List.mem_singleton_self _⟩
  · exact List.mem_flatMap.mpr ⟨_, hwrites _ (List.mem_cons_of_mem _ (List.mem_singleton_self _)),
      List.mem_singleton_self _⟩

theorem tracked_enrolls {newId : ℕ → Id} {tenantId leadId : Id} {sequences : List Sequence} {ids : List Id}
    (hread : readTriggerJob db payload = some (tenantId, leadId, sequences)) (ht : Tracked db₀ db ids)
    (hnamed : ∀ k, newId k ≠ "")
    (hfresh : ∀ id ∈ (SequenceTriggers.writes (SequenceTriggers.madeBy newId tenantId leadId sequences)).flatMap
      Write.addedIds, id ∉ ids) :
    Tracked db₀ (commitEnrollments db (SequenceTriggers.madeBy newId tenantId leadId sequences))
      (ids ++ (SequenceTriggers.writes (SequenceTriggers.madeBy newId tenantId leadId sequences)).flatMap
        Write.addedIds) := by
  have hexecuted : ∀ id, executed id (commitEnrollments db (SequenceTriggers.madeBy newId tenantId leadId sequences)) =
      executed id db := by
    apply executed_commitEnrollments
    intro m hm
    obtain ⟨sequence, -, k, -, hevent⟩ := mem_madeBy hm
    have htype : "sequence_enrolled" ≠ "sequence_step_executed" := by decide
    rw [hevent]
    exact htype
  have hfixed : Fixed db (commitEnrollments db (SequenceTriggers.madeBy newId tenantId leadId sequences)) :=
    { Fixed.refl db with }
  refine ⟨?_, ?_, ?_, ?_⟩
  · intro e he
    rcases Table.mem_of_mem_foldl_insert he with hold | ⟨m, hm, rfl⟩
    · exact List.mem_append_left _ (ht.enrollments e hold)
    · exact List.mem_append_right _ (added_of_mem hm).1
  · intro e he
    rcases Table.mem_of_mem_foldl_insert he with hold | ⟨m, hm, rfl⟩
    · exact List.mem_append_left _ (ht.timeline e hold)
    · exact List.mem_append_right _ (added_of_mem hm).2
  · intro id hid
    rw [hexecuted] at hid
    exact List.mem_append_left _ (ht.executed id hid)
  · intro e he hnew
    rcases Table.mem_of_mem_foldl_insert he with hold | ⟨m, hm, rfl⟩
    · exact (ht.underway e hold hnew).of_fixed hfixed (hexecuted e.id)
    · obtain ⟨htenant, -, hsequences⟩ := readTriggerJob_eq_some hread
      have hunused : executed m.enrollment.id db = [] := by
        by_contra hne
        exact hfresh _ (added_of_mem hm).1 (ht.executed _ hne)
      obtain ⟨sequence, hmem, k, henrollment, -⟩ := mem_madeBy hm
      rw [henrollment] at hunused ⊢
      refine ⟨(Dict.text_eq_some.mp htenant).2, hnamed (2 * k), hsequences sequence hmem, ?_, ?_⟩
      · exact (hexecuted _).trans hunused
      · intro hcompleted
        cases hcompleted

theorem tracked_complete {enrollment : SequenceEnrollment} {ids : List Id}
    (hread : readStepJob db payload = .finished enrollment) (ht : Tracked db₀ db ids) :
    Tracked db₀ (completeEnrollment db enrollment) ids := by
  obtain ⟨hmem, -⟩ := Table.find?_eq_some_iff.mp (finished_ends hread).1
  refine ⟨?_, ht.timeline, ht.executed, ?_⟩
  · intro e he
    obtain ⟨old, hold, rfl⟩ := mem_completeEnrollment.mp he
    split
    · exact ht.enrollments old hold
    · exact ht.enrollments old hold
  · intro e he hnew
    obtain ⟨old, hold, rfl⟩ := mem_completeEnrollment.mp he
    by_cases hid : old.id = enrollment.id
    · obtain rfl := Table.eq_of_key_eq hold hmem hid
      rw [if_pos rfl] at hnew ⊢
      exact underway_complete hread (ht.underway old hold hnew)
    · rw [if_neg hid] at hnew ⊢
      exact (ht.underway old hold hnew).of_fixed { Fixed.refl db with } rfl

theorem tracked_commit {work : StepWork} {usage : Option UsageChange} {eventId : Id} {ids : List Id}
    (hread : work.ReadFrom db payload) (ht : Tracked db₀ db ids) (hfresh : eventId ∉ ids) :
    Tracked db₀ (work.commit db usage eventId) (ids ++ [eventId]) := by
  obtain ⟨hmem, -⟩ := Table.find?_eq_some_iff.mp hread.row
  have hevent : db.timeline.Fresh eventId := fun e he hid => hfresh (hid ▸ ht.timeline e he)
  refine ⟨?_, ?_, ?_, ?_⟩
  · intro e he
    obtain ⟨old, hold, rfl⟩ := StepWork.mem_commit.mp he
    apply List.mem_append_left
    split
    · exact ht.enrollments old hold
    · exact ht.enrollments old hold
  · intro e he
    rcases Table.mem_of_mem_insert he with hold | rfl
    · exact List.mem_append_left _ (ht.timeline e hold)
    · exact List.mem_append_right _ (List.mem_singleton_self _)
  · intro id hid
    apply List.mem_append_left
    by_cases hself : work.enrollment.id = id
    · rw [← hself]
      exact ht.enrollments work.enrollment hmem
    · rw [executed_commit_of_ne hevent hself] at hid
      exact ht.executed id hid
  · intro e he hnew
    obtain ⟨old, hold, rfl⟩ := StepWork.mem_commit.mp he
    by_cases hid : old.id = work.enrollment.id
    · obtain rfl := Table.eq_of_key_eq hold hmem hid
      rw [if_pos rfl] at hnew ⊢
      exact underway_advance hread hevent (ht.underway _ hold hnew)
    · rw [if_neg hid] at hnew ⊢
      exact (ht.underway old hold hnew).of_fixed { Fixed.refl db with }
        (executed_commit_of_ne hevent fun hself => hid hself.symm)

theorem Handled.tracked {newId : ℕ → Id} {ids : List Id} {c : Commit Unit}
    (h : Handled db payload newId event (.commits c)) (ht : Tracked db₀ db ids) (hnamed : ∀ k, newId k ≠ "")
    (hfresh : ∀ id ∈ c.writes.flatMap Write.addedIds, id ∉ ids) :
    Tracked db₀ (db.writeAll c.writes) (ids ++ c.writes.flatMap Write.addedIds) := by
  cases h with
  | aside c _ hwrites =>
    have hsame := untouched_writeAll hwrites
    refine ⟨?_, ?_, ?_, ?_⟩
    · rw [hsame.enrollments]
      exact fun e he => List.mem_append_left _ (ht.enrollments e he)
    · intro e he
      rcases hsame.timeline e he with hold | hadded
      · exact List.mem_append_left _ (ht.timeline e hold)
      · exact List.mem_append_right _ hadded
    · intro id hid
      rw [hsame.executed] at hid
      exact List.mem_append_left _ (ht.executed id hid)
    · rw [hsame.enrollments]
      exact fun e he hnew => (ht.underway e he hnew).of_fixed hsame.toFixed (hsame.executed e.id)
  | enrolls tenantId leadId sequences _ hread =>
    dsimp only
    rw [SequenceTriggers.writeAll_writes]
    exact tracked_enrolls hread ht hnamed hfresh
  | finishes enrollment _ hread =>
    dsimp only
    rw [SequenceRequests.writeAll_complete (finished_ends hread).1]
    have hids : ids ++ [Write.enrollment (.set enrollment.complete)].flatMap Write.addedIds = ids :=
      List.append_nil ids
    rw [hids]
    exact tracked_complete hread ht
  | executes work usage _ hread =>
    have hadded : (SequenceRequests.usageWrites usage ++ [Write.timelineEvent (.add (work.timelineEvent (newId 0))),
        .enrollment (.set (work.advance work.enrollment))]).flatMap Write.addedIds = [newId 0] := by
      cases usage with
      | none => rfl
      | some change => rfl
    dsimp only at hfresh ⊢
    rw [hadded] at hfresh ⊢
    rw [SequenceRequests.writeAll_commit usage (newId 0) hread.row]
    exact tracked_commit hread ht (hfresh _ (List.mem_singleton_self _))

theorem tracked_handle (hok : Faultless d w q inputs) (ht : Tracked db₀ w.db w.ids) :
    Tracked db₀ (handle d w q inputs).1.db (handle d w q inputs).1.ids := by
  cases handle_cases hok with
  | idle hdb hids =>
    rw [hdb, hids]
    exact ht
  | failed event hevent hstep hdb hids =>
    rw [hdb, hids]
    exact ht
  | commits event c hevent hhandled hfresh hdb hids =>
    rw [hdb, hids]
    exact hhandled.tracked ht hok.named hfresh.2

theorem ofPayload_stepJob (tenantId enrollmentId : Id) :
    JobEvent.ofPayload (stepJob tenantId enrollmentId).payload = some .sequenceStepExecute :=
  JobEvent.ofPayload_eq_some.mpr (eventOf_stepJob tenantId enrollmentId)

theorem event_of_pays (h : Pays q e) : JobEvent.ofPayload q.job.payload = some .sequenceStepExecute := by
  rw [h]
  exact ofPayload_stepJob e.tenantId e.id

theorem not_pays_of_event (hevent : JobEvent.ofPayload q.job.payload = some event)
    (hne : event ≠ .sequenceStepExecute) : ¬Pays q e := by
  intro hpays
  rw [event_of_pays hpays] at hevent
  exact hne (Option.some.inj hevent).symm

theorem id_of_pays {enrollmentId : Id} (hid : e.id ≠ "") (hpays : Pays q e)
    (htext : q.job.payload.text "enrollment_id" = some enrollmentId) : e.id = enrollmentId := by
  rw [hpays, jobOf, text_enrollment_stepJob e.tenantId hid] at htext
  exact Option.some.inj htext

theorem mem_published {jobs : List QueueJob} {p : QueueJob → Bool} {made : Queued} :
    made ∈ published (jobs.filter p) ↔ made.job ∈ jobs ∧ p made.job = true ∧ made.receives = 0 := by
  unfold published
  rw [Multiset.mem_coe, List.mem_map]
  constructor
  · rintro ⟨job, hmem, rfl⟩
    obtain ⟨hjob, hp⟩ := List.mem_filter.mp hmem
    exact ⟨hjob, hp, rfl⟩
  · rintro ⟨hjob, hp, hreceives⟩
    refine ⟨made.job, List.mem_filter.mpr ⟨hjob, hp⟩, ?_⟩
    cases made
    cases hreceives
    rfl

theorem polled_stepJob {settings : Settings} (h : Registered settings q.job)
    (hevent : JobEvent.ofPayload q.job.payload = some event) (hqueue : event.queue = .sequenceJobs)
    (tenantId enrollmentId : Id) : (SQSPublisher.message settings (stepJob tenantId enrollmentId)).isSome := by
  obtain ⟨⟨event', hevent', hname⟩, hpolled⟩ := h
  have hsame : event' = event := Option.some.inj (hevent'.symm.trans hevent)
  have hqueueName : q.job.queueName = (stepJob tenantId enrollmentId).queueName := by
    rw [hname, hsame, hqueue]
    rfl
  rw [SQSPublisher.message, Option.isSome_map] at hpolled ⊢
  rwa [← hqueueName]

theorem Underway.placed (h : Underway db e) (hlead : OwnsLead db e.tenantId e.leadId) : Placed db e := by
  obtain ⟨lead, hmem, hid, htenant⟩ := hlead
  have hget : LeadRepository.get db e.tenantId e.leadId = some lead := ofTenant_eq_some.mpr ⟨hmem, hid, htenant⟩
  refine ⟨h.tenant, h.id, h.sequence, ?_⟩
  rw [hget]
  rfl

theorem Handled.owed {newId : ℕ → Id} {c : Commit Unit} {settings : Settings}
    (h : Handled w.db q.job.payload newId event (.commits c)) (hreg : Registered settings q.job)
    (hevent : JobEvent.ofPayload q.job.payload = some event) (ht : Tracked db₀ w.db w.ids) {w' : World}
    (hdb : w'.db = w.db.writeAll c.writes) (howes : Owes db₀ w' e) :
    (∃ made ∈ published ((c.before ++ c.after).filter fun job => (SQSPublisher.message settings job).isSome),
      Pays made e) ∨ Owes db₀ w e ∧ ¬Pays q e := by
  obtain ⟨hmem, hnew, hactive, hlead⟩ := howes
  rw [hdb] at hmem hlead
  rw [h.fixed.leads] at hlead
  cases h with
  | aside c hstep hwrites =>
    rw [(untouched_writeAll hwrites).enrollments] at hmem
    exact .inr ⟨⟨hmem, hnew, hactive, hlead⟩, not_pays_of_event hevent hstep⟩
  | enrolls tenantId leadId sequences htrigger hread =>
    subst htrigger
    dsimp only at hmem ⊢
    rw [SequenceTriggers.writeAll_writes] at hmem
    rcases Table.mem_of_mem_foldl_insert hmem with hold | ⟨m, hm, rfl⟩
    · exact .inr ⟨⟨hold, hnew, hactive, hlead⟩, not_pays_of_event hevent (by decide)⟩
    · have hjob : stepJob tenantId m.enrollment.id ∈
          SequenceTriggers.jobs tenantId (SequenceTriggers.madeBy newId tenantId leadId sequences) :=
        List.mem_map_of_mem hm
      have hpolled := polled_stepJob hreg hevent rfl tenantId m.enrollment.id
      refine .inl ⟨⟨stepJob tenantId m.enrollment.id, 0⟩, mem_published.mpr ⟨?_, hpolled, rfl⟩, ?_⟩
      · exact List.mem_append_left _ hjob
      · obtain ⟨sequence, -, k, henrollment, -⟩ := mem_madeBy hm
        rw [henrollment]
        rfl
  | finishes enrollment hstep hread =>
    obtain ⟨hrow, htext, -⟩ := finished_ends hread
    dsimp only at hmem
    rw [SequenceRequests.writeAll_complete hrow] at hmem
    obtain ⟨old, hold, rfl⟩ := mem_completeEnrollment.mp hmem
    by_cases hid : old.id = enrollment.id
    · rw [if_pos hid] at hactive
      cases hactive
    · rw [if_neg hid] at hnew hactive hlead ⊢
      refine .inr ⟨⟨hold, hnew, hactive, hlead⟩, fun hpays => hid ?_⟩
      exact id_of_pays (ht.underway old hold hnew).id hpays htext
  | executes work usage hstep hread =>
    subst hstep
    dsimp only at hmem ⊢
    rw [SequenceRequests.writeAll_commit usage (newId 0) hread.row] at hmem
    obtain ⟨old, hold, rfl⟩ := StepWork.mem_commit.mp hmem
    by_cases hid : old.id = work.enrollment.id
    · rw [if_pos hid] at hactive ⊢
      have hlast : work.isLast = false := by
        by_contra hne
        have hlast : work.isLast = true := by simpa using hne
        simp [StepWork.advance, hlast] at hactive
      have hpolled := polled_stepJob hreg hevent rfl work.tenantId work.enrollment.id
      refine .inl ⟨⟨work.followUp, 0⟩, mem_published.mpr ⟨?_, hpolled, rfl⟩, ?_⟩
      · rw [hlast]
        exact List.mem_singleton_self _
      · obtain ⟨hrow, -⟩ := Table.find?_eq_some_iff.mp hread.row
        obtain rfl := Table.eq_of_key_eq hold hrow hid
        show (stepJob work.tenantId work.enrollment.id).payload =
          (stepJob work.enrollment.tenantId work.enrollment.id).payload
        rw [hread.owned]
    · rw [if_neg hid] at hnew hactive hlead ⊢
      refine .inr ⟨⟨hold, hnew, hactive, hlead⟩, fun hpays => hid ?_⟩
      exact id_of_pays (ht.underway old hold hnew).id hpays hread.enrollment

theorem Handled.registered {newId : ℕ → Id} {c : Commit Unit} (h : Handled db payload newId event (.commits c)) :
    ∀ job ∈ c.before ++ c.after, ∃ event, JobEvent.ofPayload job.payload = some event ∧
      job.queueName = event.queue.name := by
  have hstepJob : ∀ tenantId enrollmentId, ∃ event,
      JobEvent.ofPayload (stepJob tenantId enrollmentId).payload = some event ∧
        (stepJob tenantId enrollmentId).queueName = event.queue.name :=
    fun tenantId enrollmentId => ⟨.sequenceStepExecute, ofPayload_stepJob tenantId enrollmentId, rfl⟩
  intro job hjob
  cases h with
  | aside c hstep hwrites hids hbefore hafter =>
    rw [hbefore, List.nil_append] at hjob
    rcases hafter with hnone | ⟨-, hfollowers⟩
    · rw [hnone] at hjob
      exact absurd hjob List.not_mem_nil
    · rw [hfollowers] at hjob
      obtain ⟨tenantId, leadId, hmem⟩ := mem_followers hjob
      obtain ⟨event, hevent, hqueue, -⟩ := event_of_scoreUpdatedJobs hmem
      exact ⟨event, hevent, hqueue⟩
  | enrolls tenantId leadId sequences =>
    rcases List.mem_append.mp hjob with hmem | hnone
    · obtain ⟨m, -, rfl⟩ := List.mem_map.mp hmem
      exact hstepJob tenantId m.enrollment.id
    · exact absurd hnone List.not_mem_nil
  | finishes enrollment => exact absurd hjob List.not_mem_nil
  | executes work usage =>
    rcases List.mem_append.mp hjob with hmem | hnone
    · dsimp only at hmem
      split at hmem
      · exact absurd hmem List.not_mem_nil
      · rw [List.mem_singleton.mp hmem]
        exact hstepJob work.tenantId work.enrollment.id
    · exact absurd hnone List.not_mem_nil

theorem registered_handle (hok : Faultless d w q inputs) (hreg : Registered d.settings q.job) :
    ∀ made ∈ (handle d w q inputs).2, Registered d.settings made.job := by
  intro made hmem
  cases handle_cases hok with
  | idle hdb hids hmade =>
    rw [hmade] at hmem
    exact absurd hmem (Multiset.notMem_zero made)
  | failed event hevent hstep hdb hids hmade =>
    rw [hmade] at hmem
    simp only [Queued.again] at hmem
    split at hmem
    · rw [Multiset.mem_singleton.mp hmem]
      exact hreg
    · exact absurd hmem (Multiset.notMem_zero made)
  | commits event c hevent hhandled hfresh hdb hids hmade =>
    rw [hmade] at hmem
    obtain ⟨hjob, hpolled, -⟩ := mem_published.mp hmem
    exact ⟨hhandled.registered made.job hjob, hpolled⟩

theorem owed_handle (hok : Faultless d w q inputs) (hreg : Registered d.settings q.job)
    (ht : Tracked db₀ w.db w.ids) (howes : Owes db₀ (handle d w q inputs).1 e) :
    (∃ made ∈ (handle d w q inputs).2, Pays made e) ∨ Owes db₀ w e ∧ ¬Pays q e := by
  cases handle_cases hok with
  | idle hdb hids hmade hread =>
    rw [Owes, hdb] at howes
    refine .inr ⟨howes, fun hpays => ?_⟩
    obtain ⟨hmem, hnew, hactive, hlead⟩ := howes
    -- an active row with this job would have been read
    have hignored := hread (event_of_pays hpays)
    rw [hpays] at hignored
    exact ((ht.underway e hmem hnew).placed hlead).read hmem hactive hignored
  | failed event hevent hstep hdb =>
    rw [Owes, hdb] at howes
    exact .inr ⟨howes, not_pays_of_event hevent hstep⟩
  | commits event c hevent hhandled hfresh hdb hids hmade =>
    rw [hmade]
    exact hhandled.owed hreg hevent ht hdb howes

structure Sound (d : Deployment) (db₀ : Db) (c : State World Queued) : Prop where
  tracked : Tracked db₀ c.store.db c.store.ids
  registered : ∀ q ∈ c.queue, Registered d.settings q.job
  owed : Covered (Owes db₀) Pays c

variable {c c' : State World Queued}

theorem Sound.step (h : Sound d db₀ c) (hok : Faultless d c.store q inputs)
    (hstep : WorkQueue.Step (handle d) c (q, inputs) c') : Sound d db₀ c' := by
  have hreg := h.registered q hstep.mem
  constructor
  · rw [hstep.store]
    exact tracked_handle hok h.tracked
  · exact hstep.queue_forall h.registered (registered_handle hok hreg)
  · exact h.owed.step hstep fun _ howes => owed_handle hok hreg h.tracked howes

theorem tracked_start (db : Db) : Tracked db db (usedIds db) where
  enrollments _ he := List.mem_append_left _ (List.mem_append_left _ (List.mem_map_of_mem he))
  timeline _ he := List.mem_append_left _ (List.mem_append_right _ (List.mem_map_of_mem he))
  executed := by
    intro id hid
    obtain ⟨stepId, hstep⟩ := List.exists_mem_of_ne_nil _ hid
    obtain ⟨e, he, hexecuted⟩ := List.mem_filterMap.mp hstep
    apply List.mem_append_right
    refine List.mem_filterMap.mpr ⟨e, he, ?_⟩
    unfold executedStep at hexecuted
    dsimp only at hexecuted
    split at hexecuted
    · rename_i hnames
      exact hnames.2
    · cases hexecuted
  underway e he hnew := absurd rfl (hnew e he)

theorem sound_start (cache : AICache) {queue : Multiset Queued} (hqueue : ∀ q ∈ queue, Registered d.settings q.job) :
    Sound d db (start db cache queue) where
  tracked := tracked_start db
  registered := hqueue
  owed e howes := absurd rfl (howes.2.1 e howes.1)

theorem sound_run {labels : List (Queued × JobInputs)} (h : Sound d db₀ c)
    (hrun : GuardedRun (WorkQueue.Step (handle d)) (Admitted d) c labels c') : Sound d db₀ c' := by
  apply hrun.invariant (Sound d db₀)
  · rintro c ⟨q, inputs⟩ c' hc hok hstep
    exact hc.step hok hstep
  · exact h

theorem Sound.completed (h : Sound d db₀ c) (hempty : c.queue = 0) (hmem : e ∈ c.store.db.enrollments)
    (hnew : db₀.enrollments.Fresh e.id) (hlead : OwnsLead c.store.db e.tenantId e.leadId) :
    e.status = .completed ∧
      executed e.id c.store.db = (listForSequence c.store.db e.sequenceId).map SequenceStep.id := by
  have hunderway := h.tracked.underway e hmem hnew
  have hcompleted : e.status = .completed := by
    cases hstatus : e.status with
    | completed => rfl
    | active =>
      obtain ⟨q, hq, -⟩ := h.owed e ⟨hmem, hnew, hstatus, hlead⟩
      rw [hempty] at hq
      exact absurd hq (Multiset.notMem_zero q)
  refine ⟨hcompleted, ?_⟩
  rw [hunderway.executed, stepsBefore, List.take_of_length_le (hunderway.ended hcompleted)]

theorem addedIds_madeBy (newId : ℕ → Id) (tenantId leadId : Id) (sequences : List Sequence) :
    (SequenceTriggers.writes (SequenceTriggers.madeBy newId tenantId leadId sequences)).flatMap Write.addedIds =
      (List.range (2 * sequences.length)).map newId := by
  have hfrom : ∀ n, (SequenceTriggers.writes ((sequences.zipIdx n).map fun p =>
      let enrollment := SequenceEnrollmentRepository.newEnrollment (newId (2 * p.2)) tenantId leadId p.1.id
      ⟨enrollment, enrolledEvent (newId (2 * p.2 + 1)) enrollment⟩)).flatMap Write.addedIds =
      (List.range' (2 * n) (2 * sequences.length)).map newId := by
    induction sequences with
    | nil => exact fun n => rfl
    | cons sequence sequences ih =>
      intro n
      have hlength : 2 * (sequence :: sequences).length = 2 * sequences.length + 1 + 1 := by
        rw [List.length_cons]
        omega
      have hnext : 2 * n + 1 + 1 = 2 * (n + 1) := by omega
      rw [hlength, List.range'_succ, List.range'_succ, hnext, List.map_cons, List.map_cons, ← ih (n + 1)]
      rfl
  rw [List.range_eq_range']
  exact hfrom 0

theorem Handled.newIds {newId : ℕ → Id} {work : Work Unit} (h : Handled db payload newId event work) :
    ∃ n, work.newIds = (List.range n).map newId := by
  cases h with
  | answered => exact ⟨0, rfl⟩
  | raised => exact ⟨0, rfl⟩
  | aside c _ _ hids => exact hids
  | enrolls tenantId leadId sequences => exact ⟨_, addedIds_madeBy newId tenantId leadId sequences⟩
  | finishes enrollment => exact ⟨0, rfl⟩
  | executes work usage =>
    cases usage with
    | none => exact ⟨1, rfl⟩
    | some change => exact ⟨1, rfl⟩

theorem exists_newIds (ids : List Id) : ∃ newId : ℕ → Id, Function.Injective newId ∧ ∀ k, newId k ∉ ids := by
  have hinfinite : {id | id ∈ ids}ᶜ.Infinite := ids.finite_toSet.infinite_compl
  have hinjective := (Set.Infinite.natEmbedding _ hinfinite).injective
  exact ⟨_, Subtype.val_injective.comp hinjective, fun k => (Set.Infinite.natEmbedding _ hinfinite k).property⟩

theorem Faultless.of_event (event : JobEvent) (hevent : JobEvent.ofPayload q.job.payload = some event)
    (hsend : inputs.send = .returns) (hcalls : inputs.calls = {}) (hnamed : ∀ k, inputs.newId k ≠ "")
    (hids : w.NewIds (event.handle d w.db w.cache q.job.payload inputs).1.newIds) : Faultless d w q inputs := by
  refine ⟨hsend, hcalls, hnamed, fun event' hevent' => ?_⟩
  obtain rfl := Option.some.inj (hevent.symm.trans hevent')
  exact hids

theorem exists_faultless (d : Deployment) (w : World) (q : Queued) : ∃ inputs, Faultless d w q inputs := by
  obtain ⟨newId, hinjective, hnew⟩ := exists_newIds ("" :: w.ids)
  let inputs : JobInputs := { newId := newId, today := 0 }
  refine ⟨inputs, rfl, rfl, ?_, ?_⟩
  · intro k hempty
    exact hnew k (List.mem_cons.mpr (.inl hempty))
  · intro event _
    have hhandled : Handled w.db q.job.payload inputs.newId event
      (event.handle d w.db w.cache q.job.payload inputs).1 := handled event rfl
    obtain ⟨n, hids⟩ := hhandled.newIds
    rw [hids]
    constructor
    · exact List.nodup_range.map hinjective
    · intro id hid
      obtain ⟨k, -, rfl⟩ := List.mem_map.mp hid
      exact fun hmem => hnew k (List.mem_cons_of_mem _ hmem)

end Leadline.JobCascade

namespace Leadline

open Library SequenceStepRepository TenantWrites JobCascade
open SequenceExecution (executed)

theorem job_cascade_completes (d : Deployment) (db : Db) (cache : AICache) (queue : Multiset Queued)
    (hqueue : ∀ q ∈ queue, Registered d.settings q.job) :
    ∃ bound, ∀ labels c,
      GuardedRun (WorkQueue.Step (JobCascade.handle d)) (JobCascade.Admitted d) (start db cache queue) labels c →
      labels.length ≤ bound ∧
      (∀ q ∈ c.queue, ∃ inputs c', JobCascade.Admitted d c (q, inputs) ∧
        WorkQueue.Step (JobCascade.handle d) c (q, inputs) c') ∧
      (c.queue = 0 → ∀ e ∈ c.store.db.enrollments, db.enrollments.Fresh e.id →
        OwnsLead db e.tenantId e.leadId →
        e.status = .completed ∧
          executed e.id c.store.db = (listForSequence db e.sequenceId).map SequenceStep.id ∧
          ∀ s ∈ listForSequence db e.sequenceId, (executed e.id c.store.db).count s.id = 1) := by
  refine ⟨WorkQueue.total (cost db) (potential db) (start db cache queue), ?_⟩
  intro labels c hrun
  obtain ⟨hfixed, hlength⟩ := run_length hrun
  have hfixed : Fixed db c.store.db := hfixed
  refine ⟨(Nat.le_add_right _ _).trans hlength, ?_, ?_⟩
  · intro q hq
    obtain ⟨inputs, hok⟩ := exists_faultless d c.store q
    obtain ⟨c', hstep⟩ := WorkQueue.exists_step hq inputs
    exact ⟨inputs, c', hok, hstep⟩
  · intro hempty e hmem hnew hlead
    have hsound := sound_run (sound_start cache hqueue) hrun
    have hsteps : listForSequence c.store.db e.sequenceId = listForSequence db e.sequenceId := by
      simp only [listForSequence, hfixed.steps]
    obtain ⟨hcompleted, hexecuted⟩ := hsound.completed hempty hmem hnew ((hfixed.leads _ _).mpr hlead)
    rw [hsteps] at hexecuted
    refine ⟨hcompleted, hexecuted, ?_⟩
    intro s hs
    rw [hexecuted]
    exact List.count_eq_one_of_mem nodup_listForSequence (List.mem_map_of_mem hs)

def openDb : Db := { welcomeDb with enrollments := .empty }

def leadCreatedTrigger : Queued where
  job :=
    { queueName := "sequence_jobs"
      payload := [("event", .str "sequence.trigger"), ("tenant_id", .str "tenant-seq"), ("lead_id", .str "lead-1"),
        ("trigger", .str "lead_created")] }

def miaStep : Queued where
  job := stepJob "tenant-seq" "enr-1"

def firstIds (k : ℕ) : Id := if k = 0 then "enr-1" else "ev-0"

theorem firstIds_named (k : ℕ) : firstIds k ≠ "" := by
  unfold firstIds
  split
  · decide
  · decide

def sameId (id : Id) (_ : ℕ) : Id := id

theorem sameId_named {id : Id} (h : id ≠ "") (k : ℕ) : sameId id k ≠ "" := h

theorem job_cascade_completes_welcome :
    ∃ labels c, GuardedRun (WorkQueue.Step (JobCascade.handle plainDeployment)) (JobCascade.Admitted plainDeployment)
        (start openDb (fun _ => none) {leadCreatedTrigger}) labels c ∧
      c.queue = 0 ∧ ∃ e ∈ c.store.db.enrollments, e.status = .completed ∧
        executed e.id c.store.db = ["step-a", "step-b"] := by
  have hqueue : ∀ q ∈ ({leadCreatedTrigger} : Multiset Queued), Registered plainDeployment.settings q.job := by
    intro q hq
    rw [Multiset.mem_singleton.mp hq]
    exact ⟨⟨.sequenceTrigger, rfl, rfl⟩, by decide +kernel⟩
  have hrun : GuardedRun (WorkQueue.Step (JobCascade.handle plainDeployment)) (JobCascade.Admitted plainDeployment)
      (start openDb (fun _ => none) {leadCreatedTrigger})
      [(leadCreatedTrigger, { newId := firstIds, today := 1 }), (miaStep, { newId := sameId "ev-1", today := 1 }),
        (miaStep, { newId := sameId "ev-2", today := 1 })] _ :=
    .cons (.of_event .sequenceTrigger rfl rfl rfl firstIds_named (by decide +kernel))
      (.take (show _ = leadCreatedTrigger ::ₘ 0 from rfl))
      (.cons (.of_event .sequenceStepExecute rfl rfl rfl (sameId_named (by decide)) (by decide +kernel))
        (.take (show _ = miaStep ::ₘ 0 from rfl))
        (.cons (.of_event .sequenceStepExecute rfl rfl rfl (sameId_named (by decide)) (by decide +kernel))
          (.take (show _ = miaStep ::ₘ 0 from rfl)) (.nil _)))
  obtain ⟨bound, hall⟩ := job_cascade_completes plainDeployment openDb (fun _ => none) {leadCreatedTrigger} hqueue
  obtain ⟨-, -, hend⟩ := hall _ _ hrun
  obtain ⟨hcompleted, hexecuted, -⟩ := hend rfl { miaEnrolled with status := .completed, currentStepIndex := 2 }
    (by decide +kernel) (by decide +kernel) ⟨mia, List.mem_singleton_self mia, rfl, rfl⟩
  refine ⟨_, _, hrun, rfl, _, ?_, hcompleted, hexecuted.trans ?_⟩
  · decide +kernel
  · decide +kernel

end Leadline
