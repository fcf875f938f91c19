import Leadline.SequenceExecution
import Leadline.SequenceWorkers

namespace Leadline.SequenceWorkers

open Library WorkerLoop

def jobOf (e : SequenceEnrollment) : Dict := (stepJob e.tenantId e.id).payload

theorem eventOf_stepJob (tenantId enrollmentId : Id) :
    eventOf (stepJob tenantId enrollmentId).payload = "sequence.step.execute" := rfl

theorem text_tenant_stepJob {tenantId : Id} (enrollmentId : Id) (h : tenantId ≠ "") :
    (stepJob tenantId enrollmentId).payload.text "tenant_id" = some tenantId :=
  Dict.text_eq_some.mpr ⟨rfl, h⟩

theorem text_enrollment_stepJob (tenantId : Id) {enrollmentId : Id} (h : enrollmentId ≠ "") :
    (stepJob tenantId enrollmentId).payload.text "enrollment_id" = some enrollmentId :=
  Dict.text_eq_some.mpr ⟨rfl, h⟩

namespace Phase

def job : Phase → Option Received
  | idle => none
  | received job => some job
  | executing h => some h.job
  | delivered h _ _ => some h.job
  | recorded h _ _ => some h.job
  | published h _ _ => some h.job
  | completing job _ => some job
  | enrolling job _ _ _ _ => some job
  | returned job => some job
  | raised job => some job
  | saved job => some job

def spent : Phase → Option ℕ
  | published h _ _ => some h.job.id
  | returned job => some job.id
  | saved job => some job.id
  | _ => none

def made : Phase → List Made
  | enrolling _ _ _ _ made => made
  | _ => []

theorem job_of_spent {p : Phase} {id : ℕ} (h : p.spent = some id) :
    ∃ job, p.job = some job ∧ job.id = id := by
  cases p with
  | published h₀ usage handed => exact ⟨h₀.job, rfl, Option.some.inj h⟩
  | returned job => exact ⟨job, rfl, Option.some.inj h⟩
  | saved job => exact ⟨job, rfl, Option.some.inj h⟩
  | _ => cases h

end Phase

structure Placed (db : Db) (e : SequenceEnrollment) : Prop where
  tenant : e.tenantId ≠ ""
  id : e.id ≠ ""
  sequence : (SequenceRepository.get db e.tenantId e.sequenceId).isSome
  lead : (LeadRepository.get db e.tenantId e.leadId).isSome

structure Grows (db db' : Db) : Prop where
  sequences : ∀ tenantId id, (SequenceRepository.get db tenantId id).isSome →
    (SequenceRepository.get db' tenantId id).isSome
  leads : ∀ tenantId id, (LeadRepository.get db tenantId id).isSome →
    (LeadRepository.get db' tenantId id).isSome

theorem Grows.refl (db : Db) : Grows db db := ⟨fun _ _ h => h, fun _ _ h => h⟩

theorem Grows.of_tables {db db' : Db} (hs : db'.sequences = db.sequences) (hl : db'.leads = db.leads) :
    Grows db db' := by
  constructor
  · intro tenantId id h
    rwa [SequenceRepository.get, hs]
  · intro tenantId id h
    rwa [LeadRepository.get, hl]

theorem Placed.mono {db db' : Db} {e : SequenceEnrollment} (hg : Grows db db') (h : Placed db e) :
    Placed db' e :=
  ⟨h.tenant, h.id, hg.sequences _ _ h.sequence, hg.leads _ _ h.lead⟩

theorem Placed.read {db : Db} {e : SequenceEnrollment} (h : Placed db e) (hmem : e ∈ db.enrollments)
    (hactive : e.status = .active) : readStepJob db (jobOf e) ≠ .ignored := by
  obtain ⟨sequence, hseq⟩ := Option.isSome_iff_exists.mp h.sequence
  obtain ⟨lead, hlead⟩ := Option.isSome_iff_exists.mp h.lead
  have hrow : SequenceEnrollmentRepository.get db e.tenantId e.id = some e :=
    ofTenant_eq_some.mpr ⟨hmem, rfl, rfl⟩
  have hread := readStepJob_of_active (text_tenant_stepJob e.id h.tenant)
    (text_enrollment_stepJob e.tenantId h.id) hrow hactive hseq hlead
  rw [jobOf, hread]
  dsimp only
  split
  · exact StepRead.noConfusion
  · exact StepRead.noConfusion

def TriggerOk (db : Db) (payload : Dict) : Prop :=
  eventOf payload = "sequence.trigger" → ∀ tenantId leadId, payload.text "tenant_id" = some tenantId →
    payload.text "lead_id" = some leadId → (LeadRepository.get db tenantId leadId).isSome

theorem triggerOk_of_step {db : Db} {payload : Dict} (h : eventOf payload = "sequence.step.execute") :
    TriggerOk db payload := by
  intro ht
  rw [h] at ht
  exact absurd ht (by decide)

def Phase.Sound (db : Db) (failed : List FailedJob) : Phase → Prop
  | executing h | delivered h _ _ | recorded h _ _ | published h _ _ =>
    h.job.payload.text "tenant_id" = some h.work.tenantId ∧
      h.job.payload.text "enrollment_id" = some h.work.enrollment.id
  | completing job enrollment => job.payload.text "enrollment_id" = some enrollment.id
  | enrolling job tenantId leadId rest made =>
    eventOf job.payload = "sequence.trigger" ∧ tenantId ≠ "" ∧
      (LeadRepository.get db tenantId leadId).isSome ∧
      (∀ q ∈ rest, (SequenceRepository.get db tenantId q.id).isSome) ∧ ∀ m ∈ made, Placed db m.enrollment
  | saved job => ∃ f ∈ failed, f.payload = job.payload
  | _ => True

theorem Phase.Sound.mono {db db' : Db} {failed failed' : List FailedJob} {p : Phase} (hg : Grows db db')
    (hf : failed ⊆ failed') (h : p.Sound db failed) : p.Sound db' failed' := by
  cases p with
  | enrolling job tenantId leadId rest made =>
    obtain ⟨hevent, htenant, hlead, hrest, hmade⟩ := h
    exact ⟨hevent, htenant, hg.leads _ _ hlead, fun q hq => hg.sequences _ _ (hrest q hq),
      fun m hm => (hmade m hm).mono hg⟩
  | saved job =>
    obtain ⟨f, hmem, hpayload⟩ := h
    exact ⟨f, hf hmem, hpayload⟩
  | _ => exact h

def Replaced (db : Db) (p : Phase) (t : Turn) (id : ℕ) : Prop :=
  ∃ job, p.job = some job ∧ job.id = id ∧ ∀ e ∈ db.enrollments, e.status = .active → jobOf e = job.payload →
    jobOf e ∈ t.jobs ∨ (∃ f ∈ t.stored, f.payload = jobOf e) ∨
      ∀ e' ∈ t.db.enrollments, e'.id = e.id → e'.status = .completed

structure TurnSpec (db : Db) (failed : List FailedJob) (p : Phase) (t : Turn) : Prop where
  grows : Grows db t.db
  phase : t.phase.Sound t.db (failed ++ t.stored)
  rows : ∀ e ∈ t.db.enrollments, Placed t.db e
  jobs : ∀ payload ∈ t.jobs, eventOf payload = "sequence.step.execute"
  job : t.phase.job = none ∨ t.phase.job = p.job
  deleted : ∀ id, t.deleted = some id → p.spent = some id
  lineage : ∀ e' ∈ t.db.enrollments, e'.status = .active →
    (∃ e ∈ db.enrollments, e.status = .active ∧ e.id = e'.id ∧ e.tenantId = e'.tenantId) ∨
      ∃ m ∈ p.made, m.enrollment = e'
  made : ∀ m ∈ t.phase.made, m ∈ p.made ∨ jobOf m.enrollment ∈ t.jobs
  spent : ∀ id, t.phase.spent = some id → p.spent = some id ∨ Replaced db p t id

variable {db : Db} {failed : List FailedJob} {p q : Phase}

theorem TurnSpec.plain {sent : List Sent} {aborts : Bool} (hrows : ∀ e ∈ db.enrollments, Placed db e)
    (hq : q.Sound db failed) (hjob : q.job = none ∨ q.job = p.job) (hmade : q.made ⊆ p.made)
    (hspent : ∀ id, q.spent = some id → p.spent = some id ∨ Replaced db p { phase := q, db := db } id) :
    TurnSpec db failed p { phase := q, db := db, sent := sent, aborts := aborts } where
  grows := Grows.refl db
  phase := by
    rw [List.append_nil]
    exact hq
  rows := hrows
  jobs _ h := absurd h List.not_mem_nil
  job := hjob
  deleted _ h := by cases h
  lineage e' he' hactive := .inl ⟨e', he', hactive, rfl, rfl⟩
  made m hm := .inl (hmade hm)
  spent := hspent

theorem readTriggerJob_eq_some {payload : Dict} {tenantId leadId : Id} {sequences : List Sequence}
    (h : readTriggerJob db payload = some (tenantId, leadId, sequences)) :
    payload.text "tenant_id" = some tenantId ∧ payload.text "lead_id" = some leadId ∧
      ∀ q ∈ sequences, (SequenceRepository.get db tenantId q.id).isSome := by
  unfold readTriggerJob at h
  split at h
  · rename_i t l trigger ht hl htrigger
    obtain ⟨rfl, hrest⟩ := Prod.mk.inj (Option.some.inj h)
    obtain ⟨rfl, rfl⟩ := Prod.mk.inj hrest
    refine ⟨ht, hl, fun q hq => ?_⟩
    obtain ⟨hmem, hactive⟩ := List.mem_filter.mp hq
    have htenant : q.tenantId = t := (of_decide_eq_true hactive).1
    have hget : SequenceRepository.get db t q.id = some q := ofTenant_eq_some.mpr ⟨hmem, rfl, htenant⟩
    rw [hget]
    rfl
  · cases h

theorem TurnSpec.read {job : Received} {t : Turn} (hrows : ∀ e ∈ db.enrollments, Placed db e)
    (htrigger : TriggerOk db job.payload) (hread : readJob db job = some t) :
    TurnSpec db failed (.received job) t := by
  unfold readJob at hread
  split at hread
  · rcases readStepJob_cases db job.payload with hr | ⟨e, hr, he, -⟩ | ⟨work, hr, hw⟩
    · -- an active row with this job would have been read
      rw [hr] at hread
      cases hread
      refine .plain hrows trivial (.inr rfl) (List.Subset.refl _) fun id hid => .inr ?_
      refine ⟨job, rfl, Option.some.inj hid, fun e he hactive hjob => ?_⟩
      rw [← hjob] at hr
      exact absurd hr ((hrows e he).read he hactive)
    · rw [hr] at hread
      cases hread
      exact .plain hrows he (.inr rfl) (List.Subset.refl _) fun id hid => by cases hid
    · rw [hr] at hread
      cases hread
      exact .plain hrows ⟨hw.tenant, hw.enrollment⟩ (.inr rfl) (List.Subset.refl _) fun id hid => by
        cases hid
  · split at hread
    · rename_i hevent
      split at hread
      · cases hread
        refine .plain hrows trivial (.inr rfl) (List.Subset.refl _) fun id hid => .inr ?_
        refine ⟨job, rfl, Option.some.inj hid, fun e he hactive hjob => ?_⟩
        rw [← hjob] at hevent
        exact absurd hevent (by rw [jobOf, eventOf_stepJob]; decide)
      · rename_i tenantId leadId sequences htrig
        cases hread
        obtain ⟨ht, hl, hseq⟩ := readTriggerJob_eq_some htrig
        have hsound : Phase.Sound db failed (.enrolling job tenantId leadId sequences []) :=
          ⟨hevent, (Dict.text_eq_some.mp ht).2, htrigger hevent tenantId leadId ht hl, hseq,
            fun m hm => absurd hm List.not_mem_nil⟩
        exact .plain hrows hsound (.inr rfl) (List.Subset.refl _) fun id hid => by cases hid
    · cases hread

structure Descends (db db' : Db) (added : List SequenceEnrollment) : Prop where
  grows : Grows db db'
  rows : ∀ e' ∈ db'.enrollments, e' ∈ added ∨ ∃ e ∈ db.enrollments, e.id = e'.id ∧
    e.tenantId = e'.tenantId ∧ e.sequenceId = e'.sequenceId ∧ e.leadId = e'.leadId ∧
    (e'.status = .active → e.status = .active)

theorem Descends.placed {db' : Db} {added : List SequenceEnrollment} (h : Descends db db' added)
    (hrows : ∀ e ∈ db.enrollments, Placed db e) (hadded : ∀ e ∈ added, Placed db e) :
    ∀ e ∈ db'.enrollments, Placed db' e := by
  intro e' he'
  rcases h.rows e' he' with hmem | ⟨e, he, hid, htenant, hsequence, hlead, -⟩
  · exact (hadded e' hmem).mono h.grows
  · have hp := (hrows e he).mono h.grows
    constructor
    · rw [← htenant]
      exact hp.tenant
    · rw [← hid]
      exact hp.id
    · rw [← htenant, ← hsequence]
      exact hp.sequence
    · rw [← htenant, ← hlead]
      exact hp.lead

theorem TurnSpec.commitAll {db' : Db} {job : Received} {call : CallOutcome} {made : List Made}
    (hjob : p.job = some job) (hmade : p.made = made) (hrows : ∀ e ∈ db.enrollments, Placed db e)
    (hplaced : ∀ m ∈ made, Placed db m.enrollment)
    (hdescends : Descends db db' (made.map Made.enrollment))
    (hspent : p.spent = some job.id ∨ ∀ e ∈ db.enrollments, e.status = .active → jobOf e = job.payload →
      ∀ e' ∈ db'.enrollments, e'.id = e.id → e'.status = .completed) :
    TurnSpec db failed p (commitAll db db' job call) := by
  have hraised : TurnSpec db failed p { phase := .raised job, db := db } :=
    .plain hrows trivial (.inr hjob.symm) (List.nil_subset _) fun id hid => by cases hid
  have heffect : ∀ q : Phase, q.job = some job → q.made = [] → q.Sound db' failed →
      (∀ id, q.spent = some id → id = job.id) → TurnSpec db failed p { phase := q, db := db' } := by
    intro q hq hqmade hsound hqspent
    refine ⟨hdescends.grows, ?_, hdescends.placed hrows ?_, ?_, .inr (hq.trans hjob.symm), ?_, ?_, ?_, ?_⟩
    · rw [List.append_nil]
      exact hsound
    · intro e he
      obtain ⟨m, hm, rfl⟩ := List.mem_map.mp he
      exact hplaced m hm
    · intro payload h
      exact absurd h List.not_mem_nil
    · intro id h
      cases h
    · intro e' he' hactive
      rcases hdescends.rows e' he' with hmem | ⟨e, he, hid, htenant, -, -, hstatus⟩
      · obtain ⟨m, hm, rfl⟩ := List.mem_map.mp hmem
        exact .inr ⟨m, by rwa [hmade], rfl⟩
      · exact .inl ⟨e, he, hstatus hactive, hid, htenant⟩
    · intro m hm
      rw [hqmade] at hm
      exact absurd hm List.not_mem_nil
    · intro id hid
      rw [hqspent id hid]
      rcases hspent with hold | hnew
      · exact .inl hold
      · exact .inr ⟨job, hjob, rfl, fun e he hactive hpayload => .inr (.inr (hnew e he hactive hpayload))⟩
  cases call with
  | raisesWithoutEffect => exact hraised
  | returns => exact heffect (.returned job) rfl rfl trivial fun id hid => (Option.some.inj hid).symm
  | raisesAfterEffect => exact heffect (.raised job) rfl rfl trivial fun id hid => by cases hid

theorem descends_commit {usage : Option UsageChange} {eventId : Id} {work : StepWork} :
    Descends db (work.commit db usage eventId) [] := by
  refine ⟨Grows.of_tables rfl rfl, fun e' he' => .inr ?_⟩
  obtain ⟨e, he, rfl⟩ := StepWork.mem_commit.mp he'
  refine ⟨e, he, ?_⟩
  split
  · refine ⟨rfl, rfl, rfl, rfl, fun hactive => ?_⟩
    by_contra hne
    simp only [StepWork.advance] at hactive
    split at hactive
    · cases hactive
    · exact hne hactive
  · exact ⟨rfl, rfl, rfl, rfl, id⟩

theorem completed_commit {usage : Option UsageChange} {eventId : Id} {work : StepWork}
    (hlast : work.isLast = true) : ∀ e' ∈ (work.commit db usage eventId).enrollments,
      e'.id = work.enrollment.id → e'.status = .completed := by
  intro e' he' hid
  obtain ⟨e, he, rfl⟩ := StepWork.mem_commit.mp he'
  by_cases hkey : e.id = work.enrollment.id
  · rw [if_pos hkey]
    simp [StepWork.advance, hlast]
  · rw [if_neg hkey] at hid
    exact absurd hid hkey

theorem descends_complete {enrollment : SequenceEnrollment} :
    Descends db (completeEnrollment db enrollment) [] := by
  refine ⟨Grows.of_tables rfl rfl, fun e' he' => .inr ?_⟩
  obtain ⟨e, he, rfl⟩ := mem_completeEnrollment.mp he'
  refine ⟨e, he, ?_⟩
  split
  · exact ⟨rfl, rfl, rfl, rfl, fun hactive => by cases hactive⟩
  · exact ⟨rfl, rfl, rfl, rfl, id⟩

theorem completed_complete {enrollment : SequenceEnrollment} :
    ∀ e' ∈ (completeEnrollment db enrollment).enrollments, e'.id = enrollment.id →
      e'.status = .completed := by
  intro e' he' hid
  obtain ⟨e, he, rfl⟩ := mem_completeEnrollment.mp he'
  by_cases hkey : e.id = enrollment.id
  · rw [if_pos hkey]
    rfl
  · rw [if_neg hkey] at hid
    exact absurd hid hkey

theorem descends_commitEnrollments {made : List Made} :
    Descends db (commitEnrollments db made) (made.map Made.enrollment) := by
  refine ⟨Grows.of_tables rfl rfl, fun e' he' => ?_⟩
  rcases Table.mem_of_mem_foldl_insert he' with hold | ⟨m, hm, rfl⟩
  · exact .inr ⟨e', hold, rfl, rfl, rfl, rfl, id⟩
  · exact .inl (List.mem_map_of_mem hm)

theorem id_of_jobOf {e : SequenceEnrollment} {job : Received} {id : Id} (hp : Placed db e)
    (hjob : jobOf e = job.payload) (htext : job.payload.text "enrollment_id" = some id) : e.id = id := by
  rw [← hjob, jobOf, text_enrollment_stepJob e.tenantId hp.id] at htext
  exact Option.some.inj htext

theorem TurnSpec.commitStep {h : Handling} {usage : Option UsageChange} {call : CallOutcome}
    {eventId : Id} {t : Turn} (hjob : p.job = some h.job) (hmade : p.made = [])
    (hreads : h.job.payload.text "enrollment_id" = some h.work.enrollment.id)
    (hspent : p.spent = some h.job.id ∨ h.work.isLast = true)
    (hrows : ∀ e ∈ db.enrollments, Placed db e)
    (hcommit : commitStep db h usage call eventId = some t) : TurnSpec db failed p t := by
  unfold SequenceWorkers.commitStep at hcommit
  split at hcommit
  · cases hcommit
    refine .commitAll hjob hmade hrows (fun m hm => absurd hm List.not_mem_nil) descends_commit ?_
    rcases hspent with hold | hlast
    · exact .inl hold
    · refine .inr fun e he hactive hpayload e' he' hid => ?_
      rw [id_of_jobOf (hrows e he) hpayload hreads] at hid
      exact completed_commit hlast e' he' hid
  · cases hcommit

def QueueConfigured (settings : Settings) : Prop := (configured settings.sqsSequenceJobsQueueUrl).isSome

theorem publishJob_configured {settings : Settings} (hs : QueueConfigured settings) (call : CallOutcome)
    (tenantId enrollmentId : Id) : publishJob settings call (stepJob tenantId enrollmentId) =
      (if call.takesEffect then [(stepJob tenantId enrollmentId).payload] else [], call.raises) := by
  obtain ⟨url, hurl⟩ := Option.isSome_iff_exists.mp hs
  have hmessage := SQSPublisher.message_of_name settings .sequenceJobs
    (stepJob tenantId enrollmentId).payload
  rw [LogicalQueue.url, hurl] at hmessage
  have hpublish : SQSPublisher.publish settings call (stepJob tenantId enrollmentId) = _ :=
    SQSPublisher.publish_of_message hmessage call
  rw [publishJob, hpublish]
  cases call <;> rfl

theorem effect_of_not_raises {call : CallOutcome} (h : call.raises = false) : call.takesEffect = true := by
  cases call with
  | returns => rfl
  | raisesAfterEffect => cases h
  | raisesWithoutEffect => cases h

theorem eventOf_publishJob {settings : Settings} {call : CallOutcome} {tenantId enrollmentId : Id} :
    ∀ payload ∈ (publishJob settings call (stepJob tenantId enrollmentId)).1,
      eventOf payload = "sequence.step.execute" := by
  intro payload h
  obtain ⟨sent, -, rfl⟩ := List.mem_map.mp h
  exact eventOf_stepJob tenantId enrollmentId

theorem TurnSpec.publishStep {settings : Settings} (hs : QueueConfigured settings) {h : Handling}
    {usage : Option UsageChange} {handed : Bool} {call : CallOutcome}
    (hp : Phase.Sound db failed (.recorded h usage handed)) (hrows : ∀ e ∈ db.enrollments, Placed db e) :
    TurnSpec db failed (.recorded h usage handed) (publishStep settings db h usage handed call) := by
  have hreply := publishJob_configured hs call h.work.tenantId h.work.enrollment.id
  have hfollow : h.work.followUp = stepJob h.work.tenantId h.work.enrollment.id := rfl
  obtain ⟨htenant, hid⟩ := hp
  refine ⟨Grows.refl db, ?_, hrows, ?_, .inr ?_, ?_, ?_, ?_, ?_⟩
  · simp only [SequenceWorkers.publishStep, List.append_nil]
    split
    · trivial
    · exact ⟨htenant, hid⟩
  · intro payload hmem
    exact eventOf_publishJob payload hmem
  · simp only [SequenceWorkers.publishStep]
    split <;> rfl
  · intro id hd
    cases hd
  · intro e' he' hactive
    exact .inl ⟨e', he', hactive, rfl, rfl⟩
  · intro m hm
    simp only [SequenceWorkers.publishStep] at hm
    split at hm <;> exact absurd hm List.not_mem_nil
  · intro id hspent
    simp only [SequenceWorkers.publishStep, hfollow, hreply] at hspent
    split at hspent
    · cases hspent
    · -- the follow-up takes the place of the job
      rename_i hraises
      refine .inr ⟨h.job, rfl, Option.some.inj hspent, fun e he hactive hjob => .inl ?_⟩
      have heffect := effect_of_not_raises (Bool.not_eq_true _ ▸ hraises)
      have he' := hrows e he
      rw [← hjob, jobOf, text_tenant_stepJob e.id he'.tenant] at htenant
      rw [← hjob, jobOf, text_enrollment_stepJob e.tenantId he'.id] at hid
      simp only [SequenceWorkers.publishStep, hfollow, hreply, heffect, ↓reduceIte,
        List.mem_singleton, jobOf, Option.some.inj htenant, Option.some.inj hid]

theorem TurnSpec.enrollNext {settings : Settings} (hs : QueueConfigured settings) {minted : List Id}
    {job : Received} {tenantId leadId id eventId : Id} {sequence : Sequence} {rest : List Sequence}
    {made : List Made} {call : CallOutcome} {t : Turn}
    (hp : Phase.Sound db failed (.enrolling job tenantId leadId (sequence :: rest) made))
    (hrows : ∀ e ∈ db.enrollments, Placed db e)
    (hact : enrollNext settings db minted job tenantId leadId sequence rest made id eventId call = some t) :
    TurnSpec db failed (.enrolling job tenantId leadId (sequence :: rest) made) t := by
  have hreply := publishJob_configured hs call tenantId id
  obtain ⟨hevent, htenant, hlead, hrest, hmade⟩ := hp
  unfold SequenceWorkers.enrollNext at hact
  split at hact
  · cases hact
  · rename_i hfresh
    have hid : id ≠ "" := fun h => hfresh (.inl h)
    cases hact
    refine ⟨Grows.refl db, ?_, hrows, ?_, .inr ?_, ?_, ?_, ?_, ?_⟩
    · simp only [List.append_nil]
      split
      · trivial
      · refine ⟨hevent, htenant, hlead, fun q hq => hrest q (List.mem_cons_of_mem _ hq), fun m hm => ?_⟩
        rcases List.mem_append.mp hm with hm | hm
        · exact hmade m hm
        · rw [List.mem_singleton.mp hm]
          exact ⟨htenant, hid, hrest sequence List.mem_cons_self, hlead⟩
    · intro payload hmem
      exact eventOf_publishJob payload hmem
    · dsimp only
      split <;> rfl
    · intro id hd
      cases hd
    · intro e' he' hactive
      exact .inl ⟨e', he', hactive, rfl, rfl⟩
    · intro m hm
      simp only [hreply] at hm ⊢
      split at hm
      · exact absurd hm List.not_mem_nil
      · rename_i hraises
        have heffect := effect_of_not_raises (Bool.not_eq_true _ ▸ hraises)
        rcases List.mem_append.mp hm with hm | hm
        · exact .inl hm
        · rw [List.mem_singleton.mp hm, heffect]
          exact .inr List.mem_cons_self
    · intro id hspent
      dsimp only at hspent
      split at hspent <;> cases hspent

theorem TurnSpec.deleteJob {job : Received} {call : CallOutcome} (hrows : ∀ e ∈ db.enrollments, Placed db e)
    (hspent : p.spent = some job.id) : TurnSpec db failed p (deleteJob db job call) where
  grows := Grows.refl db
  phase := trivial
  rows := hrows
  jobs _ h := absurd h List.not_mem_nil
  job := .inl rfl
  deleted id h := by
    simp only [SequenceWorkers.deleteJob] at h
    split at h
    · rwa [hspent]
    · cases h
  lineage e' he' hactive := .inl ⟨e', he', hactive, rfl, rfl⟩
  made m hm := absurd hm List.not_mem_nil
  spent _ h := by cases h

theorem TurnSpec.saveJob {settings : Settings} {job : Received} {call : CallOutcome} {jobId : Id}
    {error : String} (hrows : ∀ e ∈ db.enrollments, Placed db e) :
    TurnSpec db failed (.raised job) (saveJob settings db job call jobId error) := by
  have heffect : ∀ id, (SequenceWorkers.saveJob settings db job call jobId error).phase.spent = some id →
      id = job.id ∧ call.raises = false := by
    intro id hid
    simp only [SequenceWorkers.saveJob] at hid
    split at hid
    · cases hid
    · exact ⟨(Option.some.inj hid).symm, Bool.not_eq_true _ ▸ ‹_›⟩
  refine ⟨Grows.refl db, ?_, hrows, ?_, ?_, ?_, ?_, ?_, ?_⟩
  · cases call with
    | returns => exact ⟨_, List.mem_append_right _ (List.mem_singleton_self _), rfl⟩
    | raisesAfterEffect => trivial
    | raisesWithoutEffect => trivial
  · intro payload h
    exact absurd h List.not_mem_nil
  · simp only [SequenceWorkers.saveJob]
    split
    · exact .inl rfl
    · exact .inr rfl
  · intro id h
    cases h
  · intro e' he' hactive
    exact .inl ⟨e', he', hactive, rfl, rfl⟩
  · intro m hm
    simp only [SequenceWorkers.saveJob] at hm
    split at hm <;> exact absurd hm List.not_mem_nil
  · intro id hid
    obtain ⟨rfl, hraises⟩ := heffect id hid
    refine .inr ⟨job, rfl, rfl, fun e he hactive hjob => .inr (.inl ⟨failedJob jobId (lastSegment
      (settings.sqsSequenceJobsQueueUrl.getD "")) (eventOf job.payload) job.payload error job.receiveCount,
      ?_, hjob.symm⟩)⟩
    simp [SequenceWorkers.saveJob, effect_of_not_raises hraises]

theorem Acted.spec {settings : Settings} (hs : QueueConfigured settings) {minted : List Id} {action : Action}
    {t : Turn} (hact : Acted settings db minted p action t) (hp : p.Sound db failed)
    (hrows : ∀ e ∈ db.enrollments, Placed db e)
    (htrigger : ∀ job, p.job = some job → TriggerOk db job.payload) : TurnSpec db failed p t := by
  cases hact with
  | @read job _ hread => exact .read hrows (htrigger job rfl) hread
  | send h call =>
    simp only [sendStep]
    split
    · exact .plain hrows trivial (.inr rfl) (List.nil_subset _) fun id hid => by cases hid
    · exact .plain hrows hp (.inr rfl) (List.nil_subset _) fun id hid => by cases hid
  | recordFailed => exact .plain hrows trivial (.inr rfl) (List.nil_subset _) fun id hid => by cases hid
  | record => exact .plain hrows hp (.inr rfl) (List.nil_subset _) fun id hid => by cases hid
  | publish => exact .publishStep hs hp hrows
  | commitLast hlast hcommit => exact .commitStep rfl rfl hp.2 (.inr hlast) hrows hcommit
  | commit hcommit => exact .commitStep rfl rfl hp.2 (.inl rfl) hrows hcommit
  | complete job enrollment call eventId =>
    refine .commitAll rfl rfl hrows (fun m hm => absurd hm List.not_mem_nil) descends_complete (.inr ?_)
    intro e he hactive hpayload e' he' hid
    rw [id_of_jobOf (hrows e he) hpayload hp] at hid
    exact completed_complete e' he' hid
  | enroll hnext => exact .enrollNext hs hp hrows hnext
  | commitEnrollments =>
    obtain ⟨hevent, -, -, -, hmade⟩ := hp
    refine .commitAll rfl rfl hrows hmade descends_commitEnrollments (.inr ?_)
    intro e he hactive hpayload
    rw [← hpayload, jobOf, eventOf_stepJob] at hevent
    exact absurd hevent (by decide)
  | save => exact .saveJob hrows
  | skip => exact .plain hrows trivial (.inl rfl) (List.nil_subset _) fun id hid => by cases hid
  | deleteReturned => exact .deleteJob hrows rfl
  | deleteSaved => exact .deleteJob hrows rfl
  | crash => exact .plain hrows trivial (.inl rfl) (List.nil_subset _) fun id hid => by cases hid

end Leadline.SequenceWorkers
