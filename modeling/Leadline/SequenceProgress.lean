import Leadline.SequenceJobs
import Leadline.SequenceSends

namespace Leadline.SequenceWorkers

open Library WorkerLoop

namespace State

variable {n : ℕ} {s s' : State n}

theorem mem_enqueue {payloads : List Dict} {q : Queued} : q ∈ (s.enqueue payloads).queue ↔
    q ∈ s.queue ∨ ∃ k payload, payloads[k]? = some payload ∧ q = ⟨s.nextId + k, payload, 0⟩ := by
  simp only [enqueue, List.mem_append, List.mem_mapIdx]
  refine or_congr_right ⟨?_, ?_⟩
  · rintro ⟨k, hk, rfl⟩
    exact ⟨k, payloads[k], List.getElem?_eq_getElem hk, rfl⟩
  · rintro ⟨k, payload, hk, rfl⟩
    obtain ⟨hlt, rfl⟩ := List.getElem?_eq_some_iff.mp hk
    exact ⟨k, hlt, rfl⟩

theorem mem_queue_apply {i : Fin n} {t : Turn} {q : Queued} : q ∈ (s.apply i t).queue ↔
    (q ∈ s.queue ∧ t.deleted ≠ some q.id) ∨
      ∃ k payload, t.jobs[k]? = some payload ∧ q = ⟨s.nextId + k, payload, 0⟩ := by
  have hq : (s.apply i t).queue =
      (enqueue { s with queue := s.queue.filter fun q => some q.id ≠ t.deleted } t.jobs).queue := rfl
  rw [hq, mem_enqueue, List.mem_filter, decide_eq_true_eq, ne_comm]

def Held (s : State n) (i : Fin n) (job : Received) : Prop :=
  job ∈ (s.workers i).batch ∨ (s.phase i).job = some job

def Carried (s : State n) (id : ℕ) (payload : Dict) : Prop :=
  (∃ q ∈ s.queue, q.id = id ∧ q.payload = payload) ∨
    ∃ i job, Held s i job ∧ job.id = id ∧ job.payload = payload

structure Sound (s : State n) : Prop where
  functional : ∀ id payload payload', Carried s id payload → Carried s id payload' → payload = payload'
  bounded : ∀ id payload, Carried s id payload → id < s.nextId
  triggers : ∀ id payload, Carried s id payload → TriggerOk s.db payload
  phases : ∀ i, (s.phase i).Sound s.db s.failedJobs
  rows : ∀ e ∈ s.db.enrollments, Placed s.db e
  requests : ∀ r e, s.requests r = .created e → Placed s.db e

def Extends (s s' : State n) (payloads : List Dict) : Prop :=
  s'.nextId = s.nextId + payloads.length ∧ ∀ id payload, Carried s' id payload →
    Carried s id payload ∨ ∃ k, payloads[k]? = some payload ∧ id = s.nextId + k

theorem Sound.extend {payloads : List Dict} (h : Sound s) (hext : Extends s s' payloads)
    (hgrows : Grows s.db s'.db) (hpayloads : ∀ payload ∈ payloads, TriggerOk s'.db payload)
    (hphases : ∀ i, (s'.phase i).Sound s'.db s'.failedJobs)
    (hrows : ∀ e ∈ s'.db.enrollments, Placed s'.db e)
    (hrequests : ∀ r e, s'.requests r = .created e → Placed s'.db e) : Sound s' := by
  obtain ⟨hnext, hcarried⟩ := hext
  refine ⟨?_, ?_, ?_, hphases, hrows, hrequests⟩
  · intro id payload payload' hp hp'
    rcases hcarried id payload hp with hold | ⟨k, hk, hid⟩ <;>
      rcases hcarried id payload' hp' with hold' | ⟨k', hk', hid'⟩
    · exact h.functional id payload payload' hold hold'
    · have := h.bounded id payload hold
      omega
    · have := h.bounded id payload' hold'
      omega
    · obtain rfl : k = k' := by omega
      exact Option.some.inj (hk.symm.trans hk')
  · intro id payload hp
    rcases hcarried id payload hp with hold | ⟨k, hk, rfl⟩
    · have := h.bounded id payload hold
      omega
    · obtain ⟨hlt, -⟩ := List.getElem?_eq_some_iff.mp hk
      omega
  · intro id payload hp
    rcases hcarried id payload hp with hold | ⟨k, hk, -⟩
    · intro hevent tenantId leadId ht hl
      exact hgrows.leads _ _ (h.triggers id payload hold hevent tenantId leadId ht hl)
    · exact hpayloads payload (List.mem_of_getElem? hk)

theorem extends_apply {i : Fin n} {t : Turn} (hjob : t.phase.job = none ∨ t.phase.job = (s.phase i).job) :
    Extends s (s.apply i t) t.jobs := by
  refine ⟨rfl, fun id payload hp => ?_⟩
  rcases hp with ⟨q, hq, rfl, rfl⟩ | ⟨j, job, hheld, rfl, rfl⟩
  · rcases mem_queue_apply.mp hq with ⟨hq, -⟩ | ⟨k, payload, hk, rfl⟩
    · exact .inl (.inl ⟨q, hq, rfl, rfl⟩)
    · exact .inr ⟨k, hk, rfl⟩
  · refine .inl (.inr ⟨j, job, ?_, rfl, rfl⟩)
    by_cases hji : j = i
    · subst hji
      rcases hheld with hbatch | hphase
      · simp only [State.apply, Function.update_self] at hbatch
        split at hbatch
        · exact absurd hbatch List.not_mem_nil
        · exact .inl hbatch
      · rw [phase_apply_self] at hphase
        rcases hjob with hnone | hsame
        · rw [hnone] at hphase
          cases hphase
        · exact .inr (hsame ▸ hphase)
    · rcases hheld with hbatch | hphase
      · simp only [State.apply, Function.update_of_ne hji] at hbatch
        exact .inl hbatch
      · rw [phase_apply_of_ne hji] at hphase
        exact .inr hphase

theorem Sound.turn {i : Fin n} {t : Turn} (h : Sound s)
    (ht : TurnSpec s.db s.failedJobs (s.phase i) t) : Sound (s.apply i t) := by
  refine h.extend (extends_apply ht.job) ht.grows (fun payload hp => triggerOk_of_step (ht.jobs payload hp))
    ?_ ht.rows ?_
  · intro j
    by_cases hji : j = i
    · rw [hji, phase_apply_self]
      exact ht.phase
    · rw [phase_apply_of_ne hji]
      exact (h.phases j).mono ht.grows (List.subset_append_left _ _)
  · intro r e hr
    exact (h.requests r e hr).mono ht.grows

theorem extends_enqueue {payloads : List Dict} (hqueue : s'.queue = (s.enqueue payloads).queue)
    (hnext : s'.nextId = s.nextId + payloads.length) (hworkers : s'.workers = s.workers) :
    Extends s s' payloads := by
  refine ⟨hnext, fun id payload hp => ?_⟩
  rcases hp with ⟨q, hq, rfl, rfl⟩ | ⟨j, job, hheld, rfl, rfl⟩
  · rw [hqueue] at hq
    rcases mem_enqueue.mp hq with hq | ⟨k, payload, hk, rfl⟩
    · exact .inl (.inl ⟨q, hq, rfl, rfl⟩)
    · exact .inr ⟨k, hk, rfl⟩
  · refine .inl (.inr ⟨j, job, ?_, rfl, rfl⟩)
    rwa [Held, phase, hworkers] at hheld

theorem extends_refl (hqueue : s'.queue = s.queue) (hnext : s'.nextId = s.nextId)
    (hworkers : s'.workers = s.workers) : Extends s s' [] :=
  extends_enqueue (by rw [hqueue, enqueue, List.mapIdx_nil, List.append_nil]) hnext hworkers

theorem mem_queue_receive {i : Fin n} {ids : List ℕ} {q : Queued} (h : q ∈ (s.receive i ids).queue) :
    ∃ q' ∈ s.queue, q'.id = q.id ∧ q'.payload = q.payload := by
  obtain ⟨q', hq', rfl⟩ := List.mem_map.mp h
  refine ⟨q', hq', ?_⟩
  split <;> exact ⟨rfl, rfl⟩

theorem queue_receive {i : Fin n} {ids : List ℕ} {q : Queued} (h : q ∈ s.queue) :
    ∃ q' ∈ (s.receive i ids).queue, q'.id = q.id ∧ q'.payload = q.payload := by
  refine ⟨_, List.mem_map_of_mem h, ?_⟩
  split <;> exact ⟨rfl, rfl⟩

theorem extends_receive {i : Fin n} {ids : List ℕ} : Extends s (s.receive i ids) [] := by
  refine ⟨rfl, fun id payload hp => .inl ?_⟩
  rcases hp with ⟨q, hq, rfl, rfl⟩ | ⟨j, job, hheld, rfl, rfl⟩
  · obtain ⟨q', hq', hid, hpayload⟩ := mem_queue_receive hq
    exact .inl ⟨q', hq', hid, hpayload⟩
  · by_cases hji : j = i
    · subst hji
      rcases hheld with hbatch | hphase
      · simp only [receive, Function.update_self] at hbatch
        obtain ⟨id, -, hjob⟩ := List.mem_filterMap.mp hbatch
        obtain ⟨q, hq, rfl⟩ := Option.map_eq_some_iff.mp hjob
        exact .inl ⟨q, List.mem_of_find?_eq_some hq, rfl, rfl⟩
      · simp only [receive, phase, Function.update_self] at hphase
        cases hphase
    · refine .inr ⟨j, job, ?_, rfl, rfl⟩
      simp only [Held, receive, phase, Function.update_of_ne hji] at hheld
      exact hheld

theorem extends_next {i : Fin n} {job : Received} {rest : List Received}
    (hworker : s.workers i = ⟨job :: rest, .idle⟩) :
    Extends s { s with workers := Function.update s.workers i ⟨rest, .received job⟩ } [] := by
  refine ⟨rfl, fun id payload hp => .inl ?_⟩
  rcases hp with ⟨q, hq, rfl, rfl⟩ | ⟨j, job', hheld, rfl, rfl⟩
  · exact .inl ⟨q, hq, rfl, rfl⟩
  · refine .inr ⟨j, job', ?_, rfl, rfl⟩
    by_cases hji : j = i
    · subst hji
      simp only [Held, phase, Function.update_self] at hheld
      rw [Held, hworker]
      rcases hheld with hbatch | hphase
      · exact .inl (List.mem_cons_of_mem _ hbatch)
      · cases hphase
        exact .inl List.mem_cons_self
    · simp only [Held, phase, Function.update_of_ne hji] at hheld
      exact hheld

theorem sound_start (db : Db) : Sound (start n db) where
  functional _ _ _ h := by
    rcases h with ⟨q, hq, -⟩ | ⟨i, job, hheld | hheld, -⟩
    · exact absurd hq List.not_mem_nil
    · exact absurd hheld List.not_mem_nil
    · cases hheld
  bounded _ _ h := by
    rcases h with ⟨q, hq, -⟩ | ⟨i, job, hheld | hheld, -⟩
    · exact absurd hq List.not_mem_nil
    · exact absurd hheld List.not_mem_nil
    · cases hheld
  triggers _ _ h := by
    rcases h with ⟨q, hq, -⟩ | ⟨i, job, hheld | hheld, -⟩
    · exact absurd hq List.not_mem_nil
    · exact absurd hheld List.not_mem_nil
    · cases hheld
  phases _ := trivial
  rows _ h := absurd h (Table.not_mem_empty _)
  requests _ _ h := by cases h

theorem triggerOk_triggerJob {db : Db} {tenantId leadId : Id} {trigger : String}
    (hlead : (LeadRepository.get db tenantId leadId).isSome) :
    TriggerOk db (triggerJob tenantId leadId trigger).payload := by
  intro _ t l ht hl
  have htenant : (triggerJob tenantId leadId trigger).payload.str? "tenant_id" = some tenantId := rfl
  have hleadId : (triggerJob tenantId leadId trigger).payload.str? "lead_id" = some leadId := rfl
  rw [← Dict.eq_of_text htenant ht, ← Dict.eq_of_text hleadId hl]
  exact hlead

theorem Sound.quiet {payloads : List Dict} (h : Sound s) (hext : Extends s s' payloads)
    (hgrows : Grows s.db s'.db) (hpayloads : ∀ payload ∈ payloads, TriggerOk s'.db payload)
    (hpolled : Polled s s') (hfailed : s'.failedJobs = s.failedJobs)
    (hrows : ∀ e ∈ s'.db.enrollments, e ∈ s.db.enrollments ∨ Placed s.db e)
    (hrequests : ∀ r e, s'.requests r = .created e → s.requests r = .created e ∨ Placed s.db e) :
    Sound s' := by
  refine h.extend hext hgrows hpayloads ?_ ?_ ?_
  · intro i
    rcases hpolled i with heq | ⟨-, job, heq⟩
    · rw [heq, hfailed]
      exact (h.phases i).mono hgrows (List.Subset.refl _)
    · rw [heq]
      trivial
  · intro e he
    rcases hrows e he with hold | hnew
    · exact (h.rows e hold).mono hgrows
    · exact hnew.mono hgrows
  · intro r e hr
    rcases hrequests r e hr with hold | hnew
    · exact (h.requests r e hold).mono hgrows
    · exact hnew.mono hgrows

theorem setRequest_created {r r' : ℕ} {request : Request} {e : SequenceEnrollment}
    (h : (s.setRequest r request).requests r' = .created e) :
    s.requests r' = .created e ∨ request = .created e := by
  simp only [setRequest] at h
  by_cases hr : r' = r
  · subst hr
    rw [Function.update_self] at h
    exact .inr h
  · rw [Function.update_of_ne hr] at h
    exact .inl h

theorem Sound.spec {settings : Settings} {i : Fin n} {action : Action} {t : Turn}
    (hq : QueueConfigured settings)
    (h : Sound s) (hact : Acted settings s.db s.minted (s.phase i) action t) :
    TurnSpec s.db s.failedJobs (s.phase i) t := by
  apply hact.spec hq (h.phases i) h.rows
  intro job hjob
  exact h.triggers job.id job.payload (.inr ⟨i, job, .inr hjob, rfl, rfl⟩)

theorem Sound.step {settings : Settings} {label : Label n} (hq : QueueConfigured settings) (h : Sound s)
    (hstep : Stepped settings s label s') : Sound s' := by
  have hrefl := Grows.refl s.db
  have hnone : ∀ payload ∈ ([] : List Dict), TriggerOk s.db payload := fun _ hm => absurd hm List.not_mem_nil
  have hrows : ∀ e ∈ s.db.enrollments, e ∈ s.db.enrollments ∨ Placed s.db e := fun _ he => .inl he
  have hrequests : ∀ r e, s.requests r = .created e → s.requests r = .created e ∨ Placed s.db e :=
    fun _ _ hr => .inl hr
  cases hstep with
  | receive hworker =>
    exact h.quiet extends_receive hrefl hnone (polled_receive hworker) rfl hrows hrequests
  | next hworker =>
    exact h.quiet (extends_next hworker) hrefl hnone (polled_next hworker) rfl hrows hrequests
  | worker hact => exact h.turn (h.spec hq hact)
  | @enroll r tenantId sequenceId leadId id e _ htenant hid henroll =>
    obtain ⟨hsequence, hlead, rfl⟩ := SequenceService.enroll_eq_some.mp henroll
    have hplaced : Placed s.db (SequenceEnrollmentRepository.newEnrollment id tenantId leadId sequenceId) :=
      ⟨htenant, hid, hsequence, hlead⟩
    refine h.quiet (extends_refl rfl rfl rfl) hrefl hnone (polled_of_workers rfl) rfl hrows fun r' e hr => ?_
    rcases setRequest_created hr with hold | hnew
    · exact .inl hold
    · cases hnew
      exact .inr hplaced
  | @commit r e call hcreated =>
    refine h.quiet (extends_refl rfl rfl rfl) (Grows.of_tables rfl rfl) hnone (polled_of_workers rfl) rfl
      (fun e' he' => ?_) fun r' e' hr => ?_
    · rcases Table.mem_of_mem_insert he' with hold | rfl
      · exact .inl hold
      · exact .inr (h.requests r _ hcreated)
    · rcases setRequest_created hr with hold | hnew
      · exact .inl hold
      · split at hnew <;> cases hnew
  | commitFailed call hcreated =>
    refine h.quiet (extends_refl rfl rfl rfl) hrefl hnone (polled_of_workers rfl) rfl hrows fun r' e hr => ?_
    rcases setRequest_created hr with hold | hnew
    · exact .inl hold
    · cases hnew
  | publish call hcommitted =>
    refine h.quiet (extends_enqueue rfl rfl rfl) hrefl
      (fun payload hm => triggerOk_of_step (eventOf_publishJob payload hm)) (polled_of_workers rfl) rfl hrows
      fun r' e hr => ?_
    rcases setRequest_created hr with hold | hnew
    · exact .inl hold
    · split at hnew <;> cases hnew
  | trigger trigger hlead =>
    refine h.quiet (extends_enqueue rfl rfl rfl) hrefl (fun payload hm => ?_)
      (polled_of_workers rfl) rfl hrows
      hrequests
    rw [List.mem_singleton.mp hm]
    exact triggerOk_triggerJob hlead
  | replay tenantId enrollmentId =>
    refine h.quiet (extends_enqueue rfl rfl rfl) hrefl (fun payload hm => ?_)
      (polled_of_workers rfl) rfl hrows
      hrequests
    rw [List.mem_singleton.mp hm]
    exact triggerOk_of_step (eventOf_stepJob tenantId enrollmentId)
  | other timeline usage hleads =>
    refine h.quiet (extends_refl rfl rfl rfl) ⟨fun _ _ hq => hq, fun tenantId id hl => ?_⟩
      (fun _ hm => absurd hm List.not_mem_nil) (polled_of_workers rfl) rfl hrows hrequests
    obtain ⟨lead, hlead⟩ := Option.isSome_iff_exists.mp hl
    obtain ⟨hmem, rfl, rfl⟩ := ofTenant_eq_some.mp hlead
    exact hleads lead hmem

def Waiting (s : State n) (e : SequenceEnrollment) : Prop :=
  ∃ q ∈ s.queue, q.payload = jobOf e ∧ ∀ i, (s.phase i).spent ≠ some q.id

def Untouched (s : State n) (e : SequenceEnrollment) : Prop :=
  ∃ q ∈ s.queue, q.payload = jobOf e ∧
    ∀ i job, (s.phase i).job = some job → job.id = q.id → s.phase i = .received job

def Backed (s : State n) (e : SequenceEnrollment) : Prop :=
  Waiting s e ∨ ∃ f ∈ s.failedJobs, f.payload = jobOf e

def Unpublished (s : State n) (e : SequenceEnrollment) : Prop :=
  ∃ r e', (s.requests r = .committed e' ∨ s.requests r = .failed e') ∧
    e'.id = e.id ∧ e'.tenantId = e.tenantId

structure Live (s : State n) : Prop where
  backed : ∀ e ∈ s.db.enrollments, e.status = .active → Backed s e ∨ Unpublished s e
  made : ∀ i, ∀ m ∈ (s.phase i).made, Untouched s m.enrollment

theorem Untouched.waiting {e : SequenceEnrollment} (h : Untouched s e) : Waiting s e := by
  obtain ⟨q, hq, hpayload, hfree⟩ := h
  refine ⟨q, hq, hpayload, fun i hspent => ?_⟩
  obtain ⟨job, hjob, hid⟩ := Phase.job_of_spent hspent
  rw [hfree i job hjob hid] at hspent
  cases hspent

variable {i : Fin n} {t : Turn} {e : SequenceEnrollment}

theorem untouched_of_new (hs : Sound s) (ht : TurnSpec s.db s.failedJobs (s.phase i) t)
    (hnew : jobOf e ∈ t.jobs) : Untouched (s.apply i t) e := by
  obtain ⟨k, hk⟩ := List.mem_iff_getElem?.mp hnew
  refine ⟨⟨s.nextId + k, jobOf e, 0⟩, mem_queue_apply.mpr (.inr ⟨k, _, hk, rfl⟩), rfl,
    fun j job hjob hid => ?_⟩
  -- a job in hand has an id from before the turn
  have hold : ∃ j, Held s j job := by
    by_cases hji : j = i
    · subst hji
      rw [phase_apply_self] at hjob
      rcases ht.job with hnone | hsame
      · rw [hnone] at hjob
        cases hjob
      · exact ⟨j, .inr (hsame ▸ hjob)⟩
    · rw [phase_apply_of_ne hji] at hjob
      exact ⟨j, .inr hjob⟩
  obtain ⟨j', hheld⟩ := hold
  have hbound := hs.bounded job.id job.payload (.inr ⟨j', job, hheld, rfl, rfl⟩)
  simp only at hid
  omega

theorem Untouched.turn (h : Untouched s e) (hs : Sound s) (ht : TurnSpec s.db s.failedJobs (s.phase i) t)
    (hread : ∀ job, s.phase i = .received job → t.phase.job = some job → jobOf e ≠ job.payload) :
    Untouched (s.apply i t) e := by
  obtain ⟨q, hq, hpayload, hfree⟩ := h
  refine ⟨q, mem_queue_apply.mpr (.inl ⟨hq, fun hdel => ?_⟩), hpayload, fun j job hjob hid => ?_⟩
  · have hspent := ht.deleted q.id hdel
    obtain ⟨job, hjob, hid⟩ := Phase.job_of_spent hspent
    rw [hfree i job hjob hid] at hspent
    cases hspent
  · by_cases hji : j = i
    · subst hji
      rw [phase_apply_self] at hjob
      rcases ht.job with hnone | hsame
      · rw [hnone] at hjob
        cases hjob
      · have hphase := hfree j job (hsame ▸ hjob) hid
        have hjobs : q.payload = job.payload := hs.functional q.id q.payload job.payload
          (.inl ⟨q, hq, rfl, rfl⟩) (.inr ⟨j, job, .inr (hsame ▸ hjob), hid, rfl⟩)
        exact absurd (hpayload.symm.trans hjobs) (hread job hphase hjob)
    · rw [phase_apply_of_ne hji] at hjob ⊢
      exact hfree j job hjob hid

theorem Waiting.turn (h : Waiting s e) (hs : Sound s) (ht : TurnSpec s.db s.failedJobs (s.phase i) t)
    (he : e ∈ s.db.enrollments) (hactive : e.status = .active) :
    Backed (s.apply i t) e ∨ ∀ e' ∈ t.db.enrollments, e'.id = e.id → e'.status = .completed := by
  obtain ⟨q, hq, hpayload, hfree⟩ := h
  by_cases hspent : t.phase.spent = some q.id
  · rcases ht.spent q.id hspent with hold | ⟨job, hjob, hid, hall⟩
    · exact absurd hold (hfree i)
    · have hjobs : q.payload = job.payload := hs.functional q.id q.payload job.payload
        (.inl ⟨q, hq, rfl, rfl⟩) (.inr ⟨i, job, .inr hjob, hid, rfl⟩)
      rcases hall e he hactive (hpayload.symm.trans hjobs) with hnew | ⟨f, hf, hfp⟩ | hdone
      · exact .inl (.inl (untouched_of_new hs ht hnew).waiting)
      · exact .inl (.inr ⟨f, List.mem_append_right _ hf, hfp⟩)
      · exact .inr hdone
  · refine .inl (.inl ⟨q, mem_queue_apply.mpr (.inl ⟨hq, fun hdel => ?_⟩), hpayload, fun j => ?_⟩)
    · exact absurd (ht.deleted q.id hdel) (hfree i)
    · by_cases hji : j = i
      · rw [hji, phase_apply_self]
        exact hspent
      · rw [phase_apply_of_ne hji]
        exact hfree j

theorem jobOf_eq {e e' : SequenceEnrollment} (hid : e.id = e'.id) (htenant : e.tenantId = e'.tenantId) :
    jobOf e = jobOf e' := by
  rw [jobOf, jobOf, hid, htenant]

theorem Backed.congr {e e' : SequenceEnrollment} (h : Backed s e) (hjob : jobOf e = jobOf e') :
    Backed s e' := by
  rw [Backed, Waiting, ← hjob]
  exact h

theorem Live.turn (h : Live s) (hs : Sound s) (ht : TurnSpec s.db s.failedJobs (s.phase i) t)
    (hread : ∀ job, s.phase i = .received job → t.phase.job = some job →
      ∀ j, ∀ m ∈ (s.phase j).made, jobOf m.enrollment ≠ job.payload) : Live (s.apply i t) := by
  have hmade : ∀ j, ∀ m ∈ (s.phase j).made, Untouched (s.apply i t) m.enrollment := by
    intro j m hm
    exact (h.made j m hm).turn hs ht fun job hphase hjob => hread job hphase hjob j m hm
  constructor
  · intro e' he' hactive'
    rcases ht.lineage e' he' hactive' with ⟨e, he, hactive, hid, htenant⟩ | ⟨m, hm, rfl⟩
    · have hjob := jobOf_eq hid htenant
      rcases h.backed e he hactive with (hw | ⟨f, hf, hfp⟩) | ⟨r, e₀, hr, hid₀, htenant₀⟩
      · rcases hw.turn hs ht he hactive with hb | hdone
        · exact .inl (hb.congr hjob)
        · rw [hdone e' he' hid.symm] at hactive'
          cases hactive'
      · exact .inl (.inr ⟨f, List.mem_append_left _ hf, hfp.trans hjob⟩)
      · exact .inr ⟨r, e₀, hr, hid₀.trans hid, htenant₀.trans htenant⟩
    · exact .inl (.inl (hmade i m hm).waiting)
  · intro j m hm
    by_cases hji : j = i
    · rw [hji, phase_apply_self] at hm
      rcases ht.made m hm with hold | hnew
      · exact hmade i m hold
      · exact untouched_of_new hs ht hnew
    · rw [phase_apply_of_ne hji] at hm
      exact hmade j m hm

theorem Live.quiet (h : Live s)
    (hqueue : ∀ q ∈ s.queue, ∃ q' ∈ s'.queue, q'.id = q.id ∧ q'.payload = q.payload)
    (hpolled : Polled s s') (hfailed : s'.failedJobs = s.failedJobs)
    (hrows : ∀ e ∈ s'.db.enrollments, e ∈ s.db.enrollments ∨ Unpublished s' e)
    (hrequests : ∀ e, Unpublished s e → Waiting s' e ∨ Unpublished s' e) : Live s' := by
  constructor
  · intro e he hactive
    rcases hrows e he with hold | hnew
    · rcases h.backed e hold hactive with (⟨q, hq, hpayload, hfree⟩ | ⟨f, hf, hfp⟩) | hun
      · obtain ⟨q', hq', hid, hsame⟩ := hqueue q hq
        refine .inl (.inl ⟨q', hq', hsame.trans hpayload, fun i => ?_⟩)
        rw [hid]
        rcases hpolled i with heq | ⟨-, job, heq⟩
        · rw [heq]
          exact hfree i
        · rw [heq]
          exact fun hspent => by cases hspent
      · exact .inl (.inr ⟨f, by rwa [hfailed], hfp⟩)
      · rcases hrequests e hun with hw | hun'
        · exact .inl (.inl hw)
        · exact .inr hun'
    · exact .inr hnew
  · intro i m hm
    have hm' : m ∈ (s.phase i).made := by
      rcases hpolled i with heq | ⟨-, job, heq⟩
      · rwa [heq] at hm
      · rw [heq] at hm
        exact absurd hm List.not_mem_nil
    obtain ⟨q, hq, hpayload, hfree⟩ := h.made i m hm'
    obtain ⟨q', hq', hid, hsame⟩ := hqueue q hq
    refine ⟨q', hq', hsame.trans hpayload, fun j job hjob hjid => ?_⟩
    rcases hpolled j with heq | ⟨-, job', heq⟩
    · rw [heq] at hjob ⊢
      exact hfree j job hjob (hjid.trans hid)
    · rw [heq] at hjob ⊢
      exact congrArg Phase.received (Option.some.inj hjob)

theorem live_start (db : Db) : Live (start n db) where
  backed _ h := absurd h (Table.not_mem_empty _)
  made _ _ h := absurd h List.not_mem_nil

/-- No step job is read while its enrollment is in an open transaction that has published it. -/
def Visible (s : State n) : Label n → Prop
  | .worker i .read =>
    match s.phase i with
    | .received job =>
      match job.payload.text "enrollment_id" with
      | none => True
      | some id => ∀ j, ∀ m ∈ (s.phase j).made, m.enrollment.id ≠ id
    | _ => True
  | _ => True

def readEnrollment (s : State n) : Label n → Option Id
  | .worker i .read =>
    match s.phase i with
    | .received job => job.payload.text "enrollment_id"
    | _ => none
  | _ => none

theorem visible_iff (s : State n) (label : Label n) :
    (∀ id ∈ readEnrollment s label, ∀ j, ∀ m ∈ (s.phase j).made, m.enrollment.id ≠ id) ↔
      Visible s label := by
  unfold readEnrollment Visible
  split
  · split
    · split
      · next hid => simp [hid]
      · next hid => simp [hid]
    · simp
  · simp

instance (s : State n) (label : Label n) : Decidable (Visible s label) :=
  decidable_of_iff _ (visible_iff s label)

theorem unpublished_setRequest {r : ℕ} {request : Request} {e : SequenceEnrollment}
    (hrequests : s'.requests = (s.setRequest r request).requests)
    (hidle : ∀ e₀, s.requests r ≠ .committed e₀ ∧ s.requests r ≠ .failed e₀) (h : Unpublished s e) :
    Unpublished s' e := by
  obtain ⟨r', e₀, hr, hids⟩ := h
  have hne : r' ≠ r := by
    rintro rfl
    rcases hr with hr | hr
    · exact (hidle e₀).1 hr
    · exact (hidle e₀).2 hr
  refine ⟨r', e₀, ?_, hids⟩
  rw [hrequests]
  simpa only [setRequest, Function.update_of_ne hne] using hr

theorem Live.worker {settings : Settings} {action : Action} (hq : QueueConfigured settings) (h : Live s)
    (hs : Sound s) (hv : Visible s (.worker i action))
    (hact : Acted settings s.db s.minted (s.phase i) action t) : Live (s.apply i t) := by
  refine h.turn hs (hs.spec hq hact) fun job hphase hjob j m hm heq => ?_
  have hplaced : Placed s.db m.enrollment := by
    have hsound := hs.phases j
    cases hpj : s.phase j with
    | enrolling job' tenantId leadId rest made =>
      rw [hpj] at hsound hm
      exact hsound.2.2.2.2 m hm
    | _ =>
      rw [hpj] at hm
      exact absurd hm List.not_mem_nil
  rw [hphase] at hact
  cases hact with
  | read hread =>
    simp only [Visible, hphase, ← heq, jobOf, text_enrollment_stepJob _ hplaced.id] at hv
    exact hv j m hm rfl
  | crash => cases hjob

theorem Live.publish {settings : Settings} {r : ℕ} {enrollment : SequenceEnrollment} {call : CallOutcome}
    (hq : QueueConfigured settings) (h : Live s) (hs : Sound s)
    (hcommitted : s.requests r = .committed enrollment) :
    Live ((s.enqueue (publishJob settings call (stepJob enrollment.tenantId enrollment.id)).1).setRequest r
      (if (publishJob settings call (stepJob enrollment.tenantId enrollment.id)).2 then .failed enrollment
        else .closed)) := by
  refine h.quiet (fun q hq => ⟨q, mem_enqueue.mpr (.inl hq), rfl, rfl⟩) (polled_of_workers rfl) rfl
    (fun _ he => .inl he) fun e hu => ?_
  obtain ⟨r', e₀, hr, hid, htenant⟩ := hu
  by_cases hrr : r' = r
  · subst hrr
    obtain rfl : enrollment = e₀ := by
      rcases hr with hr | hr
      · exact Request.committed.inj (hcommitted.symm.trans hr)
      · rw [hcommitted] at hr
        cases hr
    rw [publishJob_configured hq]
    dsimp only
    cases hraises : call.raises with
    | true =>
      refine .inr ⟨r', enrollment, .inr ?_, hid, htenant⟩
      simp [setRequest]
    | false =>
      have heffect := effect_of_not_raises hraises
      refine .inl ⟨⟨s.nextId + 0, jobOf enrollment, 0⟩, ?_, jobOf_eq hid htenant, fun j hspent => ?_⟩
      · rw [heffect]
        exact mem_enqueue.mpr (.inr ⟨0, _, rfl, rfl⟩)
      · obtain ⟨job, hjob, hjid⟩ := Phase.job_of_spent hspent
        have hbound := hs.bounded job.id job.payload (.inr ⟨j, job, .inr hjob, rfl, rfl⟩)
        simp only at hjid
        omega
  · refine .inr ⟨r', e₀, ?_, hid, htenant⟩
    simpa only [setRequest, Function.update_of_ne hrr, enqueue] using hr

theorem Live.step {settings : Settings} {label : Label n} (hq : QueueConfigured settings) (h : Live s)
    (hs : Sound s) (hv : Visible s label) (hstep : Stepped settings s label s') : Live s' := by
  have hqueue : ∀ q ∈ s.queue, ∃ q' ∈ s.queue, q'.id = q.id ∧ q'.payload = q.payload :=
    fun q hq => ⟨q, hq, rfl, rfl⟩
  have henqueue : ∀ payloads, ∀ q ∈ s.queue, ∃ q' ∈ (s.enqueue payloads).queue,
      q'.id = q.id ∧ q'.payload = q.payload :=
    fun payloads q hq => ⟨q, mem_enqueue.mpr (.inl hq), rfl, rfl⟩
  cases hstep with
  | receive hworker =>
    exact h.quiet (fun q hq => queue_receive hq) (polled_receive hworker) rfl
      (fun _ he => .inl he) fun _ hu => .inr hu
  | next hworker => exact h.quiet hqueue (polled_next hworker) rfl (fun _ he => .inl he) fun _ hu => .inr hu
  | worker hact => exact h.worker hq hs hv hact
  | enroll hidle _ _ _ =>
    refine h.quiet hqueue (polled_of_workers rfl) rfl (fun _ he => .inl he) fun _ hu => .inr ?_
    apply unpublished_setRequest rfl _ hu
    intro e₀
    rw [hidle]
    exact ⟨Request.noConfusion, Request.noConfusion⟩
  | @commit r e call hcreated =>
    refine h.quiet hqueue (polled_of_workers rfl) rfl (fun e' he' => ?_) fun _ hu => .inr ?_
    · rcases Table.mem_of_mem_insert he' with hold | rfl
      · exact .inl hold
      · refine .inr ⟨r, e', ?_, rfl, rfl⟩
        simp only [setRequest, Function.update_self]
        split
        · exact .inr rfl
        · exact .inl rfl
    · apply unpublished_setRequest rfl _ hu
      intro e₀
      rw [hcreated]
      exact ⟨Request.noConfusion, Request.noConfusion⟩
  | commitFailed call hcreated =>
    refine h.quiet hqueue (polled_of_workers rfl) rfl (fun _ he => .inl he) fun _ hu => .inr ?_
    apply unpublished_setRequest rfl _ hu
    intro e₀
    rw [hcreated]
    exact ⟨Request.noConfusion, Request.noConfusion⟩
  | publish call hcommitted => exact h.publish hq hs hcommitted
  | trigger _ _ =>
    exact h.quiet (henqueue _) (polled_of_workers rfl) rfl (fun _ he => .inl he) fun _ hu => .inr hu
  | replay _ _ =>
    exact h.quiet (henqueue _) (polled_of_workers rfl) rfl (fun _ he => .inl he) fun _ hu => .inr hu
  | other _ _ _ => exact h.quiet hqueue (polled_of_workers rfl) rfl (fun _ he => .inl he) fun _ hu => .inr hu

theorem live_of_run {settings : Settings} {db : Db} {labels : List (Label n)} (hq : QueueConfigured settings)
    (hrun : GuardedRun (Enabled (State.step settings)) Visible (start n db) labels s) :
    Sound s ∧ Live s := by
  apply hrun.invariant (fun s => Sound s ∧ Live s)
  · intro s label s' hs hv hstep
    exact ⟨hs.1.step hq (stepped_of_step hstep), hs.2.step hq hs.1 hv (stepped_of_step hstep)⟩
  · exact ⟨sound_start db, live_start db⟩

end State

theorem active_enrollment_has_job (n : ℕ) (settings : Settings) (hq : QueueConfigured settings) (db : Db)
    (labels : List (Label n)) (s : State n)
    (hrun : GuardedRun (Enabled (State.step settings)) State.Visible (State.start n db) labels s) :
    ∀ e ∈ s.db.enrollments, e.status = .active →
      (∃ q ∈ s.queue, q.payload = jobOf e) ∨ (∃ f ∈ s.failedJobs, f.payload = jobOf e) ∨
        State.Unpublished s e := by
  intro e he hactive
  rcases (State.live_of_run hq hrun).2.backed e he hactive with (⟨q, hmem, hpayload, -⟩ | hf) | hu
  · exact .inl ⟨q, hmem, hpayload⟩
  · exact .inr (.inl hf)
  · exact .inr (.inr hu)

def triggerLabels {n : ℕ} (i : Fin n) : List (Label n) :=
  [.trigger "tenant-seq" "lead-1" "lead_created"] ++ takeUp i 0 ++
    [.worker i (.enroll "enr-1" "ev-1" .returns), .worker i (.commit .returns ""),
      .worker i (.delete .returns)]

theorem active_enrollment_has_job_triggered :
    ∃ s, runChecked (State.step workerSettings) State.Visible
      (State.start 1 welcomeDb) (triggerLabels 0) = some s ∧
      ∃ e ∈ s.db.enrollments, e.status = .active ∧ ((∃ q ∈ s.queue, q.payload = jobOf e) ∨
        (∃ f ∈ s.failedJobs, f.payload = jobOf e) ∨ State.Unpublished s e) := by
  have hrun : (runChecked (State.step workerSettings) State.Visible (State.start 1 welcomeDb)
      (triggerLabels 0)).any (fun s => miaEnrolled ∈ s.db.enrollments) = true := by decide +kernel
  have hq : QueueConfigured workerSettings := by
    unfold QueueConfigured
    decide
  obtain ⟨s, hs, hmem⟩ := (Option.any_eq_true _ _).mp hrun
  have hmem := of_decide_eq_true hmem
  exact ⟨s, hs, miaEnrolled, hmem, rfl, active_enrollment_has_job 1 workerSettings hq welcomeDb
    (triggerLabels 0) s (guarded_of_runChecked hs) miaEnrolled hmem rfl⟩

def unpublishedLabels : List (Label 1) :=
  [.enroll 0 "tenant-seq" "seq-1" "lead-1" "enr-1", .commit 0 .returns, .publish 0 .raisesWithoutEffect]

def earlyReadLabels {n : ℕ} (i j : Fin n) : List (Label n) :=
  [.trigger "tenant-seq" "lead-1" "lead_created"] ++ takeUp i 0 ++
    [.worker i (.enroll "enr-1" "ev-1" .returns)] ++ takeUp j 1 ++ [.worker j (.delete .returns),
      .worker i (.commit .returns ""), .worker i (.delete .returns)]

theorem enrollment_stranded :
    (∃ s, runSteps (State.step workerSettings) (State.start 1 welcomeDb) unpublishedLabels = some s ∧
        s.queue.length = 0 ∧ s.failedJobs.length = 0 ∧ miaEnrolled ∈ s.db.enrollments) ∧
      (∃ s, runSteps (State.step workerSettings) (State.start 2 welcomeDb) (earlyReadLabels 0 1) = some s ∧
        s.queue.length = 0 ∧ s.failedJobs.length = 0 ∧ miaEnrolled ∈ s.db.enrollments) ∧
      miaEnrolled.status = .active := by
  have hfailed : (runSteps (State.step workerSettings) (State.start 1 welcomeDb) unpublishedLabels).any
      (fun s => s.queue.length = 0 ∧ s.failedJobs.length = 0 ∧ miaEnrolled ∈ s.db.enrollments) = true := by
    decide +kernel
  have hearly : (runSteps (State.step workerSettings) (State.start 2 welcomeDb) (earlyReadLabels 0 1)).any
      (fun s => s.queue.length = 0 ∧ s.failedJobs.length = 0 ∧ miaEnrolled ∈ s.db.enrollments) = true := by
    decide +kernel
  obtain ⟨s, hs, hfacts⟩ := (Option.any_eq_true _ _).mp hfailed
  obtain ⟨s', hs', hfacts'⟩ := (Option.any_eq_true _ _).mp hearly
  exact ⟨⟨s, hs, of_decide_eq_true hfacts⟩, ⟨s', hs', of_decide_eq_true hfacts'⟩, rfl⟩

end Leadline.SequenceWorkers
