import Leadline.DeadLetterRequests
import Leadline.Library.JsonTexts
import Leadline.Library.Lineage

namespace Leadline

open Library WorkerLoop

namespace DeadLetterCycle

structure Plant where
  workers : WorkerLoop.World
  desk : DeadLetterRequests.Desk
  putBack : List (Id × String × String) := []

def start : Plant where
  workers := World.empty
  desk := { jobs := Table.empty }

inductive Label
  | work (event : WorkerLoop.Event)
  | desk (label : DeadLetterRequests.Label) (messageId : String)

def insertRows (jobs : Table FailedJob.id) (rows : List FailedJob) : Option (Table FailedJob.id) :=
  if h : ((jobs.rows ++ rows).map FailedJob.id).Nodup then some ⟨jobs.rows ++ rows, h⟩ else none

def next (settings : Settings) (createdAt : FailedJob → ℕ) (handlers : List String) (p : Plant) : Label → Option Plant
  | .work event =>
    (p.workers.step handlers event).bind fun workers =>
      (insertRows p.desk.jobs (workers.failedJobs.drop p.workers.failedJobs.length)).map fun jobs =>
        { p with workers := workers, desk := { p.desk with jobs := jobs } }
  | .desk label messageId =>
    (DeadLetterRequests.next settings createdAt p.desk label).bind fun desk =>
      match desk.events.drop p.desk.events.length with
      | [.putBack jobId message] =>
        (p.workers.step handlers (.arrive message.queueUrl messageId message.messageBody)).map fun workers =>
          ⟨workers, desk, p.putBack ++ [(jobId, message.queueUrl, messageId)]⟩
      | _ => some { p with desk := desk }

def Replayed (p : Plant) (m m' : String × String × String) : Prop :=
  ∃ job, .stored m.1 m.2.1 job ∈ p.workers.log ∧ (job.id, m'.1, m'.2.1) ∈ p.putBack

def Settled (p : Plant) (queueName : String) (payload : Dict) (m : String × String × String) : Prop :=
  (∃ queued ∈ p.workers.queues m.1, queued.id = m.2.1 ∧ queued.body = m.2.2) ∨
    .handled m.1 m.2.1 true ∈ p.workers.log ∨
    ∃ job, .stored m.1 m.2.1 job ∈ p.workers.log ∧ ∃ row ∈ p.desk.jobs, row.id = job.id ∧
      row.status = .pending ∧ row.queueName = queueName ∧ row.payload = payload

section Workers

variable {w w' : WorkerLoop.World} {handlers : List String} {u id : String} {es : List Effect} {job : FailedJob}

def storedJob : Effect → Option FailedJob
  | .stored _ _ job => some job
  | _ => none

theorem apply_failedJobs (w : WorkerLoop.World) (e : Effect) :
    (w.apply e).failedJobs = w.failedJobs ++ [e].filterMap storedJob := by
  cases e <;> simp [World.apply, World.receive, World.updateQueue, storedJob]

theorem applyAll_failedJobs (w : WorkerLoop.World) (es : List Effect) :
    (w.applyAll es).failedJobs = w.failedJobs ++ es.filterMap storedJob := by
  induction es generalizing w with
  | nil => simp [World.applyAll]
  | cons e es ih =>
    change ((w.apply e).applyAll es).failedJobs = _
    rw [ih, apply_failedJobs, List.append_assoc, ← List.filterMap_append, List.singleton_append]

theorem applyAll_arrived (w : WorkerLoop.World) (es : List Effect) : (w.applyAll es).arrived = w.arrived := by
  induction es generalizing w with
  | nil => rfl
  | cons e es ih => exact (ih (w.apply e)).trans World.apply_arrived

theorem stored_pending {v : String} {picks : List Pick} (h : .stored u id job ∈ w.pollEffects handlers v picks) :
    job.status = .pending := by
  rcases List.mem_append.mp h with hreceived | hstored
  · simp at hreceived
  · exact (DeadLetterReplay.stored_of_pollQueue hstored).2

theorem step_cases {event : WorkerLoop.Event} (h : w.step handlers event = some w') :
    (∃ u id body, (∀ b, ¬w.Known u id b) ∧ w' = w.arrive u id body) ∨
      ∃ es, w' = w.applyAll es ∧ ∀ u id job, .stored u id job ∈ es → job.status = .pending := by
  cases event with
  | arrive u id body =>
    simp only [World.step] at h
    split at h
    · rename_i hfresh
      cases h
      exact .inl ⟨u, id, body, fun b hknown => hfresh _ hknown rfl, rfl⟩
    · cases h
  | poll v picks cut =>
    simp only [World.step] at h
    split at h
    · cases h
      refine .inr ⟨_, rfl, ?_⟩
      intro u id job hstored
      cases cut with
      | none => exact stored_pending hstored
      | some n => exact stored_pending (List.mem_of_mem_take hstored)
    · cases h

end Workers

def Named (job : FailedJob) : Prop := ∃ q : LogicalQueue, job.queueName = q.name

structure SameJob (row job : FailedJob) : Prop where
  id : row.id = job.id
  queueName : row.queueName = job.queueName
  payload : row.payload = job.payload

structure Traced (url : LogicalQueue → String) (handlers : List String) (w : WorkerLoop.World)
    (jobs : Table FailedJob.id) (putBack : List (Id × String × String)) : Prop where
  accounted : World.Accounted handlers w
  distinct : w.arrived.Nodup
  rows : ∀ job ∈ w.failedJobs, Named job →
    ∃ row ∈ jobs, SameJob row job ∧ (row.status = .pending ∨ ∃ m, (job.id, m) ∈ putBack)
  back : ∀ jobId u id, (jobId, u, id) ∈ putBack → ∃ row ∈ jobs, row.id = jobId ∧
    w.Known u id (Json.dumps (.obj row.payload)) ∧ ∃ q : LogicalQueue, row.queueName = q.name ∧ u = url q
  order : ∀ u id body job u' id' body', .stored u id job ∈ w.log → w.Known u id body →
    (job.id, u', id') ∈ putBack → w.Known u' id' body' → List.Sublist [(u, id, body), (u', id', body')] w.arrived

structure Phased (jobs : Table FailedJob.id) (requests : ℕ → DeadLetterRequests.Phase)
    (putBack : List (Id × String × String)) : Prop where
  read : ∀ request job, requests request = .read job → ∃ row ∈ jobs, SameJob row job
  published : ∀ request job sent, requests request = .published job sent → (∃ row ∈ jobs, SameJob row job) ∧
    (Named job → ∃ m, (job.id, m) ∈ putBack)

variable {settings : Settings} {createdAt : FailedJob → ℕ} {url : LogicalQueue → String} {handlers : List String}
  {w w' : WorkerLoop.World} {jobs jobs' : Table FailedJob.id} {putBack : List (Id × String × String)}
  {requests : ℕ → DeadLetterRequests.Phase} {job : FailedJob} {u id body : String}

theorem traced_start : Traced url handlers World.empty Table.empty [] where
  accounted := World.accounted_empty
  distinct := List.nodup_nil
  rows _ h := absurd h List.not_mem_nil
  back _ _ _ h := absurd h List.not_mem_nil
  order _ _ _ _ _ _ _ h := absurd h List.not_mem_nil

theorem Traced.arrive (h : Traced url handlers w jobs putBack) (hfresh : ∀ b, ¬w.Known u id b) :
    Traced url handlers (w.arrive u id body) jobs putBack where
  accounted := h.accounted.arrive hfresh
  distinct := by
    apply h.distinct.append (List.nodup_singleton _)
    rw [List.disjoint_singleton]
    exact hfresh body
  rows := h.rows
  back jobId u' id' hback := by
    obtain ⟨row, hrow, hid, hknown, hqueue⟩ := h.back jobId u' id' hback
    exact ⟨row, hrow, hid, World.known_arrive.mpr (.inl hknown), hqueue⟩
  order v j b job u' id' body' hstored hknown hback hknown' := by
    obtain ⟨other, hother⟩ : ∃ b, w.Known v j b := by
      obtain ⟨b, payload, hb, -⟩ := h.accounted.backed _ hstored
      exact ⟨b, hb⟩
    obtain ⟨row, -, -, hsent, -⟩ := h.back _ u' id' hback
    have hold : w.Known v j b := by
      rcases World.known_arrive.mp hknown with hold | ⟨rfl, rfl, -⟩
      · exact hold
      · exact absurd hother (hfresh other)
    have hold' : w.Known u' id' body' := by
      rcases World.known_arrive.mp hknown' with hold' | ⟨rfl, rfl, -⟩
      · exact hold'
      · exact absurd hsent (hfresh _)
    exact (h.order v j b job u' id' body' hstored hold hback hold').trans (List.sublist_append_left _ _)

theorem insertRows_eq_some {rows : List FailedJob} (h : insertRows jobs rows = some jobs') :
    jobs'.rows = jobs.rows ++ rows ∧ ∀ job ∈ rows, jobs.Fresh job.id := by
  unfold insertRows at h
  split at h
  · rename_i hnodup
    cases h
    refine ⟨rfl, ?_⟩
    intro job hjob row hrow hid
    rw [List.map_append] at hnodup
    exact List.disjoint_of_nodup_append hnodup (List.mem_map_of_mem hrow) (hid ▸ List.mem_map_of_mem hjob)
  · cases h

theorem Traced.applyAll {es : List Effect} (h : Traced url handlers w jobs putBack)
    (hnext : World.Accounted handlers (w.applyAll es))
    (hpending : ∀ u id job, .stored u id job ∈ es → job.status = .pending)
    (hinsert : insertRows jobs (es.filterMap storedJob) = some jobs') :
    Traced url handlers (w.applyAll es) jobs' putBack := by
  obtain ⟨hrows, hfresh⟩ := insertRows_eq_some hinsert
  have hmem : ∀ row ∈ jobs, row ∈ jobs' := by
    intro row hrow
    rw [Table.mem_def, hrows]
    exact List.mem_append_left _ hrow
  have hknown : ∀ v j b, (w.applyAll es).Known v j b ↔ w.Known v j b := by
    intro v j b
    unfold World.Known
    rw [applyAll_arrived]
  refine ⟨hnext, ?_, ?_, ?_, ?_⟩
  · rw [applyAll_arrived]
    exact h.distinct
  · intro job hjob hnamed
    rw [applyAll_failedJobs] at hjob
    cases List.mem_append.mp hjob with
    | inl hold =>
      obtain ⟨row, hrow, hsame, hstatus⟩ := h.rows job hold hnamed
      exact ⟨row, hmem row hrow, hsame, hstatus⟩
    | inr hnew =>
      have hpend : job.status = .pending := by
        obtain ⟨e, he, hstored⟩ := List.mem_filterMap.mp hnew
        cases e with
        | stored u id other =>
          cases hstored
          exact hpending u id job he
        | _ => cases hstored
      refine ⟨job, ?_, ⟨rfl, rfl, rfl⟩, .inl hpend⟩
      rw [Table.mem_def, hrows]
      exact List.mem_append_right _ hnew
  · intro jobId u id hback
    obtain ⟨row, hrow, hid, hsent, hqueue⟩ := h.back jobId u id hback
    exact ⟨row, hmem row hrow, hid, (hknown _ _ _).mpr hsent, hqueue⟩
  · intro u id body job u' id' body' hstored hfirst hback hsecond
    rw [applyAll_arrived]
    rw [World.applyAll_log] at hstored
    cases List.mem_append.mp hstored with
    | inl hold =>
      have hfirst := (hknown _ _ _).mp hfirst
      exact h.order u id body job u' id' body' hold hfirst hback ((hknown _ _ _).mp hsecond)
    | inr hnew =>
      -- a row that is new has not been put back
      obtain ⟨row, hrow, hid, -⟩ := h.back job.id u' id' hback
      exact absurd hid (hfresh job (List.mem_filterMap.mpr ⟨_, hnew, rfl⟩) row hrow)

theorem Traced.sent {row : FailedJob} {q : LogicalQueue} (h : Traced url handlers w jobs putBack) (hrow : row ∈ jobs)
    (hqueue : row.queueName = q.name) (hfresh : ∀ b, ¬w.Known (url q) id b) :
    Traced url handlers (w.arrive (url q) id (Json.dumps (.obj row.payload))) jobs
      (putBack ++ [(row.id, url q, id)]) := by
  have hnext : Traced url handlers (w.arrive (url q) id (Json.dumps (.obj row.payload))) jobs putBack := h.arrive hfresh
  refine ⟨hnext.accounted, hnext.distinct, ?_, ?_, ?_⟩
  · intro job hjob hnamed
    obtain ⟨found, hfound, hsame, hstatus⟩ := hnext.rows job hjob hnamed
    refine ⟨found, hfound, hsame, hstatus.imp_right ?_⟩
    rintro ⟨m, hm⟩
    exact ⟨m, List.mem_append_left _ hm⟩
  · intro jobId u' id' hback
    cases List.mem_append.mp hback with
    | inl hold => exact hnext.back jobId u' id' hold
    | inr hnew =>
      cases List.mem_singleton.mp hnew
      exact ⟨row, hrow, rfl, World.known_arrive.mpr (.inr ⟨rfl, rfl, rfl⟩), q, hqueue, rfl⟩
  · intro u i body job u' id' body' hstored hknown hback hknown'
    cases List.mem_append.mp hback with
    | inl hold => exact hnext.order u i body job u' id' body' hstored hknown hold hknown'
    | inr hnew =>
      obtain ⟨-, rfl, rfl⟩ : job.id = row.id ∧ u' = url q ∧ id' = id := by simpa using hnew
      obtain ⟨other, payload, hother, -⟩ := h.accounted.backed _ hstored
      have hbody : body' = Json.dumps (.obj row.payload) :=
        hnext.accounted.unique _ _ _ _ hknown' (World.known_arrive.mpr (.inr ⟨rfl, rfl, rfl⟩))
      have hfirst : w.Known u i body := by
        rcases World.known_arrive.mp hknown with hold | ⟨rfl, rfl, -⟩
        · exact hold
        · exact absurd hother (hfresh other)
      rw [hbody]
      exact Lineage.pair_snoc hfirst _

theorem Traced.mark {now : ℕ} (h : Traced url handlers w jobs putBack)
    (hmarked : Named job → ∃ m, (job.id, m) ∈ putBack) (hrow : ∃ row ∈ jobs, SameJob row job) :
    Traced url handlers w (jobs.modify job.id (FailedJob.markReplayed now) (FailedJob.markReplayed_id now))
      putBack := by
  have hmem : ∀ row ∈ jobs, ∃ row' ∈ jobs.modify job.id (FailedJob.markReplayed now) (FailedJob.markReplayed_id now),
      SameJob row' row ∧ (row' = row ∨ row.id = job.id) := by
    intro row hrow
    by_cases hid : row.id = job.id
    · exact ⟨_, Table.mem_modify_self _ hrow hid, ⟨rfl, rfl, rfl⟩, .inr hid⟩
    · exact ⟨row, (Table.mem_modify_of_ne _ hid).mpr hrow, ⟨rfl, rfl, rfl⟩, .inl rfl⟩
  refine ⟨h.accounted, h.distinct, ?_, ?_, h.order⟩
  · intro other hother hnamed
    obtain ⟨row, hold, hsame, hstatus⟩ := h.rows other hother hnamed
    obtain ⟨row', hrow', hsame', hcase⟩ := hmem row hold
    refine ⟨row', hrow', ⟨hsame'.id.trans hsame.id, hsame'.queueName.trans hsame.queueName,
      hsame'.payload.trans hsame.payload⟩, ?_⟩
    cases hcase with
    | inl heq => rwa [heq]
    | inr hid =>
      obtain ⟨found, hfound, hfoundSame⟩ := hrow
      have hrowFound : row = found := Table.eq_of_key_eq hold hfound (hid.trans hfoundSame.id.symm)
      obtain ⟨q, hq⟩ := hnamed
      obtain ⟨m, hm⟩ := hmarked ⟨q, by rw [← hfoundSame.queueName, ← hrowFound, hsame.queueName, hq]⟩
      exact .inr ⟨m, by rwa [← hsame.id, hid]⟩
  · intro jobId u id hback
    obtain ⟨row, hold, hid, hsent, q, hqueue, hu⟩ := h.back jobId u id hback
    obtain ⟨row', hrow', hsame', -⟩ := hmem row hold
    refine ⟨row', hrow', hsame'.id.trans hid, ?_, q, hsame'.queueName.trans hqueue, hu⟩
    rwa [hsame'.payload]

theorem Phased.mono (h : Phased jobs requests putBack) {putBack' : List (Id × String × String)}
    (hjobs : ∀ row ∈ jobs, row ∈ jobs') (hback : ∀ m ∈ putBack, m ∈ putBack') : Phased jobs' requests putBack' where
  read request job hread := by
    obtain ⟨row, hrow, hsame⟩ := h.read request job hread
    exact ⟨row, hjobs row hrow, hsame⟩
  published request job sent hpublished := by
    obtain ⟨⟨row, hrow, hsame⟩, hsent⟩ := h.published request job sent hpublished
    refine ⟨⟨row, hjobs row hrow, hsame⟩, ?_⟩
    intro hnamed
    obtain ⟨m, hm⟩ := hsent hnamed
    exact ⟨m, hback _ hm⟩

theorem Phased.move {request : ℕ} {phase : DeadLetterRequests.Phase} (h : Phased jobs requests putBack)
    (hread : ∀ job, phase = .read job → ∃ row ∈ jobs, SameJob row job)
    (hpublished : ∀ job sent, phase = .published job sent → (∃ row ∈ jobs, SameJob row job) ∧
      (Named job → ∃ m, (job.id, m) ∈ putBack)) :
    Phased jobs (Function.update requests request phase) putBack where
  read other job hother := by
    by_cases hsame : other = request
    · rw [hsame, Function.update_self] at hother
      exact hread job hother
    · rw [Function.update_of_ne hsame] at hother
      exact h.read other job hother
  published other job sent hother := by
    by_cases hsame : other = request
    · rw [hsame, Function.update_self] at hother
      exact hpublished job sent hother
    · rw [Function.update_of_ne hsame] at hother
      exact h.published other job sent hother

theorem Phased.idle {request : ℕ} (h : Phased jobs requests putBack) :
    Phased jobs (Function.update requests request .idle) putBack :=
  h.move (fun _ hphase => nomatch hphase) fun _ _ hphase => nomatch hphase

theorem Phased.mark {jobId : Id} {now : ℕ} (h : Phased jobs requests putBack) :
    Phased (jobs.modify jobId (FailedJob.markReplayed now) (FailedJob.markReplayed_id now)) requests putBack := by
  have hmem : ∀ job, (∃ row ∈ jobs, SameJob row job) →
      ∃ row ∈ jobs.modify jobId (FailedJob.markReplayed now) (FailedJob.markReplayed_id now), SameJob row job := by
    rintro job ⟨row, hrow, hsame⟩
    by_cases hid : row.id = jobId
    · exact ⟨_, Table.mem_modify_self _ hrow hid, ⟨hsame.id, hsame.queueName, hsame.payload⟩⟩
    · exact ⟨row, (Table.mem_modify_of_ne _ hid).mpr hrow, hsame⟩
  refine ⟨?_, ?_⟩
  · intro request job hread
    exact hmem job (h.read request job hread)
  · intro request job sent hpublished
    exact (h.published request job sent hpublished).imp_left (hmem job)

theorem publish_cases {s s' : DeadLetterRequests.Desk} {request : ℕ} {send : CallOutcome}
    (hc : DeadLetterReplay.Configured settings url)
    (h : DeadLetterRequests.next settings createdAt s (.publish request send) = some s') :
    ∃ job phase, s.requests request = .read job ∧ s'.jobs = s.jobs ∧
      s'.requests = Function.update s.requests request phase ∧
      (s'.events = s.events ∧ (phase = .idle ∨ phase = .published job false ∧ ¬Named job) ∨
        ∃ q : LogicalQueue, job.queueName = q.name ∧
          s'.events = s.events ++ [.putBack job.id ⟨url q, Json.dumps (.obj job.payload)⟩] ∧
          (phase = .idle ∨ phase = .published job true)) := by
  simp only [DeadLetterRequests.next] at h
  split at h
  · rename_i job hread
    by_cases hnamed : Named job
    · obtain ⟨q, hq⟩ := hnamed
      have hpublish := DeadLetterReplay.publish_named hc q job.payload send
      rw [← hq] at hpublish
      rw [hpublish] at h
      cases send with
      | returns =>
        cases h
        exact ⟨job, .published job true, hread, rfl, rfl, .inr ⟨q, hq, rfl, .inr rfl⟩⟩
      | raisesAfterEffect =>
        cases h
        exact ⟨job, .idle, hread, rfl, rfl, .inr ⟨q, hq, rfl, .inl rfl⟩⟩
      | raisesWithoutEffect =>
        cases h
        exact ⟨job, .idle, hread, rfl, rfl, .inl ⟨List.append_nil _, .inl rfl⟩⟩
    · have hmessage : SQSPublisher.message settings ⟨job.queueName, job.payload⟩ = none := by
        unfold SQSPublisher.message
        cases hlookup : (SQSPublisher.queueUrls settings).lookup job.queueName with
        | none => rfl
        | some value =>
          obtain ⟨q, hname, -⟩ := SQSPublisher.lookup_eq_some hlookup
          exact absurd ⟨q, hname.symm⟩ hnamed
      rw [SQSPublisher.publish_of_no_message hmessage] at h
      cases h
      exact ⟨job, .published job false, hread, rfl, rfl, .inl ⟨List.append_nil _, .inr ⟨rfl, hnamed⟩⟩⟩
  · cases h

structure Kept (url : LogicalQueue → String) (handlers : List String) (p : Plant) : Prop where
  traced : Traced url handlers p.workers p.desk.jobs p.putBack
  phased : Phased p.desk.jobs p.desk.requests p.putBack

variable {p p' : Plant}

theorem Kept.work {event : WorkerLoop.Event} (h : Kept url handlers p)
    (hnext : next settings createdAt handlers p (.work event) = some p') : Kept url handlers p' := by
  obtain ⟨workers, hstep, hmap⟩ := Option.bind_eq_some_iff.mp hnext
  obtain ⟨jobs, hinsert, rfl⟩ := Option.map_eq_some_iff.mp hmap
  have hmem : ∀ row ∈ p.desk.jobs, row ∈ jobs := by
    intro row hrow
    rw [Table.mem_def, (insertRows_eq_some hinsert).1]
    exact List.mem_append_left _ hrow
  have haccounted := h.traced.accounted.step hstep
  refine ⟨?_, h.phased.mono hmem fun _ => id⟩
  rcases step_cases hstep with ⟨u, id, body, hfresh, rfl⟩ | ⟨es, rfl, hpending⟩
  · have hsame : jobs = p.desk.jobs := by
      apply Table.ext_rows
      rw [(insertRows_eq_some hinsert).1]
      simp [World.arrive, World.updateQueue]
    rw [hsame]
    exact h.traced.arrive hfresh
  · rw [applyAll_failedJobs, List.drop_left] at hinsert
    exact h.traced.applyAll haccounted hpending hinsert

theorem next_quiet {label : DeadLetterRequests.Label} {messageId : String} {desk : DeadLetterRequests.Desk}
    (hdesk : DeadLetterRequests.next settings createdAt p.desk label = some desk)
    (hevents : ∀ jobId message, desk.events.drop p.desk.events.length ≠ [.putBack jobId message])
    (hnext : next settings createdAt handlers p (.desk label messageId) = some p') : p' = { p with desk := desk } := by
  simp only [next, hdesk, Option.bind_some] at hnext
  exact (Option.some.inj hnext).symm

theorem Kept.publish {request : ℕ} {send : CallOutcome} {messageId : String}
    (hc : DeadLetterReplay.Configured settings url) (h : Kept url handlers p)
    (hnext : next settings createdAt handlers p (.desk (.publish request send) messageId) = some p') :
    Kept url handlers p' := by
  obtain ⟨desk, hdesk, -⟩ := Option.bind_eq_some_iff.mp hnext
  obtain ⟨job, phase, hread, hjobs, hrequests, hcase⟩ := publish_cases hc hdesk
  obtain ⟨row, hrow, hsame⟩ := h.phased.read request job hread
  rcases hcase with ⟨hevents, hphase⟩ | ⟨q, hq, hevents, hphase⟩
  · obtain rfl := next_quiet hdesk (by simp [hevents]) hnext
    refine ⟨by rw [hjobs]; exact h.traced, ?_⟩
    rw [hjobs, hrequests]
    rcases hphase with rfl | ⟨rfl, hnamed⟩
    · exact h.phased.idle
    · apply h.phased.move
      · intro other hother
        cases hother
      · intro other sent hother
        cases hother
        exact ⟨⟨row, hrow, hsame⟩, fun hother => absurd hother hnamed⟩
  · simp only [next, hdesk, Option.bind_some, hevents, List.drop_left] at hnext
    obtain ⟨workers, hstep, rfl⟩ := Option.map_eq_some_iff.mp hnext
    simp only [World.step] at hstep
    split at hstep
    · rename_i hfresh
      cases hstep
      have htraced := h.traced.sent hrow (hsame.queueName.trans hq) fun b hknown =>
        hfresh (url q, messageId, b) hknown rfl
      rw [hsame.payload, hsame.id] at htraced
      refine ⟨by rw [hjobs]; exact htraced, ?_⟩
      rw [hjobs, hrequests]
      have hphased := h.phased.mono (fun _ => id) fun m hm =>
        List.mem_append_left [(job.id, url q, messageId)] hm
      rcases hphase with rfl | rfl
      · exact hphased.idle
      · apply hphased.move
        · intro other hother
          cases hother
        · intro other sent hother
          cases hother
          exact ⟨⟨row, hrow, hsame⟩, fun _ => ⟨_, List.mem_append_right _ (List.mem_singleton_self _)⟩⟩
    · cases hstep

theorem Kept.next (hc : DeadLetterReplay.Configured settings url) {label : Label} (h : Kept url handlers p)
    (hnext : next settings createdAt handlers p label = some p') : Kept url handlers p' := by
  cases label with
  | work event => exact h.work hnext
  | desk label messageId =>
    obtain ⟨desk, hdesk, -⟩ := Option.bind_eq_some_iff.mp hnext
    cases label with
    | publish request send => exact h.publish hc hnext
    | read request jobId =>
      have hstep := hdesk
      simp only [DeadLetterRequests.next] at hstep
      split at hstep
      · cases hstep
        obtain rfl := next_quiet hdesk (by simp) hnext
        exact h
      · rename_i job hidle hfind
        cases hstep
        obtain rfl := next_quiet hdesk (by simp) hnext
        refine ⟨h.traced, h.phased.move ?_ ?_⟩
        · intro other hother
          cases hother
          exact ⟨_, (Table.find?_eq_some_iff.mp hfind).1, ⟨rfl, rfl, rfl⟩⟩
        · intro other sent hother
          cases hother
      · cases hstep
    | commit request commit now =>
      have hstep := hdesk
      simp only [DeadLetterRequests.next] at hstep
      split at hstep
      · rename_i job sent hpublished
        cases hstep
        obtain rfl := next_quiet hdesk (by simp) hnext
        obtain ⟨hrow, hsent⟩ := h.phased.published request job sent hpublished
        split
        · exact ⟨h.traced.mark hsent hrow, h.phased.mark.idle⟩
        · exact ⟨h.traced, h.phased.idle⟩
      · cases hstep
    | list queueName =>
      cases hdesk
      obtain rfl := next_quiet rfl (by simp) hnext
      exact ⟨h.traced, h.phased⟩

theorem Kept.settled_or_replayed (h : Kept url handlers p) (hnames : ∀ q, lastSegment (url q) = q.name)
    {q : LogicalQueue} {payload : Dict} (hknown : p.workers.Known (url q) id body)
    (hpayload : payloadOf (some body) = some payload) (hevent : eventOf payload ∈ handlers) :
    Settled p q.name payload (url q, id, body) ∨ ∃ m : String × String × String,
      (m.1 = url q ∧ payloadOf (some m.2.2) = some payload) ∧ Replayed p (url q, id, body) m ∧
        List.Sublist [(url q, id, body), m] p.workers.arrived := by
  have haccounted := h.traced.accounted
  rcases haccounted.kept (url q) id body hknown with hqueued | hdeleted
  · exact .inl (.inl hqueued)
  · obtain ⟨pre, post, hlog⟩ := List.append_of_mem hdeleted
    have hmem : ∀ e ∈ pre, e ∈ p.workers.log := by
      intro e he
      rw [hlog]
      exact List.mem_append_left _ he
    rcases haccounted.deletion hknown hpayload hevent hlog with hhandled | ⟨job, hstored, hjob, hname, -, hcarried⟩
    · exact .inl (.inr (.inl (hmem _ hhandled)))
    · rw [hnames q] at hname
      obtain ⟨row, hrow, hsame, hstatus⟩ := h.traced.rows job hjob ⟨q, hname⟩
      rcases hstatus with hpending | ⟨⟨u', id'⟩, hback⟩
      · exact .inl (.inr (.inr ⟨job, hmem _ hstored, row, hrow, hsame.id, hpending,
          hsame.queueName.trans hname, hsame.payload.trans hcarried⟩))
      · obtain ⟨found, hfound, hid, hsent, q', hqueue, rfl⟩ := h.traced.back job.id u' id' hback
        have heq : found = row := Table.eq_of_key_eq hfound hrow (hid.trans hsame.id.symm)
        have hq : q' = q := by
          apply LogicalQueue.name_injective
          rw [← hqueue, heq, hsame.queueName, hname]
        rw [hq] at hback hsent
        rw [heq, hsame.payload, hcarried] at hsent
        have hread : payloadOf (some (Json.dumps (.obj payload))) = some payload := by
          have hwell : Json.WellFormed (.obj payload) := by
            unfold payloadOf at hpayload
            split at hpayload
            · rename_i hloads
              cases hpayload
              exact Json.wellFormed_of_loads hloads
            · cases hpayload
          rw [payloadOf, Option.getD_some, Json.loads_dumps hwell]
        exact .inr ⟨(url q, id', Json.dumps (.obj payload)), ⟨rfl, hread⟩, ⟨job, hmem _ hstored, hback⟩,
          h.traced.order _ _ _ job _ _ _ (hmem _ hstored) hknown hback hsent⟩

end DeadLetterCycle

open DeadLetterCycle

theorem dead_letters_conserved (settings : Settings) (createdAt : FailedJob → ℕ) (url : LogicalQueue → String)
    (hc : DeadLetterReplay.Configured settings url) (hnames : ∀ q, lastSegment (url q) = q.name)
    (handlers : List String) (labels : List DeadLetterCycle.Label) (p : Plant)
    (hrun : Run (Enabled (DeadLetterCycle.next settings createdAt handlers)) start labels p) (q : LogicalQueue)
    (id body : String) (payload : Dict) (hknown : p.workers.Known (url q) id body)
    (hpayload : payloadOf (some body) = some payload) (hevent : eventOf payload ∈ handlers) :
    ∃ m ∈ p.workers.arrived, (m.1 = url q ∧ payloadOf (some m.2.2) = some payload) ∧
      Settled p q.name payload m ∧ Relation.ReflTransGen (Replayed p) (url q, id, body) m := by
  have hstart : Kept url handlers start := by
    refine ⟨traced_start, ?_, ?_⟩
    · intro request job hread
      cases hread
    · intro request job sent hpublished
      cases hpublished
  have hkept : Kept url handlers p :=
    hrun.invariant (Kept url handlers) (fun _ _ _ h _ hnext => h.next hc hnext) hstart
  apply Lineage.leads_to_settled hkept.traced.distinct ?_ _ hknown ⟨rfl, hpayload⟩
  rintro ⟨u, i, b⟩ hm ⟨rfl, hb⟩
  exact hkept.settled_or_replayed hnames hm hb hevent

namespace DeadLetterCycle

def failingPick : Pick := ⟨"m-1", some "provider timeout", .returns, .returns, "job-1"⟩

def failedAndReplayed : List Label :=
  [.work (.arrive "https://sqs/routing_jobs" "m-1" failingBody),
    .work (.poll "https://sqs/routing_jobs" [failingPick] none),
    .work (.poll "https://sqs/routing_jobs" [failingPick] none),
    .work (.poll "https://sqs/routing_jobs" [failingPick] none),
    .desk (.read 0 "job-1") "", .desk (.publish 0 .returns) "m-2", .desk (.commit 0 .returns 7) "",
    .work (.poll "https://sqs/routing_jobs" [⟨"m-2", none, .returns, .returns, "job-2"⟩] none)]

end DeadLetterCycle

theorem dead_letters_conserved_routing : ∃ p payload,
    runSteps (DeadLetterCycle.next (prefixedSettings "https://sqs/") (fun _ => 0) eventHandlers) start
        failedAndReplayed = some p ∧ payloadOf (some failingBody) = some payload ∧
      ∃ m ∈ p.workers.arrived, (m.1 = "https://sqs/routing_jobs" ∧ payloadOf (some m.2.2) = some payload) ∧
        Settled p "routing_jobs" payload m ∧
        Relation.ReflTransGen (Replayed p) ("https://sqs/routing_jobs", "m-1", failingBody) m := by
  have hreached : (runSteps (DeadLetterCycle.next (prefixedSettings "https://sqs/") (fun _ => 0) eventHandlers) start
      failedAndReplayed).any (fun p => ("https://sqs/routing_jobs", "m-1", failingBody) ∈ p.workers.arrived) =
        true := by
    decide +kernel
  have hbody : (payloadOf (some failingBody)).any (fun payload => eventOf payload ∈ eventHandlers) = true := by
    decide +kernel
  obtain ⟨p, hp, hknown⟩ := (Option.any_eq_true _ _).mp hreached
  obtain ⟨payload, hpayload, hevent⟩ := (Option.any_eq_true _ _).mp hbody
  have hurl : prefixedUrl "https://sqs/" .routingJobs = "https://sqs/routing_jobs" := by decide +kernel
  have hnames : ∀ q, lastSegment (prefixedUrl "https://sqs/" q) = q.name := by
    intro q
    cases q <;> decide +kernel
  have hsent : ("https://sqs/routing_jobs", "m-1", failingBody) ∈ p.workers.arrived := of_decide_eq_true hknown
  refine ⟨p, payload, hp, hpayload, ?_⟩
  rw [← hurl] at hsent ⊢
  exact dead_letters_conserved _ _ _ (prefixed_configured (by decide)) hnames eventHandlers failedAndReplayed p
    (run_of_runSteps hp) .routingJobs "m-1" failingBody payload hsent hpayload (of_decide_eq_true hevent)

end Leadline
