import Leadline.Library.WorkQueue
import Leadline.SequenceJobs
import Leadline.TenantWrites

/-!
The workers on their queues while nobody else puts jobs there: `poll_queue` gives a job to its
handler and leaves it in the queue when the handler fails, up to the last retry.
-/

namespace Leadline

open Library

namespace JobEvent

def queue : JobEvent → LogicalQueue
  | messageCreated => .aiJobs
  | leadCreated => .routingJobs
  | leadUpdated => .routingJobs
  | leadScoreUpdated => .routingJobs
  | sequenceTrigger => .sequenceJobs
  | sequenceStepExecute => .sequenceJobs
  | integrationLeadCreated => .integrationJobs
  | integrationLeadUpdated => .integrationJobs
  | integrationLeadScoreUpdated => .integrationJobs
  | integrationTimelineCreated => .integrationJobs

/-- `handlers.get(event)` -/
def ofPayload (payload : Dict) : Option JobEvent := all.find? fun event => event.name = WorkerLoop.eventOf payload

theorem ofPayload_eq_some {payload : Dict} {event : JobEvent} :
    ofPayload payload = some event ↔ WorkerLoop.eventOf payload = event.name := by
  constructor
  · intro h
    have hname := List.find?_some h
    exact (of_decide_eq_true hname).symm
  · intro h
    unfold ofPayload
    rw [h]
    cases event <;> decide

end JobEvent

namespace JobCascade

open TenantWrites
open SequenceExecution (executed executedStep)

structure Queued where
  job : QueueJob
  receives : ℕ := 0

def Queued.again (q : Queued) : Answer Unit → Multiset Queued
  | .raised => if q.receives + 1 < WorkerLoop.maxRetries then {⟨q.job, q.receives + 1⟩} else 0
  | _ => 0

def published (jobs : List QueueJob) : Multiset Queued := Multiset.ofList (jobs.map fun job => ⟨job, 0⟩)

/-- One message of `poll_queue`; an event without a handler is dropped. -/
def handle (d : Deployment) (w : World) (q : Queued) (inputs : JobInputs) : World × Multiset Queued :=
  match JobEvent.ofPayload q.job.payload with
  | none => (w, 0)
  | some event =>
    let outcome := (event.handle d w.db w.cache q.job.payload inputs).1.run d.settings w.db inputs.calls
    (w.afterJob d q.job event inputs, q.again outcome.answer + published outcome.jobs)

structure Faultless (d : Deployment) (w : World) (q : Queued) (inputs : JobInputs) : Prop where
  send : inputs.send = .returns
  calls : inputs.calls = {}
  named : ∀ k, inputs.newId k ≠ ""
  fresh : ∀ event, JobEvent.ofPayload q.job.payload = some event →
    w.NewIds (event.handle d w.db w.cache q.job.payload inputs).1.newIds

def Admitted (d : Deployment) (c : WorkQueue.State World Queued) (label : Queued × JobInputs) : Prop :=
  Faultless d c.store label.1 label.2

structure Registered (settings : Settings) (job : QueueJob) : Prop where
  event : ∃ event, JobEvent.ofPayload job.payload = some event ∧ job.queueName = event.queue.name
  polled : (SQSPublisher.message settings job).isSome

def usedIds (db : Db) : List Id :=
  db.enrollments.rows.map SequenceEnrollment.id ++ db.timeline.rows.map LeadTimelineEvent.id ++
    db.timeline.rows.filterMap fun e => (e.payload.getD []).str? "enrollment_id"

def start (db : Db) (cache : AICache) (queue : Multiset Queued) : WorkQueue.State World Queued :=
  ⟨{ db := db, cache := cache, ids := usedIds db }, queue⟩

def Aside (db : Db) : Write → Prop
  | .lead (.set l) => OwnsLead db l.tenantId l.id
  | .timelineEvent (.add e) => e.type ≠ "sequence_step_executed"
  | .message (.set _) => True
  | .connection (.add _) => True
  | .connection (.set _) => True
  | .usage _ => True
  | _ => False

def followers (db : Db) (payload : Dict) : List QueueJob :=
  match payload.text "tenant_id", payload.text "session_id" with
  | some tenantId, some sessionId =>
    (MessageEvents.sessionLeadId db tenantId sessionId).elim [] (scoreUpdatedJobs tenantId)
  | _, _ => []

inductive Handled (db : Db) (payload : Dict) (newId : ℕ → Id) (event : JobEvent) : Work Unit → Prop
  | answered (hread : event = .sequenceStepExecute → readStepJob db payload = .ignored) :
    Handled db payload newId event (.answered ())
  | raised (hevent : event ≠ .sequenceStepExecute) : Handled db payload newId event .raised
  | aside (c : Commit Unit) (hevent : event ≠ .sequenceStepExecute) (hwrites : ∀ w ∈ c.writes, Aside db w)
      (hids : ∃ n, c.writes.flatMap Write.addedIds = (List.range n).map newId) (hbefore : c.before = [])
      (hafter : c.after = [] ∨ event = .messageCreated ∧ c.after = followers db payload) :
    Handled db payload newId event (.commits c)
  | enrolls (tenantId leadId : Id) (sequences : List Sequence) (hevent : event = .sequenceTrigger)
      (hread : SequenceWorkers.readTriggerJob db payload = some (tenantId, leadId, sequences)) :
    Handled db payload newId event (.commits
      { writes := SequenceTriggers.writes (SequenceTriggers.madeBy newId tenantId leadId sequences), value := ()
        before := SequenceTriggers.jobs tenantId (SequenceTriggers.madeBy newId tenantId leadId sequences) })
  | finishes (enrollment : SequenceEnrollment) (hevent : event = .sequenceStepExecute)
      (hread : readStepJob db payload = .finished enrollment) :
    Handled db payload newId event
      (.commits { writes := [.enrollment (.set enrollment.complete)], value := () })
  | executes (work : StepWork) (usage : Option UsageChange) (hevent : event = .sequenceStepExecute)
      (hread : work.ReadFrom db payload) :
    Handled db payload newId event (.commits
      { writes := SequenceRequests.usageWrites usage ++
          [.timelineEvent (.add (work.timelineEvent (newId 0))), .enrollment (.set (work.advance work.enrollment))]
        value := ()
        before := if work.isLast then [] else [work.followUp] })

variable {d : Deployment} {db : Db} {payload : Dict}

theorem event_of_scoreUpdatedJobs {tenantId leadId : Id} {job : QueueJob}
    (h : job ∈ scoreUpdatedJobs tenantId leadId) : ∃ event, JobEvent.ofPayload job.payload = some event ∧
      job.queueName = event.queue.name ∧ event ≠ .messageCreated := by
  simp only [scoreUpdatedJobs, List.mem_cons, List.not_mem_nil, or_false] at h
  rcases h with rfl | rfl | rfl
  · exact ⟨.leadScoreUpdated, JobEvent.ofPayload_eq_some.mpr rfl, rfl, by decide⟩
  · exact ⟨.integrationLeadScoreUpdated, JobEvent.ofPayload_eq_some.mpr rfl, rfl, by decide⟩
  · exact ⟨.sequenceTrigger, JobEvent.ofPayload_eq_some.mpr rfl, rfl, by decide⟩

theorem mem_followers {job : QueueJob} (h : job ∈ followers db payload) :
    ∃ tenantId leadId, job ∈ scoreUpdatedJobs tenantId leadId := by
  unfold followers at h
  split at h
  · rename_i tenantId sessionId _ _
    cases hlead : MessageEvents.sessionLeadId db tenantId sessionId with
    | none =>
      rw [hlead] at h
      exact absurd h List.not_mem_nil
    | some leadId =>
      rw [hlead] at h
      exact ⟨tenantId, leadId, h⟩
  · exact absurd h List.not_mem_nil

theorem aside_of_get {tenantId leadId : Id} {lead updated : Lead}
    (h : LeadRepository.get db tenantId leadId = some lead) (hid : updated.id = lead.id)
    (htenant : updated.tenantId = lead.tenantId) : Aside db (.lead (.set updated)) := by
  obtain ⟨hmem, -, -⟩ := ofTenant_eq_some.mp h
  exact ⟨lead, hmem, hid.symm, htenant.symm⟩

theorem handled_message {cache : AICache} {calls : AnalysisCalls} {today : Day} {newId : ℕ → Id} :
    Handled db payload newId .messageCreated
      (processMessageCreatedEvent d.py d.settings db cache payload calls today (newId 0)).1 := by
  have hevent : JobEvent.messageCreated ≠ .sequenceStepExecute := by decide
  rcases processMessageCreatedEvent_cases d.py d.settings db cache payload calls today (newId 0) with
    hw | hw | ⟨job, understanding, hjob, -, hw⟩
  · rw [hw]
    exact .answered fun h => absurd h hevent
  · rw [hw]
    exact .raised hevent
  · rw [hw]
    obtain ⟨ht, hs, -⟩ := readAnalysisJob_eq_some hjob
    have hids : ∃ n, (MessageEvents.scoreWrites db job.tenantId job.sessionId job.message.id understanding
        (newId 0)).flatMap Write.addedIds = (List.range n).map newId := by
      unfold MessageEvents.scoreWrites
      split
      · exact ⟨0, rfl⟩
      · exact ⟨1, rfl⟩
    obtain ⟨n, hn⟩ := hids
    refine .aside _ hevent ?_ ⟨n, ?_⟩ rfl (.inr ⟨rfl, ?_⟩)
    · intro w hmem
      rcases MessageEvents.mem_storeAnalysis hmem with rfl | rfl | hmem
      · exact trivial
      · exact trivial
      · obtain ⟨leadId, lead, scores, hget, rfl | rfl⟩ := MessageEvents.mem_scoreWrites hmem
        · exact aside_of_get hget rfl rfl
        · have htype : "ai_scored" ≠ "sequence_step_executed" := by decide
          exact htype
    · simp only [MessageEvents.storeAnalysis, List.flatMap_append, hn]
      rfl
    · simp only [MessageEvents.storeAnalysis, followers, ht, hs]

theorem handled_routing {event : JobEvent} {newId : ℕ → Id} (hevent : event ≠ .sequenceStepExecute) :
    Handled db payload newId event (processRoutingEvent d.py d.getattr db payload (newId 0)) := by
  rcases processRoutingEvent_cases d.py d.getattr db payload (newId 0) with
    hw | hw | ⟨tenantId, leadId, lead, decision, -, -, hget, hw⟩
  · rw [hw]
    exact .answered fun h => absurd h hevent
  · rw [hw]
    exact .raised hevent
  · rw [hw]
    refine .aside _ hevent ?_ ⟨1, rfl⟩ rfl (.inl rfl)
    intro w hmem
    obtain ⟨owner, team, queue, hrouted⟩ := RoutingEngine.applyRoutingDecision_frame d.py lead decision
    rcases List.mem_cons.mp hmem with rfl | hmem
    · rw [hrouted]
      exact aside_of_get hget rfl rfl
    · rw [List.mem_singleton.mp hmem]
      have htype : "routing_evaluated" ≠ "sequence_step_executed" := by decide
      exact htype

theorem handled_integration {event : JobEvent} {newId : ℕ → Id} {calls : IntegrationCalls}
    (hevent : event ≠ .sequenceStepExecute) (hid : calls.connectionId = newId 0) :
    Handled db payload newId event (processIntegrationEvent d.encrypt db payload calls) := by
  rcases processIntegrationEvent_cases d.encrypt db payload calls with hw | hw | ⟨tenantId, writes, -, hwrites, hw⟩
  · rw [hw]
    exact .answered fun h => absurd h hevent
  · rw [hw]
    exact .raised hevent
  · rw [hw]
    have hnone : writes = [] ∨ (∃ c : IntegrationConnection, c.id = calls.connectionId ∧
        writes = [.connection (.add c)]) ∨ ∃ c, writes = [.connection (.set c)] := by
      rcases hwrites with hnil | hsync
      · exact .inl hnil
      · rcases IntegrationEvents.syncWrites_cases hsync with hnil | ⟨c, hc, -, hadd⟩ | ⟨_, -, c, -, -, -, hset⟩
        · exact .inl hnil
        · exact .inr (.inl ⟨c, hc, hadd⟩)
        · exact .inr (.inr ⟨c, hset⟩)
    rcases hnone with rfl | ⟨c, hc, rfl⟩ | ⟨c, rfl⟩
    · exact .aside _ hevent (fun w h => absurd h List.not_mem_nil) ⟨0, rfl⟩ rfl (.inl rfl)
    · refine .aside _ hevent ?_ ⟨1, ?_⟩ rfl (.inl rfl)
      · intro w hmem
        rw [List.mem_singleton.mp hmem]
        exact trivial
      · show [c.id] = [newId 0]
        rw [hc, hid]
    · refine .aside _ hevent ?_ ⟨0, rfl⟩ rfl (.inl rfl)
      intro w hmem
      rw [List.mem_singleton.mp hmem]
      exact trivial

theorem handled_trigger {newId : ℕ → Id} :
    Handled db payload newId .sequenceTrigger (SequenceTriggers.processSequenceTriggerEvent db payload newId) := by
  have hevent : JobEvent.sequenceTrigger ≠ .sequenceStepExecute := by decide
  rcases SequenceTriggers.processSequenceTriggerEvent_cases db payload newId with
    hw | hw | ⟨tenantId, leadId, sequences, hread, -, hw⟩
  · rw [hw]
    exact .answered fun h => absurd h hevent
  · rw [hw]
    exact .raised hevent
  · rw [hw]
    exact .enrolls tenantId leadId sequences rfl hread

theorem handled_step {today : Day} {newId : ℕ → Id} :
    Handled db payload newId .sequenceStepExecute
      (SequenceRequests.processSequenceStepEvent d.settings db payload .returns today (newId 0)) := by
  unfold SequenceRequests.processSequenceStepEvent
  rcases readStepJob_cases db payload with hread | ⟨e, hread, -⟩ | ⟨work, hread, hwork⟩
  · simp only [hread]
    exact .answered fun _ => hread
  · simp only [hread]
    exact .finishes e rfl hread
  · obtain ⟨token, message, hreturns⟩ : ∃ token message, work.deliver d.settings .returns = ⟨some token, message⟩ :=
      executeStep_returns
    simp only [hread, hreturns]
    exact .executes work _ rfl hwork

theorem handled {cache : AICache} {inputs : JobInputs} (event : JobEvent) (hsend : inputs.send = .returns) :
    Handled db payload inputs.newId event (event.handle d db cache payload inputs).1 := by
  cases event with
  | messageCreated => exact handled_message
  | leadCreated => exact handled_routing (by decide)
  | leadUpdated => exact handled_routing (by decide)
  | leadScoreUpdated => exact handled_routing (by decide)
  | sequenceTrigger => exact handled_trigger
  | sequenceStepExecute =>
    simp only [JobEvent.handle, hsend]
    exact handled_step
  | integrationLeadCreated => exact handled_integration (by decide) rfl
  | integrationLeadUpdated => exact handled_integration (by decide) rfl
  | integrationLeadScoreUpdated => exact handled_integration (by decide) rfl
  | integrationTimelineCreated => exact handled_integration (by decide) rfl

structure Fixed (db db' : Db) : Prop where
  sequences : db'.sequences = db.sequences
  steps : db'.steps = db.steps
  sessions : db'.sessions = db.sessions
  leads : ∀ tenantId leadId, OwnsLead db' tenantId leadId ↔ OwnsLead db tenantId leadId

theorem Fixed.refl (db : Db) : Fixed db db := ⟨rfl, rfl, rfl, fun _ _ => Iff.rfl⟩

theorem Fixed.trans {db₁ db₂ db₃ : Db} (h : Fixed db₁ db₂) (h' : Fixed db₂ db₃) : Fixed db₁ db₃ where
  sequences := h'.sequences.trans h.sequences
  steps := h'.steps.trans h.steps
  sessions := h'.sessions.trans h.sessions
  leads tenantId leadId := (h'.leads tenantId leadId).trans (h.leads tenantId leadId)

structure Untouched (db db' : Db) (ids : List Id) : Prop extends Fixed db db' where
  enrollments : db'.enrollments = db.enrollments
  executed : ∀ id, executed id db' = executed id db
  timeline : ∀ e ∈ db'.timeline, e ∈ db.timeline ∨ e.id ∈ ids

theorem Untouched.refl (db : Db) (ids : List Id) : Untouched db db ids where
  toFixed := Fixed.refl db
  enrollments := rfl
  executed _ := rfl
  timeline _ he := .inl he

theorem Untouched.trans {db₁ db₂ db₃ : Db} {ids ids' : List Id} (h : Untouched db₁ db₂ ids)
    (h' : Untouched db₂ db₃ ids') : Untouched db₁ db₃ (ids ++ ids') where
  toFixed := h.toFixed.trans h'.toFixed
  enrollments := h'.enrollments.trans h.enrollments
  executed id := (h'.executed id).trans (h.executed id)
  timeline := by
    intro e he
    rcases h'.timeline e he with he | hid
    · exact (h.timeline e he).imp id fun hid => List.mem_append_left _ hid
    · exact .inr (List.mem_append_right _ hid)

theorem executed_insert {e : LeadTimelineEvent} {id : Id} (htype : e.type ≠ "sequence_step_executed") :
    (db.timeline.insert e).rows.filterMap (executedStep id) = executed id db := by
  have hnone : executedStep id e = none := by
    unfold executedStep
    exact if_neg fun h => htype h.1
  by_cases hid : db.timeline.Fresh e.id
  · rw [Table.rows_insert hid, List.filterMap_append, List.filterMap_cons, hnone, List.filterMap_nil,
      List.append_nil]
    rfl
  · rw [Table.insert_of_not_fresh hid]
    rfl

theorem untouched_write {w : Write} (h : Aside db w) : Untouched db (db.write w) w.addedIds := by
  have hsame := Untouched.refl db w.addedIds
  cases w with
  | lead w =>
    cases w with
    | set l => exact { hsame with leads := fun _ _ => ⟨Table.Owns.of_put h, Table.Owns.put h⟩ }
    | add l => exact False.elim h
    | delete id => exact False.elim h
  | timelineEvent w =>
    cases w with
    | add e =>
      refine { hsame with executed := fun _ => executed_insert h, timeline := ?_ }
      intro e' he'
      rcases Table.mem_of_mem_insert he' with hold | rfl
      · exact .inl hold
      · exact .inr (List.mem_singleton_self _)
    | set e => exact False.elim h
    | delete id => exact False.elim h
  | message w =>
    cases w with
    | set m => exact { hsame with }
    | add m => exact False.elim h
    | delete id => exact False.elim h
  | connection w =>
    cases w with
    | add c => exact { hsame with }
    | set c => exact { hsame with }
    | delete id => exact False.elim h
  | usage change => exact { hsame with }
  | session w => exact False.elim h
  | routingRule w => exact False.elim h
  | sequence w => exact False.elim h
  | step w => exact False.elim h
  | enrollment w => exact False.elim h

theorem Aside.of_untouched {db' : Db} {ids : List Id} {w : Write} (hu : Untouched db db' ids) (h : Aside db w) :
    Aside db' w := by
  cases w with
  | lead w =>
    cases w with
    | set l => exact (hu.leads _ _).mpr h
    | _ => exact h
  | timelineEvent w => cases w <;> exact h
  | message w => cases w <;> exact h
  | connection w => cases w <;> exact h
  | _ => exact h

theorem untouched_writeAll {writes : List Write} (h : ∀ w ∈ writes, Aside db w) :
    Untouched db (db.writeAll writes) (writes.flatMap Write.addedIds) := by
  induction writes generalizing db with
  | nil => exact Untouched.refl db []
  | cons w writes ih =>
    have hfirst := untouched_write (h w List.mem_cons_self)
    have hrest : ∀ w' ∈ writes, Aside (db.write w) w' :=
      fun w' hw' => (h w' (List.mem_cons_of_mem w hw')).of_untouched hfirst
    exact hfirst.trans (ih hrest)

theorem Handled.fixed {newId : ℕ → Id} {event : JobEvent} {c : Commit Unit}
    (h : Handled db payload newId event (.commits c)) : Fixed db (db.writeAll c.writes) := by
  cases h with
  | aside c _ hwrites => exact (untouched_writeAll hwrites).toFixed
  | enrolls tenantId leadId sequences =>
    dsimp only
    rw [SequenceTriggers.writeAll_writes]
    exact { Fixed.refl db with }
  | finishes enrollment => exact { Fixed.refl db with }
  | executes work usage =>
    cases usage with
    | none => exact { Fixed.refl db with }
    | some change => exact { Fixed.refl db with }

section Handle

variable {w : World} {q : Queued} {inputs : JobInputs} {event : JobEvent}

theorem handle_ids (d : Deployment) (w : World) (inputs : JobInputs)
    (hevent : JobEvent.ofPayload q.job.payload = some event) :
    (handle d w q inputs).1.ids = w.ids ++ (event.handle d w.db w.cache q.job.payload inputs).1.newIds := by
  simp only [handle, hevent]
  rfl

theorem handle_of_answered (hevent : JobEvent.ofPayload q.job.payload = some event)
    (hwork : (event.handle d w.db w.cache q.job.payload inputs).1 = .answered ()) :
    (handle d w q inputs).1.db = w.db ∧ (handle d w q inputs).2 = 0 := by
  simp only [handle, hevent, World.afterJob, hwork]
  exact ⟨rfl, rfl⟩

theorem handle_of_raised (hevent : JobEvent.ofPayload q.job.payload = some event)
    (hwork : (event.handle d w.db w.cache q.job.payload inputs).1 = .raised) :
    (handle d w q inputs).1.db = w.db ∧ (handle d w q inputs).2 = q.again .raised := by
  simp only [handle, hevent, World.afterJob, hwork]
  exact ⟨rfl, add_zero _⟩

theorem handle_of_commits {c : Commit Unit} (hevent : JobEvent.ofPayload q.job.payload = some event)
    (hwork : (event.handle d w.db w.cache q.job.payload inputs).1 = .commits c) (hcalls : inputs.calls = {}) :
    (handle d w q inputs).1.db = w.db.writeAll c.writes ∧
      (handle d w q inputs).2 =
        published ((c.before ++ c.after).filter fun job => (SQSPublisher.message d.settings job).isSome) := by
  simp only [handle, hevent, World.afterJob, hwork, hcalls, Work.run_returns]
  exact ⟨trivial, zero_add _⟩

theorem handle_of_unhandled (d : Deployment) (w : World) (inputs : JobInputs)
    (hevent : JobEvent.ofPayload q.job.payload = none) : handle d w q inputs = (w, 0) := by
  simp only [handle, hevent]

inductive HandleCase (d : Deployment) (w : World) (q : Queued) (inputs : JobInputs) : Prop
  | idle (hdb : (handle d w q inputs).1.db = w.db) (hids : (handle d w q inputs).1.ids = w.ids)
      (hmade : (handle d w q inputs).2 = 0)
      (hread : JobEvent.ofPayload q.job.payload = some .sequenceStepExecute →
        readStepJob w.db q.job.payload = .ignored)
  | failed (event : JobEvent) (hevent : JobEvent.ofPayload q.job.payload = some event)
      (hstep : event ≠ .sequenceStepExecute) (hdb : (handle d w q inputs).1.db = w.db)
      (hids : (handle d w q inputs).1.ids = w.ids) (hmade : (handle d w q inputs).2 = q.again .raised)
  | commits (event : JobEvent) (c : Commit Unit) (hevent : JobEvent.ofPayload q.job.payload = some event)
      (hhandled : Handled w.db q.job.payload inputs.newId event (.commits c))
      (hfresh : w.NewIds (c.writes.flatMap Write.addedIds))
      (hdb : (handle d w q inputs).1.db = w.db.writeAll c.writes)
      (hids : (handle d w q inputs).1.ids = w.ids ++ c.writes.flatMap Write.addedIds)
      (hmade : (handle d w q inputs).2 =
        published ((c.before ++ c.after).filter fun job => (SQSPublisher.message d.settings job).isSome))

theorem handle_cases (hok : Faultless d w q inputs) : HandleCase d w q inputs := by
  cases hevent : JobEvent.ofPayload q.job.payload with
  | none =>
    have hnothing := handle_of_unhandled d w inputs hevent
    apply HandleCase.idle
    · rw [hnothing]
    · rw [hnothing]
    · rw [hnothing]
    · intro hstep
      rw [hevent] at hstep
      cases hstep
  | some event =>
    have hhandled : Handled w.db q.job.payload inputs.newId event
      (event.handle d w.db w.cache q.job.payload inputs).1 := handled event hok.send
    have hfresh := hok.fresh event hevent
    have hids := handle_ids d w inputs hevent
    cases hwork : (event.handle d w.db w.cache q.job.payload inputs).1 with
    | refused e =>
      rw [hwork] at hhandled
      cases hhandled
    | raised =>
      rw [hwork] at hhandled hids
      obtain ⟨hdb, hmade⟩ := handle_of_raised hevent hwork
      cases hhandled with
      | raised hstep => exact .failed event hevent hstep hdb (hids.trans (List.append_nil _)) hmade
    | answered value =>
      rw [hwork] at hhandled hids
      obtain ⟨hdb, hmade⟩ := handle_of_answered hevent hwork
      cases hhandled with
      | answered hread =>
        exact .idle hdb (hids.trans (List.append_nil _)) hmade
          fun hstep => hread (Option.some.inj (hevent.symm.trans hstep))
    | commits c =>
      rw [hwork] at hhandled hfresh hids
      obtain ⟨hdb, hmade⟩ := handle_of_commits hevent hwork hok.calls
      exact .commits event c hevent hhandled hfresh hdb hids hmade

theorem handle_fixed (hok : Faultless d w q inputs) : Fixed w.db (handle d w q inputs).1.db := by
  cases handle_cases hok with
  | idle hdb =>
    rw [hdb]
    exact Fixed.refl w.db
  | failed event hevent hstep hdb =>
    rw [hdb]
    exact Fixed.refl w.db
  | commits event c hevent hhandled hfresh hdb =>
    rw [hdb]
    exact hhandled.fixed

end Handle

end JobCascade

end Leadline
