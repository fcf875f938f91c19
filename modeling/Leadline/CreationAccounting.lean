import Leadline.Library.GuardedRun
import Leadline.UsageTotals

namespace Leadline

open Library Table UsageTotals

/-- A database call before the commit raises, after so many of the jobs before it were published. The session is
closed without a commit, and what it has flushed is rolled back. -/
def Work.interrupted {α : Type} (settings : Settings) (db : Db) (calls : Calls) (published : ℕ) : Work α → Outcome α
  | commits c => ⟨.raised, db, (SQSPublisher.deliver settings (c.before.take published) calls.before).2⟩
  | _ => ⟨.raised, db, []⟩

namespace CreationAccounting

structure LeadCommit where
  lead : Lead
  entries : List LeadTimelineEvent

structure Ledger where
  world : World
  leads : List LeadCommit := []
  sessions : List Session := []

def addedLead : Write → Option Lead
  | .lead (.add row) => some row
  | _ => none

def addedEntry : Write → Option LeadTimelineEvent
  | .timelineEvent (.add row) => some row
  | _ => none

def addedSession : Write → Option Session
  | .session (.add row) => some row
  | _ => none

def leadCommits (writes : List Write) : List LeadCommit :=
  (writes.filterMap addedLead).map fun lead => ⟨lead, writes.filterMap addedEntry⟩

def written (d : Deployment) (w : World) : Label → List Write
  | .request tenantId request inputs =>
    (request.work d.py.lower w.db tenantId inputs).written d.settings inputs.calls
  | .job job event inputs => (event.handle d w.db w.cache job.payload inputs).1.written d.settings inputs.calls

def interrupted (d : Deployment) (w : World) (published : ℕ) (cached : Bool) : Label → World
  | .request tenantId request inputs =>
    let work := request.work d.py.lower w.db tenantId inputs
    let outcome := work.interrupted d.settings w.db inputs.calls published
    { w with
      db := outcome.db
      jobs := w.jobs ++ outcome.jobs
      ids := w.ids ++ work.newIds
      replies := w.replies ++ [(tenantId, outcome.answer.rendered)] }
  | .job job event inputs =>
    let handled := event.handle d w.db w.cache job.payload inputs
    let outcome := handled.1.interrupted d.settings w.db inputs.calls published
    { w with
      db := outcome.db
      cache := if cached then handled.2 else w.cache
      jobs := w.jobs ++ outcome.jobs
      ids := w.ids ++ handled.1.newIds }

inductive Attempt
  | completed (label : Label)
  | interrupted (label : Label) (published : ℕ) (cached : Bool)

inductive AccountedStep (d : Deployment) (s : Ledger) : Attempt → Ledger → Prop
  | completed {label : Label} {w' : World} (hstep : Step d s.world label w') :
      AccountedStep d s (.completed label)
        ⟨w', s.leads ++ leadCommits (written d s.world label),
          s.sessions ++ (written d s.world label).filterMap addedSession⟩
  | interrupted {label : Label} {w' : World} (hstep : Step d s.world label w') (published : ℕ) (cached : Bool) :
      AccountedStep d s (.interrupted label published cached)
        { s with world := interrupted d s.world published cached label }

structure Accounted (s : Ledger) : Prop where
  leads : ∀ tenantId, (tenantUsage s.world.db tenantId).leadsCreated =
    (s.leads.filter fun c => c.lead.tenantId = tenantId).length
  sessions : ∀ tenantId, (tenantUsage s.world.db tenantId).sessionsCreated =
    (s.sessions.filter fun r => r.tenantId = tenantId).length
  entries : ∀ c ∈ s.leads, ∃ entry, c.entries = [entry] ∧ entry.type = "lead_created" ∧
    entry.leadId = c.lead.id ∧ entry.tenantId = c.lead.tenantId

section Writes

variable {d : Deployment} {w w' : World} {label : Label}

def CreatesNothing (x : Write) : Prop :=
  addedLead x = none ∧ addedSession x = none ∧ Counter.leadsCreated.Leaves x ∧ Counter.sessionsCreated.Leaves x

theorem createsNothing_of_routine {x : Write} (h : Routine x) : CreatesNothing x := by
  refine ⟨?_, ?_, Counter.leaves_routine h, Counter.leaves_routine h⟩
  · cases x with
    | lead x =>
      cases x with
      | add row => exact False.elim h
      | _ => rfl
    | _ => rfl
  · cases x with
    | session x =>
      cases x with
      | add row => exact False.elim h
      | _ => rfl
    | _ => rfl

theorem createsNothing_increment {db : Db} {tenantId : Id} {today : Day} {added : Usage} (hleads : added.leadsCreated = 0)
    (hsessions : added.sessionsCreated = 0) :
    CreatesNothing (.usage (UsageTrackingService.increment db tenantId today added)) := by
  have hlead : Counter.leadsCreated.count added = 0 := hleads
  have hsession : Counter.sessionsCreated.count added = 0 := hsessions
  exact ⟨rfl, rfl, Counter.leaves_increment hlead, Counter.leaves_increment hsession⟩

theorem job_createsNothing (d : Deployment) (db : Db) (cache : AICache) (payload : Dict) (inputs : JobInputs)
    (event : JobEvent) : (event.handle d db cache payload inputs).1.Each CreatesNothing := by
  by_cases hmessage : event = .messageCreated
  · subst hmessage
    refine (message_counts d db cache payload inputs).imp ?_
    rintro x (hroutine | ⟨tenantId, today, understanding, rfl⟩)
    · exact createsNothing_of_routine hroutine
    · exact createsNothing_increment rfl rfl
  · refine (job_counts d db cache payload inputs hmessage).imp ?_
    rintro x (hroutine | ⟨tenantId, today, added, rfl, rfl | rfl⟩)
    · exact createsNothing_of_routine hroutine
    · exact createsNothing_increment rfl rfl
    · exact createsNothing_increment rfl rfl

theorem written_cases (d : Deployment) (w : World) (label : Label) :
    (∀ x ∈ written d w label, CreatesNothing x) ∨
      (∃ tenantId id eventId today data, written d w label =
        let new := LeadService.newLead w.db tenantId id eventId today data
        [.lead (.add new.lead), .timelineEvent (.add new.event), .usage new.usage]) ∨
      ∃ record today, written d w label =
        [.session (.add record),
          .usage (UsageTrackingService.increment w.db record.tenantId today { sessionsCreated := 1 })] := by
  cases label with
  | job job event inputs => exact .inl (Work.each_written (job_createsNothing d _ _ _ inputs event))
  | request tenantId request inputs =>
    simp only [written]
    have hwork := request.work_hasEffect d.py.lower w.db tenantId inputs
    rcases hwork.written d.settings inputs.calls with hnone | ⟨after, heffect⟩
    · rw [hnone]
      exact .inl fun x hx => absurd hx List.not_mem_nil
    · rcases effect_cases heffect with hroutine | ⟨data, hlead⟩ | ⟨payload, hsession⟩
      · exact .inl fun x hx => createsNothing_of_routine (hroutine x hx)
      · exact .inr (.inl ⟨_, _, _, _, _, hlead⟩)
      · exact .inr (.inr ⟨_, _, hsession⟩)

theorem step_db (hstep : Step d w label w') : w'.db = w.db.writeAll (written d w label) := by
  cases hstep with
  | request tenantId request inputs hids => exact Work.run_db _
  | job job event inputs hjob hevent hids => exact Work.run_db _

end Writes

section Steps

variable {d : Deployment} {s s' : Ledger} {attempt : Attempt}

theorem added_of_createsNothing {writes : List Write} (h : ∀ x ∈ writes, CreatesNothing x) :
    leadCommits writes = [] ∧ writes.filterMap addedSession = [] := by
  constructor
  · unfold leadCommits
    rw [List.filterMap_eq_nil_iff.mpr fun x hx => (h x hx).1]
    rfl
  · exact List.filterMap_eq_nil_iff.mpr fun x hx => (h x hx).2.1

theorem filter_snoc_length {α : Type} (rows : List α) (row : α) (owner : α → Id) (tenantId : Id) :
    ((rows ++ [row]).filter fun r => owner r = tenantId).length =
      (rows.filter fun r => owner r = tenantId).length + if tenantId = owner row then 1 else 0 := by
  rw [List.filter_append, List.length_append]
  by_cases howner : owner row = tenantId
  · simp [howner]
  · have hother : tenantId ≠ owner row := fun h => howner h.symm
    simp [howner, hother]

theorem accounted_lead {w' : World} {tenantId id eventId : Id} {today : Day} {data : LeadCreate} (h : Accounted s)
    (hdb : w'.db = let new := LeadService.newLead s.world.db tenantId id eventId today data
      s.world.db.writeAll [.lead (.add new.lead), .timelineEvent (.add new.event), .usage new.usage]) :
    let new := LeadService.newLead s.world.db tenantId id eventId today data
    Accounted ⟨w', s.leads ++ [⟨new.lead, [new.event]⟩], s.sessions⟩ := by
  intro new
  have htotal : ∀ other, tenantUsage w'.db other =
      tenantUsage s.world.db other + if other = tenantId then { leadsCreated := 1 } else 0 := by
    intro other
    rw [hdb]
    exact usage_increment s.world.db tenantId today { leadsCreated := 1 } other
  refine ⟨?_, ?_, ?_⟩
  · intro other
    have hcount := filter_snoc_length s.leads ⟨new.lead, [new.event]⟩ (fun c => c.lead.tenantId) other
    rw [hcount, htotal, ← h.leads other]
    show _ = (tenantUsage s.world.db other).leadsCreated + if other = tenantId then 1 else 0
    split <;> rfl
  · intro other
    rw [htotal, ← h.sessions other]
    split <;> rfl
  · intro c hc
    rcases List.mem_append.mp hc with hc | hc
    · exact h.entries c hc
    · rw [List.mem_singleton.mp hc]
      exact ⟨new.event, rfl, rfl, rfl, rfl⟩

theorem accounted_session {w' : World} {record : Session} {today : Day} (h : Accounted s)
    (hdb : w'.db = s.world.db.writeAll [.session (.add record),
      .usage (UsageTrackingService.increment s.world.db record.tenantId today { sessionsCreated := 1 })]) :
    Accounted ⟨w', s.leads, s.sessions ++ [record]⟩ := by
  have htotal : ∀ other, tenantUsage w'.db other =
      tenantUsage s.world.db other + if other = record.tenantId then { sessionsCreated := 1 } else 0 := by
    intro other
    rw [hdb]
    exact usage_increment s.world.db record.tenantId today { sessionsCreated := 1 } other
  refine ⟨?_, ?_, h.entries⟩
  · intro other
    rw [htotal, ← h.leads other]
    split <;> rfl
  · intro other
    rw [filter_snoc_length s.sessions record Session.tenantId other, htotal, ← h.sessions other]
    split <;> rfl

theorem interrupted_db (d : Deployment) (w : World) (published : ℕ) (cached : Bool) (label : Label) :
    (interrupted d w published cached label).db = w.db := by
  have hdb : ∀ {α : Type} (work : Work α) (calls : Calls), (work.interrupted d.settings w.db calls published).db = w.db := by
    intro α work calls
    cases work with
    | commits c => rfl
    | _ => rfl
  cases label with
  | request tenantId request inputs => exact hdb _ _
  | job job event inputs => exact hdb _ _

theorem accounted_step (h : Accounted s) (hstep : AccountedStep d s attempt s') : Accounted s' := by
  cases hstep with
  | @completed label w' hstep =>
    have hdb := step_db hstep
    rcases written_cases d s.world label with hnothing | ⟨tenantId, id, eventId, today, data, hlead⟩ |
      ⟨record, today, hsession⟩
    · obtain ⟨hleads, hsessions⟩ := added_of_createsNothing hnothing
      rw [hleads, hsessions, List.append_nil, List.append_nil]
      refine ⟨?_, ?_, h.entries⟩
      · intro tenantId
        rw [← h.leads tenantId, hdb]
        exact Counter.total_writeAll fun x hx => (hnothing x hx).2.2.1
      · intro tenantId
        rw [← h.sessions tenantId, hdb]
        exact Counter.total_writeAll fun x hx => (hnothing x hx).2.2.2
    · rw [hlead] at hdb ⊢
      show Accounted ⟨w', s.leads ++ [⟨_, [_]⟩], s.sessions ++ []⟩
      rw [List.append_nil]
      exact accounted_lead h hdb
    · rw [hsession] at hdb ⊢
      show Accounted ⟨w', s.leads ++ [], s.sessions ++ [record]⟩
      rw [List.append_nil]
      exact accounted_session h hdb
  | @interrupted label w' hstep published cached =>
    have hdb := interrupted_db d s.world published cached label
    refine ⟨?_, ?_, h.entries⟩
    · intro tenantId
      rw [hdb]
      exact h.leads tenantId
    · intro tenantId
      rw [hdb]
      exact h.sessions tenantId

end Steps

structure Identified (db : Db) (ids : List Id) : Prop where
  leads : ∀ l ∈ db.leads, l.id ∈ ids
  timeline : ∀ e ∈ db.timeline, e.id ∈ ids
  sessions : ∀ r ∈ db.sessions, r.id ∈ ids

section Rows

variable {db : Db} {ids ids' : List Id} {d : Deployment} {w w' : World} {label : Label} {s s' : Ledger}
  {attempt : Attempt}

theorem Identified.mono (h : Identified db ids) (hsub : ∀ id ∈ ids, id ∈ ids') : Identified db ids' where
  leads l hl := hsub _ (h.leads l hl)
  timeline e he := hsub _ (h.timeline e he)
  sessions r hr := hsub _ (h.sessions r hr)

theorem Identified.write {x : Write} (h : Identified db ids) (hadded : ∀ id ∈ x.addedIds, id ∈ ids) :
    Identified (db.write x) ids := by
  cases x with
  | lead x =>
    have hkeys := RowWrite.key_mem_of_apply h.leads hadded
    cases x with
    | add row => exact { h with leads := hkeys }
    | set row => exact { h with leads := hkeys }
    | delete id =>
      refine ⟨hkeys, fun e he => h.timeline e (mem_filter.mp he).1, ?_⟩
      intro r hr
      obtain ⟨old, hold, rfl⟩ := LeadService.mem_sessions_removeLead.mp hr
      exact h.sessions old hold
  | timelineEvent x => exact { h with timeline := RowWrite.key_mem_of_apply h.timeline hadded }
  | session x =>
    have hkeys := RowWrite.key_mem_of_apply h.sessions hadded
    cases x with
    | add row => exact { h with sessions := hkeys }
    | set row => exact { h with sessions := hkeys }
    | delete id => exact { h with sessions := hkeys }
  | sequence x => cases x <;> exact { h with }
  | _ => exact { h with }

theorem Identified.writeAll {writes : List Write} (h : Identified db ids)
    (hadded : ∀ id ∈ writes.flatMap Write.addedIds, id ∈ ids) : Identified (db.writeAll writes) ids := by
  induction writes generalizing db with
  | nil => exact h
  | cons x writes ih =>
    rw [List.flatMap_cons] at hadded
    apply ih
    · exact h.write fun id hid => hadded id (List.mem_append_left _ hid)
    · exact fun id hid => hadded id (List.mem_append_right _ hid)

theorem newIds_of_written {α : Type} {settings : Settings} {calls : Calls} {work : Work α} :
    ∀ id ∈ (work.written settings calls).flatMap Write.addedIds, id ∈ work.newIds := by
  intro id hid
  rcases Work.written_or_nil settings calls work with hnone | ⟨c, rfl, hall⟩
  · rw [hnone] at hid
    cases hid
  · rwa [hall] at hid

theorem written_new (hstep : Step d w label w') :
    ∀ id ∈ (written d w label).flatMap Write.addedIds, id ∉ w.ids ∧ id ∈ w'.ids := by
  intro id hid
  cases hstep with
  | request tenantId request inputs hids =>
    have hnew := newIds_of_written id hid
    exact ⟨hids.2 id hnew, List.mem_append_right _ hnew⟩
  | job job event inputs hjob hevent hids =>
    have hnew := newIds_of_written id hid
    exact ⟨hids.2 id hnew, List.mem_append_right _ hnew⟩

theorem ids_step (hstep : Step d w label w') : ∀ id ∈ w.ids, id ∈ w'.ids := by
  intro id hid
  cases hstep with
  | request tenantId request inputs hids => exact List.mem_append_left _ hid
  | job job event inputs hjob hevent hids => exact List.mem_append_left _ hid

theorem ids_interrupted {published : ℕ} {cached : Bool} : ∀ id ∈ w.ids, id ∈ (interrupted d w published cached label).ids := by
  intro id hid
  cases label with
  | request tenantId request inputs => exact List.mem_append_left _ hid
  | job job event inputs => exact List.mem_append_left _ hid

theorem identified_step (h : Identified s.world.db s.world.ids) (hstep : AccountedStep d s attempt s') :
    Identified s'.world.db s'.world.ids := by
  cases hstep with
  | completed hstep =>
    rw [step_db hstep]
    exact (h.mono (ids_step hstep)).writeAll fun id hid => (written_new hstep id hid).2
  | interrupted hstep published cached =>
    rw [interrupted_db]
    exact h.mono ids_interrupted

structure Committed (s s' : Ledger) : Prop where
  leads : ∀ c ∈ s'.leads, c ∈ s.leads ∨ s.world.db.leads.Fresh c.lead.id ∧ c.lead ∈ s'.world.db.leads ∧
    ∀ entry ∈ c.entries, s.world.db.timeline.Fresh entry.id ∧ entry ∈ s'.world.db.timeline
  sessions : ∀ r ∈ s'.sessions, r ∈ s.sessions ∨ s.world.db.sessions.Fresh r.id ∧ r ∈ s'.world.db.sessions

theorem Committed.same (hleads : s'.leads = s.leads) (hsessions : s'.sessions = s.sessions) : Committed s s' where
  leads _ hc := .inl (hleads ▸ hc)
  sessions _ hr := .inl (hsessions ▸ hr)

theorem committed_step (h : Identified s.world.db s.world.ids) (hstep : AccountedStep d s attempt s') :
    Committed s s' := by
  cases hstep with
  | interrupted hstep published cached => exact .same rfl rfl
  | @completed label w' hstep =>
    have hdb := step_db hstep
    have hnew := written_new hstep
    rcases written_cases d s.world label with hnothing | ⟨tenantId, id, eventId, today, data, hlead⟩ |
      ⟨record, today, hsession⟩
    · obtain ⟨hleads, hsessions⟩ := added_of_createsNothing hnothing
      apply Committed.same
      · rw [hleads, List.append_nil]
      · rw [hsessions, List.append_nil]
    · rw [hlead] at hdb hnew ⊢
      have hid : s.world.db.leads.Fresh id := fun l hl hkey =>
        (hnew id (by simp [Write.addedIds, RowWrite.addedIds, LeadService.newLead, LeadRepository.create])).1
          (hkey ▸ h.leads l hl)
      have heventId : s.world.db.timeline.Fresh eventId := fun e he hkey =>
        (hnew eventId (by simp [Write.addedIds, RowWrite.addedIds, LeadService.newLead])).1
          (hkey ▸ h.timeline e he)
      refine ⟨?_, fun r hr => .inl (by simpa [addedSession] using hr)⟩
      intro c hc
      rcases List.mem_append.mp hc with hc | hc
      · exact .inl hc
      · rw [List.mem_singleton.mp hc]
        refine .inr ⟨hid, ?_, ?_⟩
        · rw [hdb]
          exact (mem_insert hid).mpr (.inr rfl)
        · intro entry hentry
          rw [List.mem_singleton.mp hentry, hdb]
          exact ⟨heventId, (mem_insert heventId).mpr (.inr rfl)⟩
    · rw [hsession] at hdb hnew ⊢
      have hid : s.world.db.sessions.Fresh record.id := fun r hr hkey =>
        (hnew record.id (by simp [Write.addedIds, RowWrite.addedIds])).1 (hkey ▸ h.sessions r hr)
      refine ⟨fun c hc => .inl (by simpa [leadCommits, addedLead] using hc), ?_⟩
      intro r hr
      rcases List.mem_append.mp hr with hr | hr
      · exact .inl hr
      · rw [List.mem_singleton.mp hr, hdb]
        exact .inr ⟨hid, (mem_insert hid).mpr (.inr rfl)⟩

end Rows

def answer (d : Deployment) (w : World) (tenantId : Id) (request : Request) (inputs : Inputs) : Answer (Option Reply) :=
  ((request.work d.py.lower w.db tenantId inputs).run d.settings w.db inputs.calls).answer

inductive Fruitless (d : Deployment) (w : World) : Attempt → Prop
  | interrupted (label : Label) (published : ℕ) (cached : Bool) : Fruitless d w (.interrupted label published cached)
  | failed {tenantId : Id} {request : Request} {inputs : Inputs}
      (h : request.work d.py.lower w.db tenantId inputs = .raised) :
      Fruitless d w (.completed (.request tenantId request inputs))
  | lost {tenantId : Id} {request : Request} {inputs : Inputs} (h : inputs.calls.commit.takesEffect = false) :
      Fruitless d w (.completed (.request tenantId request inputs))
  | refused {tenantId : Id} {request : Request} {inputs : Inputs} {e : HTTPException}
      (h : answer d w tenantId request inputs = .refused e) :
      Fruitless d w (.completed (.request tenantId request inputs))
  | deduplicated {tenantId : Id} {payload : LeadCreate} {inputs : Inputs} {lead : LeadResponse}
      (h : answer d w tenantId (.createLead payload) inputs = .returned (some (.leadCreated true lead))) :
      Fruitless d w (.completed (.request tenantId (.createLead payload) inputs))

section Fruitless

variable {d : Deployment} {w : World} {label : Label} {s s' : Ledger} {attempt : Attempt}

theorem written_of_deduplicated {tenantId : Id} {payload : LeadCreate} {inputs : Inputs} {lead : LeadResponse}
    (h : answer d w tenantId (.createLead payload) inputs = .returned (some (.leadCreated true lead))) :
    written d w (.request tenantId (.createLead payload) inputs) = [] := by
  simp only [answer, written, Request.work, LeadRequests.createLead] at h ⊢
  cases hlimit : PlanLimitService.enforceLeadCreationLimit w.db tenantId with
  | error e => rfl
  | ok _ =>
    simp only [hlimit] at h
    dsimp only
    split
    · rfl
    · rename_i hnone
      -- a commit answers that its lead is new
      simp only [hnone, Work.map] at h
      rcases Work.answer_of_commits d.settings w.db inputs.calls ⟨_, _, _, _⟩ with hraised | hreturned
      · rw [hraised] at h
        cases h
      · rw [hreturned] at h
        have hvalue := Answer.returned.inj h
        dsimp only at hvalue
        obtain ⟨_, -, hlead⟩ := Option.map_eq_some_iff.mp hvalue
        cases hlead

theorem written_of_fruitless (h : Fruitless d w (.completed label)) : written d w label = [] := by
  cases h with
  | failed h => simp only [written, h, Work.written]
  | lost h => exact Work.written_of_lost h _
  | refused h => exact Work.written_of_refused h
  | deduplicated h => exact written_of_deduplicated h

theorem fruitless_step (h : Fruitless d s.world attempt) (hstep : AccountedStep d s attempt s') :
    s'.world.db = s.world.db ∧ s'.leads = s.leads ∧ s'.sessions = s.sessions := by
  cases hstep with
  | interrupted hstep published cached => exact ⟨interrupted_db _ _ _ _ _, rfl, rfl⟩
  | completed hstep =>
    have hnone := written_of_fruitless h
    refine ⟨?_, ?_, ?_⟩
    · rw [step_db hstep, hnone]
      rfl
    · simp [hnone, leadCommits]
    · simp [hnone]

end Fruitless

end CreationAccounting

open CreationAccounting

theorem creations_accounted (d : Deployment) {s₀ s : Ledger} {attempts : List Attempt} (h₀ : Accounted s₀)
    (hids : Identified s₀.world.db s₀.world.ids) (hrun : Run (AccountedStep d) s₀ attempts s) :
    Accounted s ∧ ∀ attempt s', AccountedStep d s attempt s' → Committed s s' ∧
      (Fruitless d s.world attempt →
        s'.world.db = s.world.db ∧ s'.leads = s.leads ∧ s'.sessions = s.sessions) := by
  have h : Accounted s ∧ Identified s.world.db s.world.ids := by
    apply hrun.invariant fun s => Accounted s ∧ Identified s.world.db s.world.ids
    · rintro s attempt s' ⟨h, hids⟩ _ hstep
      exact ⟨accounted_step h hstep, identified_step hids hstep⟩
    · exact ⟨h₀, hids⟩
  refine ⟨h.1, fun attempt s' hstep => ⟨committed_step h.2 hstep, fun hfruitless => fruitless_step hfruitless hstep⟩⟩

namespace CreationAccounting

def emptyLedger : Ledger where
  world := { db := {} }

def createAda (k : ℕ) : Label :=
  .request "tenant-1" (.createLead { email := some "ada@example.com" })
    { newId := fun n => (if n = 0 then "lead-" else "event-") ++ toString k, today := 1
      calls := { after := [.raisesWithoutEffect] } }

theorem accounted_empty : Accounted emptyLedger where
  leads _ := rfl
  sessions _ := rfl
  entries c hc := by cases hc

theorem identified_empty : Identified emptyLedger.world.db emptyLedger.world.ids where
  leads l hl := absurd hl (not_mem_empty l)
  timeline e he := absurd he (not_mem_empty e)
  sessions r hr := absurd hr (not_mem_empty r)

end CreationAccounting

theorem creations_accounted_ada :
    ∃ s : Ledger, Accounted s ∧ s.leads.length = 1 ∧ (tenantUsage s.world.db "tenant-1").leadsCreated = 1 := by
  have hrun : Run (AccountedStep plainDeployment) emptyLedger
      [.interrupted (createAda 1) 0 false, .completed (createAda 2), .completed (createAda 3)] _ :=
    .cons trivial (.interrupted (.request _ _ _ (by decide +kernel)) 0 false)
      (.cons trivial (.completed (.request _ _ _ (by decide +kernel)))
        (.cons trivial (.completed (.request _ _ _ (by decide +kernel))) (.nil _)))
  exact ⟨_, (creations_accounted plainDeployment accounted_empty identified_empty hrun).1, by decide +kernel,
    by decide +kernel⟩

end Leadline
