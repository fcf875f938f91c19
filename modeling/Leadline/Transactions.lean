import Leadline.LeadService

/-!
What a request or a job does with its database session: the rows it writes up to its commit, and
the jobs it publishes before and after it.
-/

namespace Leadline

open Library

inductive RowWrite (α : Type)
  | add (row : α)
  | set (row : α)
  | delete (id : Id)

def RowWrite.apply {α : Type} {key : α → Id} (t : Table key) : RowWrite α → Table key
  | add row => t.insert row
  | set row => t.put row
  | delete id => t.erase id

inductive Write
  | lead (w : RowWrite Lead)
  | timelineEvent (w : RowWrite LeadTimelineEvent)
  | session (w : RowWrite Session)
  | message (w : RowWrite Message)
  | routingRule (w : RowWrite RoutingRule)
  | sequence (w : RowWrite Sequence)
  | step (w : RowWrite SequenceStep)
  | enrollment (w : RowWrite SequenceEnrollment)
  | connection (w : RowWrite IntegrationConnection)
  | usage (change : UsageChange)

def removeSession (db : Db) (sessionId : Id) : Db :=
  { db with
    sessions := db.sessions.erase sessionId
    messages := db.messages.filter fun m => m.sessionId ≠ sessionId }

def removeSequence (db : Db) (sequenceId : Id) : Db :=
  { db with
    sequences := db.sequences.erase sequenceId
    steps := db.steps.filter fun s => s.sequenceId ≠ sequenceId
    enrollments := db.enrollments.filter fun e => e.sequenceId ≠ sequenceId }

def Db.write (db : Db) : Write → Db
  | .lead (.delete id) => LeadService.removeLead db id
  | .lead w => { db with leads := w.apply db.leads }
  | .timelineEvent w => { db with timeline := w.apply db.timeline }
  | .session (.delete id) => removeSession db id
  | .session w => { db with sessions := w.apply db.sessions }
  | .message w => { db with messages := w.apply db.messages }
  | .routingRule w => { db with routingRules := w.apply db.routingRules }
  | .sequence (.delete id) => removeSequence db id
  | .sequence w => { db with sequences := w.apply db.sequences }
  | .step w => { db with steps := w.apply db.steps }
  | .enrollment w => { db with enrollments := w.apply db.enrollments }
  | .connection w => { db with integrationConnections := w.apply db.integrationConnections }
  | .usage change => { db with usage := change.write db.usage }

def Db.writeAll (db : Db) (writes : List Write) : Db := writes.foldl Db.write db

theorem Db.writeAll_nil (db : Db) : db.writeAll [] = db := rfl

theorem Db.writeAll_cons (db : Db) (w : Write) (writes : List Write) :
    db.writeAll (w :: writes) = (db.write w).writeAll writes := rfl

structure Commit (α : Type) where
  writes : List Write
  value : α
  before : List QueueJob := []
  after : List QueueJob := []

inductive Work (α : Type)
  | refused (e : HTTPException)
  | raised
  | answered (value : α)
  | commits (c : Commit α)

structure Calls where
  before : List CallOutcome := []
  commit : CallOutcome := .returns
  after : List CallOutcome := []

structure Outcome (α : Type) where
  answer : Answer α
  db : Db
  jobs : List QueueJob := []

namespace SQSPublisher

/-- As `publishAll`, with the jobs in place of the messages: whether it raises, and what was sent. -/
def deliver (settings : Settings) : List QueueJob → List CallOutcome → Bool × List QueueJob
  | [], _ => (false, [])
  | job :: rest, calls =>
    let send := calls.headD .returns
    let sent := if (message settings job).isSome ∧ send.takesEffect then [job] else []
    if (message settings job).isSome ∧ send.raises then (true, sent)
    else ((deliver settings rest calls.tail).1, sent ++ (deliver settings rest calls.tail).2)

end SQSPublisher

def Work.run {α : Type} (settings : Settings) (db : Db) (calls : Calls) : Work α → Outcome α
  | refused e => ⟨.refused e, db, []⟩
  | raised => ⟨.raised, db, []⟩
  | answered value => ⟨.returned value, db, []⟩
  | commits c =>
    match SQSPublisher.deliver settings c.before calls.before with
    | (true, sent) => ⟨.raised, db, sent⟩
    | (false, sent) =>
      let after := if calls.commit.takesEffect then db.writeAll c.writes else db
      if calls.commit.raises then ⟨.raised, after, sent⟩
      else
        match SQSPublisher.deliver settings c.after calls.after with
        | (true, later) => ⟨.raised, after, sent ++ later⟩
        | (false, later) => ⟨.returned c.value, after, sent ++ later⟩

def Work.written {α : Type} (settings : Settings) (calls : Calls) : Work α → List Write
  | commits c =>
    if (SQSPublisher.deliver settings c.before calls.before).1 then []
    else if calls.commit.takesEffect then c.writes
    else []
  | _ => []

def Work.map {α β : Type} (f : α → β) : Work α → Work β
  | refused e => .refused e
  | raised => .raised
  | answered value => .answered (f value)
  | commits c => .commits ⟨c.writes, f c.value, c.before, c.after⟩

variable {α : Type} {settings : Settings} {db : Db} {calls : Calls}

theorem Work.run_db (w : Work α) : (w.run settings db calls).db = db.writeAll (w.written settings calls) := by
  cases w with
  | refused e => rfl
  | raised => rfl
  | answered value => rfl
  | commits c =>
    simp only [run, written]
    cases SQSPublisher.deliver settings c.before calls.before with
    | mk raises sent =>
      cases raises with
      | true => rfl
      | false =>
        dsimp only
        cases calls.commit.takesEffect with
        | false =>
          split
          · rfl
          · split <;> rfl
        | true =>
          split
          · rfl
          · split <;> rfl

theorem Work.written_of_lost (h : calls.commit.takesEffect = false) (w : Work α) :
    w.written settings calls = [] := by
  cases w with
  | commits c => simp [written, h]
  | _ => rfl

theorem Work.written_of_committed {c : Commit α} (hbefore : c.before = []) (h : calls.commit.takesEffect) :
    (Work.commits c).written settings calls = c.writes := by
  simp [written, hbefore, h, SQSPublisher.deliver]

def Work.Each {α : Type} (p : Write → Prop) : Work α → Prop
  | commits c => ∀ w ∈ c.writes, p w
  | _ => True

theorem Work.Each.imp {p q : Write → Prop} {work : Work α} (h : work.Each p) (himp : ∀ w, p w → q w) :
    work.Each q := by
  cases work with
  | commits c => exact fun w hw => himp w (h w hw)
  | _ => trivial

theorem Work.Each.and {p q r : Write → Prop} {work : Work α} (hp : work.Each p) (hq : work.Each q)
    (himp : ∀ w, p w → q w → r w) : work.Each r := by
  cases work with
  | commits c => exact fun w hw => himp w (hp w hw) (hq w hw)
  | _ => trivial

theorem Work.written_or_nil (settings : Settings) (calls : Calls) (work : Work α) :
    work.written settings calls = [] ∨ ∃ c, work = .commits c ∧ work.written settings calls = c.writes := by
  cases work with
  | commits c =>
    simp only [written]
    split
    · exact .inl rfl
    · split
      · exact .inr ⟨c, rfl, rfl⟩
      · exact .inl rfl
  | _ => exact .inl rfl

theorem Work.each_written {p : Write → Prop} {work : Work α} (h : work.Each p) :
    ∀ w ∈ work.written settings calls, p w := by
  intro w hw
  rcases written_or_nil settings calls work with hnone | ⟨c, rfl, hall⟩
  · rw [hnone] at hw
    cases hw
  · rw [hall] at hw
    exact h w hw

theorem Work.answer_of_commits (settings : Settings) (db : Db) (calls : Calls) (c : Commit α) :
    ((Work.commits c).run settings db calls).answer = .raised ∨
      ((Work.commits c).run settings db calls).answer = .returned c.value := by
  simp only [run]
  split
  · exact .inl rfl
  · split
    · exact .inl rfl
    · split
      · exact .inl rfl
      · exact .inr rfl

theorem Work.written_of_refused {work : Work α} {e : HTTPException}
    (h : (work.run settings db calls).answer = .refused e) : work.written settings calls = [] := by
  cases work with
  | commits c =>
    rcases answer_of_commits settings db calls c with hraised | hreturned
    · rw [hraised] at h
      cases h
    · rw [hreturned] at h
      cases h
  | _ => rfl

theorem Work.run_empty (value : α) :
    ((Work.commits ⟨[], value, [], []⟩).run settings db calls).db = db ∧
      ((Work.commits ⟨[], value, [], []⟩).run settings db calls).jobs = [] := by
  constructor
  · rw [run_db]
    simp only [written]
    split
    · rfl
    · split <;> rfl
  · simp only [run, SQSPublisher.deliver]
    split <;> rfl

theorem SQSPublisher.deliver_returns (settings : Settings) (jobs : List QueueJob) :
    deliver settings jobs [] = (false, jobs.filter fun job => (message settings job).isSome) := by
  induction jobs with
  | nil => rfl
  | cons job jobs ih =>
    rw [deliver, List.tail_nil, ih]
    simp [CallOutcome.raises, CallOutcome.takesEffect, List.filter_cons]
    split <;> rfl

theorem Work.run_returns (settings : Settings) (db : Db) (c : Commit α) :
    (Work.commits c).run settings db {} = ⟨.returned c.value, db.writeAll c.writes,
      (c.before ++ c.after).filter fun job => (SQSPublisher.message settings job).isSome⟩ := by
  simp only [run, SQSPublisher.deliver_returns, List.filter_append]
  rfl

theorem SQSPublisher.mem_of_mem_deliver {jobs : List QueueJob} {outcomes : List CallOutcome} {job : QueueJob}
    (h : job ∈ (deliver settings jobs outcomes).2) : job ∈ jobs := by
  induction jobs generalizing outcomes with
  | nil => exact h
  | cons first jobs ih =>
    have hsent : ∀ p : Prop, ∀ [Decidable p], job ∈ (if p then [first] else []) → job = first := by
      intro p _ hm
      split at hm
      · exact List.mem_singleton.mp hm
      · cases hm
    simp only [deliver] at h
    split at h
    · exact List.mem_cons.mpr (.inl (hsent _ h))
    · rcases List.mem_append.mp h with h | h
      · exact List.mem_cons.mpr (.inl (hsent _ h))
      · exact List.mem_cons_of_mem first (ih h)

theorem Work.run_cases (work : Work α) (settings : Settings) (db : Db) (calls : Calls) :
    ((work.run settings db calls).db = db ∧
        ∀ job ∈ (work.run settings db calls).jobs, ∃ c, work = .commits c ∧ job ∈ c.before) ∨
      ∃ c, work = .commits c ∧ calls.commit.takesEffect ∧
        (work.run settings db calls).db = db.writeAll c.writes ∧
        ∀ job ∈ (work.run settings db calls).jobs, job ∈ c.before ∨ job ∈ c.after := by
  cases work with
  | refused e => exact .inl ⟨rfl, fun _ hjob => absurd hjob List.not_mem_nil⟩
  | raised => exact .inl ⟨rfl, fun _ hjob => absurd hjob List.not_mem_nil⟩
  | answered value => exact .inl ⟨rfl, fun _ hjob => absurd hjob List.not_mem_nil⟩
  | commits c =>
    have hbefore : ∀ job ∈ (SQSPublisher.deliver settings c.before calls.before).2, job ∈ c.before :=
      fun _ hjob => SQSPublisher.mem_of_mem_deliver hjob
    have hafter : ∀ job ∈ (SQSPublisher.deliver settings c.after calls.after).2, job ∈ c.after :=
      fun _ hjob => SQSPublisher.mem_of_mem_deliver hjob
    simp only [run]
    rcases hfirst : SQSPublisher.deliver settings c.before calls.before with ⟨raised, sent⟩
    rw [hfirst] at hbefore
    cases raised with
    | true => exact .inl ⟨rfl, fun job hjob => ⟨c, rfl, hbefore job hjob⟩⟩
    | false =>
      cases hcommit : calls.commit with
      | raisesWithoutEffect => exact .inl ⟨rfl, fun job hjob => ⟨c, rfl, hbefore job hjob⟩⟩
      | raisesAfterEffect => exact .inr ⟨c, rfl, rfl, rfl, fun job hjob => .inl (hbefore job hjob)⟩
      | returns =>
        refine .inr ⟨c, rfl, rfl, ?_⟩
        rcases hlast : SQSPublisher.deliver settings c.after calls.after with ⟨raised, later⟩
        rw [hlast] at hafter
        cases raised with
        | true => exact ⟨rfl, fun job hjob => (List.mem_append.mp hjob).imp (hbefore job) (hafter job)⟩
        | false => exact ⟨rfl, fun job hjob => (List.mem_append.mp hjob).imp (hbefore job) (hafter job)⟩

theorem SQSPublisher.publishAll_zip (settings : Settings) {jobs : List QueueJob} {calls : List CallOutcome}
    (hlength : jobs.length = calls.length) :
    publishAll settings (jobs.zip calls) =
      (if (deliver settings jobs calls).1 then .raised else .published,
        (deliver settings jobs calls).2.filterMap (message settings)) := by
  induction jobs generalizing calls with
  | nil => rfl
  | cons job jobs ih =>
    cases calls with
    | nil => cases hlength
    | cons send calls =>
      have hrest := ih (Nat.succ.inj hlength)
      simp only [List.zip_cons_cons, publishAll, deliver, List.headD_cons, List.tail_cons]
      by_cases hsome : (message settings job).isSome
      · obtain ⟨m, hm⟩ := Option.isSome_iff_exists.mp hsome
        rw [publish_of_message hm]
        cases send with
        | returns => simp [CallOutcome.raises, CallOutcome.takesEffect, hrest, hm]
        | raisesAfterEffect => simp [CallOutcome.raises, CallOutcome.takesEffect, hm]
        | raisesWithoutEffect => simp [CallOutcome.raises, CallOutcome.takesEffect, hm]
      · have hnone : message settings job = none := Option.not_isSome_iff_eq_none.mp hsome
        rw [publish_of_no_message hnone]
        simp [hrest, hnone]

theorem SQSPublisher.publish_raised_iff {send : CallOutcome} {job : QueueJob} :
    (publish settings send job).1 = .raised ↔ (deliver settings [job] [send]).1 = true := by
  by_cases hsome : (message settings job).isSome
  · obtain ⟨m, hm⟩ := Option.isSome_iff_exists.mp hsome
    rw [publish_of_message hm]
    cases send with
    | returns => simp [deliver, CallOutcome.raises]
    | raisesAfterEffect => simp [deliver, CallOutcome.raises, hm]
    | raisesWithoutEffect => simp [deliver, CallOutcome.raises, hm]
  · have hnone : message settings job = none := Option.not_isSome_iff_eq_none.mp hsome
    simp [deliver, publish_of_no_message hnone, hnone]

end Leadline
