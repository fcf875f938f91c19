import Leadline.SequenceExecution
import Leadline.SequenceTriggers

namespace Leadline.TriggerReplays

open Library SequenceTriggers SequenceWorkers

def handled (settings : Settings) (db : Db) (payload : Dict) (newId : ℕ → Id) (commit : CallOutcome) :
    Outcome Unit :=
  (processSequenceTriggerEvent db payload newId).run settings db { commit := commit }

def EnrollsNobody (db : Db) (payload : Dict) : Prop :=
  ∀ r ∈ readTriggerJob db payload, r.2.2 = [] ∨ ¬ConversationService.LeadExists db (some r.2.1)

variable {settings : Settings} {db : Db} {payload : Dict} {newId newId' : ℕ → Id} {commit : CallOutcome}

theorem handled_of_enrollsNobody (h : EnrollsNobody db payload) :
    (handled settings db payload newId commit).db = db ∧ (handled settings db payload newId commit).jobs = [] := by
  unfold handled processSequenceTriggerEvent
  cases hread : readTriggerJob db payload with
  | none => exact ⟨rfl, rfl⟩
  | some r =>
    obtain ⟨tenantId, leadId, sequences⟩ := r
    cases sequences with
    | nil => exact Work.run_empty ()
    | cons sequence rest =>
      have hlead : ¬ConversationService.LeadExists db (some leadId) := by
        rcases h _ hread with hnone | hlead
        · cases hnone
        · exact hlead
      simp only [List.isEmpty_cons, Bool.false_eq_true, hlead, or_self, if_false]
      exact ⟨rfl, rfl⟩

theorem handled_db (hcommit : commit.takesEffect) {tenantId leadId : Id} {sequences : List Sequence}
    (hread : readTriggerJob db payload = some (tenantId, leadId, sequences))
    (hlead : ConversationService.LeadExists db (some leadId)) :
    (handled settings db payload newId commit).db =
      commitEnrollments db (madeBy newId tenantId leadId sequences) := by
  simp only [handled, processSequenceTriggerEvent, hread, hlead, or_true, if_true]
  rw [Work.run_db]
  simp only [Work.written, SQSPublisher.deliver_returns, Bool.false_eq_true, if_false, hcommit, if_true]
  exact writeAll_writes db _

theorem enrollsNobody_handled :
    EnrollsNobody (handled settings db payload newId commit).db payload ↔ EnrollsNobody db payload := by
  have hsame : (handled settings db payload newId commit).db.sequences = db.sequences ∧
      (handled settings db payload newId commit).db.leads = db.leads := by
    unfold handled processSequenceTriggerEvent
    rw [Work.run_db]
    split
    · exact ⟨rfl, rfl⟩
    · split
      · simp only [Work.written]
        split
        · exact ⟨rfl, rfl⟩
        · split
          · exact ⟨writeAll_sequences db _, writeAll_leads db _⟩
          · exact ⟨rfl, rfl⟩
      · exact ⟨rfl, rfl⟩
  simp only [EnrollsNobody, readTriggerJob_congr hsame.1, ConversationService.LeadExists, hsame.2]

structure Idempotent (first second : Outcome Unit) : Prop where
  enrollments : second.db.enrollments.rows = first.db.enrollments.rows
  jobs : ∀ job ∈ second.jobs, job ∈ first.jobs

theorem enrollsNobody_of_idempotent {first : Outcome Unit}
    (hfresh : first.db.enrollments.Fresh (newId' 0))
    (h : Idempotent first (handled settings first.db payload newId' .returns)) :
    EnrollsNobody first.db payload := by
  intro r hread
  obtain ⟨tenantId, leadId, sequences⟩ := r
  by_contra hsome
  simp only [not_or, not_not] at hsome
  obtain ⟨hsequences, hlead⟩ := hsome
  cases sequences with
  | nil => exact hsequences rfl
  | cons sequence rest =>
    have hsame := h.enrollments
    rw [handled_db rfl hread hlead] at hsame
    have hlonger : first.db.enrollments.rows.length <
        (commitEnrollments first.db (madeBy newId' tenantId leadId (sequence :: rest))).enrollments.rows.length := by
      apply length_commitEnrollments
      exact hfresh
    rw [hsame] at hlonger
    omega

section

variable {J : Type}

structure State (J : Type) where
  db : Db
  made : List (J × Id × Id)

inductive Label (J : Type)
  | handle (job : J) (newId : ℕ → Id) (calls : Calls)
  | edit (db : Db)

def enrolled (job : J) (writes : List Write) : List (J × Id × Id) :=
  writes.filterMap fun
    | .enrollment (.add e) => some (job, e.leadId, e.sequenceId)
    | _ => none

variable (settings : Settings) (payloads : J → Dict)

def step (s : State J) : Label J → Option (State J)
  | .handle job newId calls =>
    let work := processSequenceTriggerEvent s.db (payloads job) newId
    some ⟨(work.run settings s.db calls).db, s.made ++ enrolled job (work.written settings calls)⟩
  | .edit db => some ⟨db, s.made⟩

/-- A handling that gets to its commit finds no sequence in which the same job has enrolled its lead. -/
def Admitted (s : State J) : Label J → Prop
  | .handle job newId calls =>
    ∀ r ∈ readTriggerJob s.db (payloads job), ConversationService.LeadExists s.db (some r.2.1) →
      (SQSPublisher.deliver settings (SequenceTriggers.jobs r.1 (madeBy newId r.1 r.2.1 r.2.2)) calls.before).1 = false →
        calls.commit.takesEffect → ∀ sequence ∈ r.2.2, (job, r.2.1, sequence.id) ∉ s.made
  | .edit _ => True

variable {settings payloads}

theorem enrolled_madeBy (job : J) (newId : ℕ → Id) (tenantId leadId : Id) (sequences : List Sequence) :
    enrolled job (writes (madeBy newId tenantId leadId sequences)) =
      sequences.map fun sequence => (job, leadId, sequence.id) := by
  have hindexed : ∀ (sequences : List Sequence) (n : ℕ),
      enrolled job (writes ((sequences.zipIdx n).map fun p =>
        let enrollment := SequenceEnrollmentRepository.newEnrollment (newId (2 * p.2)) tenantId leadId p.1.id
        (⟨enrollment, enrolledEvent (newId (2 * p.2 + 1)) enrollment⟩ : Made))) =
        sequences.map fun sequence => (job, leadId, sequence.id) := by
    intro sequences
    induction sequences with
    | nil => exact fun _ => rfl
    | cons sequence rest ih =>
      intro n
      exact congrArg (List.cons (job, leadId, sequence.id)) (ih (n + 1))
  exact hindexed sequences 0

theorem nodup_enrolled {tenantId leadId : Id} {sequences : List Sequence} (job : J)
    (hread : readTriggerJob db payload = some (tenantId, leadId, sequences)) :
    (sequences.map fun sequence => (job, leadId, sequence.id)).Nodup := by
  have hids : (sequences.map Sequence.id).Nodup := by
    unfold readTriggerJob at hread
    split at hread
    · cases hread
      exact db.sequences.nodup.sublist (List.filter_sublist.map Sequence.id)
    · cases hread
  have hmap : (sequences.map fun sequence => (job, leadId, sequence.id)) =
      (sequences.map Sequence.id).map fun id => (job, leadId, id) := by
    rw [List.map_map]
    rfl
  rw [hmap]
  apply hids.map
  intro a b hab
  exact (Prod.mk.inj (Prod.mk.inj hab).2).2

theorem made_handle {s s' : State J} {job : J} {newId : ℕ → Id} {calls : Calls}
    (h : step settings payloads s (.handle job newId calls) = some s') :
    (s'.made = s.made ∧ Admitted settings payloads s (.handle job newId calls)) ∨
      ∃ tenantId leadId sequences, readTriggerJob s.db (payloads job) = some (tenantId, leadId, sequences) ∧
        s'.made = s.made ++ sequences.map (fun sequence => (job, leadId, sequence.id)) ∧
        (Admitted settings payloads s (.handle job newId calls) ↔
          ∀ sequence ∈ sequences, (job, leadId, sequence.id) ∉ s.made) := by
  cases h
  dsimp only [Admitted]
  cases hread : readTriggerJob s.db (payloads job) with
  | none =>
    refine .inl ⟨?_, fun r hr => by cases hr⟩
    simp [processSequenceTriggerEvent, hread, Work.written, enrolled]
  | some r =>
    obtain ⟨tenantId, leadId, sequences⟩ := r
    by_cases hcommits : ConversationService.LeadExists s.db (some leadId) ∧
        (SQSPublisher.deliver settings (SequenceTriggers.jobs tenantId (madeBy newId tenantId leadId sequences))
          calls.before).1 = false ∧ calls.commit.takesEffect
    · obtain ⟨hlead, hbefore, hcommit⟩ := hcommits
      refine .inr ⟨tenantId, leadId, sequences, rfl, ?_, ?_⟩
      · simp only [processSequenceTriggerEvent, hread, hlead, or_true, if_true, Work.written, hbefore,
          Bool.false_eq_true, if_false, hcommit, enrolled_madeBy]
      · constructor
        · intro h
          exact h _ rfl hlead hbefore hcommit
        · intro h r hr _ _ _
          cases hr
          exact h
    · refine .inl ⟨?_, ?_⟩
      · cases sequences with
        | nil =>
          simp only [processSequenceTriggerEvent, hread, List.isEmpty_nil, true_or, if_true, Work.written]
          split
          · exact List.append_nil _
          · split <;> exact List.append_nil _
        | cons sequence rest =>
          by_cases hlead : ConversationService.LeadExists s.db (some leadId)
          · simp only [processSequenceTriggerEvent, hread, hlead, or_true, if_true, Work.written]
            split
            · exact List.append_nil _
            · rename_i hbefore
              split
              · rename_i hcommit
                exact absurd ⟨hlead, by simpa using hbefore, hcommit⟩ hcommits
              · exact List.append_nil _
          · simp only [processSequenceTriggerEvent, hread, hlead, List.isEmpty_cons, Bool.false_eq_true,
              or_self, if_false, Work.written]
            exact List.append_nil _
      · intro r hr hlead hbefore hcommit
        cases hr
        exact absurd ⟨hlead, hbefore, hcommit⟩ hcommits

theorem nodup_iff_admitted {s s' : State J} {label : Label J} (hs : s.made.Nodup)
    (h : step settings payloads s label = some s') : s'.made.Nodup ↔ Admitted settings payloads s label := by
  cases label with
  | edit db =>
    cases h
    exact iff_of_true hs trivial
  | handle job newId calls =>
    rcases made_handle h with ⟨hsame, hok⟩ | ⟨tenantId, leadId, sequences, hread, hadds, hok⟩
    · rw [hsame]
      exact iff_of_true hs hok
    · rw [hadds, hok, List.nodup_append]
      constructor
      · rintro ⟨-, -, hapart⟩ sequence hsequence hmade
        exact hapart _ hmade _ (List.mem_map_of_mem hsequence) rfl
      · intro hnew
        refine ⟨hs, nodup_enrolled job hread, ?_⟩
        intro a ha b hb hab
        obtain ⟨sequence, hsequence, rfl⟩ := List.mem_map.mp hb
        exact hnew sequence hsequence (hab ▸ ha)

end

end Leadline.TriggerReplays

namespace Leadline

open Library SequenceTriggers SequenceWorkers TriggerReplays

theorem triggers_idempotent {J : Type} (settings : Settings) (payloads : J → Dict) (db : Db)
    (s : TriggerReplays.State J) (labels : List (TriggerReplays.Label J))
    (hrun : GuardedRun (Enabled (TriggerReplays.step settings payloads)) (TriggerReplays.Admitted settings payloads)
      ⟨db, []⟩ labels s) :
    s.made.Nodup ∧
      (∀ label s', TriggerReplays.step settings payloads s label = some s' →
        (s'.made.Nodup ↔ TriggerReplays.Admitted settings payloads s label)) ∧
      ∀ payload newId newId' commit, commit.takesEffect →
        (handled settings s.db payload newId commit).db.enrollments.Fresh (newId' 0) →
          (Idempotent (handled settings s.db payload newId commit)
              (handled settings (handled settings s.db payload newId commit).db payload newId' .returns) ↔
            EnrollsNobody s.db payload) := by
  have hnodup : s.made.Nodup := by
    apply hrun.invariant fun s => s.made.Nodup
    · intro s label s' hs hok hstep
      exact (nodup_iff_admitted hs hstep).mpr hok
    · exact List.nodup_nil
  refine ⟨hnodup, fun label s' hstep => nodup_iff_admitted hnodup hstep, ?_⟩
  intro payload newId newId' commit _ hfresh
  constructor
  · intro h
    exact enrollsNobody_handled.mp (enrollsNobody_of_idempotent hfresh h)
  · intro h
    have hagain : EnrollsNobody (handled settings s.db payload newId commit).db payload :=
      enrollsNobody_handled.mpr h
    obtain ⟨hdb, hjobs⟩ := handled_of_enrollsNobody hagain
    constructor
    · rw [hdb]
    · rw [hjobs]
      exact fun job hm => absurd hm List.not_mem_nil

def TriggerReplays.newIds (name : String) (k : ℕ) : Id := name ++ String.ofList (List.replicate k '+')

def TriggerReplays.sequenceQueue : Settings where
  sqsSequenceJobsQueueUrl := some "https://sqs/sequence_jobs"

def TriggerReplays.beforeTrigger : Db := { welcomeDb with enrollments := .empty }

def TriggerReplays.miaCreated (_ : Unit) : Dict := (triggerJob "tenant-seq" "lead-1" "lead_created").payload

def TriggerReplays.pausedAfter (db : Db) : Db :=
  { db with sequences := Table.empty.insert { welcome with status := "paused" } }

theorem TriggerReplays.no_sequences_of_all {db : Db} {payload : Dict}
    (h : ((readTriggerJob db payload).all fun r => r.2.2.isEmpty) = true) :
    ∀ r ∈ readTriggerJob db payload, r.2.2 = [] := by
  intro r hr
  rw [Option.mem_def] at hr
  rw [hr] at h
  simpa using h

theorem triggers_idempotent_paused :
    ∃ s : TriggerReplays.State Unit, s.made.Nodup ∧ s.made = [((), "lead-1", "seq-1")] ∧
      Idempotent (handled sequenceQueue s.db (miaCreated ()) (newIds "c") .returns)
        (handled sequenceQueue (handled sequenceQueue s.db (miaCreated ()) (newIds "c") .returns).db
          (miaCreated ()) (newIds "d") .returns) := by
  let first := (handled sequenceQueue beforeTrigger (miaCreated ()) (newIds "a") .returns).db
  have hnone : ∀ r ∈ readTriggerJob (pausedAfter first) (miaCreated ()), r.2.2 = [] := by
    apply no_sequences_of_all
    decide +kernel
  have hrun : GuardedRun (Enabled (TriggerReplays.step sequenceQueue miaCreated))
      (TriggerReplays.Admitted sequenceQueue miaCreated) ⟨beforeTrigger, []⟩
      [.handle () (newIds "a") {}, .edit (pausedAfter first), .handle () (newIds "b") {}] _ :=
    .cons (fun _ _ _ _ _ _ _ => List.not_mem_nil) rfl (.cons trivial rfl
      (.cons (fun r hr _ _ _ sequence hs => by rw [hnone r hr] at hs; cases hs) rfl (.nil _)))
  obtain ⟨hnodup, -, hagain⟩ := triggers_idempotent sequenceQueue miaCreated beforeTrigger _ _ hrun
  refine ⟨_, hnodup, by decide +kernel, (hagain _ (newIds "c") (newIds "d") .returns rfl ?_).mpr ?_⟩
  · decide +kernel
  · intro r hr
    refine .inl (no_sequences_of_all ?_ r hr)
    decide +kernel

theorem trigger_enrolls_twice :
    ¬Idempotent (handled sequenceQueue beforeTrigger (miaCreated ()) (newIds "a") .returns)
        (handled sequenceQueue (handled sequenceQueue beforeTrigger (miaCreated ()) (newIds "a") .returns).db
          (miaCreated ()) (newIds "b") .returns) ∧
      ∃ s : TriggerReplays.State Unit,
        runSteps (TriggerReplays.step sequenceQueue miaCreated) ⟨beforeTrigger, []⟩
            [.handle () (newIds "a") {}, .handle () (newIds "b") {}] = some s ∧
          s.made = [((), "lead-1", "seq-1"), ((), "lead-1", "seq-1")] ∧ s.db.enrollments.rows.length = 2 := by
  constructor
  · intro h
    have hlength := congrArg List.length h.enrollments
    revert hlength
    decide +kernel
  · exact ⟨_, rfl, by decide +kernel, by decide +kernel⟩

end Leadline
