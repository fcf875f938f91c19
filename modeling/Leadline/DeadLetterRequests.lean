import Leadline.DeadLetterReplay
import Leadline.Library.GuardedRun
import Mathlib.Data.List.Sort
import Mathlib.Logic.Function.Basic

namespace Leadline

open Library

/-- `list_dlq_jobs`, over the `created_at` column that the rows leave out. -/
def listDlqJobs (createdAt : FailedJob → ℕ) (jobs : Table FailedJob.id) (queueName : Option String) :
    List FailedJob :=
  let pending := jobs.rows.filter fun job => job.status = .pending
  let selected := match configured queueName with
    | none => pending
    | some name => pending.filter fun job => job.queueName = name
  (selected.insertionSort fun a b => createdAt b ≤ createdAt a).take 100

namespace DeadLetterRequests

inductive Phase
  | idle
  | read (job : FailedJob)
  | published (job : FailedJob) (putBack : Bool)

inductive Event
  | putBack (jobId : Id) (message : SentMessage)
  | listed (jobIds : List Id)
  deriving DecidableEq

structure Desk where
  jobs : Table FailedJob.id
  requests : ℕ → Phase := fun _ => .idle
  events : List Event := []

inductive Label
  | read (request : ℕ) (jobId : Id)
  | publish (request : ℕ) (send : CallOutcome)
  | commit (request : ℕ) (commit : CallOutcome) (now : ℕ)
  | list (queueName : Option String)

def next (settings : Settings) (createdAt : FailedJob → ℕ) (s : Desk) : Label → Option Desk
  | .read request jobId =>
    match s.requests request, s.jobs.find? jobId with
    | .idle, none => some s
    | .idle, some job => some { s with requests := Function.update s.requests request (.read job) }
    | _, _ => none
  | .publish request send =>
    match s.requests request with
    | .read job =>
      let (result, sent) := SQSPublisher.publish settings send ⟨job.queueName, job.payload⟩
      some { s with
        requests := Function.update s.requests request
          (if result = .raised then .idle else .published job !sent.isEmpty)
        events := s.events ++ sent.map (.putBack job.id) }
    | _ => none
  | .commit request commit now =>
    match s.requests request with
    | .published job _ =>
      some { s with
        requests := Function.update s.requests request .idle
        jobs :=
          if commit.takesEffect then s.jobs.modify job.id (FailedJob.markReplayed now) (FailedJob.markReplayed_id now)
          else s.jobs }
    | _ => none
  | .list queueName =>
    some { s with events := s.events ++ [.listed ((listDlqJobs createdAt s.jobs queueName).map FailedJob.id)] }

def Unmarked (s : Desk) (jobId : Id) : Prop :=
  ∃ request job, s.requests request = .published job true ∧ job.id = jobId

/-- A payload is put back only for a pending row without an unmarked replay, by a call that then returns, the commit
after it takes effect, and no list selects a row with an unmarked replay. -/
def Orderly (settings : Settings) (s : Desk) : Label → Prop
  | .read _ _ => True
  | .publish request send =>
    ∀ job, s.requests request = .read job →
      (SQSPublisher.message settings ⟨job.queueName, job.payload⟩).isSome → send.takesEffect = true →
        send = .returns ∧ ¬Unmarked s job.id ∧ ∀ row, s.jobs.find? job.id = some row → row.status = .pending
  | .commit request commit _ => ∀ job, s.requests request = .published job true → commit.takesEffect = true
  | .list queueName =>
    ∀ row ∈ s.jobs, row.status = .pending → (∀ name ∈ configured queueName, row.queueName = name) → ¬Unmarked s row.id

def Event.replayed : Event → Option Id
  | .putBack jobId _ => some jobId
  | .listed _ => none

def Event.jobIds : Event → List Id
  | .putBack jobId _ => [jobId]
  | .listed jobIds => jobIds

structure Clean (s : Desk) : Prop where
  idle : ∀ request, s.requests request = .idle
  events : s.events = []

section Listing

variable {createdAt : FailedJob → ℕ} {jobs : Table FailedJob.id} {queueName : Option String} {job : FailedJob}

theorem of_mem_listDlqJobs (h : job ∈ listDlqJobs createdAt jobs queueName) :
    job ∈ jobs ∧ job.status = .pending ∧ ∀ name ∈ configured queueName, job.queueName = name := by
  unfold listDlqJobs at h
  have hselected := (List.perm_insertionSort _ _).mem_iff.mp (List.mem_of_mem_take h)
  cases hname : configured queueName with
  | none =>
    simp only [hname, List.mem_filter, decide_eq_true_eq] at hselected
    exact ⟨hselected.1, hselected.2, by simp⟩
  | some name =>
    simp only [hname, List.mem_filter, decide_eq_true_eq] at hselected
    refine ⟨hselected.1.1, hselected.1.2, ?_⟩
    rintro _ ⟨⟩
    exact hselected.2

end Listing

section Alone

variable {settings : Settings} {createdAt : FailedJob → ℕ} {s : Desk} {request now : ℕ} {job : FailedJob}
  {send commit : CallOutcome}

theorem alone_raised (hidle : s.requests request = .idle) (hjob : s.jobs.find? job.id = some job)
    (hraised : (SQSPublisher.publish settings send ⟨job.queueName, job.payload⟩).1 = .raised) :
    runSteps (next settings createdAt) s [.read request job.id, .publish request send] =
      some { s with
        requests := Function.update s.requests request .idle
        jobs := (replayDlqJob settings s.jobs job.id send commit now).jobs
        events := s.events ++ (replayDlqJob settings s.jobs job.id send commit now).sent.map (.putBack job.id) } := by
  rcases hpublish : SQSPublisher.publish settings send ⟨job.queueName, job.payload⟩ with ⟨result, sent⟩
  rw [hpublish] at hraised
  cases hraised
  simp [runSteps, next, hidle, hjob, replayDlqJob, hpublish]

theorem alone_committed (hidle : s.requests request = .idle) (hjob : s.jobs.find? job.id = some job)
    (hraised : (SQSPublisher.publish settings send ⟨job.queueName, job.payload⟩).1 ≠ .raised) :
    runSteps (next settings createdAt) s
        [.read request job.id, .publish request send, .commit request commit now] =
      some { s with
        requests := Function.update s.requests request .idle
        jobs := (replayDlqJob settings s.jobs job.id send commit now).jobs
        events := s.events ++ (replayDlqJob settings s.jobs job.id send commit now).sent.map (.putBack job.id) } := by
  rcases hpublish : SQSPublisher.publish settings send ⟨job.queueName, job.payload⟩ with ⟨result, sent⟩
  rw [hpublish] at hraised
  cases result with
  | raised => exact absurd rfl hraised
  | skipped => simp [runSteps, next, hidle, hjob, replayDlqJob, hpublish]
  | published => simp [runSteps, next, hidle, hjob, replayDlqJob, hpublish]

end Alone

def ReplayedOnce (events : List Event) : Prop := events.Pairwise fun e f => ∀ jobId ∈ e.replayed, jobId ∉ f.jobIds

structure Kept (s : Desk) : Prop where
  once : ReplayedOnce s.events
  accounted : ∀ e ∈ s.events, ∀ jobId ∈ e.replayed, Unmarked s jobId ∨
    ∃ row, s.jobs.find? jobId = some row ∧ row.status = .replayed
  stored : ∀ request job, s.requests request = .read job ∨ (∃ putBack, s.requests request = .published job putBack) →
    ∃ row, s.jobs.find? job.id = some row

section Kept

variable {settings : Settings} {createdAt : FailedJob → ℕ} {s s' : Desk} {label : Label}

theorem ReplayedOnce.snoc {events : List Event} {f : Event} (h : ReplayedOnce events)
    (hnew : ∀ e ∈ events, ∀ jobId ∈ e.replayed, jobId ∉ f.jobIds) : ReplayedOnce (events ++ [f]) := by
  apply List.pairwise_append.mpr
  refine ⟨h, List.pairwise_singleton _ _, ?_⟩
  intro e he f' hf'
  rw [List.mem_singleton.mp hf']
  exact hnew e he

theorem Event.mem_jobIds {e : Event} {jobId : Id} (h : jobId ∈ e.replayed) : jobId ∈ e.jobIds := by
  cases e with
  | putBack other message =>
    cases h
    exact List.mem_singleton_self _
  | listed jobIds => cases h

theorem ReplayedOnce.nodup_replayed {events : List Event} (h : ReplayedOnce events) :
    (events.filterMap Event.replayed).Nodup := by
  apply List.Pairwise.filterMap Event.replayed _ h
  rintro e f hef jobId he _ hf rfl
  exact hef jobId he (Event.mem_jobIds hf)

theorem Clean.kept (h : Clean s) : Kept s where
  once := by
    rw [h.events]
    exact List.Pairwise.nil
  accounted := by simp [h.events]
  stored := by
    intro request job hphase
    rw [h.idle] at hphase
    rcases hphase with hread | ⟨_, hpublished⟩
    · cases hread
    · cases hpublished

theorem Kept.move {request : ℕ} {phase : Phase} (hs : Kept s) (hphase : ∀ job, s.requests request ≠ .published job true)
    (hstored : ∀ job, phase = .read job ∨ (∃ putBack, phase = .published job putBack) →
      ∃ row, s.jobs.find? job.id = some row) :
    Kept { s with requests := Function.update s.requests request phase } := by
  refine ⟨hs.once, ?_, ?_⟩
  · intro e he jobId hreplayed
    refine (hs.accounted e he jobId hreplayed).imp_left ?_
    rintro ⟨other, job, hother, hid⟩
    have hne : other ≠ request := by
      rintro rfl
      exact hphase job hother
    refine ⟨other, job, ?_, hid⟩
    simpa [Function.update_of_ne hne] using hother
  · intro other job hother
    by_cases hsame : other = request
    · subst hsame
      simp only [Function.update_self] at hother
      exact hstored job hother
    · simp only [Function.update_of_ne hsame] at hother
      exact hs.stored other job hother

theorem Kept.read {request : ℕ} {jobId : Id} (hs : Kept s)
    (hstep : next settings createdAt s (.read request jobId) = some s') : Kept s' := by
  simp only [DeadLetterRequests.next] at hstep
  split at hstep
  · cases hstep
    exact hs
  · rename_i row hidle hrow
    cases hstep
    apply hs.move
    · simp [hidle]
    · rintro job (hjob | ⟨putBack, hjob⟩)
      · cases hjob
        rw [(Table.find?_eq_some_iff.mp hrow).2]
        exact ⟨_, hrow⟩
      · cases hjob
  · cases hstep

theorem Kept.publish {request : ℕ} {send : CallOutcome} (hs : Kept s)
    (hok : Orderly settings s (.publish request send))
    (hstep : next settings createdAt s (.publish request send) = some s') : Kept s' := by
  simp only [DeadLetterRequests.next] at hstep
  split at hstep
  · rename_i job hread
    obtain ⟨row, hrow⟩ := hs.stored request job (.inl hread)
    have hmoved : ∀ phase : Phase, (∀ other, phase = .read other ∨ (∃ putBack, phase = .published other putBack) →
        other = job) → Kept { s with requests := Function.update s.requests request phase } := by
      intro phase hphase
      apply hs.move
      · simp [hread]
      · intro other hother
        rw [hphase other hother]
        exact ⟨row, hrow⟩
    cases hmessage : SQSPublisher.message settings ⟨job.queueName, job.payload⟩ with
    | none =>
      rw [SQSPublisher.publish_of_no_message hmessage] at hstep
      cases hstep
      simpa using hmoved (.published job false) (by simp)
    | some message =>
      rw [SQSPublisher.publish_of_message hmessage] at hstep
      cases heffect : send.takesEffect with
      | false =>
        have hraises : send.raises = true := by cases send <;> simp_all [CallOutcome.takesEffect, CallOutcome.raises]
        simp only [heffect, hraises] at hstep
        cases hstep
        simpa using hmoved .idle (by simp)
      | true =>
        obtain ⟨rfl, hmarked, hpending⟩ := hok job hread (by simp [hmessage]) heffect
        cases hstep
        have hnext := hmoved (.published job true) (by simp)
        refine ⟨hnext.once.snoc ?_, ?_, hnext.stored⟩
        · intro e he jobId hreplayed hid
          rw [List.mem_singleton.mp hid] at hreplayed
          rcases hs.accounted e he job.id hreplayed with hunmarked | ⟨found, hfound, hreplayed⟩
          · exact hmarked hunmarked
          · rw [hpending found hfound] at hreplayed
            cases hreplayed
        · intro e he jobId hreplayed
          rcases List.mem_append.mp he with he | he
          · exact hnext.accounted e he jobId hreplayed
          · rw [List.mem_singleton.mp he] at hreplayed
            cases hreplayed
            exact .inl ⟨request, job, Function.update_self _ _ _, rfl⟩
  · cases hstep

theorem Kept.commit {request now : ℕ} {commit : CallOutcome} (hs : Kept s)
    (hok : Orderly settings s (.commit request commit now))
    (hstep : next settings createdAt s (.commit request commit now) = some s') : Kept s' := by
  simp only [DeadLetterRequests.next] at hstep
  split at hstep
  · rename_i job putBack hpublished
    cases hstep
    obtain ⟨row, hrow⟩ := hs.stored request job (.inr ⟨putBack, hpublished⟩)
    have hfound : ∀ jobId found, s.jobs.find? jobId = some found → ∃ row',
        (if commit.takesEffect then s.jobs.modify job.id (FailedJob.markReplayed now) (FailedJob.markReplayed_id now)
          else s.jobs).find? jobId = some row' ∧ (found.status = .replayed → row'.status = .replayed) := by
      intro jobId found hfound
      split
      · by_cases hid : jobId = job.id
        · subst hid
          exact ⟨_, Table.find?_modify_self _ hfound, fun _ => rfl⟩
        · exact ⟨found, (Table.find?_modify_of_ne _ hid).trans hfound, id⟩
      · exact ⟨found, hfound, id⟩
    refine ⟨hs.once, ?_, ?_⟩
    · intro e he jobId hreplayed
      rcases hs.accounted e he jobId hreplayed with ⟨other, job', hother, rfl⟩ | ⟨found, hfind, hstatus⟩
      · by_cases hsame : other = request
        · -- the window of this request closes with its mark
          subst hsame
          rw [hpublished] at hother
          cases hother
          have heffect := hok job hpublished
          refine .inr ⟨row.markReplayed now, ?_, rfl⟩
          simp only [heffect, if_true]
          exact Table.find?_modify_self _ hrow
        · refine .inl ⟨other, job', ?_, rfl⟩
          simpa [Function.update_of_ne hsame] using hother
      · obtain ⟨row', hrow', hmarked⟩ := hfound jobId found hfind
        exact .inr ⟨row', hrow', hmarked hstatus⟩
    · intro other job' hother
      by_cases hsame : other = request
      · subst hsame
        simp at hother
      · simp only [Function.update_of_ne hsame] at hother
        obtain ⟨found, hfind⟩ := hs.stored other job' hother
        obtain ⟨row', hrow', -⟩ := hfound job'.id found hfind
        exact ⟨row', hrow'⟩
  · cases hstep

theorem Kept.list {queueName : Option String} (hs : Kept s) (hok : Orderly settings s (.list queueName))
    (hstep : next settings createdAt s (.list queueName) = some s') : Kept s' := by
  cases hstep
  refine ⟨hs.once.snoc ?_, ?_, hs.stored⟩
  · intro e he jobId hreplayed hlisted
    obtain ⟨row, hrow, rfl⟩ := List.mem_map.mp hlisted
    obtain ⟨hmem, hpending, hselected⟩ := of_mem_listDlqJobs hrow
    rcases hs.accounted e he row.id hreplayed with hunmarked | ⟨found, hfound, hmarked⟩
    · exact hok row hmem hpending hselected hunmarked
    · obtain ⟨hfound, hid⟩ := Table.find?_eq_some_iff.mp hfound
      rw [Table.eq_of_key_eq hfound hmem hid, hpending] at hmarked
      cases hmarked
  · intro e he jobId hreplayed
    rcases List.mem_append.mp he with he | he
    · exact hs.accounted e he jobId hreplayed
    · rw [List.mem_singleton.mp he] at hreplayed
      cases hreplayed

theorem Kept.next (hs : Kept s) (hok : Orderly settings s label) (hstep : next settings createdAt s label = some s') :
    Kept s' := by
  cases label with
  | read request jobId => exact hs.read hstep
  | publish request send => exact hs.publish hok hstep
  | commit request commit now => exact hs.commit hok hstep
  | list queueName => exact hs.list hok hstep

end Kept

end DeadLetterRequests

open DeadLetterRequests

theorem replayed_at_most_once (settings : Settings) (createdAt : FailedJob → ℕ) {s₀ s : Desk}
    {labels : List DeadLetterRequests.Label} (hclean : Clean s₀)
    (hrun : GuardedRun (Enabled (next settings createdAt)) (Orderly settings) s₀ labels s) :
    (s.events.filterMap Event.replayed).Nodup ∧
      ∀ before jobIds after, s.events = before ++ .listed jobIds :: after →
        ∀ jobId ∈ jobIds, jobId ∉ before.filterMap Event.replayed := by
  have hkept : Kept s := hrun.invariant Kept (fun _ _ _ hs hok hstep => hs.next hok hstep) hclean.kept
  refine ⟨hkept.once.nodup_replayed, ?_⟩
  intro before jobIds after hevents jobId hlisted hreplayed
  obtain ⟨e, he, hjob⟩ := List.mem_filterMap.mp hreplayed
  have honce := hkept.once
  rw [hevents, ReplayedOnce, List.pairwise_append] at honce
  exact honce.2.2 e he _ List.mem_cons_self jobId hjob hlisted

namespace DeadLetterRequests

def routingSettings : Settings where
  sqsRoutingJobsQueueUrl := some "https://sqs/routing_jobs"

def plainCreatedAt (_ : FailedJob) : ℕ := 0

def oneFailure : Desk where
  jobs := Table.empty.insert
    ⟨"job-1", "routing_jobs", "lead.created", [("event", .str "lead.created")], "timeout", 3, .pending, none, none⟩

def replayOnce (request : ℕ) (commit : CallOutcome) : List Label :=
  [.read request "job-1", .publish request .returns, .commit request commit 1]

theorem oneFailure_run : ∃ s, GuardedRun (Enabled (next routingSettings plainCreatedAt)) (Orderly routingSettings)
    oneFailure (replayOnce 0 .returns ++ [.list none]) s ∧ s.events =
      [.putBack "job-1" ⟨"https://sqs/routing_jobs", "\x7b\"event\": \"lead.created\"\x7d"⟩, .listed []] := by
  refine ⟨_, .cons trivial rfl (.cons ?_ rfl (.cons (fun _ _ => rfl) rfl (.cons ?_ rfl (.nil _)))), by decide +kernel⟩
  · intro job hread _ _
    cases hread
    refine ⟨rfl, ?_, ?_⟩
    · rintro ⟨request, job, hpublished, -⟩
      by_cases hrequest : request = 0
      · subst hrequest
        cases hpublished
      · simp [Function.update_of_ne hrequest, oneFailure] at hpublished
    · rintro row ⟨⟩
      rfl
  · intro row hrow hpending
    rw [List.mem_singleton.mp hrow] at hpending
    cases hpending

end DeadLetterRequests

theorem replayed_at_most_once_listed :
    ∃ s : Desk, s.events =
        [.putBack "job-1" ⟨"https://sqs/routing_jobs", "\x7b\"event\": \"lead.created\"\x7d"⟩, .listed []] ∧
      (s.events.filterMap Event.replayed).Nodup := by
  obtain ⟨s, hrun, hevents⟩ := oneFailure_run
  exact ⟨s, hevents, (replayed_at_most_once routingSettings plainCreatedAt ⟨fun _ => rfl, rfl⟩ hrun).1⟩

theorem replay_repeated :
    Clean oneFailure ∧
      (∃ s : Desk, runSteps (next routingSettings plainCreatedAt) oneFailure (replayOnce 0 .returns ++ replayOnce 1 .returns) =
        some s ∧ s.events.filterMap Event.replayed = ["job-1", "job-1"]) ∧
      ∃ s : Desk, runSteps (next routingSettings plainCreatedAt) oneFailure
          (replayOnce 0 .raisesWithoutEffect ++ [.list none]) = some s ∧
        s.events = [.putBack "job-1" ⟨"https://sqs/routing_jobs", "\x7b\"event\": \"lead.created\"\x7d"⟩, .listed ["job-1"]] :=
  ⟨⟨fun _ => rfl, rfl⟩, ⟨_, rfl, by decide +kernel⟩, ⟨_, rfl, by decide +kernel⟩⟩

end Leadline
