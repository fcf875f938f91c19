import Leadline.LeadUniqueness

namespace Leadline

open Library

def LifecycleConfigured (settings : Settings) : Prop :=
  ∀ q ∈ [LogicalQueue.routingJobs, .integrationJobs, .sequenceJobs], (configured (q.url settings)).isSome

instance (settings : Settings) : Decidable (LifecycleConfigured settings) :=
  inferInstanceAs (Decidable (∀ q ∈ _, _))

def Enqueued (settings : Settings) (job : QueueJob) (sent : List SentMessage) : Prop :=
  ∃ m ∈ sent, SQSPublisher.message settings job = some m

instance (settings : Settings) (job : QueueJob) (sent : List SentMessage) :
    Decidable (Enqueued settings job sent) :=
  inferInstanceAs (Decidable (∃ m ∈ _, _))

theorem Enqueued.append_right {settings : Settings} {job : QueueJob} {sent more : List SentMessage}
    (h : Enqueued settings job more) : Enqueued settings job (sent ++ more) := by
  obtain ⟨m, hm, hjob⟩ := h
  exact ⟨m, List.mem_append_right sent hm, hjob⟩

theorem message_lifecycleJobs {settings : Settings} (h : LifecycleConfigured settings) {tenantId leadId : Id}
    {event : String} : ∀ job ∈ lifecycleJobs tenantId leadId event,
      (SQSPublisher.message settings job).isSome := by
  have hnamed : ∀ q ∈ [LogicalQueue.routingJobs, .integrationJobs, .sequenceJobs], ∀ payload,
      (SQSPublisher.message settings ⟨q.name, payload⟩).isSome := by
    intro q hq payload
    rw [SQSPublisher.message_of_name, Option.isSome_map]
    exact h q hq
  intro job hjob
  simp only [lifecycleJobs, List.mem_cons, List.not_mem_nil, or_false] at hjob
  rcases hjob with rfl | rfl | rfl
  · exact hnamed .routingJobs (by simp) _
  · exact hnamed .integrationJobs (by simp) _
  · exact hnamed .sequenceJobs (by simp) _

namespace LeadLifecycle

structure Client where
  db : Db
  sent : List SentMessage := []
  success : Option LeadCreateOutcome := none

section

variable (lower : String → String) (settings : Settings) (tenantId : Id) (payload : LeadCreate)

def attempt (c : Client) (calls : CreateCalls) : Option Client :=
  match c.success with
  | some _ => none
  | none =>
    if c.db.leads.Fresh calls.id ∧ c.db.timeline.Fresh calls.eventId then
      let handled := LeadService.createLead lower settings c.db tenantId payload calls
      some ⟨handled.db, c.sent ++ handled.sent, handled.answer.value⟩
    else none

end

def announced (settings : Settings) (tenantId leadId : Id) (calls : CreateCalls) : List SentMessage :=
  if calls.commit.raises then []
  else ((lifecycleJobs tenantId leadId "lead.created").take
    (SQSPublisher.reached calls.lifecycle.toList)).filterMap (SQSPublisher.message settings)

variable {lower : String → String} {settings : Settings} {tenantId : Id} {payload : LeadCreate}

theorem commitAndPublish_eq (h : LifecycleConfigured settings) {db db' : Db} {leadId : Id}
    {calls : CreateCalls} {value : LeadCreateOutcome} :
    LeadService.commitAndPublish settings db db' tenantId leadId "lead.created" calls.toWriteCalls value =
      ⟨if calls.commit.raises = false ∧ calls.lifecycle.toList.all (· = .returns)
        then .returned value else .raised,
        if calls.commit.takesEffect then db' else db, announced settings tenantId leadId calls⟩ := by
  unfold LeadService.commitAndPublish announced
  cases hcommit : calls.commit.raises with
  | true => simp
  | false =>
    have hpublish := SQSPublisher.publishAll_eq (message_lifecycleJobs h)
      (show (lifecycleJobs tenantId leadId "lead.created").length = calls.lifecycle.toList.length from rfl)
    simp only [publishLifecycle, hpublish, Bool.false_eq_true, if_false, true_and]
    cases calls.lifecycle.toList.all (· = .returns) with
    | true => rfl
    | false => rfl

theorem announced_all (h : LifecycleConfigured settings) {leadId : Id} {calls : CreateCalls}
    (hcommit : calls.commit.raises = false) (hall : calls.lifecycle.toList.all (· = .returns)) :
    ∀ job ∈ lifecycleJobs tenantId leadId "lead.created",
      Enqueued settings job (announced settings tenantId leadId calls) := by
  have hreached : SQSPublisher.reached calls.lifecycle.toList = 3 := by
    simp only [LifecycleCalls.toList, List.all_cons, Bool.and_eq_true, decide_eq_true_eq] at hall ⊢
    obtain ⟨hr, hi, hs, -⟩ := hall
    rw [hr, hi, hs]
    rfl
  intro job hjob
  obtain ⟨m, hm⟩ := Option.isSome_iff_exists.mp (message_lifecycleJobs h job hjob)
  refine ⟨m, ?_, hm⟩
  rw [announced, hcommit, hreached]
  exact List.mem_filterMap.mpr ⟨job, hjob, hm⟩

def Accounted (settings : Settings) (tenantId : Id) (db₀ : Db) (attempts : List CreateCalls)
    (sent : List SentMessage) (l : Lead) : Prop :=
  l ∈ db₀.leads ∨ ∃ calls ∈ attempts, l.id = calls.id ∧ sent = announced settings tenantId l.id calls

structure Waiting (lower : String → String) (settings : Settings) (tenantId : Id) (payload : LeadCreate)
    (db₀ : Db) (attempts : List CreateCalls) (c : Client) : Prop where
  duplicates : ∀ l ∈ c.db.leads,
    l.Duplicates tenantId (payload.normalized lower).email (payload.normalized lower).phone →
      Accounted settings tenantId db₀ attempts c.sent l
  quiet : (∀ l ∈ c.db.leads,
      ¬l.Duplicates tenantId (payload.normalized lower).email (payload.normalized lower).phone) →
    ∀ id, (LeadRepository.create id tenantId (payload.normalized lower)).Duplicates tenantId
      (payload.normalized lower).email (payload.normalized lower).phone → c.sent = []

def Told (settings : Settings) (tenantId : Id) (db₀ : Db) (attempts : List CreateCalls)
    (sent : List SentMessage) (outcome : LeadCreateOutcome) : Prop :=
  (outcome.deduplicated = false →
      ∀ job ∈ lifecycleJobs tenantId outcome.lead.id "lead.created", Enqueued settings job sent) ∧
    (outcome.deduplicated = true → Accounted settings tenantId db₀ attempts sent outcome.lead)

def Invariant (lower : String → String) (settings : Settings) (tenantId : Id) (payload : LeadCreate)
    (db₀ : Db) (attempts : List CreateCalls) (c : Client) : Prop :=
  match c.success with
  | none => Waiting lower settings tenantId payload db₀ attempts c
  | some outcome => Told settings tenantId db₀ attempts c.sent outcome

variable {db₀ : Db} {attempts : List CreateCalls}

theorem Accounted.snoc {sent : List SentMessage} {l : Lead} (calls : CreateCalls)
    (h : Accounted settings tenantId db₀ attempts sent l) :
    Accounted settings tenantId db₀ (attempts ++ [calls]) sent l := by
  rcases h with h | ⟨before, hmem, hid, hsent⟩
  · exact .inl h
  · exact .inr ⟨before, List.mem_append_left _ hmem, hid, hsent⟩

theorem Waiting.snoc {c : Client} (calls : CreateCalls)
    (h : Waiting lower settings tenantId payload db₀ attempts c) :
    Waiting lower settings tenantId payload db₀ (attempts ++ [calls]) c :=
  ⟨fun l hl hdup => (h.duplicates l hl hdup).snoc calls, h.quiet⟩

theorem Waiting.create {c : Client} {calls : CreateCalls} {new : NewLead}
    (h : Waiting lower settings tenantId payload db₀ attempts c) (hid : c.db.leads.Fresh new.lead.id)
    (hnew : new.lead = LeadRepository.create calls.id tenantId (payload.normalized lower))
    (hfree : ∀ l ∈ c.db.leads,
      ¬l.Duplicates tenantId (payload.normalized lower).email (payload.normalized lower).phone) :
    Waiting lower settings tenantId payload db₀ (attempts ++ [calls])
      ⟨if calls.commit.takesEffect then new.commit c.db else c.db,
        c.sent ++ announced settings tenantId new.lead.id calls, none⟩ := by
  by_cases heffect : calls.commit.takesEffect
  · rw [if_pos heffect]
    constructor
    · intro l hl hdup
      rcases (Table.mem_insert hid).mp hl with hl | rfl
      · exact absurd hdup (hfree l hl)
      · rw [hnew] at hdup
        have hsent := h.quiet hfree calls.id hdup
        have hlead : new.lead.id = calls.id := by
          rw [hnew]
          rfl
        refine .inr ⟨calls, List.mem_append_right _ (List.mem_singleton_self _), hlead, ?_⟩
        dsimp only
        rw [hsent, List.nil_append]
    · intro hnone id hdup
      have hself : new.lead ∈ (new.commit c.db).leads := (Table.mem_insert hid).mpr (.inr rfl)
      have hno := hnone new.lead hself
      rw [hnew] at hno
      exact absurd hdup hno
  · rw [if_neg heffect]
    have hraises : calls.commit.raises = true := by
      cases hc : calls.commit with
      | returns =>
        rw [hc] at heffect
        exact absurd rfl heffect
      | raisesAfterEffect => rfl
      | raisesWithoutEffect => rfl
    rw [announced, if_pos hraises, List.append_nil]
    exact ⟨fun l hl hdup => absurd hdup (hfree l hl), h.quiet⟩

theorem invariant_step (hurls : LifecycleConfigured settings) {c c' : Client} {calls : CreateCalls}
    (h : Invariant lower settings tenantId payload db₀ attempts c)
    (hstep : attempt lower settings tenantId payload c calls = some c') :
    Invariant lower settings tenantId payload db₀ (attempts ++ [calls]) c' := by
  obtain ⟨db, sent, success⟩ := c
  cases success with
  | some outcome => cases hstep
  | none =>
    have hwaiting : Waiting lower settings tenantId payload db₀ attempts ⟨db, sent, none⟩ := h
    simp only [attempt] at hstep
    split at hstep
    case isFalse => cases hstep
    case isTrue hfresh =>
      rcases LeadService.createLead_cases lower settings db tenantId payload calls with
        ⟨e, hc⟩ | ⟨l, hl, hdup, hc⟩ | ⟨hfree, new, hnew, hc⟩
      · rw [hc, List.append_nil] at hstep
        cases hstep
        exact hwaiting.snoc calls
      · rw [hc, List.append_nil] at hstep
        cases hstep
        exact ⟨Bool.noConfusion, fun _ => (hwaiting.duplicates l hl hdup).snoc calls⟩
      · have hlead : new.lead = LeadRepository.create calls.id tenantId (payload.normalized lower) := by
          rw [hnew]
          rfl
        have hid : new.lead.id = calls.id := by
          rw [hlead]
          rfl
        rw [hc, commitAndPublish_eq hurls] at hstep
        split at hstep
        case isTrue hok =>
          cases hstep
          refine ⟨fun _ job hjob => ?_, Bool.noConfusion⟩
          exact (announced_all hurls hok.1 hok.2 job hjob).append_right
        case isFalse =>
          cases hstep
          rw [← hid] at hfresh
          exact hwaiting.create hfresh.1 hlead hfree

theorem invariant_of_run {c : Client} (hurls : LifecycleConfigured settings)
    (hrun : Run (Enabled (attempt lower settings tenantId payload)) ⟨db₀, [], none⟩ attempts c) :
    Invariant lower settings tenantId payload db₀ attempts c := by
  apply hrun.trace_invariant (fun attempts c => Invariant lower settings tenantId payload db₀ attempts c)
  · intro attempts c calls c' h _ hstep
    exact invariant_step hurls h hstep
  · exact ⟨fun l hl _ => .inl hl, fun _ _ _ => rfl⟩

end LeadLifecycle

open LeadLifecycle

theorem lifecycle_jobs_of_success (lower : String → String) (settings : Settings) (tenantId : Id)
    (payload : LeadCreate) (db₀ : Db) (attempts : List CreateCalls) (client : Client)
    (outcome : LeadCreateOutcome) (hurls : LifecycleConfigured settings)
    (hrun : Run (Enabled (attempt lower settings tenantId payload)) ⟨db₀, [], none⟩ attempts client)
    (hsuccess : client.success = some outcome) :
    (outcome.deduplicated = false →
        ∀ job ∈ lifecycleJobs tenantId outcome.lead.id "lead.created", Enqueued settings job client.sent) ∧
      (outcome.deduplicated = true → outcome.lead ∈ db₀.leads ∨ ∃ calls ∈ attempts,
        outcome.lead.id = calls.id ∧ client.sent = announced settings tenantId outcome.lead.id calls) := by
  have h := invariant_of_run hurls hrun
  rw [LeadLifecycle.Invariant, hsuccess] at h
  exact h

def lifecycleUrls : Settings where
  sqsRoutingJobsQueueUrl := some "https://sqs/routing"
  sqsIntegrationJobsQueueUrl := some "https://sqs/integration"
  sqsSequenceJobsQueueUrl := some "https://sqs/sequence"

def ada : LeadCreate where
  email := some "ada@example.com"

theorem lifecycle_jobs_of_success_retried :
    ∃ (client : Client) (outcome : LeadCreateOutcome), client.success = some outcome ∧
      ∀ job ∈ lifecycleJobs "tenant-1" outcome.lead.id "lead.created",
        Enqueued lifecycleUrls job client.sent := by
  have hrun : (runSteps (attempt asciiLower lifecycleUrls "tenant-1" ada) ⟨{}, [], none⟩
      [{ createCalls "lead-1" "event-1" with commit := .raisesWithoutEffect },
        createCalls "lead-2" "event-2"]).any
          (fun c => c.success.any (fun o => o.deduplicated = false)) = true := by
    decide +kernel
  obtain ⟨client, hclient, hcreated⟩ := (Option.any_eq_true _ _).mp hrun
  obtain ⟨outcome, hsuccess, hnew⟩ := (Option.any_eq_true _ _).mp hcreated
  have hjobs := lifecycle_jobs_of_success asciiLower lifecycleUrls "tenant-1" ada {} _ client outcome
    (by decide) (run_of_runSteps hclient) hsuccess
  exact ⟨client, outcome, hsuccess, hjobs.1 (of_decide_eq_true hnew)⟩

theorem lifecycle_jobs_lost :
    ∃ (client : Client) (outcome : LeadCreateOutcome),
      runSteps (attempt asciiLower lifecycleUrls "tenant-1" ada)
        ⟨{}, [], none⟩
        [{ createCalls "lead-1" "event-1" with lifecycle := { integration := .raisesWithoutEffect } },
          createCalls "lead-2" "event-2"] = some client ∧
      client.success = some outcome ∧
      ¬Enqueued lifecycleUrls (integrationJob "tenant-1" outcome.lead.id "lead.created") client.sent ∧
      ¬Enqueued lifecycleUrls (triggerJob "tenant-1" outcome.lead.id "lead_created") client.sent := by
  have hrun : (runSteps (attempt asciiLower lifecycleUrls "tenant-1" ada) ⟨{}, [], none⟩
      [{ createCalls "lead-1" "event-1" with lifecycle := { integration := .raisesWithoutEffect } },
        createCalls "lead-2" "event-2"]).any (fun c => c.success.any (fun o =>
          decide (¬Enqueued lifecycleUrls (integrationJob "tenant-1" o.lead.id "lead.created") c.sent ∧
            ¬Enqueued lifecycleUrls (triggerJob "tenant-1" o.lead.id "lead_created") c.sent))) = true := by
    decide +kernel
  obtain ⟨client, hclient, hlost⟩ := (Option.any_eq_true _ _).mp hrun
  obtain ⟨outcome, hsuccess, hlost⟩ := (Option.any_eq_true _ _).mp hlost
  exact ⟨client, outcome, hclient, hsuccess, of_decide_eq_true hlost⟩

end Leadline
