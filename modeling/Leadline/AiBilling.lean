import Leadline.AiUsage

namespace Leadline

open Library

namespace AiBilling

open AiUsage

structure Ledger where
  world : World
  received : Id → ℕ := fun _ => 0
  analysed : Finset (Id × Id) := ∅

def Ledger.recorded (d : Deployment) (s : Ledger) (job : QueueJob) (inputs : JobInputs) (w' : World) : Ledger :=
  match readAnalysisJob s.world.db job.payload with
  | none => { s with world := w' }
  | some found =>
    let handled := JobEvent.handle d s.world.db s.world.cache job.payload inputs .messageCreated
    let tokens := receivedTokens d.settings s.world.cache inputs.analysis found
    { world := w'
      received := Function.update s.received found.tenantId (s.received found.tenantId + tokens)
      analysed :=
        if (handled.1.written d.settings inputs.calls).isEmpty then s.analysed
        else insert (found.tenantId, found.message.id) s.analysed }

def Ledger.after (d : Deployment) (s : Ledger) (w' : World) : Label → Ledger
  | .job job .messageCreated inputs => s.recorded d job inputs w'
  | _ => { s with world := w' }

inductive BilledStep (d : Deployment) (s : Ledger) (label : Label) : Ledger → Prop
  | mk {w' : World} (hstep : Step d s.world label w') : BilledStep d s label (s.after d w' label)

def Balanced (s : Ledger) : Prop :=
  ∀ tenantId, (tenantUsage s.world.db tenantId).aiTokensUsed = s.received tenantId ∧
    (tenantUsage s.world.db tenantId).messagesSent = (s.analysed.filter fun p => p.1 = tenantId).card

def CountsOnce (settings : Settings) (s : Ledger) (inputs : JobInputs) (found : AnalysisJob) : Prop :=
  if inputs.calls.commit.takesEffect then
    (found.tenantId, found.message.id) ∉ s.analysed ∧
      match entryOf settings s.world.cache inputs.analysis found with
      | some raw => entryTokens raw = 0
      | none =>
        inputs.analysis.model.Usable ∨ receivedTokens settings s.world.cache inputs.analysis found = 0
  else receivedTokens settings s.world.cache inputs.analysis found = 0

def Admitted (d : Deployment) (s : Ledger) : Label → Prop
  | .job job .messageCreated inputs =>
    ∀ found ∈ readAnalysisJob s.world.db job.payload, CountsOnce d.settings s inputs found
  | _ => True

variable {d : Deployment} {s s' : Ledger} {label : Label}

theorem balanced_after {w' : World} {received : Id → ℕ} {analysed : Finset (Id × Id)} (tenantId : Id) (added : Usage)
    (h : Balanced s) (husage : ∀ other, tenantUsage w'.db other =
      tenantUsage s.world.db other + if other = tenantId then added else 0)
    (hreceived : ∀ other, other ≠ tenantId → received other = s.received other)
    (hanalysed : ∀ other, other ≠ tenantId →
      (analysed.filter fun p => p.1 = other) = s.analysed.filter fun p => p.1 = other) :
    Balanced ⟨w', received, analysed⟩ ↔
      s.received tenantId + added.aiTokensUsed = received tenantId ∧
        (s.analysed.filter fun p => p.1 = tenantId).card + added.messagesSent =
          (analysed.filter fun p => p.1 = tenantId).card := by
  have hself : tenantUsage w'.db tenantId = tenantUsage s.world.db tenantId + added := by
    rw [husage, if_pos rfl]
  obtain ⟨htokens, hmessages⟩ := h tenantId
  have hone : (tenantUsage w'.db tenantId).aiTokensUsed = s.received tenantId + added.aiTokensUsed ∧
      (tenantUsage w'.db tenantId).messagesSent =
        (s.analysed.filter fun p => p.1 = tenantId).card + added.messagesSent := by
    rw [hself, ← htokens, ← hmessages]
    exact ⟨rfl, rfl⟩
  constructor
  · intro hb
    obtain ⟨h₁, h₂⟩ := hb tenantId
    exact ⟨hone.1.symm.trans h₁, hone.2.symm.trans h₂⟩
  · rintro ⟨h₁, h₂⟩ other
    by_cases hother : other = tenantId
    · subst hother
      exact ⟨hone.1.trans h₁, hone.2.trans h₂⟩
    · have hsame : tenantUsage w'.db other = tenantUsage s.world.db other := by
        rw [husage, if_neg hother, add_zero]
      dsimp only
      rw [hsame, hreceived other hother, hanalysed other hother]
      exact h other

theorem balanced_same {w' : World} (h : Balanced s)
    (hsame : ∀ tenantId, SameCounters (tenantUsage w'.db tenantId) (tenantUsage s.world.db tenantId)) :
    Balanced { s with world := w' } := by
  intro tenantId
  obtain ⟨htokens, hmessages⟩ := hsame tenantId
  obtain ⟨h₁, h₂⟩ := h tenantId
  exact ⟨htokens.trans h₁, hmessages.trans h₂⟩

theorem request_balanced {tenantId : Id} {request : Request} {inputs : Inputs} (h : Balanced s) :
    Balanced { s with world := s.world.afterRequest d tenantId request inputs } := by
  apply balanced_same h
  intro other
  rw [World.afterRequest, Work.run_db]
  exact usage_quiet_all (Work.each_written (request_quiet d.py.lower s.world.db tenantId inputs request))

theorem quiet_job_balanced {job : QueueJob} {event : JobEvent} {inputs : JobInputs} (h : Balanced s)
    (hne : event ≠ .messageCreated) : Balanced { s with world := s.world.afterJob d job event inputs } := by
  apply balanced_same h
  intro other
  rw [World.afterJob, Work.run_db]
  exact usage_quiet_all (Work.each_written (job_quiet d s.world.db s.world.cache job.payload inputs hne))

theorem filter_insert_of_ne {tenantId other messageId : Id} {analysed : Finset (Id × Id)} (hne : other ≠ tenantId) :
    ((insert (tenantId, messageId) analysed).filter fun p => p.1 = other) = analysed.filter fun p => p.1 = other := by
  rw [Finset.filter_insert, if_neg]
  exact fun h => hne h.symm

theorem card_insert_iff {tenantId messageId : Id} {analysed : Finset (Id × Id)} :
    (analysed.filter fun p => p.1 = tenantId).card + 1 =
        ((insert (tenantId, messageId) analysed).filter fun p => p.1 = tenantId).card ↔
      (tenantId, messageId) ∉ analysed := by
  rw [Finset.filter_insert, if_pos rfl]
  by_cases hmem : (tenantId, messageId) ∈ analysed
  · have hfiltered : (tenantId, messageId) ∈ analysed.filter fun p => p.1 = tenantId :=
      Finset.mem_filter.mpr ⟨hmem, rfl⟩
    rw [Finset.insert_eq_self.mpr hfiltered]
    simp [hmem]
  · have hfiltered : (tenantId, messageId) ∉ analysed.filter fun p => p.1 = tenantId := by
      intro h
      exact hmem (Finset.mem_filter.mp h).1
    rw [Finset.card_insert_of_notMem hfiltered]
    simp [hmem]

theorem message_balanced {job : QueueJob} {inputs : JobInputs} {found : AnalysisJob} (h : Balanced s)
    (hcache : CacheMetered s.world.cache) (hread : readAnalysisJob s.world.db job.payload = some found) :
    CacheMetered (s.world.afterJob d job .messageCreated inputs).cache ∧
      (Balanced (s.recorded d job inputs (s.world.afterJob d job .messageCreated inputs)) ↔
        CountsOnce d.settings s inputs found) := by
  obtain ⟨raw, understanding, hunderstanding, hmetered, husage, hentry⟩ :=
    analysis_counts d.py d.settings inputs.analysis found hcache
  let commit := MessageEvents.storeAnalysis s.world.db found.tenantId found.sessionId found.message understanding
    inputs.today (inputs.newId 0)
  have hhandle : JobEvent.handle d s.world.db s.world.cache job.payload inputs .messageCreated =
      (.commits commit, (AIOrchestrator.analyzeMessage d.py d.settings s.world.cache inputs.analysis found.tenantId
        found.message.id found.message.content).cache) := by
    simp only [JobEvent.handle, processMessageCreatedEvent, hread, hunderstanding]
    rfl
  have hdb : (s.world.afterJob d job .messageCreated inputs).db =
      s.world.db.writeAll ((Work.commits commit).written d.settings inputs.calls) := by
    rw [World.afterJob, hhandle, Work.run_db]
  constructor
  · rw [World.afterJob, hhandle]
    exact hmetered
  · unfold Ledger.recorded CountsOnce
    rw [hread]
    simp only [hhandle]
    by_cases heffect : inputs.calls.commit.takesEffect
    · have hwritten : (Work.commits commit).written d.settings inputs.calls = commit.writes :=
        Work.written_of_committed rfl heffect
      rw [hwritten] at hdb
      have hnonempty : commit.writes.isEmpty = false := rfl
      rw [hwritten, hnonempty, if_pos heffect]
      simp only [Bool.false_eq_true, if_false]
      rw [balanced_after found.tenantId (MessageEvents.analysisUsage understanding) h]
      · have htokens : entryTokens raw = receivedTokens d.settings s.world.cache inputs.analysis found ↔
            match entryOf d.settings s.world.cache inputs.analysis found with
            | some raw => entryTokens raw = 0
            | none => inputs.analysis.model.Usable ∨
                receivedTokens d.settings s.world.cache inputs.analysis found = 0 := by
          rcases hentry with hsome | ⟨hnone, hiff⟩
          · simp only [receivedTokens, hsome]
          · simp only [hnone]
            exact hiff
        rw [Function.update_self, husage, card_insert_iff, Nat.add_left_cancel_iff, htokens, and_comm]
      · intro other
        rw [hdb]
        exact usage_storeAnalysis
      · exact fun other hne => Function.update_of_ne hne _ _
      · exact fun other hne => filter_insert_of_ne hne
    · have hlost : inputs.calls.commit.takesEffect = false := by simpa using heffect
      rw [Work.written_of_lost hlost] at hdb ⊢
      rw [if_neg heffect]
      simp only [List.isEmpty_nil, if_true]
      rw [balanced_after found.tenantId 0 h]
      · have hzero : s.received found.tenantId + (0 : Usage).aiTokensUsed = s.received found.tenantId := rfl
        have hcard : (s.analysed.filter fun p => p.1 = found.tenantId).card + (0 : Usage).messagesSent =
            (s.analysed.filter fun p => p.1 = found.tenantId).card := rfl
        rw [Function.update_self, hzero, hcard]
        omega
      · intro other
        rw [hdb, Db.writeAll_nil, ite_self, add_zero]
      · exact fun other hne => Function.update_of_ne hne _ _
      · exact fun _ _ => rfl

theorem after_world (w' : World) (label : Label) : (s.after d w' label).world = w' := by
  cases label with
  | request => rfl
  | job job event inputs =>
    cases event with
    | messageCreated =>
      simp only [Ledger.after, Ledger.recorded]
      split
      · rfl
      · rfl
    | _ => rfl

theorem other_event (d : Deployment) (s : Ledger) (job : QueueJob) (inputs : JobInputs) (w' : World)
    {event : JobEvent} (hne : event ≠ .messageCreated) :
    s.after d w' (.job job event inputs) = { s with world := w' } ∧ Admitted d s (.job job event inputs) ∧
      (event.handle d s.world.db s.world.cache job.payload inputs).2 = s.world.cache := by
  cases event with
  | messageCreated => exact absurd rfl hne
  | _ => exact ⟨rfl, trivial, rfl⟩

theorem countsOnce_of_response {settings : Settings} {inputs : JobInputs} {found : AnalysisJob}
    (heffect : inputs.calls.commit.takesEffect = true) (hnew : (found.tenantId, found.message.id) ∉ s.analysed)
    (hentry : entryOf settings s.world.cache inputs.analysis found = none) (husable : inputs.analysis.model.Usable) :
    CountsOnce settings s inputs found := by
  unfold CountsOnce
  rw [if_pos heffect, hentry]
  exact ⟨hnew, .inl husable⟩

theorem step_balanced (h : Balanced s) (hcache : CacheMetered s.world.cache) (hstep : BilledStep d s label s') :
    CacheMetered s'.world.cache ∧ (Balanced s' ↔ Admitted d s label) := by
  obtain ⟨hstep⟩ := hstep
  cases hstep with
  | request tenantId request inputs hids => exact ⟨hcache, iff_of_true (request_balanced h) trivial⟩
  | job job event inputs hjob hevent hids =>
    by_cases hmessage : event = .messageCreated
    · subst hmessage
      cases hread : readAnalysisJob s.world.db job.payload with
      | none =>
        have hhandle : JobEvent.handle d s.world.db s.world.cache job.payload inputs .messageCreated =
            (.answered (), s.world.cache) := by
          simp only [JobEvent.handle, processMessageCreatedEvent, hread]
        have hafter : s.after d (s.world.afterJob d job .messageCreated inputs) (.job job .messageCreated inputs) =
            { s with world := s.world.afterJob d job .messageCreated inputs } := by
          simp only [Ledger.after, Ledger.recorded, hread]
        rw [hafter]
        constructor
        · rw [World.afterJob, hhandle]
          exact hcache
        · apply iff_of_true
          · apply balanced_same h
            intro tenantId
            rw [World.afterJob, hhandle]
            exact ⟨rfl, rfl⟩
          · intro found hfound
            rw [hread] at hfound
            cases hfound
      | some found =>
        obtain ⟨hmetered, hiff⟩ : _ ∧ (_ ↔ CountsOnce d.settings s inputs found) :=
          message_balanced h hcache hread
        constructor
        · rw [after_world]
          exact hmetered
        · refine hiff.trans ⟨fun hok other hother => ?_, fun hok => hok found hread⟩
          rw [hread] at hother
          rwa [← Option.some.inj hother]
    · obtain ⟨hafter, hok, hkept⟩ := other_event d s job inputs (s.world.afterJob d job event inputs) hmessage
      rw [hafter]
      constructor
      · rw [World.afterJob, hkept]
        exact hcache
      · exact iff_of_true (quiet_job_balanced h hmessage) hok

end AiBilling

open AiBilling

theorem ai_usage_billed_once (d : Deployment) (s₀ s : Ledger) (labels : List Label) (h₀ : Balanced s₀)
    (hcache : AiUsage.CacheMetered s₀.world.cache)
    (hrun : GuardedRun (BilledStep d) (AiBilling.Admitted d) s₀ labels s) :
    Balanced s ∧ ∀ label s', BilledStep d s label s' → (Balanced s' ↔ AiBilling.Admitted d s label) := by
  have h : Balanced s ∧ AiUsage.CacheMetered s.world.cache := by
    apply hrun.invariant fun s => Balanced s ∧ AiUsage.CacheMetered s.world.cache
    · rintro s label s' ⟨h, hcache⟩ hok hstep
      obtain ⟨hcache', hiff⟩ := step_balanced h hcache hstep
      exact ⟨hiff.mpr hok, hcache'⟩
    · exact ⟨h₀, hcache⟩
  exact ⟨h.1, fun label s' hstep => (step_balanced h.1 h.2 hstep).2⟩

namespace AiBilling

theorem balanced_empty : Balanced ⟨{ db := {} }, fun _ => 0, ∅⟩ := fun _ => ⟨rfl, rfl⟩

theorem metered_empty : AiUsage.CacheMetered fun _ => none := by
  intro _ _ h
  cases h

def modelDeployment : Deployment :=
  { plainDeployment with settings := { plainDeployment.settings with openaiApiKey := some "key" } }

def openSession : Label :=
  .request "tenant-1" (.createSession { visitorId := "visitor-1" }) { newId := fun _ => "session-1", today := 1 }

def sendMessage : Label :=
  .request "tenant-1" (.createMessage "session-1" { senderType := "visitor", content := "hello" })
    { newId := fun _ => "message-1", today := 1 }

def analyseMessage : Label :=
  .job (messageCreatedJob "tenant-1" "session-1" "message-1") .messageCreated
    { newId := fun _ => "event-1", today := 1, analysis := { model := .responds [none] (some 12) } }

def start : Ledger := ⟨{ db := {} }, fun _ => 0, ∅⟩

def Ledger.next (s : Ledger) (label : Label) : Ledger :=
  s.after modelDeployment
    (match label with
      | .request tenantId request inputs => s.world.afterRequest modelDeployment tenantId request inputs
      | .job job event inputs => s.world.afterJob modelDeployment job event inputs) label

def asked : Ledger := (start.next openSession).next sendMessage

theorem step_of_asked : BilledStep modelDeployment asked analyseMessage (asked.next analyseMessage) := by
  have hjobs : asked.world.jobs = [messageCreatedJob "tenant-1" "session-1" "message-1"] := rfl
  apply BilledStep.mk
  apply Step.job
  · rw [hjobs]
    exact List.mem_singleton_self _
  · rfl
  · decide +kernel

theorem step_of_analysed :
    BilledStep modelDeployment (asked.next analyseMessage) analyseMessage
      ((asked.next analyseMessage).next analyseMessage) := by
  have hjobs : (asked.next analyseMessage).world.jobs =
      [messageCreatedJob "tenant-1" "session-1" "message-1"] := rfl
  apply BilledStep.mk
  apply Step.job
  · rw [hjobs]
    exact List.mem_singleton_self _
  · rfl
  · decide +kernel

theorem admitted_asked : AiBilling.Admitted modelDeployment asked analyseMessage := by
  intro found _
  have hcache : asked.world.cache = fun _ => none := rfl
  have hentry : ∀ calls, AiUsage.entryOf modelDeployment.settings asked.world.cache calls found = none := by
    intro calls
    rw [hcache, AiUsage.entryOf, AIOrchestrator.cached]
    split
    · rfl
    · rfl
  exact countsOnce_of_response rfl (Finset.notMem_empty _) (hentry _) trivial

end AiBilling

theorem ai_usage_billed_once_analysed :
    ∃ s : Ledger, Balanced s ∧ s.received "tenant-1" = 12 ∧ s.analysed = {("tenant-1", "message-1")} := by
  have hrun : GuardedRun (BilledStep modelDeployment) (AiBilling.Admitted modelDeployment) start
      [openSession, sendMessage, analyseMessage] (asked.next analyseMessage) :=
    .cons trivial (.mk (.request _ _ _ (by decide +kernel)))
      (.cons trivial (.mk (.request _ _ _ (by decide +kernel)))
        (.cons admitted_asked step_of_asked (.nil _)))
  exact ⟨_, (ai_usage_billed_once modelDeployment _ _ _ balanced_empty metered_empty hrun).1, by decide +kernel,
    by decide +kernel⟩

theorem cached_analysis_billed_twice :
    ∃ s : Ledger,
      Run (BilledStep modelDeployment) start [openSession, sendMessage, analyseMessage, analyseMessage] s ∧
        s.received "tenant-1" = 12 ∧ s.analysed.card = 1 ∧
        (tenantUsage s.world.db "tenant-1").aiTokensUsed = 24 ∧
        (tenantUsage s.world.db "tenant-1").messagesSent = 2 :=
  ⟨_, .cons trivial (.mk (.request _ _ _ (by decide +kernel)))
      (.cons trivial (.mk (.request _ _ _ (by decide +kernel)))
        (.cons trivial step_of_asked (.cons trivial step_of_analysed (.nil _)))),
    by decide +kernel, by decide +kernel, by decide +kernel, by decide +kernel⟩

end Leadline
