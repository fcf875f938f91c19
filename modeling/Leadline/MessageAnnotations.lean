import Leadline.AiUsage

namespace Leadline

open Library

namespace MessageAnnotations

open AIOrchestrator

section

variable (d : Deployment) (respond : String → String → ModelCall)

def rawAnalysis (content : String) : Dict :=
  match configured d.settings.openaiApiKey with
  | some _ => analyzeWithOpenai d.py content (respond content (selectModel d.settings content))
  | none => fallbackAnalysis d.py content

def understandingOf (content : String) : Option MessageUnderstanding :=
  sanitizeUnderstanding d.py (rawAnalysis d respond content) (selectModel d.settings content)
    d.settings.aiPromptVersion

end

variable {d : Deployment} {respond : String → String → ModelCall} {cache : AICache} {calls : AnalysisCalls}
  {tenantId messageId : Id} {content : String}

theorem rawAnalysis_metered (content : String) : AiUsage.Metered (rawAnalysis d respond content) := by
  unfold rawAnalysis
  split
  · exact (AiUsage.openai_metered d.py content _).1
  · exact .inl (AiUsage.fallback_metered d.py content)

theorem understandingOf_isSome (content : String) : ∃ u, understandingOf d respond content = some u := by
  have hmetered : AiUsage.Metered (rawAnalysis d respond content) := rawAnalysis_metered content
  obtain ⟨u, hu, -⟩ := AiUsage.sanitize_metered hmetered d.py (selectModel d.settings content)
    d.settings.aiPromptVersion
  exact ⟨u, hu⟩

theorem rawAnalysis_ne_nil (content : String) : rawAnalysis d respond content ≠ [] := by
  unfold rawAnalysis
  split
  · unfold analyzeWithOpenai
    split
    · exact List.cons_ne_nil _ _
    · exact List.cons_ne_nil _ _
    · split
      · exact Dict.set_ne_nil _ _ _
      · exact List.cons_ne_nil _ _
  · exact List.cons_ne_nil _ _

theorem analyzeMessage_hit {raw : Dict}
    (h : cached cache calls (cacheKey d.settings tenantId messageId content) = some raw) :
    analyzeMessage d.py d.settings cache calls tenantId messageId content =
      ⟨sanitizeUnderstanding d.py raw (selectModel d.settings content) d.settings.aiPromptVersion, cache⟩ := by
  simp only [analyzeMessage, h]
  rfl

theorem analyzeMessage_miss (hmodel : calls.model = respond content (selectModel d.settings content))
    (h : cached cache calls (cacheKey d.settings tenantId messageId content) = none) :
    analyzeMessage d.py d.settings cache calls tenantId messageId content =
      ⟨understandingOf d respond content,
        if calls.cacheWrites then
          Function.update cache (cacheKey d.settings tenantId messageId content) (some (rawAnalysis d respond content))
        else cache⟩ := by
  simp only [analyzeMessage, h, hmodel]
  rfl

theorem messages_storeAnalysis {db : Db} {sessionId eventId : Id} {message : Message} {u : MessageUnderstanding}
    {today : Day} :
    (db.writeAll (MessageEvents.storeAnalysis db tenantId sessionId message u today eventId).writes).messages =
      db.messages.put (MessageEvents.annotate u message) := by
  simp only [MessageEvents.storeAnalysis, MessageEvents.scoreWrites]
  split
  · rfl
  · rfl

structure History where
  world : World
  contents : List String := []

def History.after (tenantId messageId : Id) (s : History) (w' : World) : Label → History
  | .job job .messageCreated _ =>
    match readAnalysisJob s.world.db job.payload with
    | none => { s with world := w' }
    | some found =>
      if found.tenantId = tenantId ∧ found.message.id = messageId then ⟨w', s.contents ++ [found.message.content]⟩
      else { s with world := w' }
  | _ => { s with world := w' }

theorem History.after_world (tenantId messageId : Id) (s : History) (w' : World) (label : Label) :
    (s.after tenantId messageId w' label).world = w' := by
  unfold History.after
  split
  · split
    · rfl
    · split
      · rfl
      · rfl
  · rfl

inductive HistoryStep (d : Deployment) (tenantId messageId : Id) (s : History) (label : Label) : History → Prop
  | mk {w' : World} (hstep : Step d s.world label w') :
    HistoryStep d tenantId messageId s label (s.after tenantId messageId w' label)

structure Steady (d : Deployment) (respond : String → String → ModelCall) (calls : AnalysisCalls)
    (content : String) : Prop where
  reads : calls.cacheReads = true
  writes : calls.cacheWrites = true
  model : calls.model = respond content (selectModel d.settings content)

def SteadyFor (d : Deployment) (respond : String → String → ModelCall) (tenantId messageId : Id) (s : History) :
    Label → Prop
  | .job job .messageCreated inputs =>
    ∀ found ∈ readAnalysisJob s.world.db job.payload, found.tenantId = tenantId → found.message.id = messageId →
      Steady d respond inputs.analysis found.message.content
  | _ => True

def firstContent (d : Deployment) (contents : List String) (model : String) : Option String :=
  contents.find? fun content => selectModel d.settings content = model

def Recorded (d : Deployment) (respond : String → String → ModelCall) (tenantId messageId : Id) (s : History) :
    Prop :=
  ∀ model, s.world.cache ⟨tenantId, messageId, d.settings.aiPromptVersion, model⟩ =
    (firstContent d s.contents model).map (rawAnalysis d respond)

theorem firstContent_append {contents : List String} {model : String} :
    firstContent d (contents ++ [content]) model =
      (firstContent d contents model).or (if selectModel d.settings content = model then some content else none) := by
  simp only [firstContent, List.find?_append, List.find?_cons, List.find?_nil]
  congr 1
  split
  · rename_i h
    rw [if_pos (of_decide_eq_true h)]
  · rename_i h
    rw [if_neg (of_decide_eq_false h)]

theorem analyzeMessage_recorded {s : History} (h : Recorded d respond tenantId messageId s)
    (hsteady : Steady d respond calls content) :
    ∃ c, firstContent d (s.contents ++ [content]) (selectModel d.settings content) = some c ∧
      (analyzeMessage d.py d.settings s.world.cache calls tenantId messageId content).understanding =
        understandingOf d respond c ∧
      ∀ w' : World,
        w'.cache = (analyzeMessage d.py d.settings s.world.cache calls tenantId messageId content).cache →
        Recorded d respond tenantId messageId ⟨w', s.contents ++ [content]⟩ := by
  have hentry := h (selectModel d.settings content)
  cases hfirst : firstContent d s.contents (selectModel d.settings content) with
  | some c =>
    have hmodel : selectModel d.settings c = selectModel d.settings content := by
      unfold firstContent at hfirst
      simpa using List.find?_some hfirst
    have hcached : cached s.world.cache calls (cacheKey d.settings tenantId messageId content) =
        some (rawAnalysis d respond c) := by
      rw [hfirst] at hentry
      simp only [cached, hsteady.reads, if_true, Option.filter_eq_some_iff]
      exact ⟨hentry, by simp [rawAnalysis_ne_nil]⟩
    rw [analyzeMessage_hit hcached]
    refine ⟨c, ?_, ?_, ?_⟩
    · rw [firstContent_append, hfirst, Option.some_or]
    · simp only [understandingOf, hmodel]
    · intro w' hcache model
      dsimp only at hcache ⊢
      rw [hcache, h model, firstContent_append]
      by_cases hsame : selectModel d.settings content = model
      · rw [← hsame, hfirst, Option.some_or]
      · rw [if_neg hsame, Option.or_none]
  | none =>
    have hcached : cached s.world.cache calls (cacheKey d.settings tenantId messageId content) = none := by
      rw [hfirst] at hentry
      simp only [cached, hsteady.reads, if_true]
      exact congrArg (Option.filter _) hentry
    rw [analyzeMessage_miss hsteady.model hcached]
    refine ⟨content, ?_, rfl, ?_⟩
    · rw [firstContent_append, hfirst, Option.none_or, if_pos rfl]
    · intro w' hcache model
      dsimp only at hcache ⊢
      rw [hcache, if_pos hsteady.writes, firstContent_append]
      by_cases hsame : selectModel d.settings content = model
      · subst hsame
        rw [hfirst, Option.none_or, if_pos rfl]
        exact Function.update_self _ _ _
      · rw [if_neg hsame, Option.or_none, Function.update_of_ne, h model]
        intro hkey
        exact hsame (congrArg CacheKey.model hkey).symm

variable {s s' : History} {label : Label}

theorem analyzeMessage_cache_of_ne {other otherMessage : Id} {model promptVersion : String}
    (hne : ¬(other = tenantId ∧ otherMessage = messageId)) :
    (analyzeMessage d.py d.settings cache calls other otherMessage content).cache
      ⟨tenantId, messageId, promptVersion, model⟩ = cache ⟨tenantId, messageId, promptVersion, model⟩ := by
  have hupdate : ∀ raw, (if calls.cacheWrites then
      Function.update cache (cacheKey d.settings other otherMessage content) (some raw) else cache)
        ⟨tenantId, messageId, promptVersion, model⟩ = cache ⟨tenantId, messageId, promptVersion, model⟩ := by
    intro raw
    split
    · apply Function.update_of_ne
      intro hkey
      exact hne ⟨(congrArg CacheKey.tenantId hkey).symm, (congrArg CacheKey.messageId hkey).symm⟩
    · rfl
  unfold analyzeMessage
  dsimp only
  split
  · rfl
  · exact hupdate _

theorem afterJob_cache_of_ne {w : World} {job : QueueJob} {event : JobEvent} {inputs : JobInputs}
    (hne : event ≠ .messageCreated) : (w.afterJob d job event inputs).cache = w.cache := by
  cases event with
  | messageCreated => exact absurd rfl hne
  | _ => rfl

theorem afterJob_cache {w : World} {job : QueueJob} {inputs : JobInputs} :
    (w.afterJob d job .messageCreated inputs).cache =
      match readAnalysisJob w.db job.payload with
      | none => w.cache
      | some found =>
        (analyzeMessage d.py d.settings w.cache inputs.analysis found.tenantId found.message.id
          found.message.content).cache := by
  simp only [World.afterJob, JobEvent.handle, processMessageCreatedEvent]
  cases readAnalysisJob w.db job.payload with
  | none => rfl
  | some found =>
    dsimp only
    split
    · rfl
    · rfl

theorem recorded_step (h : Recorded d respond tenantId messageId s) (hok : SteadyFor d respond tenantId messageId s label)
    (hstep : HistoryStep d tenantId messageId s label s') : Recorded d respond tenantId messageId s' := by
  obtain ⟨hstep⟩ := hstep
  cases hstep with
  | request other request inputs hids => exact h
  | job job event inputs hjob hevent hids =>
    by_cases hmessage : event = .messageCreated
    · subst hmessage
      have hcache : (s.world.afterJob d job .messageCreated inputs).cache = _ := afterJob_cache
      cases hread : readAnalysisJob s.world.db job.payload with
      | none =>
        simp only [hread] at hcache
        simp only [History.after, hread]
        intro model
        rw [hcache]
        exact h model
      | some found =>
        simp only [hread] at hcache
        simp only [History.after, hread]
        by_cases hsame : found.tenantId = tenantId ∧ found.message.id = messageId
        · rw [if_pos hsame]
          obtain ⟨rfl, rfl⟩ := hsame
          obtain ⟨-, -, -, hnext⟩ := analyzeMessage_recorded h (hok found hread rfl rfl)
          exact hnext _ hcache
        · rw [if_neg hsame]
          intro model
          dsimp only
          rw [hcache, analyzeMessage_cache_of_ne hsame]
          exact h model
    · have hcache : (s.world.afterJob d job event inputs).cache = s.world.cache := afterJob_cache_of_ne hmessage
      cases event with
      | messageCreated => exact absurd rfl hmessage
      | _ =>
        intro model
        exact (congrFun hcache _).trans (h model)

theorem recorded_run {labels : List Label}
    (hrun : GuardedRun (HistoryStep d tenantId messageId) (SteadyFor d respond tenantId messageId) s labels s')
    (h : Recorded d respond tenantId messageId s) : Recorded d respond tenantId messageId s' :=
  hrun.invariant (Recorded d respond tenantId messageId) (fun _ _ _ hs hok hstep => recorded_step hs hok hstep) h

theorem get_afterJob {w : World} {job : QueueJob} {inputs : JobInputs} {found : AnalysisJob} {u : MessageUnderstanding}
    (hcommit : inputs.calls.commit.takesEffect) (hfound : readAnalysisJob w.db job.payload = some found)
    (hu : (analyzeMessage d.py d.settings w.cache inputs.analysis found.tenantId found.message.id
      found.message.content).understanding = some u) :
    MessageRepository.get (w.afterJob d job .messageCreated inputs).db found.tenantId found.message.id =
      some (MessageEvents.annotate u found.message) := by
  obtain ⟨-, -, -, hmem, htenant, -⟩ := readAnalysisJob_eq_some hfound
  have hmessages : (w.afterJob d job .messageCreated inputs).db.messages =
      w.db.messages.put (MessageEvents.annotate u found.message) := by
    simp only [World.afterJob, JobEvent.handle, processMessageCreatedEvent, hfound, hu]
    rw [Work.run_db, Work.written_of_committed rfl hcommit, messages_storeAnalysis]
  apply ofTenant_eq_some.mpr
  rw [hmessages]
  exact ⟨Table.mem_put_self hmem rfl, rfl, htenant⟩

end MessageAnnotations

open MessageAnnotations

theorem annotations_of_first_content (d : Deployment) (respond : String → String → ModelCall) (w : World)
    (tenantId messageId : Id)
    (hempty : ∀ model, w.cache ⟨tenantId, messageId, d.settings.aiPromptVersion, model⟩ = none)
    {labels : List Label} {s s' : History}
    (hrun : GuardedRun (HistoryStep d tenantId messageId) (SteadyFor d respond tenantId messageId) ⟨w, []⟩ labels s)
    {job : QueueJob} {inputs : JobInputs}
    (hstep : HistoryStep d tenantId messageId s (.job job .messageCreated inputs) s')
    (hok : SteadyFor d respond tenantId messageId s (.job job .messageCreated inputs))
    (hcommit : inputs.calls.commit.takesEffect) {found : AnalysisJob}
    (hfound : readAnalysisJob s.world.db job.payload = some found) (htenant : found.tenantId = tenantId)
    (hmessage : found.message.id = messageId) :
    ∃ content u, firstContent d s'.contents (AIOrchestrator.selectModel d.settings found.message.content) =
        some content ∧
      understandingOf d respond content = some u ∧
      MessageRepository.get s'.world.db tenantId messageId = some (MessageEvents.annotate u found.message) ∧
      ((∀ c ∈ s.contents, AIOrchestrator.selectModel d.settings c =
          AIOrchestrator.selectModel d.settings found.message.content → c = found.message.content) →
        content = found.message.content) := by
  subst htenant hmessage
  have hrecorded : Recorded d respond found.tenantId found.message.id s :=
    recorded_run hrun fun model => hempty model
  obtain ⟨content, hfirst, hanalysis, -⟩ := analyzeMessage_recorded hrecorded (hok found hfound rfl rfl)
  obtain ⟨u, hu⟩ : ∃ u, understandingOf d respond content = some u := understandingOf_isSome content
  obtain ⟨hstep⟩ := hstep
  cases hstep with
  | job job event inputs hjob hevent hids =>
    simp only [History.after, hfound, and_self, if_true]
    refine ⟨content, u, hfirst, hu, get_afterJob hcommit hfound (hanalysis.trans hu), ?_⟩
    intro hsame
    have hmem := List.mem_of_find?_eq_some hfirst
    have hmodel : AIOrchestrator.selectModel d.settings content =
        AIOrchestrator.selectModel d.settings found.message.content := by
      unfold firstContent at hfirst
      simpa using List.find?_some hfirst
    rcases List.mem_append.mp hmem with hmem | hmem
    · exact hsame content hmem hmodel
    · exact List.mem_singleton.mp hmem

namespace MessageAnnotations

def silent : String → String → ModelCall := fun _ _ => .raises

def openSession : Label :=
  .request "tenant-1" (.createSession { visitorId := "visitor-1" }) { newId := fun _ => "session-1", today := 1 }

def sendMessage : Label :=
  .request "tenant-1" (.createMessage "session-1" { senderType := "visitor", content := "hello" })
    { newId := fun _ => "message-1", today := 1 }

def editMessage : Label :=
  .request "tenant-1" (.updateMessage "message-1" { content := some (some "what does it cost?") })
    { newId := fun _ => "unused", today := 1 }

def handle (eventId : Id) : Label :=
  .job (messageCreatedJob "tenant-1" "session-1" "message-1") .messageCreated
    { newId := fun _ => eventId, today := 1 }

def next (w : World) : Label → World
  | .request tenantId request inputs => w.afterRequest plainDeployment tenantId request inputs
  | .job job event inputs => w.afterJob plainDeployment job event inputs

def sent : World := next (next { db := {} } openSession) sendMessage

def edited : World := next (next sent (handle "event-1")) editMessage

theorem step_of_job {w : World} {eventId : Id}
    (hjobs : w.jobs = [messageCreatedJob "tenant-1" "session-1" "message-1"])
    (hids : w.NewIds (JobEvent.handle plainDeployment w.db w.cache
      (messageCreatedJob "tenant-1" "session-1" "message-1").payload
      { newId := fun _ => eventId, today := 1 } .messageCreated).1.newIds) :
    Step plainDeployment w (handle eventId) (next w (handle eventId)) := by
  apply Step.job
  · rw [hjobs]
    exact List.mem_singleton_self _
  · rfl
  · exact hids

theorem steady_default {s : History} {eventId : Id} :
    SteadyFor plainDeployment silent "tenant-1" "message-1" s (handle eventId) :=
  fun _ _ _ _ => ⟨rfl, rfl, rfl⟩

theorem run_to_edited :
    ∃ s, GuardedRun (HistoryStep plainDeployment "tenant-1" "message-1")
        (SteadyFor plainDeployment silent "tenant-1" "message-1") ⟨{ db := {} }, []⟩
        [openSession, sendMessage, handle "event-1", editMessage] s ∧ s.world = edited :=
  ⟨_, .cons trivial (.mk (.request _ _ _ (by decide +kernel)))
      (.cons trivial (.mk (.request _ _ _ (by decide +kernel)))
        (.cons steady_default (.mk (step_of_job rfl (by decide +kernel)))
          (.cons trivial (.mk (.request _ _ _ (by decide +kernel))) (.nil _)))), rfl⟩

theorem step_of_edited : Step plainDeployment edited (handle "event-2") (next edited (handle "event-2")) :=
  step_of_job rfl (by decide +kernel)

end MessageAnnotations

theorem annotations_of_first_content_edited :
    ∃ content u message, understandingOf plainDeployment silent content = some u ∧
      MessageRepository.get (next edited (handle "event-2")).db "tenant-1" "message-1" =
        some (MessageEvents.annotate u message) := by
  obtain ⟨s, hrun, hworld⟩ := run_to_edited
  obtain ⟨found, hfound⟩ := Option.isSome_iff_exists.mp (show (readAnalysisJob edited.db
    (messageCreatedJob "tenant-1" "session-1" "message-1").payload).isSome by decide +kernel)
  obtain ⟨htenant, -, hmessage, -⟩ := readAnalysisJob_eq_some hfound
  rw [← hworld] at hfound
  obtain ⟨content, u, -, hu, hget, -⟩ := annotations_of_first_content plainDeployment silent { db := {} } "tenant-1"
    "message-1" (fun _ => rfl) hrun (.mk (hworld ▸ step_of_edited)) steady_default rfl hfound
    (Option.some.inj htenant).symm (Option.some.inj hmessage).symm
  rw [History.after_world, hworld] at hget
  exact ⟨content, u, found.message, hu, hget⟩

theorem annotations_outdated :
    ∃ s, GuardedRun (HistoryStep plainDeployment "tenant-1" "message-1")
        (SteadyFor plainDeployment silent "tenant-1" "message-1") ⟨{ db := {} }, []⟩
        [openSession, sendMessage, handle "event-1", editMessage, handle "event-2"] s ∧
      (MessageRepository.get s.world.db "tenant-1" "message-1").map (fun m => (m.content, m.intent)) =
        some ("what does it cost?", some "general") ∧
      (understandingOf plainDeployment silent "what does it cost?").map MessageUnderstanding.intent =
        some "pricing" :=
  ⟨_, .cons trivial (.mk (.request _ _ _ (by decide +kernel)))
      (.cons trivial (.mk (.request _ _ _ (by decide +kernel)))
        (.cons steady_default (.mk (step_of_job rfl (by decide +kernel)))
          (.cons trivial (.mk (.request _ _ _ (by decide +kernel)))
            (.cons steady_default (.mk step_of_edited) (.nil _))))), by decide +kernel, by decide +kernel⟩

end Leadline
