import Leadline.MessageAnnotations

namespace Leadline

open Library

deriving instance DecidableEq for LeadScoreResult

namespace LeadScores

open AIOrchestrator MessageAnnotations

variable (d : Deployment) (respond : String → String → ModelCall) (tenantId sessionId : Id)

def Delivers (w : World) : Label → Prop
  | .job job .messageCreated inputs =>
    ∃ found, readAnalysisJob w.db job.payload = some found ∧ found.tenantId = tenantId ∧
      found.sessionId = sessionId ∧
      inputs.analysis.model = respond found.message.content (selectModel d.settings found.message.content)
  | _ => False

def CacheAgrees (w : World) : Prop :=
  ∀ m ∈ w.db.messages, m.tenantId = tenantId → m.sessionId = sessionId →
    ∀ raw, w.cache (cacheKey d.settings tenantId m.id m.content) = some raw → raw = rawAnalysis d respond m.content

def committedMessage : Label → Option Id
  | .job job .messageCreated inputs =>
    if inputs.calls.commit.takesEffect then job.payload.text "message_id" else none
  | _ => none

def lastHandled (labels : List Label) : Option Id := (labels.filterMap committedMessage).getLast?

def scoresIn (db : Db) (tenantId leadId : Id) : Option LeadScoreResult :=
  (LeadRepository.get db tenantId leadId).map fun l => ⟨l.fitScore, l.engagementScore, l.leadScore⟩

def messageCount (db : Db) : ℕ := (MessageRepository.listForSession db tenantId sessionId).length

def outline (m : Message) : Id × Id × Id × String := (m.id, m.tenantId, m.sessionId, m.content)

variable {d respond tenantId sessionId}

theorem messageCount_eq (db : Db) : messageCount tenantId sessionId db =
    ((db.messages.rows.map outline).filter fun o => o.2.1 = tenantId ∧ o.2.2.1 = sessionId).length := by
  simp only [messageCount, MessageRepository.listForSession, List.filter_map, List.length_map]
  rfl

theorem outline_annotated {t : Table Message.id} {m : Message} (hm : m ∈ t) (u : MessageUnderstanding) :
    (t.put (MessageEvents.annotate u m)).rows.map outline = t.rows.map outline := by
  simp only [Table.put, List.map_map]
  apply List.map_congr_left
  intro a ha
  simp only [Function.comp_apply]
  split
  · rename_i hid
    rw [Table.eq_of_key_eq ha hm hid]
    rfl
  · rfl

theorem exists_outline {t t' : Table Message.id} (h : t.rows.map outline = t'.rows.map outline) {m : Message}
    (hm : m ∈ t) :
    ∃ m' ∈ t', m'.id = m.id ∧ m'.tenantId = m.tenantId ∧ m'.sessionId = m.sessionId ∧ m'.content = m.content := by
  have hmem := List.mem_map_of_mem (f := outline) hm
  rw [h] at hmem
  obtain ⟨m', hm', heq⟩ := List.mem_map.mp hmem
  simp only [outline, Prod.mk.injEq] at heq
  exact ⟨m', hm', heq⟩

theorem analyzeMessage_agrees {cache : AICache} {calls : AnalysisCalls} {messageId : Id} {content : String}
    (hentry : ∀ raw, cache (cacheKey d.settings tenantId messageId content) = some raw →
      raw = rawAnalysis d respond content)
    (hmodel : calls.model = respond content (selectModel d.settings content)) :
    (analyzeMessage d.py d.settings cache calls tenantId messageId content).understanding =
        understandingOf d respond content ∧
      ∀ key raw, (analyzeMessage d.py d.settings cache calls tenantId messageId content).cache key = some raw →
        cache key = some raw ∨
          key = cacheKey d.settings tenantId messageId content ∧ raw = rawAnalysis d respond content := by
  cases hcached : cached cache calls (cacheKey d.settings tenantId messageId content) with
  | some raw =>
    rw [analyzeMessage_hit hcached]
    have hraw : raw = rawAnalysis d respond content := by
      unfold cached at hcached
      split at hcached
      · exact hentry raw (Option.filter_eq_some_iff.mp hcached).1
      · cases hcached
    exact ⟨by rw [hraw]; rfl, fun _ _ h => .inl h⟩
  | none =>
    rw [analyzeMessage_miss hmodel hcached]
    refine ⟨rfl, ?_⟩
    intro key raw h
    dsimp only at h
    split at h
    · by_cases hkey : key = cacheKey d.settings tenantId messageId content
      · subst hkey
        rw [Function.update_self] at h
        exact .inr ⟨rfl, (Option.some.inj h).symm⟩
      · rw [Function.update_of_ne hkey] at h
        exact .inl h
    · exact .inl h

structure Kept (d : Deployment) (respond : String → String → ModelCall) (tenantId sessionId : Id) (w₀ w : World) :
    Prop where
  messages : w.db.messages.rows.map outline = w₀.db.messages.rows.map outline
  sessions : w.db.sessions = w₀.db.sessions
  cache : CacheAgrees d respond tenantId sessionId w

theorem Kept.messageCount {w₀ w : World} (h : Kept d respond tenantId sessionId w₀ w) :
    messageCount tenantId sessionId w.db = messageCount tenantId sessionId w₀.db := by
  rw [messageCount_eq, messageCount_eq, h.messages]

theorem get_scored {db : Db} {leadId eventId : Id} {lead : Lead} {u : MessageUnderstanding}
    (hsession : MessageEvents.sessionLeadId db tenantId sessionId = some leadId)
    (hlead : LeadRepository.get db tenantId leadId = some lead) {message : Message} {today : Day} :
    LeadRepository.get
        (db.writeAll (MessageEvents.storeAnalysis db tenantId sessionId message u today eventId).writes)
        tenantId leadId =
      some (MessageEvents.applyScores (computeInitialScores u (messageCount tenantId sessionId db)) lead) := by
  obtain ⟨hmem, hid, htenant⟩ := ofTenant_eq_some.mp hlead
  simp only [MessageEvents.storeAnalysis, MessageEvents.scoreWrites, hsession, Option.bind_some, hlead]
  exact ofTenant_eq_some.mpr ⟨Table.mem_put_self hmem rfl, hid, htenant⟩

theorem sessions_stored {db : Db} {eventId : Id} {u : MessageUnderstanding} {message : Message} {today : Day} :
    (db.writeAll (MessageEvents.storeAnalysis db tenantId sessionId message u today eventId).writes).sessions =
      db.sessions := by
  simp only [MessageEvents.storeAnalysis, MessageEvents.scoreWrites]
  split
  · rfl
  · rfl

theorem handle_agrees {w : World} {job : QueueJob} {inputs : JobInputs} {found : AnalysisJob}
    (hcache : CacheAgrees d respond found.tenantId found.sessionId w)
    (hfound : readAnalysisJob w.db job.payload = some found)
    (hmodel : inputs.analysis.model =
      respond found.message.content (selectModel d.settings found.message.content)) :
    ∃ u, understandingOf d respond found.message.content = some u ∧
      (JobEvent.handle d w.db w.cache job.payload inputs .messageCreated).1 =
        .commits (MessageEvents.storeAnalysis w.db found.tenantId found.sessionId found.message u inputs.today
          (inputs.newId 0)) ∧
      ∀ key raw, (w.afterJob d job .messageCreated inputs).cache key = some raw → w.cache key = some raw ∨
        key = cacheKey d.settings found.tenantId found.message.id found.message.content ∧
          raw = rawAnalysis d respond found.message.content := by
  obtain ⟨-, -, -, hmem, htenant, hsession⟩ := readAnalysisJob_eq_some hfound
  obtain ⟨hanalysis, hentries⟩ := analyzeMessage_agrees (hcache _ hmem htenant hsession) hmodel
  obtain ⟨u, hu⟩ : ∃ u, understandingOf d respond found.message.content = some u := understandingOf_isSome _
  rw [hu] at hanalysis
  refine ⟨u, hu, ?_, ?_⟩
  · simp only [JobEvent.handle, processMessageCreatedEvent, hfound, hanalysis]
  · rw [afterJob_cache, hfound]
    exact hentries

theorem deliver_step {w₀ w : World} {leadId : Id} {lead : Lead} {job : QueueJob} {inputs : JobInputs}
    {found : AnalysisJob} (h : Kept d respond found.tenantId found.sessionId w₀ w)
    (hsession : MessageEvents.sessionLeadId w₀.db found.tenantId found.sessionId = some leadId)
    (hlead : LeadRepository.get w.db found.tenantId leadId = some lead)
    (hfound : readAnalysisJob w.db job.payload = some found)
    (hmodel : inputs.analysis.model =
      respond found.message.content (selectModel d.settings found.message.content)) :
    let w' := w.afterJob d job .messageCreated inputs
    Kept d respond found.tenantId found.sessionId w₀ w' ∧
      ∃ u, understandingOf d respond found.message.content = some u ∧
        LeadRepository.get w'.db found.tenantId leadId =
          if inputs.calls.commit.takesEffect then
            some (MessageEvents.applyScores
              (computeInitialScores u (messageCount found.tenantId found.sessionId w₀.db)) lead)
          else some lead := by
  intro w'
  obtain ⟨-, -, -, hmem, htenant, hsessionId⟩ := readAnalysisJob_eq_some hfound
  obtain ⟨u, hu, hhandle, hentries⟩ := handle_agrees h.cache hfound hmodel
  have hsessionId' : MessageEvents.sessionLeadId w.db found.tenantId found.sessionId = some leadId := by
    rw [← hsession, MessageEvents.sessionLeadId, MessageEvents.sessionLeadId, SessionRepository.get,
      SessionRepository.get, h.sessions]
  have hdb : w'.db = w.db.writeAll ((Work.commits (MessageEvents.storeAnalysis w.db found.tenantId found.sessionId
      found.message u inputs.today (inputs.newId 0))).written d.settings inputs.calls) := by
    simp only [w', World.afterJob]
    rw [Work.run_db, hhandle]
  have hafter : w'.db.messages.rows.map outline = w.db.messages.rows.map outline ∧
      w'.db.sessions = w.db.sessions ∧
      LeadRepository.get w'.db found.tenantId leadId =
        if inputs.calls.commit.takesEffect then
          some (MessageEvents.applyScores
            (computeInitialScores u (messageCount found.tenantId found.sessionId w.db)) lead)
        else some lead := by
    by_cases hcommit : inputs.calls.commit.takesEffect
    · rw [hdb, Work.written_of_committed rfl hcommit, messages_storeAnalysis, if_pos hcommit]
      exact ⟨outline_annotated hmem u, sessions_stored, get_scored hsessionId' hlead⟩
    · rw [hdb, Work.written_of_lost (by simpa using hcommit), if_neg hcommit]
      exact ⟨rfl, rfl, hlead⟩
  obtain ⟨houtline, hsessions, hget⟩ := hafter
  refine ⟨⟨houtline.trans h.messages, hsessions.trans h.sessions, ?_⟩, u, hu, ?_⟩
  · intro m hm htenant' hsession' raw hraw
    obtain ⟨m₀, hm₀, hid, hown, hof, hcontent⟩ := exists_outline houtline hm
    rw [← hid, ← hcontent] at hraw
    rw [← hcontent]
    rcases hentries _ raw hraw with hold | ⟨hkey, rfl⟩
    · exact h.cache m₀ hm₀ (hown.trans htenant') (hof.trans hsession') raw hold
    · rw [Table.eq_of_key_eq hm₀ hmem (congrArg CacheKey.messageId hkey)]
  · rw [hget, h.messageCount]

theorem lastHandled_append {labels : List Label} {label : Label} :
    lastHandled (labels ++ [label]) = (committedMessage label).or (lastHandled labels) := by
  simp only [lastHandled, List.filterMap_append, List.getLast?_append]
  cases h : committedMessage label with
  | none => simp [h]
  | some id => simp [h]

theorem scores_of_run {w₀ w : World} {leadId : Id} {labels : List Label}
    (hsession : MessageEvents.sessionLeadId w₀.db tenantId sessionId = some leadId)
    (hlead : (LeadRepository.get w₀.db tenantId leadId).isSome)
    (hcache : CacheAgrees d respond tenantId sessionId w₀)
    (hrun : GuardedRun (Step d) (Delivers d respond tenantId sessionId) w₀ labels w) {m : Message}
    (hm : MessageRepository.get w₀.db tenantId m.id = some m) (hlast : lastHandled labels = some m.id) :
    scoresIn w.db tenantId leadId = (understandingOf d respond m.content).map fun u =>
      computeInitialScores u (messageCount tenantId sessionId w₀.db) := by
  have hinv := hrun.trace_invariant (fun labels w => Kept d respond tenantId sessionId w₀ w ∧
    (LeadRepository.get w.db tenantId leadId).isSome ∧
    (lastHandled labels = some m.id → scoresIn w.db tenantId leadId = (understandingOf d respond m.content).map fun u =>
      computeInitialScores u (messageCount tenantId sessionId w₀.db))) ?_ ?_
  · exact hinv.2.2 hlast
  · rintro labels w label w' ⟨hkept, hexists, hscores⟩ hok hstep
    cases hstep with
    | request other request inputs hids => exact hok.elim
    | job job event inputs hjob hevent hids =>
      cases event with
      | messageCreated =>
        obtain ⟨found, hfound, rfl, rfl, hmodel⟩ := hok
        obtain ⟨lead, hlead'⟩ := Option.isSome_iff_exists.mp hexists
        obtain ⟨hkept', u, hu, hget⟩ := deliver_step hkept hsession hlead' hfound hmodel
        refine ⟨hkept', ?_, ?_⟩
        · rw [hget]
          split
          · rfl
          · rfl
        · intro hnow
          obtain ⟨-, -, hmessage, hmem, htenant, -⟩ := readAnalysisJob_eq_some hfound
          rw [lastHandled_append, committedMessage, hmessage] at hnow
          by_cases hcommit : inputs.calls.commit.takesEffect
          · rw [if_pos hcommit, Option.some_or] at hnow
            obtain ⟨m₀, hm₀, hid, -, -, hcontent⟩ := exists_outline hkept.messages hmem
            have hsame : m₀ = m :=
              Table.eq_of_key_eq hm₀ (ofTenant_eq_some.mp hm).1 (hid.trans (Option.some.inj hnow))
            rw [← hsame, hcontent, hu, scoresIn, hget, if_pos hcommit]
            rfl
          · rw [if_neg hcommit, Option.none_or] at hnow
            rw [← hscores hnow, scoresIn, scoresIn, hget, if_neg hcommit, hlead']
      | _ => exact hok.elim
  · exact ⟨⟨rfl, rfl, hcache⟩, hlead, fun h => by cases h⟩

end LeadScores

open LeadScores MessageAnnotations

theorem scores_of_last_handled (d : Deployment) (respond : String → String → ModelCall) (w : World)
    (tenantId sessionId leadId : Id)
    (hsession : MessageEvents.sessionLeadId w.db tenantId sessionId = some leadId)
    (hlead : (LeadRepository.get w.db tenantId leadId).isSome)
    (hcache : CacheAgrees d respond tenantId sessionId w) (m : Message)
    (hm : MessageRepository.get w.db tenantId m.id = some m) {labels labels' : List Label} {s s' : World}
    (hrun : GuardedRun (Step d) (Delivers d respond tenantId sessionId) w labels s)
    (hrun' : GuardedRun (Step d) (Delivers d respond tenantId sessionId) w labels' s')
    (hlast : lastHandled labels = some m.id) (hlast' : lastHandled labels' = some m.id) :
    scoresIn s.db tenantId leadId = ((understandingOf d respond m.content).map fun u =>
        computeInitialScores u (messageCount tenantId sessionId w.db)) ∧
      scoresIn s'.db tenantId leadId = scoresIn s.db tenantId leadId := by
  have hscores := scores_of_run hsession hlead hcache hrun hm hlast
  have hscores' := scores_of_run hsession hlead hcache hrun' hm hlast'
  exact ⟨hscores, hscores'.trans hscores.symm⟩

namespace LeadScores

def storedMessage (id content : String) : Message :=
  MessageRepository.create id "tenant-1" "session-1" { senderType := "visitor", content := content }

def greeting : Message := storedMessage "message-1" "hello"

def question : Message := storedMessage "message-2" "what does it cost?"

def jobOf (m : Message) : QueueJob := messageCreatedJob m.tenantId m.sessionId m.id

def stored : World where
  db :=
    { leads := Table.empty.insert (LeadRepository.create "lead-1" "tenant-1" {})
      sessions := Table.empty.insert
        (SessionRepository.create "session-1" "tenant-1" { visitorId := "visitor-1", leadId := some "lead-1" })
      messages := (Table.empty.insert greeting).insert question }
  jobs := [jobOf greeting, jobOf question]

def inputsOf (eventId : Id) : JobInputs := { newId := fun _ => eventId, today := 1 }

def handled (w : World) (m : Message) (eventId : Id) : World :=
  w.afterJob plainDeployment (jobOf m) .messageCreated (inputsOf eventId)

def label (m : Message) (eventId : Id) : Label := .job (jobOf m) .messageCreated (inputsOf eventId)

theorem step_of_message {w : World} {m : Message} {eventId : Id} (hjob : jobOf m ∈ w.jobs)
    (hids : w.NewIds (JobEvent.handle plainDeployment w.db w.cache (jobOf m).payload (inputsOf eventId)
      .messageCreated).1.newIds) :
    Step plainDeployment w (label m eventId) (handled w m eventId) :=
  .job _ _ _ hjob rfl hids

theorem delivers_message {w : World} {m : Message} {eventId : Id}
    (h : (readAnalysisJob w.db (jobOf m).payload).isSome)
    (htenant : (jobOf m).payload.text "tenant_id" = some "tenant-1")
    (hsession : (jobOf m).payload.text "session_id" = some "session-1") :
    Delivers plainDeployment silent "tenant-1" "session-1" w (label m eventId) := by
  obtain ⟨found, hfound⟩ := Option.isSome_iff_exists.mp h
  obtain ⟨htenant', hsession', -⟩ := readAnalysisJob_eq_some hfound
  rw [htenant] at htenant'
  rw [hsession] at hsession'
  exact ⟨found, hfound, (Option.some.inj htenant').symm, (Option.some.inj hsession').symm, rfl⟩

theorem mem_jobs_handled {w : World} {m : Message} {eventId : Id} {job : QueueJob} (h : job ∈ w.jobs) :
    job ∈ (handled w m eventId).jobs :=
  List.mem_append_left _ h

theorem greeting_queued : jobOf greeting ∈ stored.jobs := List.mem_cons_self

theorem question_queued : jobOf question ∈ stored.jobs := List.mem_cons_of_mem _ List.mem_cons_self

theorem run_to_greeting : GuardedRun (Step plainDeployment) (Delivers plainDeployment silent "tenant-1" "session-1")
    stored [label question "event-1", label greeting "event-2"]
    (handled (handled stored question "event-1") greeting "event-2") :=
  .cons (delivers_message (by decide +kernel) rfl rfl) (step_of_message question_queued (by decide +kernel))
    (.cons (delivers_message (by decide +kernel) rfl rfl)
      (step_of_message (mem_jobs_handled greeting_queued) (by decide +kernel)) (.nil _))

theorem run_to_question : GuardedRun (Step plainDeployment) (Delivers plainDeployment silent "tenant-1" "session-1")
    stored [label greeting "event-1", label question "event-2"]
    (handled (handled stored greeting "event-1") question "event-2") :=
  .cons (delivers_message (by decide +kernel) rfl rfl) (step_of_message greeting_queued (by decide +kernel))
    (.cons (delivers_message (by decide +kernel) rfl rfl)
      (step_of_message (mem_jobs_handled question_queued) (by decide +kernel)) (.nil _))

theorem run_to_greeting_again :
    GuardedRun (Step plainDeployment) (Delivers plainDeployment silent "tenant-1" "session-1") stored
      [label greeting "event-1", label question "event-2", label greeting "event-3"]
      (handled (handled (handled stored greeting "event-1") question "event-2") greeting "event-3") :=
  .cons (delivers_message (by decide +kernel) rfl rfl) (step_of_message greeting_queued (by decide +kernel))
    (.cons (delivers_message (by decide +kernel) rfl rfl)
      (step_of_message (mem_jobs_handled question_queued) (by decide +kernel))
      (.cons (delivers_message (by decide +kernel) rfl rfl)
        (step_of_message (mem_jobs_handled (mem_jobs_handled greeting_queued)) (by decide +kernel)) (.nil _)))

end LeadScores

theorem scores_of_last_handled_twice :
    scoresIn (handled (handled (handled stored greeting "event-1") question "event-2") greeting "event-3").db
        "tenant-1" "lead-1" =
      scoresIn (handled (handled stored question "event-1") greeting "event-2").db "tenant-1" "lead-1" :=
  (scores_of_last_handled plainDeployment silent stored "tenant-1" "session-1" "lead-1" rfl rfl
    (fun _ _ _ _ _ h => by cases h) greeting rfl run_to_greeting run_to_greeting_again rfl rfl).2

theorem scores_depend_on_order :
    ∃ s s', GuardedRun (Step plainDeployment) (Delivers plainDeployment silent "tenant-1" "session-1") stored
        [label greeting "event-1", label question "event-2"] s ∧
      GuardedRun (Step plainDeployment) (Delivers plainDeployment silent "tenant-1" "session-1") stored
        [label question "event-1", label greeting "event-2"] s' ∧
      scoresIn s.db "tenant-1" "lead-1" = some ⟨40, 39, 51⟩ ∧
      scoresIn s'.db "tenant-1" "lead-1" = some ⟨40, 39, 33⟩ :=
  ⟨_, _, run_to_question, run_to_greeting, by decide +kernel, by decide +kernel⟩

namespace LeadScores

def ChangesScore (db : Db) (writes : List Write) (leadId : Id) : Prop :=
  ∃ l ∈ db.leads, ∃ l' ∈ (db.writeAll writes).leads, l.id = leadId ∧ l'.id = leadId ∧ l'.leadScore ≠ l.leadScore

theorem changesScore_of_leads {db : Db} {writes : List Write} {leadId : Id}
    (h : (db.writeAll writes).leads = db.leads) : ¬ChangesScore db writes leadId := by
  rintro ⟨l, hl, l', hl', hid, hid', hne⟩
  rw [h] at hl'
  rw [Table.eq_of_key_eq hl' hl (hid'.trans hid.symm)] at hne
  exact hne rfl

theorem changesScore_of_put {db : Db} {writes : List Write} {leadId : Id} {updated : Lead}
    (h : (db.writeAll writes).leads = db.leads.put updated) (hchanges : ChangesScore db writes leadId) :
    updated.id = leadId := by
  obtain ⟨l, hl, l', hl', hid, hid', hne⟩ := hchanges
  rw [h] at hl'
  rcases Table.mem_of_mem_put hl' with rfl | ⟨hold, -⟩
  · exact hid'
  · rw [Table.eq_of_key_eq hold hl (hid'.trans hid.symm)] at hne
    exact absurd rfl hne

def announcement (job : QueueJob) : Option String × Option String :=
  (job.payload.str? "event", job.payload.str? "trigger")

theorem announcements_of_lifecycle (tenantId leadId : Id) (event : String) :
    (lifecycleJobs tenantId leadId event).map announcement =
      [(some event, none), (some ("integration." ++ event), none),
        (some "sequence.trigger", some (triggerOf event))] := rfl

theorem lifecycleJobs_disjoint {event : String} (h : event = "lead.created" ∨ event = "lead.updated")
    (tenantId leadId other otherLead : Id) :
    (lifecycleJobs tenantId leadId event).Disjoint (lifecycleJobs other otherLead "lead.score_updated") := by
  intro job hjob hscore
  have hleft := List.mem_map_of_mem (f := announcement) hjob
  have hright := List.mem_map_of_mem (f := announcement) hscore
  rw [announcements_of_lifecycle] at hleft hright
  have happart : ∀ a ∈ [(some event, none), (some ("integration." ++ event), none),
      (some "sequence.trigger", some (triggerOf event))],
        a ∉ [(some "lead.score_updated", none), (some ("integration." ++ "lead.score_updated"), none),
          (some "sequence.trigger", some (triggerOf "lead.score_updated"))] := by
    rcases h with rfl | rfl
    · decide
    · decide
  exact happart _ hleft hright

structure MessageAnnounced (db : Db) (found : AnalysisJob) (c : Commit Unit) : Prop where
  changed : ∀ leadId, ChangesScore db c.writes leadId →
    c.after = lifecycleJobs found.tenantId leadId "lead.score_updated"
  rescored : ∀ leadId, MessageEvents.sessionLeadId db found.tenantId found.sessionId = some leadId →
    (LeadRepository.get db found.tenantId leadId).isSome →
      c.after = lifecycleJobs found.tenantId leadId "lead.score_updated"
  unattached : MessageEvents.sessionLeadId db found.tenantId found.sessionId = none → c.after = []
  before : c.before = []

structure LeadAnnounced {α : Type} (db : Db) (tenantId leadId : Id) (event : String) (c : Commit α) : Prop where
  after : c.after = lifecycleJobs tenantId leadId event
  before : c.before = []
  changed : ∀ other, ChangesScore db c.writes other → other = leadId
  silent : ∀ other otherLead, c.after.Disjoint (lifecycleJobs other otherLead "lead.score_updated")

theorem messageAnnounced {db : Db} {found : AnalysisJob} {u : MessageUnderstanding} {today : Day} {eventId : Id} :
    MessageAnnounced db found
      (MessageEvents.storeAnalysis db found.tenantId found.sessionId found.message u today eventId) := by
  have hafter : ∀ leadId, MessageEvents.sessionLeadId db found.tenantId found.sessionId = some leadId →
      (MessageEvents.storeAnalysis db found.tenantId found.sessionId found.message u today eventId).after =
        lifecycleJobs found.tenantId leadId "lead.score_updated" := by
    intro leadId h
    simp only [MessageEvents.storeAnalysis, h]
    exact scoreUpdatedJobs_eq found.tenantId leadId
  refine ⟨?_, fun leadId h _ => hafter leadId h, ?_, rfl⟩
  · intro leadId hchanges
    cases hsession : (MessageEvents.sessionLeadId db found.tenantId found.sessionId).bind
        (LeadRepository.get db found.tenantId) with
    | none =>
      refine absurd hchanges (changesScore_of_leads ?_)
      simp only [MessageEvents.storeAnalysis, MessageEvents.scoreWrites, hsession]
      rfl
    | some lead =>
      obtain ⟨sessionLead, hsessionLead, hlead⟩ := Option.bind_eq_some_iff.mp hsession
      have hid : (MessageEvents.applyScores (computeInitialScores u
          (messageCount found.tenantId found.sessionId db)) lead).id = leadId := by
        apply changesScore_of_put _ hchanges
        simp only [MessageEvents.storeAnalysis, MessageEvents.scoreWrites, hsession]
        rfl
      have hsame : sessionLead = leadId := by
        rw [← hid]
        exact (ofTenant_eq_some.mp hlead).2.1.symm
      rw [← hsame]
      exact hafter sessionLead hsessionLead
  · intro h
    simp only [MessageEvents.storeAnalysis, h]
    rfl

end LeadScores

theorem score_changes_announced (d : Deployment) (db : Db) (cache : AICache) (tenantId : Id) :
    (∀ payload inputs c, (JobEvent.handle d db cache payload inputs .messageCreated).1 = .commits c →
      ∃ found, readAnalysisJob db payload = some found ∧ MessageAnnounced db found c) ∧
    (∀ payload id eventId today choice c,
      LeadRequests.createLead d.py.lower db tenantId payload id eventId today choice = .commits c →
        LeadAnnounced db tenantId c.value.lead.id "lead.created" c) ∧
    ∀ leadId payload c, LeadRequests.updateLead d.py.lower db tenantId leadId payload = .commits c →
      LeadAnnounced db tenantId leadId "lead.updated" c := by
  refine ⟨?_, ?_, ?_⟩
  · intro payload inputs c hc
    rcases processMessageCreatedEvent_cases d.py d.settings db cache payload inputs.analysis inputs.today
      (inputs.newId 0) with h | h | ⟨found, u, hfound, -, h⟩
    · rw [JobEvent.handle, h] at hc
      cases hc
    · rw [JobEvent.handle, h] at hc
      cases hc
    · rw [JobEvent.handle, h] at hc
      cases hc
      exact ⟨found, hfound, messageAnnounced⟩
  · intro payload id eventId today choice c hc
    unfold LeadRequests.createLead at hc
    split at hc
    · cases hc
    · dsimp only at hc
      split at hc
      · cases hc
      · cases hc
        refine ⟨rfl, rfl, ?_, fun other otherLead => lifecycleJobs_disjoint (.inl rfl) _ _ other otherLead⟩
        rintro other ⟨l, hl, l', hl', hid, hid', hne⟩
        rcases Table.mem_of_mem_insert hl' with hold | rfl
        · rw [Table.eq_of_key_eq hold hl (hid'.trans hid.symm)] at hne
          exact absurd rfl hne
        · exact hid'.symm
  · intro leadId payload c hc
    unfold LeadRequests.updateLead at hc
    split at hc
    · cases hc
    · rename_i lead hlead
      split at hc
      · cases hc
      · rename_i updated hupdated
        cases hc
        refine ⟨rfl, rfl, ?_, fun other otherLead => lifecycleJobs_disjoint (.inr rfl) _ _ other otherLead⟩
        intro other hchanges
        have hid : updated.id = other := changesScore_of_put rfl hchanges
        rw [← hid, (LeadUpdate.apply_eq_some hupdated).1]
        exact (ofTenant_eq_some.mp hlead).2.1

theorem score_changes_announced_patch :
    ∃ c : Commit Lead, c.value.leadScore = 90 ∧ LeadAnnounced stored.db "tenant-1" "lead-1" "lead.updated" c :=
  ⟨_, rfl, (score_changes_announced plainDeployment stored.db stored.cache "tenant-1").2.2 "lead-1"
    { leadScore := some (some 90) } _ rfl⟩

theorem score_update_unannounced :
    ∃ c, LeadRequests.updateLead Python.ascii.lower stored.db "tenant-1" "lead-1"
        { leadScore := some (some 90) } = .commits c ∧
      ChangesScore stored.db c.writes "lead-1" ∧ c.before = [] ∧
      c.after.Disjoint (lifecycleJobs "tenant-1" "lead-1" "lead.score_updated") := by
  refine ⟨_, rfl, ?_, rfl, lifecycleJobs_disjoint (.inr rfl) _ _ _ _⟩
  exact ⟨_, List.mem_cons_self, _, List.mem_cons_self, rfl, rfl, by decide +kernel⟩

end Leadline
