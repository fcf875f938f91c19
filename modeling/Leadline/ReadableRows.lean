import Leadline.Library.GuardedRun
import Leadline.RequestEffects
import Leadline.System

namespace Leadline

open Library

namespace ReadableRows

structure Readable (db : Db) : Prop where
  leads : ∀ l ∈ db.leads, l.Renders
  timeline : ∀ e ∈ db.timeline, e.Renders
  sessions : ∀ s ∈ db.sessions, s.Renders
  messages : ∀ m ∈ db.messages, m.Renders
  routingRules : ∀ r ∈ db.routingRules, r.Renders

def writesOnly {α : Type} (p : α → Prop) : RowWrite α → Prop
  | .add row => p row
  | .set row => p row
  | .delete _ => True

def Renders : Write → Prop
  | .lead w => writesOnly Lead.Renders w
  | .timelineEvent w => writesOnly LeadTimelineEvent.Renders w
  | .session w => writesOnly Session.Renders w
  | .message w => writesOnly Message.Renders w
  | .routingRule w => writesOnly RoutingRule.Renders w
  | _ => True

theorem mem_apply {α : Type} {key : α → Id} {p : α → Prop} {t : Table key} {w : RowWrite α}
    (ht : ∀ a ∈ t, p a) (hw : writesOnly p w) : ∀ a ∈ w.apply t, p a := by
  intro a ha
  cases w with
  | add row =>
    rcases Table.mem_of_mem_insert ha with h | h
    · exact ht a h
    · rw [h]
      exact hw
  | set row =>
    rcases Table.mem_of_mem_put ha with h | ⟨h, -⟩
    · rw [h]
      exact hw
    · exact ht a h
  | delete id => exact ht a (Table.mem_erase.mp ha).1

theorem mem_filter {α : Type} {key : α → Id} {p : α → Prop} {t : Table key} {q : α → Bool}
    (ht : ∀ a ∈ t, p a) : ∀ a ∈ t.filter q, p a :=
  fun a ha => ht a (Table.mem_filter.mp ha).1

variable {db : Db} {tenantId : Id}

theorem Readable.removeLead (h : Readable db) (leadId : Id) : Readable (LeadService.removeLead db leadId) where
  leads := fun l hl => h.leads l (Table.mem_erase.mp hl).1
  timeline := mem_filter h.timeline
  sessions := by
    intro s hs
    obtain ⟨old, hold, rfl⟩ := LeadService.mem_sessions_removeLead.mp hs
    exact h.sessions old hold
  messages := h.messages
  routingRules := h.routingRules

theorem Readable.write {w : Write} (h : Readable db) (hw : Renders w) : Readable (db.write w) := by
  cases w with
  | lead w =>
    cases w with
    | add row => exact { h with leads := mem_apply h.leads hw }
    | set row => exact { h with leads := mem_apply h.leads hw }
    | delete id => exact h.removeLead id
  | timelineEvent w => exact { h with timeline := mem_apply h.timeline hw }
  | session w =>
    cases w with
    | add row => exact { h with sessions := mem_apply h.sessions hw }
    | set row => exact { h with sessions := mem_apply h.sessions hw }
    | delete id =>
      exact { h with
        sessions := fun s hs => h.sessions s (Table.mem_erase.mp hs).1, messages := mem_filter h.messages }
  | message w => exact { h with messages := mem_apply h.messages hw }
  | routingRule w => exact { h with routingRules := mem_apply h.routingRules hw }
  | sequence w => cases w <;> exact { h with }
  | step w => exact { h with }
  | enrollment w => exact { h with }
  | connection w => exact { h with }
  | usage change => exact { h with }

theorem Readable.writeAll {writes : List Write} (h : Readable db) (hw : ∀ w ∈ writes, Renders w) :
    Readable (db.writeAll writes) := by
  induction writes generalizing db with
  | nil => exact h
  | cons w writes ih =>
    rw [Db.writeAll_cons]
    apply ih
    · exact h.write (hw w List.mem_cons_self)
    · exact fun x hx => hw x (List.mem_cons_of_mem w hx)

def NullsJson : Request → Prop
  | .updateLead _ payload => payload.allowedChannels = some none ∨ payload.customFields = some none
  | .updateTimelineEvent _ payload => payload.payload = some none
  | .updateSession _ payload => payload.metadata = some none
  | .updateMessage _ payload => payload.entities = some none ∨ payload.topics = some none
  | .updateRule _ payload => payload.conditions = some none ∨ payload.actionPayload = some none
  | _ => False

def Lands (lower : String → String) (db : Db) (tenantId : Id) : Request → Prop
  | .updateLead leadId payload =>
    ∃ l ∈ LeadRepository.get db tenantId leadId, ((payload.normalized lower).apply l).isSome
  | .updateTimelineEvent eventId payload =>
    ∃ e ∈ LeadTimelineRepository.get db tenantId eventId, (payload.apply e).isSome
  | .updateSession sessionId payload =>
    (SessionRepository.get db tenantId sessionId).isSome ∧ ConversationService.LeadExists db payload.leadId.join
  | .updateMessage messageId payload =>
    ∃ m ∈ MessageRepository.get db tenantId messageId, (payload.apply m).isSome
  | .updateRule ruleId payload => ∃ r ∈ RoutingRuleRepository.get db tenantId ruleId, (payload.apply r).isSome
  | _ => True

theorem lead_applied {data : LeadUpdate} {l updated : Lead} (h : data.apply l = some updated) :
    updated.allowedChannels = data.allowedChannels.getD l.allowedChannels ∧
      updated.customFields = data.customFields.getD l.customFields := by
  simp only [LeadUpdate.apply, Option.bind_eq_bind, Option.bind_eq_some_iff, Option.pure_def,
    Option.some.injEq] at h
  obtain ⟨_, -, _, -, _, -, _, -, _, -, rfl⟩ := h
  exact ⟨rfl, rfl⟩

theorem isSome_getD {α : Type} {value : Option (Option α)} {old : Option α} (hnull : value ≠ some none)
    (hold : old.isSome) : (value.getD old).isSome := by
  cases value with
  | none => exact hold
  | some value =>
    cases value with
    | none => exact absurd rfl hnull
    | some v => rfl

theorem effect_renders {lower : String → String} {inputs : Inputs} (h : Readable db) {r : Request}
    {writes : List Write} {after : List QueueJob} (heffect : r.Effect lower db tenantId inputs writes after)
    (hok : ¬(NullsJson r ∧ Lands lower db tenantId r)) : ∀ w ∈ writes, Renders w := by
  cases heffect with
  | createLead hlimit hnew hrows =>
    subst hrows
    simp [Renders, writesOnly, LeadService.newLead, LeadRepository.create, Lead.Renders, LeadTimelineEvent.Renders]
  | @updateLead leadId payload lead updated hget happly =>
    have hnull : ¬NullsJson (.updateLead leadId payload) := by
      intro hnull
      exact hok ⟨hnull, lead, hget, by rw [happly]; rfl⟩
    obtain ⟨hchannels, hfields⟩ := not_or.mp hnull
    obtain ⟨h₁, h₂⟩ := lead_applied happly
    obtain ⟨hold₁, hold₂⟩ := h.leads lead (ofTenant_eq_some.mp hget).1
    have hrenders : updated.Renders := by
      constructor
      · rw [h₁]
        exact isSome_getD hchannels hold₁
      · rw [h₂]
        exact isSome_getD hfields hold₂
    simpa [Renders, writesOnly] using hrenders
  | createTimelineEvent hget =>
    simp [Renders, writesOnly, LeadTimelineRepository.create, LeadTimelineEvent.Renders]
  | @updateTimelineEvent eventId payload event updated hget happly =>
    have hnull : payload.payload ≠ some none := by
      intro hnull
      exact hok ⟨hnull, event, hget, by rw [happly]; rfl⟩
    have hrenders : updated.Renders := by
      rw [LeadTimelineEvent.Renders, (TimelineEventUpdate.apply_eq_some happly).2.2.2]
      exact isSome_getD hnull (h.timeline event (ofTenant_eq_some.mp hget).1)
    simpa [Renders, writesOnly] using hrenders
  | @attachSession leadId sessionId lead record hlead hget =>
    have hrenders : Session.Renders { record with leadId := some leadId } :=
      h.sessions record (ofTenant_eq_some.mp hget).1
    simpa [Renders, writesOnly] using hrenders
  | createSession hlimit hlead => simp [Renders, writesOnly, SessionRepository.create, Session.Renders]
  | @updateSession sessionId payload record hget hlead =>
    have hnull : payload.metadata ≠ some none := by
      intro hnull
      exact hok ⟨hnull, by rw [hget]; rfl, hlead⟩
    have hrenders : (payload.apply record).Renders :=
      isSome_getD hnull (h.sessions record (ofTenant_eq_some.mp hget).1)
    simpa [Renders, writesOnly] using hrenders
  | createMessage hlimit hget => simp [Renders, writesOnly, MessageRepository.create, Message.Renders]
  | @updateMessage messageId payload message updated hget happly =>
    have hnull : ¬NullsJson (.updateMessage messageId payload) := by
      intro hnull
      exact hok ⟨hnull, message, hget, by rw [happly]; rfl⟩
    obtain ⟨hentities, htopics⟩ := not_or.mp hnull
    obtain ⟨-, -, -, h₁, h₂⟩ := MessageUpdate.apply_eq_some happly
    obtain ⟨hold₁, hold₂⟩ := h.messages message (ofTenant_eq_some.mp hget).1
    have hrenders : updated.Renders := by
      constructor
      · rw [h₁]
        exact isSome_getD hentities hold₁
      · rw [h₂]
        exact isSome_getD htopics hold₂
    simpa [Renders, writesOnly] using hrenders
  | createRule => simp [Renders, writesOnly, RoutingRuleRepository.create, RoutingRule.Renders]
  | @updateRule ruleId payload record updated hget happly =>
    have hnull : ¬NullsJson (.updateRule ruleId payload) := by
      intro hnull
      exact hok ⟨hnull, record, hget, by rw [happly]; rfl⟩
    obtain ⟨hconditions, hpayload⟩ := not_or.mp hnull
    obtain ⟨-, -, h₁, h₂⟩ := RoutingRuleUpdate.apply_eq_some happly
    obtain ⟨hold₁, hold₂⟩ := h.routingRules record (ofTenant_eq_some.mp hget).1
    have hrenders : updated.Renders := by
      constructor
      · rw [h₁]
        exact isSome_getD hconditions hold₁
      · rw [h₂]
        exact isSome_getD hpayload hold₂
    simpa [Renders, writesOnly] using hrenders
  -- What is left deletes, or writes a row without a JSON column.
  | _ => simp [Renders, writesOnly]

theorem request_renders (lower : String → String) (inputs : Inputs) (h : Readable db) {r : Request}
    (hok : ¬(NullsJson r ∧ Lands lower db tenantId r)) : (r.work lower db tenantId inputs).Each Renders :=
  (r.work_hasEffect lower db tenantId inputs).each fun _ _ heffect => effect_renders h heffect hok

theorem job_renders (d : Deployment) (cache : AICache) (payload : Dict) (inputs : JobInputs) (h : Readable db)
    (event : JobEvent) : (event.handle d db cache payload inputs).1.Each Renders := by
  apply (event.handle_writes d db cache payload inputs).imp
  intro w hw
  cases hw with
  | annotate hjob => exact ⟨rfl, rfl⟩
  | @score job leadId lead scores hjob hget => exact h.leads lead (ofTenant_eq_some.mp hget).1
  | addScored hjob hget => rfl
  | @route event tenantId leadId lead decision htenant hget =>
    obtain ⟨owner, team, queue, hrouted⟩ := RoutingEngine.applyRoutingDecision_frame d.py lead decision
    rw [hrouted]
    exact h.leads lead (ofTenant_eq_some.mp hget).1
  | addRouted htenant hget => rfl
  | addEnrolled hread hsequence hlead => rfl
  | addExecuted hread => rfl
  -- What is left has no JSON column that a response shows.
  | _ => trivial

def Admitted (d : Deployment) (w : World) : Label → Prop
  | .request tenantId request inputs =>
    ¬(NullsJson request ∧ Lands d.py.lower w.db tenantId request ∧ inputs.calls.commit.takesEffect)
  | .job _ _ _ => True

theorem not_readable_of_set {α : Type} {key : α → Id} {p : α → Prop} {t : Table key} {old row : α}
    (hold : old ∈ t) (hid : key row = key old) (hrow : ¬p row) : ¬∀ a ∈ t.put row, p a :=
  fun h => hrow (h row (Table.mem_put_self hold hid.symm))

theorem work_of_nulls (lower : String → String) (inputs : Inputs) {r : Request} (hnull : NullsJson r)
    (hlands : Lands lower db tenantId r) :
    ∃ w, (∃ value after, r.work lower db tenantId inputs = .commits ⟨[w], value, [], after⟩) ∧
      ¬Readable (db.write w) := by
  cases r with
  | updateLead leadId payload =>
    obtain ⟨lead, hget, hlands⟩ := hlands
    obtain ⟨updated, happly⟩ := Option.isSome_iff_exists.mp hlands
    have hmem := (ofTenant_eq_some.mp hget).1
    have hid := (LeadUpdate.apply_eq_some happly).1
    obtain ⟨h₁, h₂⟩ := lead_applied happly
    refine ⟨.lead (.set updated), ?_, fun h => not_readable_of_set hmem hid ?_ h.leads⟩
    · rw [Request.work, LeadRequests.updateLead, hget]
      simp only [happly]
      exact ⟨_, _, rfl⟩
    · rintro ⟨hchannels, hfields⟩
      rcases hnull with hnull | hnull
      · have hvalue : (payload.normalized lower).allowedChannels = some none := hnull
        simp [h₁, hvalue] at hchannels
      · have hvalue : (payload.normalized lower).customFields = some none := hnull
        simp [h₂, hvalue] at hfields
  | updateTimelineEvent eventId payload =>
    obtain ⟨event, hget, hlands⟩ := hlands
    obtain ⟨updated, happly⟩ := Option.isSome_iff_exists.mp hlands
    have hmem := (ofTenant_eq_some.mp hget).1
    obtain ⟨hid, -, -, h₁⟩ := TimelineEventUpdate.apply_eq_some happly
    refine ⟨.timelineEvent (.set updated), ?_, fun h => not_readable_of_set hmem hid ?_ h.timeline⟩
    · rw [Request.work, LeadRequests.updateTimelineEvent, hget]
      simp only [happly]
      exact ⟨_, _, rfl⟩
    · have hvalue : payload.payload = some none := hnull
      simp [LeadTimelineEvent.Renders, h₁, hvalue]
  | updateSession sessionId payload =>
    obtain ⟨hfound, hexists⟩ := hlands
    obtain ⟨record, hget⟩ := Option.isSome_iff_exists.mp hfound
    have hmem := (ofTenant_eq_some.mp hget).1
    have hid : (payload.apply record).id = record.id := rfl
    refine ⟨.session (.set (payload.apply record)), ?_, fun h => not_readable_of_set hmem hid ?_ h.sessions⟩
    · rw [Request.work, ConversationService.updateSession, hget]
      simp only [if_pos hexists]
      exact ⟨_, _, rfl⟩
    · have hvalue : payload.metadata = some none := hnull
      simp [Session.Renders, SessionUpdate.apply, hvalue]
  | updateMessage messageId payload =>
    obtain ⟨message, hget, hlands⟩ := hlands
    obtain ⟨updated, happly⟩ := Option.isSome_iff_exists.mp hlands
    have hmem := (ofTenant_eq_some.mp hget).1
    obtain ⟨hid, -, -, h₁, h₂⟩ := MessageUpdate.apply_eq_some happly
    refine ⟨.message (.set updated), ?_, fun h => not_readable_of_set hmem hid ?_ h.messages⟩
    · rw [Request.work, ConversationService.updateMessage, hget]
      simp only [happly]
      exact ⟨_, _, rfl⟩
    · rintro ⟨hentities, htopics⟩
      rcases hnull with hnull | hnull
      · simp [h₁, hnull] at hentities
      · simp [h₂, hnull] at htopics
  | updateRule ruleId payload =>
    obtain ⟨record, hget, hlands⟩ := hlands
    obtain ⟨updated, happly⟩ := Option.isSome_iff_exists.mp hlands
    have hmem := (ofTenant_eq_some.mp hget).1
    obtain ⟨hid, -, h₁, h₂⟩ := RoutingRuleUpdate.apply_eq_some happly
    refine ⟨.routingRule (.set updated), ?_, fun h => not_readable_of_set hmem hid ?_ h.routingRules⟩
    · rw [Request.work, RoutingService.updateRule, hget]
      simp only [happly]
      exact ⟨_, _, rfl⟩
    · rintro ⟨hconditions, hpayload⟩
      rcases hnull with hnull | hnull
      · simp [h₁, hnull] at hconditions
      · simp [h₂, hnull] at hpayload
  | _ => exact absurd hnull id

variable {d : Deployment} {w w' : World} {label : Label}

theorem readable_iff_admitted (h : Readable w.db) (hstep : Step d w label w') :
    Readable w'.db ↔ Admitted d w label := by
  cases hstep with
  | request tenantId request inputs hids =>
    rw [World.afterRequest, Work.run_db]
    by_cases hbad : NullsJson request ∧ Lands d.py.lower w.db tenantId request
    · by_cases heffect : inputs.calls.commit.takesEffect
      · obtain ⟨x, ⟨value, after, hwork⟩, hnot⟩ := work_of_nulls d.py.lower inputs hbad.1 hbad.2
        rw [hwork, Work.written_of_committed rfl heffect]
        exact iff_of_false hnot fun hok => hok ⟨hbad.1, hbad.2, heffect⟩
      · have hlost : inputs.calls.commit.takesEffect = false := by simpa using heffect
        rw [Work.written_of_lost hlost]
        exact iff_of_true h fun hbad => heffect hbad.2.2
    · have hrenders := request_renders d.py.lower inputs h hbad
      exact iff_of_true (h.writeAll (Work.each_written hrenders)) fun hok => hbad ⟨hok.1, hok.2.1⟩
  | job job event inputs hjob hevent hids =>
    rw [World.afterJob, Work.run_db]
    exact iff_of_true (h.writeAll (Work.each_written (job_renders d w.cache job.payload inputs h event))) trivial

def Reads : Request → Prop
  | .listLeads _ => True
  | .getLead _ => True
  | .listTimelineEvents _ => True
  | .getTimelineEvent _ => True
  | .listSessions => True
  | .getSession _ => True
  | .listMessages _ => True
  | .getMessage _ => True
  | .listRules => True
  | .getRule _ => True
  | .listSequences => True
  | .getSequence _ => True
  | .listSteps _ => True
  | _ => False

theorem answer_of_some {settings : Settings} {calls : Calls} {work : Work (Option Reply)}
    (h : (∃ e, work = .refused e) ∨ ∃ reply, work = .answered (some reply)) :
    (work.run settings db calls).answer.rendered ≠ .raised := by
  rcases h with ⟨e, rfl⟩ | ⟨reply, rfl⟩
  · simp [Work.run, Answer.rendered]
  · simp [Work.run, Answer.rendered]

theorem answered_rows {α : Type} {p : α → Prop} [DecidablePred p] {rows : List α}
    (reply : List { a : α // p a } → Reply) (h : ∀ row ∈ rows, p row) :
    ∃ r, (Work.answered rows).map (fun rows => (modelValidateAll p rows).map reply) = .answered (some r) := by
  obtain ⟨rendered, hrendered⟩ := Option.isSome_iff_exists.mp (modelValidateAll_isSome h)
  exact ⟨reply rendered, by simp [Work.map, hrendered]⟩

theorem answered_row {α : Type} {p : α → Prop} [DecidablePred p] {row : α}
    (reply : { a : α // p a } → Reply) (h : p row) :
    ∃ r, (Work.answered row).map (fun row => (modelValidate p row).map reply) = .answered (some r) := by
  obtain ⟨rendered, hrendered⟩ := Option.isSome_iff_exists.mp (modelValidate_isSome.mpr h)
  exact ⟨reply rendered, by simp [Work.map, hrendered]⟩

theorem answer_of_reads (settings : Settings) (lower : String → String) (inputs : Inputs) (h : Readable db)
    {r : Request} (hr : Reads r) :
    ((r.work lower db tenantId inputs).run settings db inputs.calls).answer.rendered ≠ .raised := by
  apply answer_of_some
  cases r with
  | listLeads status =>
    exact .inr (answered_rows .leads fun l hl =>
      h.leads l (List.mem_filter.mp (List.mem_reverse.mp hl)).1)
  | getLead leadId =>
    rw [Request.work, LeadRequests.getLead]
    cases hget : LeadRepository.get db tenantId leadId with
    | none => exact .inl ⟨_, rfl⟩
    | some lead => exact .inr (answered_row .lead (h.leads lead (ofTenant_eq_some.mp hget).1))
  | listTimelineEvents leadId =>
    exact .inr (answered_rows .timelineEvents fun e he =>
      h.timeline e (List.mem_filter.mp (List.mem_reverse.mp he)).1)
  | getTimelineEvent eventId =>
    rw [Request.work, LeadRequests.getTimelineEvent]
    cases hget : LeadTimelineRepository.get db tenantId eventId with
    | none => exact .inl ⟨_, rfl⟩
    | some event => exact .inr (answered_row .timelineEvent (h.timeline event (ofTenant_eq_some.mp hget).1))
  | listSessions =>
    exact .inr (answered_rows .sessions fun s hs =>
      h.sessions s (List.mem_filter.mp (List.mem_reverse.mp hs)).1)
  | getSession sessionId =>
    rw [Request.work, ConversationService.getSession]
    cases hget : SessionRepository.get db tenantId sessionId with
    | none => exact .inl ⟨_, rfl⟩
    | some record => exact .inr (answered_row .session (h.sessions record (ofTenant_eq_some.mp hget).1))
  | listMessages sessionId =>
    exact .inr (answered_rows .messages fun m hm => h.messages m (List.mem_filter.mp hm).1)
  | getMessage messageId =>
    rw [Request.work, ConversationService.getMessage]
    cases hget : MessageRepository.get db tenantId messageId with
    | none => exact .inl ⟨_, rfl⟩
    | some message => exact .inr (answered_row .message (h.messages message (ofTenant_eq_some.mp hget).1))
  | listRules =>
    have hrules : ∀ r ∈ RoutingRuleRepository.listRules db tenantId, r.Renders := by
      intro r hr
      have hm := (List.perm_insertionSort _ _).mem_iff.mp hr
      exact h.routingRules r (List.mem_filter.mp hm).1
    exact .inr (answered_rows .rules hrules)
  | getRule ruleId =>
    rw [Request.work, RoutingService.getRule]
    cases hget : RoutingRuleRepository.get db tenantId ruleId with
    | none => exact .inl ⟨_, rfl⟩
    | some record => exact .inr (answered_row .rule (h.routingRules record (ofTenant_eq_some.mp hget).1))
  | listSequences => exact .inr ⟨_, rfl⟩
  | getSequence sequenceId =>
    rw [Request.work, SequenceRequests.getSequence]
    cases SequenceRepository.get db tenantId sequenceId with
    | none => exact .inl ⟨_, rfl⟩
    | some record => exact .inr ⟨_, rfl⟩
  | listSteps sequenceId =>
    rw [Request.work, SequenceRequests.listSteps]
    cases SequenceRepository.get db tenantId sequenceId with
    | none => exact .inr ⟨_, rfl⟩
    | some record => exact .inr ⟨_, rfl⟩
  | _ => exact absurd hr id

end ReadableRows

open ReadableRows

theorem every_row_readable (d : Deployment) (w₀ w : World) (labels : List Label) (h₀ : Readable w₀.db)
    (hrun : GuardedRun (Step d) (ReadableRows.Admitted d) w₀ labels w) :
    Readable w.db ∧
      (∀ label w', Step d w label w' → (Readable w'.db ↔ ReadableRows.Admitted d w label)) ∧
      ∀ tenantId request inputs, Reads request →
        ((request.work d.py.lower w.db tenantId inputs).run d.settings w.db inputs.calls).answer.rendered ≠
          .raised := by
  have h : Readable w.db := by
    apply hrun.invariant fun w => Readable w.db
    · intro w label w' h hok hstep
      exact (readable_iff_admitted h hstep).mpr hok
    · exact h₀
  refine ⟨h, fun label w' hstep => readable_iff_admitted h hstep, ?_⟩
  intro tenantId request inputs hreads
  exact answer_of_reads d.settings d.py.lower inputs h hreads

theorem ReadableRows.readable_empty : Readable {} where
  leads l hl := absurd hl (Table.not_mem_empty l)
  timeline e he := absurd he (Table.not_mem_empty e)
  sessions s hs := absurd hs (Table.not_mem_empty s)
  messages m hm := absurd hm (Table.not_mem_empty m)
  routingRules r hr := absurd hr (Table.not_mem_empty r)

def ReadableRows.ruleInputs : Inputs where
  newId _ := "rule-1"
  today := 1

def ReadableRows.demoRule : Request :=
  .createRule { name := "demo", action := "queue", actionPayload := [("queue_name", .str "sales")] }

theorem every_row_readable_disabled :
    ∃ w : World, Readable w.db ∧ w.db.routingRules.rows.map RoutingRule.enabled = [false] := by
  let off : Request := .updateRule "rule-1" { enabled := some (some false) }
  have hoff : ¬NullsJson off := by
    rintro (h | h)
    · cases h
    · cases h
  have hrun : GuardedRun (Step plainDeployment) (ReadableRows.Admitted plainDeployment) { db := {} }
      [.request "tenant-1" demoRule ruleInputs, .request "tenant-1" off ruleInputs] _ :=
    .cons (fun h => h.1) (.request _ _ _ (by decide +kernel))
      (.cons (fun h => hoff h.1) (.request _ _ _ (by decide +kernel)) (.nil _))
  exact ⟨_, (every_row_readable plainDeployment _ _ _ readable_empty hrun).1, by decide +kernel⟩

theorem rule_without_conditions_unreadable :
    ∃ w : World,
      Run (Step plainDeployment) { db := {} }
        [.request "tenant-1" demoRule ruleInputs,
          .request "tenant-1" (.updateRule "rule-1" { conditions := some none }) ruleInputs] w ∧
        ¬Readable w.db ∧
        ((Request.listRules.work plainDeployment.py.lower w.db "tenant-1" ruleInputs).run plainDeployment.settings
          w.db {}).answer.rendered = .raised := by
  refine ⟨_, .cons trivial (.request _ _ _ ?_) (.cons trivial (.request _ _ _ ?_) (.nil _)), ?_, ?_⟩
  · decide +kernel
  · decide +kernel
  · intro h
    have hall := h.routingRules
    revert hall
    decide +kernel
  · rfl

end Leadline
