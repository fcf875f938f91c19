import Leadline.Library.GuardedRun
import Leadline.Library.Histories
import Leadline.TenantReferences

namespace Leadline

open Library Table

namespace RowHistories

structure Progress (e e' : SequenceEnrollment) : Prop where
  tenantId : e'.tenantId = e.tenantId
  leadId : e'.leadId = e.leadId
  sequenceId : e'.sequenceId = e.sequenceId
  index : e.currentStepIndex ≤ e'.currentStepIndex
  completed : e.status = .completed → e'.status = .completed ∧ e'.currentStepIndex = e.currentStepIndex

def UsageGrows (usage usage' : Table UsageRecord.key) : Prop :=
  ∀ r ∈ usage, ∃ added, ({ r with usage := r.usage.add added } : UsageRecord) ∈ usage'

structure Later (used : List Id) (db db' : Db) : Prop where
  leads : db.leads.Evolves (Same Lead.tenantId) used db'.leads
  timeline : db.timeline.Evolves (Same fun e => (e.tenantId, e.leadId)) used db'.timeline
  sessions : db.sessions.Evolves (Same fun s => (s.tenantId, s.visitorId, s.startedAt)) used db'.sessions
  messages : db.messages.Evolves (Same fun m => (m.tenantId, m.sessionId)) used db'.messages
  routingRules : db.routingRules.Evolves (Same RoutingRule.tenantId) used db'.routingRules
  sequences : db.sequences.Evolves (Same Sequence.tenantId) used db'.sequences
  steps : db.steps.Evolves (Same SequenceStep.sequenceId) used db'.steps
  enrollments : db.enrollments.Evolves Progress used db'.enrollments
  connections : db.integrationConnections.Evolves (Same IntegrationConnection.tenantId) used
    db'.integrationConnections
  usage : UsageGrows db.usage db'.usage

def RowMoves {α : Type} {key : α → Id} (moves : α → α → Prop) (t : Table key) : RowWrite α → Prop
  | .set row => ∃ old ∈ t, key old = key row ∧ moves old row
  | _ => True

theorem RowMoves.evolves {α : Type} {key : α → Id} {moves : α → α → Prop} {used : List Id} {t t' : Table key}
    {w : RowWrite α} (hw : RowMoves moves t w) (hnew : ∀ id ∈ w.addedIds key, id ∉ used)
    (h : t.Evolves moves used t') : t.Evolves moves used (w.apply t') := by
  cases w with
  | add row => exact h.insert (hnew _ (List.mem_singleton_self _))
  | set row =>
    obtain ⟨old, hold, hkey, hmoves⟩ := hw
    exact h.put hold hkey hmoves
  | delete id => exact h.erase

def Moves (db : Db) : Write → Prop
  | .lead w => RowMoves (Same Lead.tenantId) db.leads w
  | .timelineEvent w => RowMoves (Same fun e => (e.tenantId, e.leadId)) db.timeline w
  | .session w => RowMoves (Same fun s => (s.tenantId, s.visitorId, s.startedAt)) db.sessions w
  | .message w => RowMoves (Same fun m => (m.tenantId, m.sessionId)) db.messages w
  | .routingRule w => RowMoves (Same RoutingRule.tenantId) db.routingRules w
  | .sequence w => RowMoves (Same Sequence.tenantId) db.sequences w
  | .step w => RowMoves (Same SequenceStep.sequenceId) db.steps w
  | .enrollment w => RowMoves Progress db.enrollments w
  | .connection w => RowMoves (Same IntegrationConnection.tenantId) db.integrationConnections w
  | .usage change => ∃ tenantId day added, change = UsageTrackingService.increment db tenantId day added

variable {used used' : List Id} {db db' db'' : Db} {w : Write} {usage usage' usage'' : Table UsageRecord.key}

theorem overwriteCounter_add (n x added : ℕ) : overwriteCounter (n + x) n added = n + overwriteCounter x 0 added := by
  unfold overwriteCounter
  split <;> omega

theorem overwrite_add (u x added : Usage) : (u.add x).overwrite u added = u.add (x.overwrite {} added) := by
  simp only [Usage.overwrite, Usage.add, overwriteCounter_add]

theorem UsageGrows.refl (usage : Table UsageRecord.key) : UsageGrows usage usage := by
  intro r hr
  exact ⟨{}, by simpa [Usage.add] using hr⟩

theorem UsageGrows.trans (h : UsageGrows usage usage') (h' : UsageGrows usage' usage'') :
    UsageGrows usage usage'' := by
  intro r hr
  obtain ⟨added, hmem⟩ := h r hr
  obtain ⟨added', hmem'⟩ := h' _ hmem
  refine ⟨added.add added', ?_⟩
  simpa [Usage.add, Nat.add_assoc] using hmem'

theorem UsageGrows.increment (h : UsageGrows db.usage usage) (tenantId : Id) (day : Day) (added : Usage) :
    UsageGrows db.usage ((UsageTrackingService.increment db tenantId day added).write usage) := by
  intro r hr
  obtain ⟨x, hmem⟩ := h r hr
  cases hfind : db.usage.find? (tenantId, day) with
  | none =>
    have hchange : UsageTrackingService.increment db tenantId day added = ⟨tenantId, day, true, {}, added⟩ := by
      rw [UsageTrackingService.increment, hfind]
    rw [hchange]
    exact ⟨x, mem_insert_of_mem hmem⟩
  | some record =>
    have hchange : UsageTrackingService.increment db tenantId day added =
        ⟨tenantId, day, false, record.usage, added⟩ := by
      rw [UsageTrackingService.increment, hfind]
    rw [hchange, UsageChange.write_seen rfl]
    by_cases hkey : r.key = (tenantId, day)
    · obtain ⟨hrecord, hsame⟩ := find?_eq_some_iff.mp hfind
      obtain rfl := eq_of_key_eq hr hrecord (hkey.trans hsame.symm)
      refine ⟨x.overwrite {} added, ?_⟩
      rw [← overwrite_add]
      exact mem_modify_self _ hmem hkey
    · refine ⟨x, (mem_modify_of_ne _ ?_).mpr hmem⟩
      exact hkey

theorem Progress.refl (e : SequenceEnrollment) : Progress e e := ⟨rfl, rfl, rfl, Nat.le_refl _, fun h => ⟨h, rfl⟩⟩

theorem Progress.trans (e e' e'' : SequenceEnrollment) (h : Progress e e') (h' : Progress e' e'') : Progress e e'' where
  tenantId := h'.tenantId.trans h.tenantId
  leadId := h'.leadId.trans h.leadId
  sequenceId := h'.sequenceId.trans h.sequenceId
  index := h.index.trans h'.index
  completed hdone := by
    obtain ⟨hstatus, hindex⟩ := h.completed hdone
    obtain ⟨hstatus', hindex'⟩ := h'.completed hstatus
    exact ⟨hstatus', hindex'.trans hindex⟩

theorem Later.refl (used : List Id) (db : Db) : Later used db db where
  leads := .refl (Same.refl _) used _
  timeline := .refl (Same.refl _) used _
  sessions := .refl (Same.refl _) used _
  messages := .refl (Same.refl _) used _
  routingRules := .refl (Same.refl _) used _
  sequences := .refl (Same.refl _) used _
  steps := .refl (Same.refl _) used _
  enrollments := .refl Progress.refl used _
  connections := .refl (Same.refl _) used _
  usage := .refl _

theorem Later.trans (hused : ∀ id ∈ used, id ∈ used') (h : Later used db db') (h' : Later used' db' db'') :
    Later used db db'' where
  leads := h.leads.trans (Same.trans _) hused h'.leads
  timeline := h.timeline.trans (Same.trans _) hused h'.timeline
  sessions := h.sessions.trans (Same.trans _) hused h'.sessions
  messages := h.messages.trans (Same.trans _) hused h'.messages
  routingRules := h.routingRules.trans (Same.trans _) hused h'.routingRules
  sequences := h.sequences.trans (Same.trans _) hused h'.sequences
  steps := h.steps.trans (Same.trans _) hused h'.steps
  enrollments := h.enrollments.trans Progress.trans hused h'.enrollments
  connections := h.connections.trans (Same.trans _) hused h'.connections
  usage := h.usage.trans h'.usage

theorem Later.write (h : Later used db db') (hw : Moves db w) (hnew : ∀ id ∈ w.addedIds, id ∉ used) :
    Later used db (db'.write w) := by
  cases w with
  | lead w =>
    have hleads := RowMoves.evolves hw hnew h.leads
    cases w with
    | add row => exact { h with leads := hleads }
    | set row => exact { h with leads := hleads }
    | delete id =>
      exact { h with
        leads := hleads
        timeline := h.timeline.filter
        enrollments := h.enrollments.filter
        sessions := h.sessions.mapRows (LeadService.detachFrom_id id) fun _ _ hmoves => hmoves }
  | timelineEvent w => exact { h with timeline := RowMoves.evolves hw hnew h.timeline }
  | session w =>
    have hsessions := RowMoves.evolves hw hnew h.sessions
    cases w with
    | add row => exact { h with sessions := hsessions }
    | set row => exact { h with sessions := hsessions }
    | delete id => exact { h with sessions := hsessions, messages := h.messages.filter }
  | message w => exact { h with messages := RowMoves.evolves hw hnew h.messages }
  | routingRule w => exact { h with routingRules := RowMoves.evolves hw hnew h.routingRules }
  | sequence w =>
    have hsequences := RowMoves.evolves hw hnew h.sequences
    cases w with
    | add row => exact { h with sequences := hsequences }
    | set row => exact { h with sequences := hsequences }
    | delete id =>
      exact { h with
        sequences := hsequences
        steps := h.steps.filter
        enrollments := h.enrollments.filter }
  | step w => exact { h with steps := RowMoves.evolves hw hnew h.steps }
  | enrollment w => exact { h with enrollments := RowMoves.evolves hw hnew h.enrollments }
  | connection w => exact { h with connections := RowMoves.evolves hw hnew h.connections }
  | usage change =>
    obtain ⟨tenantId, day, added, rfl⟩ := hw
    exact { h with usage := h.usage.increment tenantId day added }

theorem Later.writeAll {writes : List Write} (h : Later used db db') (hw : ∀ w ∈ writes, Moves db w)
    (hnew : ∀ id ∈ writes.flatMap Write.addedIds, id ∉ used) : Later used db (db'.writeAll writes) := by
  induction writes generalizing db' with
  | nil => exact h
  | cons w writes ih =>
    have hfirst := h.write (hw w List.mem_cons_self) fun id hid =>
      hnew id (List.mem_flatMap.mpr ⟨w, List.mem_cons_self, hid⟩)
    apply ih hfirst
    · exact fun x hx => hw x (List.mem_cons_of_mem w hx)
    · intro id hid
      rw [List.flatMap_cons] at hnew
      exact hnew id (List.mem_append_right _ hid)

section Transactions

variable {tenantId : Id}

theorem moves_of_get {α : Type} {key owner : α → Id} {moves : α → α → Prop} {t : Table key} {id : Id} {old row : α}
    (h : ofTenant owner t tenantId id = some old) (hkey : key row = key old) (hmoves : moves old row) :
    RowMoves moves t (.set row) :=
  ⟨old, (ofTenant_eq_some.mp h).1, hkey.symm, hmoves⟩

theorem effect_moves {lower : String → String} {inputs : Inputs} {r : Request} {writes : List Write}
    {after : List QueueJob} (h : r.Effect lower db tenantId inputs writes after) : ∀ w ∈ writes, Moves db w := by
  have hone : ∀ w, Moves db w → ∀ x ∈ [w], Moves db x := by
    intro w hw x hx
    rwa [List.mem_singleton.mp hx]
  cases h with
  | @createLead payload new hlimit hnew hrows =>
    subst hrows
    intro w hw
    simp only [List.mem_cons, List.not_mem_nil, or_false] at hw
    rcases hw with rfl | rfl | rfl
    · trivial
    · trivial
    · exact ⟨tenantId, inputs.today, _, rfl⟩
  | createSession hlimit hlead =>
    intro w hw
    simp only [List.mem_cons, List.not_mem_nil, or_false] at hw
    rcases hw with rfl | rfl
    · trivial
    · exact ⟨tenantId, inputs.today, _, rfl⟩
  | updateLead hget happly =>
    obtain ⟨hid, ho, -, -⟩ := LeadUpdate.apply_eq_some happly
    exact hone _ (moves_of_get hget hid ho)
  | updateTimelineEvent hget happly =>
    obtain ⟨hid, ho, hlead, -⟩ := TimelineEventUpdate.apply_eq_some happly
    exact hone _ (moves_of_get hget hid (Prod.ext ho hlead))
  | attachSession hlead hget => exact hone _ (moves_of_get hget rfl rfl)
  | updateSession hget hlead => exact hone _ (moves_of_get hget rfl rfl)
  | updateMessage hget happly =>
    obtain ⟨hid, ho, hsession, -⟩ := MessageUpdate.apply_eq_some happly
    exact hone _ (moves_of_get hget hid (Prod.ext ho hsession))
  | updateRule hget happly =>
    obtain ⟨hid, ho, -⟩ := RoutingRuleUpdate.apply_eq_some happly
    exact hone _ (moves_of_get hget hid ho)
  | updateSequence hget happly =>
    obtain ⟨hid, ho⟩ := SequenceUpdate.apply_eq_some happly
    exact hone _ (moves_of_get hget hid ho)
  | updateStep hfind happly =>
    obtain ⟨hid, ho⟩ := SequenceStepUpdate.apply_eq_some happly
    obtain ⟨-, hmem, -⟩ := TenantReferences.findStep_eq_some hfind
    exact hone _ ⟨_, hmem, hid.symm, ho⟩
  | _ => exact hone _ trivial

theorem writes_moves {d : Deployment} {payload : Dict} {inputs : JobInputs} {event : JobEvent}
    (h : event.Writes d db payload inputs w) : Moves db w := by
  cases h with
  | annotate hjob =>
    obtain ⟨-, -, -, hmem, -⟩ := readAnalysisJob_eq_some hjob
    exact ⟨_, hmem, rfl, rfl⟩
  | countAnalysis hjob => exact ⟨_, _, _, rfl⟩
  | score hjob hget => exact moves_of_get hget rfl rfl
  | @route event other leadId lead decision ht hget =>
    obtain ⟨owner, team, queue, hframe⟩ := RoutingEngine.applyRoutingDecision_frame d.py lead decision
    rw [hframe]
    exact moves_of_get hget rfl rfl
  | @complete enrollment hread =>
    obtain ⟨_, -, -, hget⟩ := finished_eq_some hread
    exact moves_of_get hget rfl ⟨rfl, rfl, rfl, Nat.le_refl _, fun _ => ⟨rfl, rfl⟩⟩
  | countDelivery hread hadded => exact ⟨_, _, _, rfl⟩
  | @advance work hread =>
    have hwork := readFrom_of_execute hread
    refine ⟨work.enrollment, (find?_eq_some_iff.mp hwork.row).1, rfl, rfl, rfl, rfl, Nat.le_succ _, ?_⟩
    intro hdone
    rw [hwork.active] at hdone
    cases hdone
  | @reconnect event old connection ht hold hid howner => exact ⟨old, hold, hid.symm, howner.symm⟩
  | _ => trivial

theorem later_of_run {α : Type} {work : Work α} {settings : Settings} {calls : Calls} (hmoves : work.Each (Moves db))
    (hnew : ∀ id ∈ work.newIds, id ∉ used) : Later used db (work.run settings db calls).db := by
  rw [Work.run_db]
  apply (Later.refl used db).writeAll
  · exact Work.each_written hmoves
  · rcases Work.written_or_nil settings calls work with hnone | ⟨c, rfl, hall⟩
    · simp [hnone]
    · rw [hall]
      exact hnew

end Transactions

variable {d : Deployment} {w₁ w₂ : World} {label : Label}

theorem step_ids (h : Step d w₁ label w₂) : ∀ id ∈ w₁.ids, id ∈ w₂.ids := by
  cases h with
  | request tenantId request inputs hids => exact fun id hid => List.mem_append_left _ hid
  | job job event inputs hjob hevent hids => exact fun id hid => List.mem_append_left _ hid

theorem step_later (h : Step d w₁ label w₂) : Later w₁.ids w₁.db w₂.db := by
  cases h with
  | request tenantId request inputs hids =>
    apply later_of_run _ hids.2
    exact (request.work_hasEffect d.py.lower w₁.db tenantId inputs).each fun _ _ => effect_moves
  | job job event inputs hjob hevent hids =>
    apply later_of_run _ hids.2
    exact (event.handle_writes d w₁.db w₁.cache job.payload inputs).imp fun _ => writes_moves

theorem run_later {labels : List Label} (h : Run (Step d) w₁ labels w₂) : Later w₁.ids w₁.db w₂.db := by
  have hboth : (∀ id ∈ w₁.ids, id ∈ w₂.ids) ∧ Later w₁.ids w₁.db w₂.db := by
    apply h.invariant fun w => (∀ id ∈ w₁.ids, id ∈ w.ids) ∧ Later w₁.ids w₁.db w.db
    · rintro w label w' ⟨hids, hlater⟩ _ hstep
      exact ⟨fun id hid => step_ids hstep id (hids id hid), hlater.trans hids (step_later hstep)⟩
    · exact ⟨fun _ => id, Later.refl _ _⟩
  exact hboth.2

end RowHistories

open RowHistories

theorem rows_only_move_forward (d : Deployment) (w₁ w₂ : World) (labels : List Label)
    (hrun : Run (Step d) w₁ labels w₂) :
    Later w₁.ids w₁.db w₂.db ∧
      ∀ e ∈ w₁.db.enrollments, ∀ e' ∈ w₂.db.enrollments, e'.id = e.id → e.id ∈ w₁.ids → Progress e e' := by
  have hlater := run_later hrun
  refine ⟨hlater, ?_⟩
  intro e he e' he' hid hused
  rcases hlater.enrollments e' he' with ⟨old, hold, hkey, hprogress⟩ | hnew
  · rwa [← eq_of_key_eq hold he (hkey.trans hid)]
  · rw [hid] at hnew
    exact absurd hused hnew

namespace RowHistories

def drawing (first second : Id) : Inputs where
  newId k := if k = 0 then first else second
  today := 1

def enrolled : World :=
  ((({ db := {} } : World).afterRequest plainDeployment "tenant-a" (.createLead { name := some "Ada" })
        (drawing "lead-1" "event-1")).afterRequest plainDeployment "tenant-a"
      (.createSequence { name := "Welcome", trigger := "lead_created" }) (drawing "sequence-1" "")).afterRequest
    plainDeployment "tenant-a" (.enrollLead "sequence-1" "lead-1") (drawing "enrollment-1" "")

def stepInputs : JobInputs where
  newId _ := "event-2"
  today := 2

def finished : World :=
  enrolled.afterJob plainDeployment (stepJob "tenant-a" "enrollment-1") .sequenceStepExecute stepInputs

theorem finished_run : Run (Step plainDeployment) enrolled
    [.job (stepJob "tenant-a" "enrollment-1") .sequenceStepExecute stepInputs] finished := by
  apply GuardedRun.cons trivial ?_ (.nil _)
  apply Step.job
  · apply List.mem_append_right
    exact List.mem_singleton_self _
  · decide +kernel
  · decide +kernel

end RowHistories

theorem rows_only_move_forward_enrolled :
    finished.db.enrollments.rows.map SequenceEnrollment.status = [.completed] ∧
      Later enrolled.ids enrolled.db finished.db :=
  ⟨by decide +kernel, (rows_only_move_forward plainDeployment _ _ _ finished_run).1⟩

end Leadline
