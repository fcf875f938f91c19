import Leadline.RowHistories

namespace Leadline

open Library Table

namespace ForeignKeys

abbrev Has {α : Type} {key : α → Id} (t : Table key) (k : Id) : Prop := t.Owns (fun _ => ()) () k

abbrev Refers {α β : Type} {key : α → Id} {key' : β → Id} (ref : α → Option Id) (t : Table key) (parents : Table key') :
    Prop :=
  RefersWithin (fun _ => ()) ref t (fun _ => ()) parents

/-- The six foreign keys of `app/models` that go to leads, sessions and sequences. Those of `tenant_id` to tenants and
of the owner of a lead to users are not among them: the requests do not look either row up. -/
structure Referenced (db : Db) : Prop where
  eventLead : Refers (fun e => some e.leadId) db.timeline db.leads
  sessionLead : Refers Session.leadId db.sessions db.leads
  messageSession : Refers (fun m => some m.sessionId) db.messages db.sessions
  stepSequence : Refers (fun s => some s.sequenceId) db.steps db.sequences
  enrollmentLead : Refers (fun e => some e.leadId) db.enrollments db.leads
  enrollmentSequence : Refers (fun e => some e.sequenceId) db.enrollments db.sequences

section Rows

variable {α β : Type} {key : α → Id} {key' : β → Id} {t : Table key} {parents : Table key'} {ref : α → Option Id}
  {a : α} {k tenantId id : Id} {owner : α → Id}

theorem has_of_mem (h : a ∈ t) : Has t (key a) := ⟨a, h, rfl, rfl⟩

theorem has_of_get (h : ofTenant owner t tenantId id = some a) : Has t id := by
  obtain ⟨hmem, hid, -⟩ := ofTenant_eq_some.mp h
  exact ⟨a, hmem, hid, rfl⟩

theorem has_insert_self (t : Table key) (a : α) : Has (t.insert a) (key a) := by
  by_cases hfresh : t.Fresh (key a)
  · exact ⟨a, (mem_insert hfresh).mpr (.inr rfl), rfl, rfl⟩
  · rw [insert_of_not_fresh hfresh]
    simp only [Fresh, not_forall, not_not] at hfresh
    obtain ⟨b, hb, hkey⟩ := hfresh
    exact ⟨b, hb, hkey, rfl⟩

theorem has_apply {w : RowWrite α} (hgrows : TenantWrites.grows w) (h : Has t k) : Has (w.apply t) k := by
  cases w with
  | add row => exact Owns.insert h
  | set row =>
    obtain ⟨b, hb, rfl, -⟩ := h
    by_cases hkey : key b = key row
    · exact ⟨row, mem_put_self hb hkey, hkey.symm, rfl⟩
    · exact ⟨b, mem_put.mpr ⟨b, hb, by rw [if_neg hkey]⟩, rfl, rfl⟩
  | delete id => exact hgrows.elim

def RowRefs (ref : α → Option Id) (parents : Table key') : RowWrite α → Prop
  | .add row => ∀ k ∈ ref row, Has parents k
  | .set row => ∀ k ∈ ref row, Has parents k
  | .delete _ => True

theorem RowRefs.refers {w : RowWrite α} (hw : RowRefs ref parents w) (h : Refers ref t parents) :
    Refers ref (w.apply t) parents := by
  apply h.of_mem
  intro a ha
  cases w with
  | add row =>
    rcases mem_of_mem_insert ha with hold | rfl
    · exact .inl hold
    · exact .inr hw
  | set row =>
    rcases mem_of_mem_put ha with rfl | ⟨hold, -⟩
    · exact .inr hw
    · exact .inl hold
  | delete id => exact .inl (mem_erase.mp ha).1

theorem RowRefs.mono {parents' : Table key'} {w : RowWrite α} (h : RowRefs ref parents w)
    (hkeep : ∀ k, Has parents k → Has parents' k) : RowRefs ref parents' w := by
  cases w with
  | add row => exact fun k hk => hkeep k (h k hk)
  | set row => exact fun k hk => hkeep k (h k hk)
  | delete id => trivial

end Rows

def Anchored (db : Db) : Write → Prop
  | .timelineEvent w => RowRefs (fun e => some e.leadId) db.leads w
  | .session w => RowRefs Session.leadId db.leads w
  | .message w => RowRefs (fun m => some m.sessionId) db.sessions w
  | .step w => RowRefs (fun s => some s.sequenceId) db.sequences w
  | .enrollment w =>
    RowRefs (fun e => some e.leadId) db.leads w ∧ RowRefs (fun e => some e.sequenceId) db.sequences w
  | _ => True

structure Parents (db db' : Db) : Prop where
  leads : ∀ k, Has db.leads k → Has db'.leads k
  sessions : ∀ k, Has db.sessions k → Has db'.sessions k
  sequences : ∀ k, Has db.sequences k → Has db'.sequences k

variable {db db' : Db} {w : Write}

theorem Parents.refl (db : Db) : Parents db db := ⟨fun _ => id, fun _ => id, fun _ => id⟩

theorem Parents.write (h : Parents db db') (hgrows : TenantWrites.Grows w) : Parents db (db'.write w) := by
  cases w with
  | lead w =>
    cases w with
    | delete id => exact hgrows.elim
    | _ => exact { h with leads := fun k hk => has_apply hgrows (h.leads k hk) }
  | session w =>
    cases w with
    | delete id => exact hgrows.elim
    | _ => exact { h with sessions := fun k hk => has_apply hgrows (h.sessions k hk) }
  | sequence w =>
    cases w with
    | delete id => exact hgrows.elim
    | _ => exact { h with sequences := fun k hk => has_apply hgrows (h.sequences k hk) }
  | _ => exact { h with }

theorem Anchored.mono (h : Anchored db w) (hkeep : Parents db db') : Anchored db' w := by
  cases w with
  | timelineEvent w => exact RowRefs.mono h hkeep.leads
  | session w => exact RowRefs.mono h hkeep.leads
  | message w => exact RowRefs.mono h hkeep.sessions
  | step w => exact RowRefs.mono h hkeep.sequences
  | enrollment w => exact ⟨h.1.mono hkeep.leads, h.2.mono hkeep.sequences⟩
  | _ => trivial

theorem Referenced.removeLead (h : Referenced db) (leadId : Id) : Referenced (LeadService.removeLead db leadId) where
  eventLead := h.eventLead.cascade fun e _ hp => by simpa using hp
  sessionLead := by
    intro s hs k hk
    obtain ⟨old, hold, rfl⟩ := LeadService.mem_sessions_removeLead.mp hs
    obtain ⟨hlead, hne⟩ := Option.filter_eq_some_iff.mp hk
    exact (h.sessionLead old hold k hlead).erase (of_decide_eq_true hne)
  messageSession := by
    apply h.messageSession.retarget
    intro m _ k _ hown
    rw [LeadService.sessions_removeLead]
    exact hown.mapRows fun _ => rfl
  stepSequence := h.stepSequence
  enrollmentLead := h.enrollmentLead.cascade fun e _ hp => by simpa using hp
  enrollmentSequence := h.enrollmentSequence.filter

theorem Referenced.write (h : Referenced db) (hw : Anchored db w) : Referenced (db.write w) := by
  cases w with
  | lead w =>
    have hgrow : TenantWrites.grows w → Referenced { db with leads := w.apply db.leads } := by
      intro hgrows
      exact { h with
        eventLead := h.eventLead.retarget fun _ _ _ _ => has_apply hgrows
        sessionLead := h.sessionLead.retarget fun _ _ _ _ => has_apply hgrows
        enrollmentLead := h.enrollmentLead.retarget fun _ _ _ _ => has_apply hgrows }
    cases w with
    | add row => exact hgrow trivial
    | set row => exact hgrow trivial
    | delete id => exact h.removeLead id
  | timelineEvent w => exact { h with eventLead := RowRefs.refers hw h.eventLead }
  | session w =>
    have hrefers := RowRefs.refers hw h.sessionLead
    have hgrow : TenantWrites.grows w → Referenced { db with sessions := w.apply db.sessions } := by
      intro hgrows
      exact { h with
        sessionLead := hrefers
        messageSession := h.messageSession.retarget fun _ _ _ _ => has_apply hgrows }
    cases w with
    | add row => exact hgrow trivial
    | set row => exact hgrow trivial
    | delete id =>
      exact { h with
        sessionLead := hrefers
        messageSession := h.messageSession.cascade fun m _ hp => by simpa using hp }
  | message w => exact { h with messageSession := RowRefs.refers hw h.messageSession }
  | routingRule w => exact { h with }
  | sequence w =>
    have hgrow : TenantWrites.grows w → Referenced { db with sequences := w.apply db.sequences } := by
      intro hgrows
      exact { h with
        stepSequence := h.stepSequence.retarget fun _ _ _ _ => has_apply hgrows
        enrollmentSequence := h.enrollmentSequence.retarget fun _ _ _ _ => has_apply hgrows }
    cases w with
    | add row => exact hgrow trivial
    | set row => exact hgrow trivial
    | delete id =>
      exact { h with
        stepSequence := h.stepSequence.cascade fun s _ hp => by simpa using hp
        enrollmentLead := h.enrollmentLead.filter
        enrollmentSequence := h.enrollmentSequence.cascade fun e _ hp => by simpa using hp }
  | step w => exact { h with stepSequence := RowRefs.refers hw h.stepSequence }
  | enrollment w =>
    exact { h with
      enrollmentLead := RowRefs.refers hw.1 h.enrollmentLead
      enrollmentSequence := RowRefs.refers hw.2 h.enrollmentSequence }
  | connection w => exact { h with }
  | usage change => exact { h with }

theorem Referenced.writeAll {writes : List Write} (h : Referenced db') (hparents : Parents db db')
    (hgrows : ∀ w ∈ writes, TenantWrites.Grows w) (hw : ∀ w ∈ writes, Anchored db w) :
    Referenced (db'.writeAll writes) := by
  induction writes generalizing db' with
  | nil => exact h
  | cons w writes ih =>
    have hfirst := h.write ((hw w List.mem_cons_self).mono hparents)
    apply ih hfirst (hparents.write (hgrows w List.mem_cons_self))
    · exact fun x hx => hgrows x (List.mem_cons_of_mem w hx)
    · exact fun x hx => hw x (List.mem_cons_of_mem w hx)

theorem refs_one {k : Id} {p : Id → Prop} (h : p k) : ∀ x ∈ some k, p x := TenantReferences.refs_of_mem h

theorem Referenced.one (h : Referenced db) (hw : Anchored db w) : Referenced (db.writeAll [w]) := h.write hw

theorem effect_referenced {lower : String → String} {tenantId : Id} {inputs : Inputs} {r : Request}
    {writes : List Write} {after : List QueueJob} (h : Referenced db)
    (heffect : r.Effect lower db tenantId inputs writes after) : Referenced (db.writeAll writes) := by
  cases heffect with
  | @createLead payload new hlimit hnew hrows =>
    subst hrows
    let lead := LeadRepository.create (inputs.newId 0) tenantId (payload.normalized lower)
    have hlead : Referenced (db.write (.lead (.add lead))) := h.write trivial
    have hadded : Has (db.write (.lead (.add lead))).leads lead.id := has_insert_self _ _
    let new := LeadService.newLead db tenantId (inputs.newId 0) (inputs.newId 1) inputs.today (payload.normalized lower)
    have hevent : Anchored (db.write (.lead (.add lead))) (.timelineEvent (.add new.event)) := refs_one hadded
    exact (hlead.write hevent).write (w := .usage new.usage) trivial
  | createTimelineEvent hget => exact h.one (refs_one (has_of_get hget))
  | @updateTimelineEvent eventId payload event updated hget happly =>
    obtain ⟨-, -, hlead, -⟩ := TimelineEventUpdate.apply_eq_some happly
    apply h.one
    apply refs_one
    rw [hlead]
    exact h.eventLead event (ofTenant_eq_some.mp hget).1 _ rfl
  | attachSession hlead hget => exact h.one (refs_one (has_of_get hlead))
  | @createSession payload hlimit hexists =>
    have hsession : ∀ k ∈ (SessionRepository.create (inputs.newId 0) tenantId payload).leadId, Has db.leads k := by
      intro k hk
      obtain ⟨l, hl⟩ := Option.isSome_iff_exists.mp (hexists k hk)
      obtain ⟨hmem, hid⟩ := find?_eq_some_iff.mp hl
      exact ⟨l, hmem, hid, rfl⟩
    exact (h.write (w := .session (.add _)) hsession).write (w := .usage _) trivial
  | @updateSession sessionId payload record hget hexists =>
    apply h.one
    intro k hk
    cases hbody : payload.leadId with
    | none =>
      rw [SessionUpdate.apply, hbody] at hk
      exact h.sessionLead record (ofTenant_eq_some.mp hget).1 k hk
    | some leadId =>
      rw [SessionUpdate.apply, hbody] at hk
      have hjoin : k ∈ payload.leadId.join := by
        rw [hbody]
        exact hk
      obtain ⟨l, hl⟩ := Option.isSome_iff_exists.mp (hexists k hjoin)
      obtain ⟨hmem, hid⟩ := find?_eq_some_iff.mp hl
      exact ⟨l, hmem, hid, rfl⟩
  | createMessage hlimit hget => exact h.one (refs_one (has_of_get hget))
  | @updateMessage messageId payload message updated hget happly =>
    obtain ⟨-, -, hsession, -⟩ := MessageUpdate.apply_eq_some happly
    apply h.one
    apply refs_one
    rw [hsession]
    exact h.messageSession message (ofTenant_eq_some.mp hget).1 _ rfl
  | createStep hget => exact h.one (refs_one (has_of_get hget))
  | @updateStep sequenceId stepId payload record updated hfind happly =>
    obtain ⟨-, hsequence⟩ := SequenceStepUpdate.apply_eq_some happly
    obtain ⟨-, hmem, -⟩ := TenantReferences.findStep_eq_some hfind
    apply h.one
    apply refs_one
    rw [hsequence]
    exact h.stepSequence record hmem _ rfl
  | enrollLead henroll =>
    obtain ⟨hsequence, hlead, rfl⟩ := SequenceService.enroll_eq_some.mp henroll
    obtain ⟨_, hsequence⟩ := Option.isSome_iff_exists.mp hsequence
    obtain ⟨_, hlead⟩ := Option.isSome_iff_exists.mp hlead
    exact h.one ⟨refs_one (has_of_get hlead), refs_one (has_of_get hsequence)⟩
  | deleteSession hget => exact h.one trivial
  | deleteTimelineEvent hget => exact h.one trivial
  | deleteMessage hget => exact h.one trivial
  | deleteStep hfind => exact h.one trivial
  | _ => exact h.one trivial

theorem writes_anchored {d : Deployment} {payload : Dict} {inputs : JobInputs} {event : JobEvent} (h : Referenced db)
    (hw : event.Writes d db payload inputs w) : TenantWrites.Grows w ∧ Anchored db w := by
  have hrefs : ∀ e ∈ db.enrollments, RowRefs (fun e => some e.leadId) db.leads (.set e) ∧
      RowRefs (fun e => some e.sequenceId) db.sequences (.set e) :=
    fun e he => ⟨h.enrollmentLead e he, h.enrollmentSequence e he⟩
  cases hw with
  | @annotate job understanding hjob =>
    obtain ⟨-, -, -, hmem, -⟩ := readAnalysisJob_eq_some hjob
    exact ⟨trivial, h.messageSession job.message hmem⟩
  | addScored hjob hget => exact ⟨trivial, refs_one (has_of_mem (ofTenant_eq_some.mp hget).1)⟩
  | addRouted ht hget => exact ⟨trivial, refs_one (has_of_mem (ofTenant_eq_some.mp hget).1)⟩
  | @enroll other leadId id sequences sequence hread hsequence hexists =>
    obtain ⟨trigger, -, -, -, rfl⟩ := SequenceTriggers.readTriggerJob_reads hread
    obtain ⟨l, hl⟩ := Option.isSome_iff_exists.mp (hexists leadId rfl)
    obtain ⟨hmem, hid⟩ := find?_eq_some_iff.mp hl
    exact ⟨trivial, refs_one ⟨l, hmem, hid, rfl⟩, refs_one (has_of_mem (List.mem_filter.mp hsequence).1)⟩
  | @addEnrolled other leadId id eventId sequences sequence hread hsequence hexists =>
    obtain ⟨l, hl⟩ := Option.isSome_iff_exists.mp (hexists leadId rfl)
    obtain ⟨hmem, hid⟩ := find?_eq_some_iff.mp hl
    exact ⟨trivial, refs_one ⟨l, hmem, hid, rfl⟩⟩
  | @complete e hread =>
    obtain ⟨_, -, -, hget⟩ := finished_eq_some hread
    exact ⟨trivial, hrefs e (ofTenant_eq_some.mp hget).1⟩
  | addExecuted hread =>
    exact ⟨trivial, refs_one (has_of_mem (ofTenant_eq_some.mp (readFrom_of_execute hread).lead).1)⟩
  | @advance work hread =>
    exact ⟨trivial, hrefs work.enrollment (find?_eq_some_iff.mp (readFrom_of_execute hread).row).1⟩
  | _ => exact ⟨trivial, trivial⟩

variable {d : Deployment} {v v' : World} {label : Label}

theorem Referenced.step (h : Referenced v.db) (hstep : Step d v label v') : Referenced v'.db := by
  cases hstep with
  | request tenantId request inputs hids =>
    have heffect := request.work_hasEffect d.py.lower v.db tenantId inputs
    rw [World.afterRequest, Work.run_db]
    rcases heffect.written d.settings inputs.calls with hnone | ⟨after, heffect⟩
    · rw [hnone]
      exact h
    · exact effect_referenced h heffect
  | job job event inputs hjob hevent hids =>
    have hwrites := event.handle_writes d v.db v.cache job.payload inputs
    have hanchored : ∀ w ∈ (event.handle d v.db v.cache job.payload inputs).1.written d.settings inputs.calls,
        TenantWrites.Grows w ∧ Anchored v.db w :=
      Work.each_written (hwrites.imp fun _ => writes_anchored h)
    rw [World.afterJob, Work.run_db]
    exact h.writeAll (.refl v.db) (fun w hw => (hanchored w hw).1) fun w hw => (hanchored w hw).2

theorem leadIds_write {ids : List Id} (h : ∀ l ∈ db.leads, l.id ∈ ids) (hadded : ∀ id ∈ w.addedIds, id ∈ ids) :
    ∀ l ∈ (db.write w).leads, l.id ∈ ids := by
  cases w with
  | lead w =>
    have hkeys := RowWrite.key_mem_of_apply h hadded
    cases w with
    | _ => exact hkeys
  | session w =>
    cases w with
    | _ => exact h
  | sequence w =>
    cases w with
    | _ => exact h
  | _ => exact h

theorem leadIds_writeAll {ids : List Id} {writes : List Write} (h : ∀ l ∈ db.leads, l.id ∈ ids)
    (hadded : ∀ id ∈ writes.flatMap Write.addedIds, id ∈ ids) : ∀ l ∈ (db.writeAll writes).leads, l.id ∈ ids := by
  induction writes generalizing db with
  | nil => exact h
  | cons w writes ih =>
    rw [List.flatMap_cons] at hadded
    exact ih (leadIds_write h fun id hid => hadded id (List.mem_append_left _ hid)) fun id hid =>
      hadded id (List.mem_append_right _ hid)

theorem leadIds_run {α : Type} {ids : List Id} {work : Work α} (h : ∀ l ∈ db.leads, l.id ∈ ids) (settings : Settings)
    (calls : Calls) : ∀ l ∈ (work.run settings db calls).db.leads, l.id ∈ ids ++ work.newIds := by
  have hold : ∀ l ∈ db.leads, l.id ∈ ids ++ work.newIds := fun l hl => List.mem_append_left _ (h l hl)
  rw [Work.run_db]
  rcases Work.written_or_nil settings calls work with hnone | ⟨c, rfl, hall⟩
  · rw [hnone]
    exact hold
  · rw [hall]
    exact leadIds_writeAll hold fun id hid => List.mem_append_right _ hid

structure Kept (v : World) : Prop where
  referenced : Referenced v.db
  leadIds : ∀ l ∈ v.db.leads, l.id ∈ v.ids

theorem Kept.step (h : Kept v) (hstep : Step d v label v') : Kept v' := by
  refine ⟨h.referenced.step hstep, ?_⟩
  cases hstep with
  | request tenantId request inputs hids => exact leadIds_run h.leadIds d.settings inputs.calls
  | job job event inputs hjob hevent hids => exact leadIds_run h.leadIds d.settings inputs.calls

theorem Kept.start (tenants : Table Tenant.id) : Kept { db := { tenants := tenants } } := by
  refine ⟨⟨?_, ?_, ?_, ?_, ?_, ?_⟩, ?_⟩
  all_goals
    intro row hrow
    exact absurd hrow (not_mem_empty row)

structure Gone (leadId : Id) (db : Db) : Prop where
  lead : ∀ l ∈ db.leads, l.id ≠ leadId
  timeline : ∀ e ∈ db.timeline, e.leadId ≠ leadId
  enrollments : ∀ e ∈ db.enrollments, e.leadId ≠ leadId
  sessions : ∀ s ∈ db.sessions, s.leadId ≠ some leadId

theorem Referenced.gone {leadId : Id} (h : Referenced db) (hlead : ∀ l ∈ db.leads, l.id ≠ leadId) : Gone leadId db := by
  have hnone : ¬Has db.leads leadId := by
    rintro ⟨l, hl, hid, -⟩
    exact hlead l hl hid
  refine ⟨hlead, ?_, ?_, ?_⟩
  · rintro e he rfl
    exact hnone (h.eventLead e he _ rfl)
  · rintro e he rfl
    exact hnone (h.enrollmentLead e he _ rfl)
  · intro s hs hrefers
    exact hnone (h.sessionLead s hs _ hrefers)

end ForeignKeys

open ForeignKeys

theorem deleted_leads_leave_nothing (d : Deployment) (tenants : Table Tenant.id) (w₁ : World) (labels₁ : List Label)
    (h₁ : Run (Step d) { db := { tenants := tenants } } labels₁ w₁) :
    Referenced w₁.db ∧ ∀ lead ∈ w₁.db.leads, ∀ w₂ labels₂, Run (Step d) w₁ labels₂ w₂ →
      (∀ l ∈ w₂.db.leads, l.id ≠ lead.id) → ∀ w₃ labels₃, Run (Step d) w₂ labels₃ w₃ → Gone lead.id w₃.db := by
  have hstep : ∀ v label v', Kept v → True → Step d v label v' → Kept v' := fun _ _ _ h _ hstep => h.step hstep
  have hkept₁ : Kept w₁ := h₁.invariant Kept hstep (.start tenants)
  refine ⟨hkept₁.referenced, ?_⟩
  intro lead hlead w₂ labels₂ h₂ hgone w₃ labels₃ h₃
  have hkept₃ : Kept w₃ := h₃.invariant Kept hstep (h₂.invariant Kept hstep hkept₁)
  have hused : lead.id ∈ w₂.ids := by
    apply h₂.invariant fun v => lead.id ∈ v.ids
    · exact fun _ _ _ hid _ hstep => RowHistories.step_ids hstep _ hid
    · exact hkept₁.leadIds lead hlead
  have hlater := RowHistories.run_later h₃
  exact hkept₃.referenced.gone (hlater.leads.fresh hused hgone)

namespace ForeignKeys

def deleted : World :=
  RowHistories.enrolled.afterRequest plainDeployment "tenant-a" (.deleteLead "lead-1") (RowHistories.drawing "" "")

def jobAfter : World :=
  deleted.afterJob plainDeployment (stepJob "tenant-a" "enrollment-1") .sequenceStepExecute RowHistories.stepInputs

theorem enrolled_run : Run (Step plainDeployment) { db := { tenants := .empty } }
    [.request "tenant-a" (.createLead { name := some "Ada" }) (RowHistories.drawing "lead-1" "event-1"),
      .request "tenant-a" (.createSequence { name := "Welcome", trigger := "lead_created" })
        (RowHistories.drawing "sequence-1" ""),
      .request "tenant-a" (.enrollLead "sequence-1" "lead-1") (RowHistories.drawing "enrollment-1" "")]
    RowHistories.enrolled :=
  .cons trivial (.request _ _ _ (by decide +kernel)) (.cons trivial (.request _ _ _ (by decide +kernel))
    (.cons trivial (.request _ _ _ (by decide +kernel)) (.nil _)))

theorem deleted_run : Run (Step plainDeployment) RowHistories.enrolled
    [.request "tenant-a" (.deleteLead "lead-1") (RowHistories.drawing "" "")] deleted :=
  .cons trivial (.request _ _ _ (by decide +kernel)) (.nil _)

theorem jobAfter_run : Run (Step plainDeployment) deleted
    [.job (stepJob "tenant-a" "enrollment-1") .sequenceStepExecute RowHistories.stepInputs] jobAfter := by
  apply GuardedRun.cons trivial ?_ (.nil _)
  apply Step.job
  · apply List.mem_append_left
    apply List.mem_append_right
    exact List.mem_singleton_self _
  · decide +kernel
  · decide +kernel

end ForeignKeys

theorem deleted_leads_leave_nothing_ada :
    RowHistories.enrolled.db.leads.rows.map Lead.id = ["lead-1"] ∧ Referenced RowHistories.enrolled.db ∧
      Gone "lead-1" jobAfter.db := by
  have hids : RowHistories.enrolled.db.leads.rows.map Lead.id = ["lead-1"] := by decide +kernel
  obtain ⟨hreferenced, hleft⟩ := deleted_leads_leave_nothing plainDeployment .empty _ _ enrolled_run
  refine ⟨hids, hreferenced, ?_⟩
  obtain ⟨lead, hlead, hid⟩ : ∃ lead ∈ RowHistories.enrolled.db.leads, lead.id = "lead-1" :=
    List.mem_map.mp (hids ▸ List.mem_singleton_self _)
  have hgone : deleted.db.leads.rows = [] := by rfl
  rw [← hid]
  refine hleft lead hlead _ _ deleted_run ?_ _ _ jobAfter_run
  intro l hl
  rw [mem_def, hgone] at hl
  cases hl

end Leadline
