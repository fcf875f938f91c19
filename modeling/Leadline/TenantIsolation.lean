import Leadline.TenantViews

namespace Leadline

open Library Table

def Label.tenant : Label → Option String
  | request tenantId _ _ => some tenantId
  | job queued _ _ => queued.payload.str? "tenant_id"

def World.repliesTo (w : World) (tenantId : Id) : List (Answer Reply) :=
  (w.replies.filter fun r => r.1 = tenantId).map Prod.snd

namespace TenantIsolation

open TenantWrites TenantReferences TenantViews

variable {tenantId other : Id} {db db' : Db} {w : Write} {ids : List Id}

theorem view_sessions_removeLead (db : Db) (leadId owner : Id) :
    (LeadService.removeLead db leadId).sessions.view Session.tenantId owner =
      (db.sessions.view Session.tenantId owner).map (LeadService.detachFrom leadId) := by
  rw [LeadService.sessions_removeLead, view_mapRows]
  exact fun _ => rfl

theorem view_usage_of_ne {change : UsageChange} (htenant : change.tenantId = tenantId) (hne : tenantId ≠ other) :
    (change.write db.usage).view UsageRecord.tenantId other = db.usage.view UsageRecord.tenantId other := by
  have hkey : ∀ r ∈ db.usage.view UsageRecord.tenantId other, r.key ≠ (change.tenantId, change.recordDate) := by
    intro r hr hkey
    have hother := (mem_view.mp hr).2
    rw [← hother, ← htenant] at hne
    exact hne (Prod.mk.inj hkey).1.symm
  cases hinserted : change.inserted with
  | true =>
    rw [UsageChange.write_inserted hinserted]
    apply view_insert_of_ne
    rw [← htenant] at hne
    exact hne
  | false =>
    rw [UsageChange.view_write_seen hinserted]
    conv_rhs => rw [← List.map_id (db.usage.view UsageRecord.tenantId other)]
    apply List.map_congr_left
    intro r hr
    rw [if_neg (hkey r hr)]
    rfl

theorem agree_other (h : References db) (hw : Within db tenantId w) (hne : tenantId ≠ other) :
    Agree other db (db.write w) := by
  have hrefl := Agree.refl other db
  cases w with
  | lead w =>
    have hview : (w.apply db.leads).view Lead.tenantId other = db.leads.view Lead.tenantId other :=
      RowWithin.view_of_ne hw hne
    cases w with
    | add row => exact { hrefl with leads := hview.symm }
    | set row => exact { hrefl with leads := hview.symm }
    | delete id =>
      have hsessions : (LeadService.removeLead db id).sessions.view Session.tenantId other =
          db.sessions.view Session.tenantId other := by
        rw [view_sessions_removeLead]
        conv_rhs => rw [← List.map_id (db.sessions.view Session.tenantId other)]
        apply List.map_congr_left
        intro s hs
        exact LeadService.detachFrom_of_ne (h.sessionLead.not_refers hw hne hs)
      exact { hrefl with
        leads := hview.symm
        timeline := (h.eventLead.view_filter_of_ne hw hne fun e he => by simpa using he).symm
        enrollments := (h.enrollmentLead.view_filter_of_ne hw hne fun e he => by simpa using he).symm
        sessions := hsessions.symm }
  | timelineEvent w => exact { hrefl with timeline := (RowWithin.view_of_ne hw hne).symm }
  | session w =>
    have hview : (w.apply db.sessions).view Session.tenantId other = db.sessions.view Session.tenantId other :=
      RowWithin.view_of_ne hw hne
    cases w with
    | add row => exact { hrefl with sessions := hview.symm }
    | set row => exact { hrefl with sessions := hview.symm }
    | delete id =>
      exact { hrefl with
        sessions := hview.symm
        messages := (h.messageSession.view_filter_of_ne hw hne fun m hm => by simpa using hm).symm }
  | message w => exact { hrefl with messages := (RowWithin.view_of_ne hw hne).symm }
  | routingRule w => exact { hrefl with routingRules := (RowWithin.view_of_ne hw hne).symm }
  | sequence w =>
    have hview : (w.apply db.sequences).view Sequence.tenantId other = db.sequences.view Sequence.tenantId other :=
      RowWithin.view_of_ne hw hne
    cases w with
    | add row => exact { hrefl with sequences := hview.symm }
    | set row => exact { hrefl with sequences := hview.symm }
    | delete id =>
      have hsteps : ∀ sequenceId, OwnsSequence db other sequenceId →
          db.steps.view SequenceStep.sequenceId sequenceId =
            (db.steps.filter fun s => s.sequenceId ≠ id).view SequenceStep.sequenceId sequenceId := by
        intro sequenceId hown
        rw [view_filter, eq_comm, List.filter_eq_self]
        intro s hs
        rw [(mem_view.mp hs).2]
        apply decide_eq_true
        rintro rfl
        exact hne (Owns.unique hw hown)
      exact { hrefl with
        sequences := hview.symm
        steps := hsteps
        enrollments := (h.enrollmentSequence.view_filter_of_ne hw hne fun e he => by simpa using he).symm }
  | step w =>
    obtain ⟨sequenceId, hsequence, hw⟩ := hw
    refine { hrefl with steps := fun k hk => (RowWithin.view_of_ne hw ?_).symm }
    rintro rfl
    exact hne (hsequence.unique hk)
  | enrollment w => exact { hrefl with enrollments := (RowWithin.view_of_ne hw hne).symm }
  | connection w => exact { hrefl with connections := (RowWithin.view_of_ne hw hne).symm }
  | usage change => exact { hrefl with usage := (view_usage_of_ne hw hne).symm }

theorem view_usage_congr {change : UsageChange} (htenant : change.tenantId = tenantId)
    (h : db.usage.view UsageRecord.tenantId tenantId = db'.usage.view UsageRecord.tenantId tenantId) :
    (change.write db.usage).view UsageRecord.tenantId tenantId =
      (change.write db'.usage).view UsageRecord.tenantId tenantId := by
  cases hinserted : change.inserted with
  | true =>
    rw [UsageChange.write_inserted hinserted, UsageChange.write_inserted hinserted]
    let row : UsageRecord := ⟨change.tenantId, change.recordDate, change.seen.add change.added⟩
    have hfresh : db.usage.Fresh row.key ↔ db'.usage.Fresh row.key := by
      have hfind : db.usage.find? row.key = db'.usage.find? row.key :=
        find?_congr (fun r hr => (Prod.mk.inj hr).1.trans htenant) h
      unfold Fresh
      rw [← find?_eq_none_iff, ← find?_eq_none_iff, hfind]
    by_cases hnew : db.usage.Fresh row.key
    · rw [view_insert hnew htenant, view_insert (hfresh.mp hnew) htenant, h]
    · rw [insert_of_not_fresh hnew, insert_of_not_fresh fun hnew' => hnew (hfresh.mpr hnew'), h]
  | false => rw [UsageChange.view_write_seen hinserted, UsageChange.view_write_seen hinserted, h]

theorem fresh_of_known {α : Type} {key : α → Id} {t : Table key} {id : Id} (h : ∀ a ∈ t, key a ∈ ids)
    (hid : id ∉ ids) : t.Fresh id := by
  rintro a ha rfl
  exact hid (h a ha)

theorem view_apply {α ω : Type} [DecidableEq ω] {key : α → Id} {owner : α → ω} {o : ω} {t t' : Table key}
    {refs : α → Prop} {change : RowWrite α} (hw : RowWithin owner t o refs change)
    (hview : t.view owner o = t'.view owner o) (hknown : ∀ a ∈ t, key a ∈ ids) (hknown' : ∀ a ∈ t', key a ∈ ids)
    (hnew : ∀ id ∈ change.addedIds key, id ∉ ids) : (change.apply t).view owner o = (change.apply t').view owner o := by
  apply RowWithin.view_congr hw hview
  intro id hid
  exact ⟨fresh_of_known hknown (hnew id hid), fresh_of_known hknown' (hnew id hid)⟩

theorem agree_self (h : Agree tenantId db db') (hknown : Known db ids) (hknown' : Known db' ids)
    (hw : Within db tenantId w) (hnew : ∀ id ∈ w.addedIds, id ∉ ids) :
    Agree tenantId (db.write w) (db'.write w) := by
  cases w with
  | lead w =>
    have hview := view_apply hw h.leads hknown.leads hknown'.leads hnew
    cases w with
    | add row => exact { h with leads := hview }
    | set row => exact { h with leads := hview }
    | delete id =>
      have hsessions : (LeadService.removeLead db id).sessions.view Session.tenantId tenantId =
          (LeadService.removeLead db' id).sessions.view Session.tenantId tenantId := by
        rw [view_sessions_removeLead, view_sessions_removeLead, h.sessions]
      exact { h with
        leads := hview
        timeline := by
          change (db.timeline.filter _).view _ _ = (db'.timeline.filter _).view _ _
          rw [view_filter, view_filter, h.timeline]
        enrollments := by
          change (db.enrollments.filter _).view _ _ = (db'.enrollments.filter _).view _ _
          rw [view_filter, view_filter, h.enrollments]
        sessions := hsessions }
  | timelineEvent w =>
    exact { h with timeline := view_apply hw h.timeline hknown.timeline hknown'.timeline hnew }
  | session w =>
    have hview := view_apply hw h.sessions hknown.sessions hknown'.sessions hnew
    cases w with
    | add row => exact { h with sessions := hview }
    | set row => exact { h with sessions := hview }
    | delete id =>
      exact { h with
        sessions := hview
        messages := by
          change (db.messages.filter _).view _ _ = (db'.messages.filter _).view _ _
          rw [view_filter, view_filter, h.messages] }
  | message w =>
    exact { h with messages := view_apply hw h.messages hknown.messages hknown'.messages hnew }
  | routingRule w =>
    exact { h with routingRules := view_apply hw h.routingRules hknown.routingRules hknown'.routingRules hnew }
  | sequence w =>
    have hview := view_apply hw h.sequences hknown.sequences hknown'.sequences hnew
    cases w with
    | add row =>
      refine { h with sequences := hview, steps := ?_ }
      rintro _ ⟨s, hs, rfl, ho⟩
      rcases mem_of_mem_insert hs with hold | rfl
      · exact h.steps s.id ⟨s, hold, rfl, ho⟩
      · -- Nothing refers to a sequence before it is there.
        have hnone : ∀ {db : Db}, Known db ids → db.steps.view SequenceStep.sequenceId s.id = [] := by
          intro db hknown
          apply List.filter_eq_nil_iff.mpr
          intro step hstep hof
          have hid := (hknown.steps step hstep).2
          rw [of_decide_eq_true hof] at hid
          exact hnew s.id (List.mem_singleton_self _) hid
        exact (hnone hknown).trans (hnone hknown').symm
    | set row =>
      refine { h with sequences := hview, steps := ?_ }
      rintro _ ⟨s, hs, rfl, ho⟩
      rcases mem_of_mem_put hs with rfl | ⟨hold, -⟩
      · exact h.steps s.id hw.1
      · exact h.steps s.id ⟨s, hold, rfl, ho⟩
    | delete id =>
      refine { h with
        sequences := hview
        enrollments := ?_
        steps := ?_ }
      · rintro _ ⟨s, hs, rfl, ho⟩
        change (db.steps.filter _).view _ _ = (db'.steps.filter _).view _ _
        rw [view_filter, view_filter, h.steps s.id ⟨s, (mem_erase.mp hs).1, rfl, ho⟩]
      · change (db.enrollments.filter _).view _ _ = (db'.enrollments.filter _).view _ _
        rw [view_filter, view_filter, h.enrollments]
  | step w =>
    obtain ⟨sequenceId, hsequence, hw⟩ := hw
    have hview := h.steps sequenceId hsequence
    refine { h with steps := fun k hk => ?_ }
    by_cases hk' : sequenceId = k
    · subst hk'
      exact view_apply hw hview (fun s hs => (hknown.steps s hs).1) (fun s hs => (hknown'.steps s hs).1) hnew
    · have hw' : RowWithin SequenceStep.sequenceId db'.steps sequenceId (fun _ => True) w := by
        cases w with
        | add row => exact hw
        | set row => exact ⟨(owns_congr hview).mp hw.1, hw.2⟩
        | delete id => exact (owns_congr hview).mp hw
      exact (RowWithin.view_of_ne hw hk').trans ((h.steps k hk).trans (RowWithin.view_of_ne hw' hk').symm)
  | enrollment w =>
    exact { h with enrollments := view_apply hw h.enrollments hknown.enrollments hknown'.enrollments hnew }
  | connection w =>
    exact { h with connections := view_apply hw h.connections hknown.connections hknown'.connections hnew }
  | usage change => exact { h with usage := view_usage_congr hw h.usage }

variable {writes : List Write} {settings : Settings} {calls : Calls} {α : Type} {work : Work α}

theorem agree_other_writeAll (h : References db) (hw : WritesWithin tenantId db writes) (hne : tenantId ≠ other) :
    Agree other db (db.writeAll writes) := by
  have hboth : References (db.writeAll writes) ∧ Agree other db (db.writeAll writes) := by
    apply hw.invariant fun db' => References db' ∧ Agree other db db'
    · rintro db' w - ⟨hrefs, hagree⟩ hwithin
      exact ⟨hrefs.write hwithin, hagree.trans (agree_other hrefs hwithin hne)⟩
    · exact ⟨h, Agree.refl other db⟩
  exact hboth.2

theorem agree_self_writeAll (h : Agree tenantId db db') (hknown : Known db ids) (hknown' : Known db' ids)
    (hw : WritesWithin tenantId db writes) (hw' : WritesWithin tenantId db' writes)
    (hnodup : (writes.flatMap Write.addedIds).Nodup) (hnew : ∀ id ∈ writes.flatMap Write.addedIds, id ∉ ids) :
    Agree tenantId (db.writeAll writes) (db'.writeAll writes) := by
  induction writes generalizing db db' ids with
  | nil => exact h
  | cons w writes ih =>
    rw [List.flatMap_cons] at hnodup hnew
    have hfirst : ∀ id ∈ w.addedIds, id ∉ ids := fun id hid => hnew id (List.mem_append_left _ hid)
    have hgrown : ∀ {db : Db}, Known db ids → Within db tenantId w → Known (db.write w) (ids ++ w.addedIds) := by
      intro db hknown hwithin
      apply (hknown.mono fun _ hid => List.mem_append_left _ hid).write hwithin
      exact fun _ hid => List.mem_append_right _ hid
    rw [Db.writeAll_cons, Db.writeAll_cons]
    apply ih
    · exact agree_self h hknown hknown' hw.1 hfirst
    · exact hgrown hknown hw.1
    · exact hgrown hknown' hw'.1
    · exact hw.2
    · exact hw'.2
    · exact hnodup.of_append_right
    · intro id hid hold
      rcases List.mem_append.mp hold with hold | hold
      · exact hnew id (List.mem_append_right _ hid) hold
      · exact (List.nodup_append.mp hnodup).2.2 id hold id hid rfl

theorem written_within (h : WorkWithin db tenantId work) :
    WritesWithin tenantId db (work.written settings calls) := by
  cases work with
  | commits c =>
    simp only [Work.written]
    split
    · trivial
    · split
      · exact h.writes
      · trivial
  | _ => trivial

theorem written_sublist : List.Sublist ((work.written settings calls).flatMap Write.addedIds) work.newIds := by
  cases work with
  | commits c =>
    simp only [Work.written]
    split
    · exact List.nil_sublist _
    · split
      · exact List.Sublist.refl _
      · exact List.nil_sublist _
  | _ => exact List.nil_sublist _

theorem run_jobs_tenant (h : WorkWithin db tenantId work) :
    ∀ job ∈ (work.run settings db calls).jobs, job.payload.str? "tenant_id" = some tenantId := by
  intro job hjob
  rcases work.run_cases settings db calls with ⟨-, hjobs⟩ | ⟨c, rfl, -, -, hjobs⟩
  · obtain ⟨c, rfl, hbefore⟩ := hjobs job hjob
    exact (h.before job hbefore).1
  · rcases hjobs job hjob with hbefore | hafter
    · exact (h.before job hbefore).1
    · exact (h.after job hafter).1

theorem run_congr (work : Work α) (settings : Settings) (calls : Calls) (db db' : Db) :
    (work.run settings db calls).answer = (work.run settings db' calls).answer ∧
      (work.run settings db calls).jobs = (work.run settings db' calls).jobs := by
  cases work with
  | refused e => exact ⟨rfl, rfl⟩
  | raised => exact ⟨rfl, rfl⟩
  | answered value => exact ⟨rfl, rfl⟩
  | commits c =>
    simp only [Work.run]
    rcases SQSPublisher.deliver settings c.before calls.before with ⟨raised, sent⟩
    cases raised with
    | true => exact ⟨rfl, rfl⟩
    | false =>
      dsimp only
      split
      · exact ⟨rfl, rfl⟩
      · rcases SQSPublisher.deliver settings c.after calls.after with ⟨raised, later⟩
        cases raised with
        | true => exact ⟨rfl, rfl⟩
        | false => exact ⟨rfl, rfl⟩

variable {d : Deployment} {v v' w₁ : World} {label : Label}

structure Similar (tenantId : Id) (v v' : World) : Prop where
  agree : ∀ other, other ≠ tenantId → Agree other v.db v'.db
  noLead : v'.db.leads.view Lead.tenantId tenantId = []
  cache : ∀ other, other ≠ tenantId → CachesAgree other v.cache v'.cache
  jobs : ∀ job ∈ v.jobs, job.payload.str? "tenant_id" ≠ some tenantId → job ∈ v'.jobs
  ids : ∀ id ∈ v'.ids, id ∈ v.ids
  replies : ∀ other, other ≠ tenantId → v.repliesTo other = v'.repliesTo other

theorem run_lost {value : α} (settings : Settings) (db : Db) (hlost : calls.commit.takesEffect = false) :
    (Work.commits { writes := writes, value := value }).run settings db calls = ⟨.raised, db, []⟩ := by
  cases hcommit : calls.commit with
  | returns => simp [hcommit, CallOutcome.takesEffect] at hlost
  | raisesAfterEffect => simp [hcommit, CallOutcome.takesEffect] at hlost
  | raisesWithoutEffect => simp [Work.run, SQSPublisher.deliver, hcommit, CallOutcome.takesEffect, CallOutcome.raises]

theorem foreign_lost {request : Request} {inputs : Inputs} (h : Sound v)
    (hforeign : TakesForeignLead v.db tenantId request)
    (hok : TenantReferences.Admitted v (.request tenantId request inputs))
    (hids : v.NewIds (request.work d.py.lower v.db tenantId inputs).newIds) :
    inputs.calls.commit.takesEffect = false ∧
      (request.work d.py.lower v.db tenantId inputs).run d.settings v.db inputs.calls = ⟨.raised, v.db, []⟩ := by
  have hlost : inputs.calls.commit.takesEffect = false := by
    cases heffect : inputs.calls.commit.takesEffect with
    | true => exact absurd ⟨hforeign, heffect⟩ hok
    | false => rfl
  obtain ⟨writes, value, hwork, -⟩ :=
    work_of_foreign d.py.lower inputs hforeign fun id hid => (h.known.fresh (hids.2 id hid)).2
  rw [hwork]
  exact ⟨hlost, run_lost d.settings v.db hlost⟩

theorem request_effect {request : Request} {inputs : Inputs} (h : Sound v)
    (hok : TenantReferences.Admitted v (.request tenantId request inputs))
    (hids : v.NewIds (request.work d.py.lower v.db tenantId inputs).newIds) :
    WritesWithin tenantId v.db ((request.work d.py.lower v.db tenantId inputs).written d.settings inputs.calls) ∧
      ∀ job ∈ ((request.work d.py.lower v.db tenantId inputs).run d.settings v.db inputs.calls).jobs,
        job.payload.str? "tenant_id" = some tenantId := by
  by_cases hforeign : TakesForeignLead v.db tenantId request
  · obtain ⟨hlost, hrun⟩ := foreign_lost h hforeign hok hids
    rw [Work.written_of_lost hlost, hrun]
    exact ⟨trivial, fun _ hjob => absurd hjob List.not_mem_nil⟩
  · have hwork := request_within d.py.lower inputs h.references
      (fun id hid => (h.known.fresh (hids.2 id hid)).1) hforeign
    exact ⟨written_within hwork, run_jobs_tenant hwork⟩

theorem repliesTo_append {other : Id} {reply : Id × Answer Reply} (replies : List (Id × Answer Reply)) :
    ((replies ++ [reply]).filter fun r => r.1 = other).map Prod.snd =
      (replies.filter fun r => r.1 = other).map Prod.snd ++ if reply.1 = other then [reply.2] else [] := by
  rw [List.filter_append, List.map_append]
  by_cases h : reply.1 = other
  · simp [h]
  · simp [h]

theorem Similar.step_tenant (hs : Similar tenantId v v') (h : Sound v) (hok : TenantReferences.Admitted v label)
    (hstep : Step d v label w₁) (hlabel : label.tenant = some tenantId) : Similar tenantId w₁ v' := by
  cases hstep with
  | request t request inputs hids =>
    obtain rfl := Option.some.inj hlabel
    obtain ⟨hwrites, hjobs⟩ := request_effect h hok hids
    refine ⟨fun other hne => ?_, hs.noLead, hs.cache, ?_, ?_, fun other hne => ?_⟩
    · rw [World.afterRequest, Work.run_db]
      exact (agree_other_writeAll h.references hwrites hne.symm).symm.trans (hs.agree other hne)
    · intro job hjob hne
      rcases List.mem_append.mp hjob with hold | hnew
      · exact hs.jobs job hold hne
      · exact absurd (hjobs job hnew) hne
    · exact fun id hid => List.mem_append_left _ (hs.ids id hid)
    · rw [World.repliesTo, World.afterRequest, repliesTo_append, if_neg hne.symm, List.append_nil]
      exact hs.replies other hne
  | job job event inputs hjob hevent hids =>
    obtain ⟨t, ht, hlead⟩ := h.jobs job hjob
    obtain rfl := Option.some.inj (hlabel.symm.trans ht)
    have hwork := job_within d v.cache inputs h.references ht (fun x hx => (hlead x hx).2) event
    refine ⟨fun other hne => ?_, hs.noLead, fun other hne => ?_, ?_, ?_, hs.replies⟩
    · rw [World.afterJob, Work.run_db]
      exact (agree_other_writeAll h.references (written_within hwork) hne.symm).symm.trans (hs.agree other hne)
    · intro key hkey
      have hother : key.tenantId ≠ tenantId := by
        rw [hkey]
        exact hne
      exact (cache_other d inputs ht event hother).trans (hs.cache other hne key hkey)
    · intro job' hjob' hne
      rcases List.mem_append.mp hjob' with hold | hnew
      · exact hs.jobs job' hold hne
      · exact absurd (run_jobs_tenant hwork job' hnew) hne
    · exact fun id hid => List.mem_append_left _ (hs.ids id hid)

theorem Similar.run (hs : Similar tenantId v v') (h : Sound v) (h' : Sound v') (hne : other ≠ tenantId)
    (hwork : WorkWithin v.db other work) (hwork' : WorkWithin v'.db other work) (hids : v.NewIds work.newIds)
    (settings : Settings) (calls : Calls) :
    (∀ third, third ≠ tenantId →
        Agree third (work.run settings v.db calls).db (work.run settings v'.db calls).db) ∧
      (work.run settings v'.db calls).db.leads.view Lead.tenantId tenantId = [] ∧ v'.NewIds work.newIds := by
  have hwrites : WritesWithin other v.db (work.written settings calls) := written_within hwork
  have hwrites' : WritesWithin other v'.db (work.written settings calls) := written_within hwork'
  have hsub : List.Sublist ((work.written settings calls).flatMap Write.addedIds) work.newIds := written_sublist
  rw [Work.run_db, Work.run_db]
  refine ⟨fun third hthird => ?_, ?_, hids.1, fun id hid hold => hids.2 id hid (hs.ids id hold)⟩
  · by_cases hsame : other = third
    · subst hsame
      apply agree_self_writeAll (hs.agree other hne) h.known (h'.known.mono hs.ids) hwrites hwrites'
      · exact hids.1.sublist hsub
      · exact fun id hid => hids.2 id (hsub.subset hid)
    · have hfull := agree_other_writeAll h.references hwrites hsame
      have hrest := agree_other_writeAll h'.references hwrites' hsame
      exact hfull.symm.trans ((hs.agree third hthird).trans hrest)
  · rw [← (agree_other_writeAll h'.references hwrites' hne).leads]
    exact hs.noLead

theorem Similar.foreign (hs : Similar tenantId v v') {leadId : Option Id} (hforeign : Foreign v'.db other leadId) :
    Foreign v.db other leadId := by
  obtain ⟨l, hl, hid, ho⟩ := hforeign
  have howner : l.tenantId ≠ tenantId := by
    intro hmine
    have hview : l ∈ v'.db.leads.view Lead.tenantId tenantId := mem_view.mpr ⟨hl, hmine⟩
    rw [hs.noLead] at hview
    cases hview
  have hview : l ∈ v'.db.leads.view Lead.tenantId l.tenantId := mem_view.mpr ⟨hl, rfl⟩
  rw [← (hs.agree l.tenantId howner).leads] at hview
  exact ⟨l, (mem_view.mp hview).1, hid, ho⟩

theorem Similar.takesForeignLead (hs : Similar tenantId v v') (hne : other ≠ tenantId) {request : Request}
    (hforeign : TakesForeignLead v'.db other request) : TakesForeignLead v.db other request := by
  have hagree := hs.agree other hne
  cases request with
  | createSession payload =>
    obtain ⟨hlimit, hlead⟩ := hforeign
    exact ⟨hagree.sessionLimit.trans hlimit, hs.foreign hlead⟩
  | updateSession sessionId payload =>
    obtain ⟨hfound, hlead⟩ := hforeign
    exact ⟨(hagree.session sessionId).symm ▸ hfound, hs.foreign hlead⟩
  | _ => exact hforeign

theorem Similar.admitted (hs : Similar tenantId v v') (hok : TenantReferences.Admitted v label)
    (hlabel : label.tenant ≠ some tenantId) : TenantReferences.Admitted v' label := by
  cases label with
  | request other request inputs =>
    have hne : other ≠ tenantId := fun he => hlabel (congrArg some he)
    exact fun hbad => hok ⟨hs.takesForeignLead hne hbad.1, hbad.2⟩
  | job job event inputs => trivial

theorem Similar.foreign_work (hs : Similar tenantId v v') (hne : other ≠ tenantId) {request : Request}
    (lower : String → String) (inputs : Inputs) (hforeign : TakesForeignLead v.db other request) :
    request.work lower v'.db other inputs = .raised ∨
      ∃ writes value, request.work lower v'.db other inputs = .commits { writes := writes, value := value } ∧
        request.work lower v.db other inputs = .commits { writes := writes, value := value } := by
  have hagree := hs.agree other hne
  cases request with
  | createSession payload =>
    obtain ⟨hlimit, hlead⟩ := hforeign
    have hlimit' := hagree.sessionLimit.symm.trans hlimit
    simp only [Request.work, ConversationService.createSession, ConversationService.insertSession, hlimit, hlimit',
      if_pos hlead.exists, ← hagree.increment]
    split
    · exact .inr ⟨_, _, rfl, rfl⟩
    · exact .inl rfl
  | updateSession sessionId payload =>
    obtain ⟨hfound, hlead⟩ := hforeign
    obtain ⟨record, hget⟩ := Option.isSome_iff_exists.mp hfound
    have hget' := (hagree.session sessionId).symm.trans hget
    simp only [Request.work, ConversationService.updateSession, hget, hget', if_pos hlead.exists]
    split
    · exact .inr ⟨_, _, rfl, rfl⟩
    · exact .inl rfl
  | _ => exact False.elim hforeign

theorem Similar.jobs_append (hs : Similar tenantId v v') {new new' : List QueueJob} (hnew : new = new') :
    ∀ job ∈ v.jobs ++ new, job.payload.str? "tenant_id" ≠ some tenantId → job ∈ v'.jobs ++ new' := by
  intro job hjob hown
  rcases List.mem_append.mp hjob with hold | hpublished
  · exact List.mem_append_left _ (hs.jobs job hold hown)
  · exact List.mem_append_right _ (hnew ▸ hpublished)

theorem Similar.ids_append (hs : Similar tenantId v v') {new new' : List Id} (hnew : ∀ id ∈ new', id ∈ new) :
    ∀ id ∈ v'.ids ++ new', id ∈ v.ids ++ new := by
  intro id hid
  rcases List.mem_append.mp hid with hold | hid
  · exact List.mem_append_left _ (hs.ids id hold)
  · exact List.mem_append_right _ (hnew id hid)

theorem Similar.replies_append (hs : Similar tenantId v v') {reply : Id × Answer Reply} (third : Id)
    (hthird : third ≠ tenantId) :
    ((v.replies ++ [reply]).filter fun r => r.1 = third).map Prod.snd =
      ((v'.replies ++ [reply]).filter fun r => r.1 = third).map Prod.snd := by
  rw [repliesTo_append, repliesTo_append]
  exact congrArg (· ++ _) (hs.replies third hthird)

theorem Similar.lost_request (hs : Similar tenantId v v') (h : Sound v) (hne : other ≠ tenantId) {request : Request}
    {inputs : Inputs} (hforeign : TakesForeignLead v.db other request)
    (hok : TenantReferences.Admitted v (.request other request inputs))
    (hids : v.NewIds (request.work d.py.lower v.db other inputs).newIds) :
    ∃ w₁', Step d v' (.request other request inputs) w₁' ∧
      Similar tenantId (v.afterRequest d other request inputs) w₁' := by
  obtain ⟨hlost, hrun⟩ := foreign_lost h hforeign hok hids
  have hrun' : (request.work d.py.lower v'.db other inputs).run d.settings v'.db inputs.calls = ⟨.raised, v'.db, []⟩ := by
    rcases hs.foreign_work hne d.py.lower inputs hforeign with hwork | ⟨writes, value, hwork, -⟩
    · rw [hwork]
      rfl
    · rw [hwork]
      exact run_lost d.settings v'.db hlost
  have hnew : List.Sublist (request.work d.py.lower v'.db other inputs).newIds
      (request.work d.py.lower v.db other inputs).newIds := by
    rcases hs.foreign_work hne d.py.lower inputs hforeign with hwork | ⟨writes, value, hwork, hfull⟩
    · rw [hwork]
      exact List.nil_sublist _
    · rw [hwork, hfull]
  have hids' : v'.NewIds (request.work d.py.lower v'.db other inputs).newIds :=
    ⟨hids.1.sublist hnew, fun id hid hold => hids.2 id (hnew.subset hid) (hs.ids id hold)⟩
  refine ⟨_, .request other request inputs hids', ?_⟩
  unfold World.afterRequest
  dsimp only
  rw [hrun, hrun']
  exact ⟨hs.agree, hs.noLead, hs.cache, hs.jobs_append rfl, hs.ids_append fun id hid => hnew.subset hid,
    hs.replies_append⟩

theorem Similar.kept_request (hs : Similar tenantId v v') (h : Sound v) (h' : Sound v') (hne : other ≠ tenantId)
    {request : Request} {inputs : Inputs} (hforeign : ¬TakesForeignLead v.db other request)
    (hids : v.NewIds (request.work d.py.lower v.db other inputs).newIds) :
    ∃ w₁', Step d v' (.request other request inputs) w₁' ∧
      Similar tenantId (v.afterRequest d other request inputs) w₁' := by
  have hforeign' : ¬TakesForeignLead v'.db other request := fun hf => hforeign (hs.takesForeignLead hne hf)
  have hsame := request_congr d.py.lower inputs (hs.agree other hne) hforeign hforeign'
  have hwork := request_within d.py.lower inputs h.references
    (fun id hid => (h.known.fresh (hids.2 id hid)).1) hforeign
  have hwork' := request_within d.py.lower inputs h'.references
    (fun id hid => by
      rw [← hsame] at hid
      exact (h'.known.fresh fun hold => hids.2 id hid (hs.ids id hold)).1) hforeign'
  rw [← hsame] at hwork'
  obtain ⟨hagree, hnoLead, hids'⟩ := hs.run h h' hne hwork hwork' hids d.settings inputs.calls
  obtain ⟨hanswer, hjobs⟩ :=
    run_congr (request.work d.py.lower v.db other inputs) d.settings inputs.calls v.db v'.db
  refine ⟨v'.afterRequest d other request inputs, ?_, ?_⟩
  · apply Step.request
    rw [← hsame]
    exact hids'
  · unfold World.afterRequest
    dsimp only
    rw [← hsame, hanswer]
    exact ⟨hagree, hnoLead, hs.cache, hs.jobs_append hjobs, hs.ids_append fun _ hid => hid, hs.replies_append⟩

theorem Similar.kept_job (hs : Similar tenantId v v') (h : Sound v) (h' : Sound v') {job : QueueJob} {event : JobEvent}
    {inputs : JobInputs} (hjob : job ∈ v.jobs) (hevent : WorkerLoop.eventOf job.payload = event.name)
    (hids : v.NewIds (event.handle d v.db v.cache job.payload inputs).1.newIds)
    (hlabel : job.payload.str? "tenant_id" ≠ some tenantId) :
    ∃ w₁', Step d v' (.job job event inputs) w₁' ∧ Similar tenantId (v.afterJob d job event inputs) w₁' := by
  obtain ⟨other, ht, hlead⟩ := h.jobs job hjob
  have hjob' := hs.jobs job hjob hlabel
  obtain ⟨_, ht', hlead'⟩ := h'.jobs job hjob'
  obtain rfl := Option.some.inj (ht.symm.trans ht')
  have hne : other ≠ tenantId := by
    rintro rfl
    exact hlabel ht
  have hnone : ∀ leadId ∈ job.payload.str? "lead_id",
      ¬Foreign v.db other (some leadId) ∧ ¬Foreign v'.db other (some leadId) := by
    intro leadId hx
    constructor
    · rintro ⟨l, hl, hid, ho⟩
      exact ho ((hlead leadId hx).2 l hl (Option.some.inj hid).symm)
    · rintro ⟨l, hl, hid, ho⟩
      exact ho ((hlead' leadId hx).2 l hl (Option.some.inj hid).symm)
  obtain ⟨hsame, hcache⟩ := job_congr d inputs (hs.agree other hne) (hs.cache other hne) ht hnone event
  have hwork := job_within d v.cache inputs h.references ht (fun x hx => (hlead x hx).2) event
  have hwork' := job_within d v'.cache inputs h'.references ht (fun x hx => (hlead' x hx).2) event
  rw [← hsame] at hwork'
  obtain ⟨hagree, hnoLead, hids'⟩ := hs.run h h' hne hwork hwork' hids d.settings inputs.calls
  obtain ⟨-, hjobs⟩ :=
    run_congr (event.handle d v.db v.cache job.payload inputs).1 d.settings inputs.calls v.db v'.db
  have hcaches : ∀ third, third ≠ tenantId →
      CachesAgree third (event.handle d v.db v.cache job.payload inputs).2
        (event.handle d v'.db v'.cache job.payload inputs).2 := by
    intro third hthird
    by_cases hthird' : third = other
    · subst hthird'
      exact hcache
    · intro key hkey
      have hother : key.tenantId ≠ other := by
        rw [hkey]
        exact hthird'
      have hkept : ∀ u : World, (event.handle d u.db u.cache job.payload inputs).2 key = u.cache key :=
        fun _ => cache_other d inputs ht event hother
      exact (hkept v).trans ((hs.cache third hthird key hkey).trans (hkept v').symm)
  refine ⟨v'.afterJob d job event inputs, ?_, ?_⟩
  · apply Step.job job event inputs hjob' hevent
    rw [← hsame]
    exact hids'
  · unfold World.afterJob
    dsimp only
    rw [← hsame]
    exact ⟨hagree, hnoLead, hcaches, hs.jobs_append hjobs, hs.ids_append fun _ hid => hid, hs.replies⟩

theorem Similar.step_other (hs : Similar tenantId v v') (h : Sound v) (h' : Sound v')
    (hok : TenantReferences.Admitted v label) (hstep : Step d v label w₁) (hlabel : label.tenant ≠ some tenantId) :
    ∃ w₁', Step d v' label w₁' ∧ Similar tenantId w₁ w₁' := by
  cases hstep with
  | request other request inputs hids =>
    have hne : other ≠ tenantId := fun he => hlabel (congrArg some he)
    by_cases hforeign : TakesForeignLead v.db other request
    · exact hs.lost_request h hne hforeign hok hids
    · exact hs.kept_request h h' hne hforeign hids
  | job job event inputs hjob hevent hids => exact hs.kept_job h h' hjob hevent hids hlabel

theorem Similar.refl (h : v.db.leads.view Lead.tenantId tenantId = []) : Similar tenantId v v where
  agree other _ := Agree.refl other v.db
  noLead := h
  cache _ _ _ _ := rfl
  jobs _ hjob _ := hjob
  ids _ hid := hid
  replies _ _ := rfl

theorem similar_run {labels : List Label} (hs : Similar tenantId v v') (h : Sound v) (h' : Sound v')
    (hrun : GuardedRun (Step d) TenantReferences.Admitted v labels w₁) :
    ∃ w₁', Run (Step d) v' (labels.filter fun l => l.tenant ≠ some tenantId) w₁' ∧ Similar tenantId w₁ w₁' := by
  induction hrun generalizing v' with
  | nil v => exact ⟨v', .nil v', hs⟩
  | @cons v₀ v₁ _ label labels hok hstep hrun ih =>
    have h₁ : Sound v₁ := (h.step hstep).1 hok
    by_cases hlabel : label.tenant = some tenantId
    · obtain ⟨w₁', hrun', hs'⟩ := ih (hs.step_tenant h hok hstep hlabel) h₁ h'
      rw [List.filter_cons_of_neg (by simp [hlabel])]
      exact ⟨w₁', hrun', hs'⟩
    · obtain ⟨v₁', hstep', hs₁⟩ := hs.step_other h h' hok hstep hlabel
      have h₁' : Sound v₁' := (h'.step hstep').1 (hs.admitted hok hlabel)
      obtain ⟨w₁', hrun', hs'⟩ := ih hs₁ h₁ h₁'
      rw [List.filter_cons_of_pos (by simpa using hlabel)]
      exact ⟨w₁', .cons trivial hstep' hrun', hs'⟩

theorem step_unique {w₂ : World} (h : Step d v label w₁) (h' : Step d v label w₂) : w₁ = w₂ := by
  cases h with
  | request => cases h'; rfl
  | job => cases h'; rfl

theorem run_unique {labels : List Label} {w₂ : World} (h : Run (Step d) v labels w₁) (h' : Run (Step d) v labels w₂) :
    w₁ = w₂ := by
  induction h with
  | nil v =>
    cases h'
    rfl
  | cons _ hstep _ ih =>
    cases h' with
    | cons _ hstep' hrun' =>
      rw [← step_unique hstep hstep'] at hrun'
      exact ih hrun'

end TenantIsolation

open TenantIsolation TenantReferences

theorem tenant_isolation (d : Deployment) (w₀ w : World) (labels : List Label) (tenantId : Id) (h₀ : Sound w₀)
    (hstart : ∀ l ∈ w₀.db.leads, l.tenantId ≠ tenantId)
    (hrun : GuardedRun (Step d) TenantReferences.Admitted w₀ labels w) :
    (∃ w', Run (Step d) w₀ (labels.filter fun l => l.tenant ≠ some tenantId) w') ∧
      ∀ w', Run (Step d) w₀ (labels.filter fun l => l.tenant ≠ some tenantId) w' →
        ∀ other, other ≠ tenantId →
          w.repliesTo other = w'.repliesTo other ∧ TenantViews.Agree other w.db w'.db := by
  have hnoLead : w₀.db.leads.view Lead.tenantId tenantId = [] := by
    apply List.filter_eq_nil_iff.mpr
    intro l hl howner
    exact hstart l hl (of_decide_eq_true howner)
  obtain ⟨v, hrun', hs⟩ := similar_run (TenantIsolation.Similar.refl hnoLead) h₀ h₀ hrun
  refine ⟨⟨v, hrun'⟩, fun w' hw' other hne => ?_⟩
  rw [← run_unique hrun' hw']
  exact ⟨hs.replies other hne, hs.agree other hne⟩

def TenantIsolation.otherInputs : Inputs where
  newId k := if k = 0 then "lead-2" else "event-2"
  today := 1

theorem tenant_isolation_leads :
    ∃ w w' : World, w.db.leads.rows.map Lead.id = ["lead-1", "lead-2"] ∧
      Run (Step plainDeployment) { db := {} } [.request "tenant-b" demoLead otherInputs] w' ∧
      w.repliesTo "tenant-b" = w'.repliesTo "tenant-b" := by
  have hrun : GuardedRun (Step plainDeployment) TenantReferences.Admitted { db := {} }
      [.request "tenant-a" demoLead leadInputs, .request "tenant-b" demoLead otherInputs] _ :=
    .cons (fun h => h.1) (.request _ _ _ (by decide +kernel))
      (.cons (fun h => h.1) (.request _ _ _ (by decide +kernel)) (.nil _))
  obtain ⟨⟨w', hw'⟩, hall⟩ := tenant_isolation plainDeployment _ _ _ "tenant-a" (sound_of_tenants .empty)
    (fun l hl => absurd hl (Table.not_mem_empty l)) hrun
  exact ⟨_, w', by decide +kernel, hw', (hall w' hw' "tenant-b" (by decide)).1⟩

theorem session_depends_on_foreign_lead :
    ∃ w : World,
      Run (Step plainDeployment) { db := {} }
        [.request "tenant-a" demoLead leadInputs, .request "tenant-b" demoSession sessionInputs] w ∧
        ∀ w', Run (Step plainDeployment) { db := {} } [.request "tenant-b" demoSession sessionInputs] w' →
          w.repliesTo "tenant-b" ≠ w'.repliesTo "tenant-b" ∧
            w.db.sessions.rows.length = 1 ∧ w'.db.sessions.rows.length = 0 := by
  have hfull : Run (Step plainDeployment) { db := {} }
      [.request "tenant-a" demoLead leadInputs, .request "tenant-b" demoSession sessionInputs] _ :=
    .cons trivial (.request _ _ _ (by decide +kernel)) (.cons trivial (.request _ _ _ (by decide +kernel)) (.nil _))
  have halone : Run (Step plainDeployment) { db := {} } [.request "tenant-b" demoSession sessionInputs] _ :=
    .cons trivial (.request _ _ _ (by decide +kernel)) (.nil _)
  refine ⟨_, hfull, fun w' hw' => ?_⟩
  rw [← run_unique halone hw']
  refine ⟨fun h => ?_, by decide +kernel, by decide +kernel⟩
  have hvalues := congrArg (fun answers => (answers.filterMap Answer.value).length) h
  revert hvalues
  decide +kernel

end Leadline
