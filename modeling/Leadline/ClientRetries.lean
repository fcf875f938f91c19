import Leadline.TenantReferences

/-!
A client that sends a request again until it is answered. An attempt may commit and still fail, so what counts is which
requests leave the rows as the first commit left them.
-/

namespace Leadline

open Library

def Request.Repeatable (lower : String → String) : Request → Prop
  | createLead payload =>
    configured (payload.normalized lower).email ≠ none ∨ configured (payload.normalized lower).phone ≠ none
  | createTimelineEvent _ _ => False
  | createSession _ => False
  | createMessage _ _ => False
  | createRule _ => False
  | createSequence _ => False
  | createStep _ _ => False
  | enrollLead _ _ => False
  | _ => True

def Request.createdRows (db : Db) : Request → ℕ
  | createLead _ => db.leads.rows.length
  | createTimelineEvent _ _ => db.timeline.rows.length
  | createSession _ => db.sessions.rows.length
  | createMessage _ _ => db.messages.rows.length
  | createRule _ => db.routingRules.rows.length
  | createSequence _ => db.sequences.rows.length
  | createStep _ _ => db.steps.rows.length
  | enrollLead _ _ => db.enrollments.rows.length
  | _ => 0

namespace ClientRetries

theorem setColumn_again {α : Type} {old new : α} {value : Option (Option α)} (h : setColumn old value = some new) :
    setColumn new value = some new := by
  cases value with
  | none => rfl
  | some value => exact h

theorem getD_again {α : Type} (value : Option α) (old : α) : value.getD (value.getD old) = value.getD old := by
  cases value <;> rfl

theorem lead_again {data : LeadUpdate} {lead updated : Lead} (h : data.apply lead = some updated) :
    data.apply updated = some updated := by
  simp only [LeadUpdate.apply, Option.bind_eq_bind, Option.bind_eq_some_iff, Option.pure_def, Option.some.injEq] at h
  obtain ⟨_, h₁, _, h₂, _, h₃, _, h₄, _, h₅, rfl⟩ := h
  simp [LeadUpdate.apply, setColumn_again h₁, setColumn_again h₂, setColumn_again h₃, setColumn_again h₄,
    setColumn_again h₅, getD_again]

theorem timelineEvent_again {data : TimelineEventUpdate} {e updated : LeadTimelineEvent}
    (h : data.apply e = some updated) : data.apply updated = some updated := by
  simp only [TimelineEventUpdate.apply, Option.bind_eq_bind, Option.bind_eq_some_iff, Option.pure_def,
    Option.some.injEq] at h
  obtain ⟨_, h₁, rfl⟩ := h
  simp [TimelineEventUpdate.apply, setColumn_again h₁, getD_again]

theorem session_again (data : SessionUpdate) (s : Session) : data.apply (data.apply s) = data.apply s := by
  simp [SessionUpdate.apply, getD_again]

theorem message_again {data : MessageUpdate} {m updated : Message} (h : data.apply m = some updated) :
    data.apply updated = some updated := by
  simp only [MessageUpdate.apply, Option.bind_eq_bind, Option.bind_eq_some_iff, Option.pure_def,
    Option.some.injEq] at h
  obtain ⟨_, h₁, _, h₂, rfl⟩ := h
  simp [MessageUpdate.apply, setColumn_again h₁, setColumn_again h₂, getD_again]

theorem rule_again {data : RoutingRuleUpdate} {r updated : RoutingRule} (h : data.apply r = some updated) :
    data.apply updated = some updated := by
  simp only [RoutingRuleUpdate.apply, Option.bind_eq_bind, Option.bind_eq_some_iff, Option.pure_def,
    Option.some.injEq] at h
  obtain ⟨_, h₁, _, h₂, _, h₃, _, h₄, rfl⟩ := h
  simp [RoutingRuleUpdate.apply, setColumn_again h₁, setColumn_again h₂, setColumn_again h₃, setColumn_again h₄,
    getD_again]

theorem sequence_again {data : SequenceUpdate} {s updated : Sequence} (h : data.apply s = some updated) :
    data.apply updated = some updated := by
  simp only [SequenceUpdate.apply, Option.bind_eq_bind, Option.bind_eq_some_iff, Option.pure_def,
    Option.some.injEq] at h
  obtain ⟨_, h₁, _, h₂, _, h₃, rfl⟩ := h
  simp [SequenceUpdate.apply, setColumn_again h₁, setColumn_again h₂, setColumn_again h₃, getD_again]

theorem step_again {data : SequenceStepUpdate} {s updated : SequenceStep} (h : data.apply s = some updated) :
    data.apply updated = some updated := by
  simp only [SequenceStepUpdate.apply, Option.bind_eq_bind, Option.bind_eq_some_iff, Option.pure_def,
    Option.some.injEq] at h
  obtain ⟨_, h₁, _, h₂, _, h₃, rfl⟩ := h
  simp [SequenceStepUpdate.apply, setColumn_again h₁, setColumn_again h₂, setColumn_again h₃, getD_again]

section Rows

variable {α : Type} {key : α → Id} {tenantOf : α → Id} {t : Table key} {tenantId id : Id} {a b : α}

theorem ofTenant_put (h : ofTenant tenantOf t tenantId id = some a) (hkey : key b = key a)
    (htenant : tenantOf b = tenantOf a) : ofTenant tenantOf (t.put b) tenantId id = some b := by
  obtain ⟨hmem, rfl, rfl⟩ := ofTenant_eq_some.mp h
  exact ofTenant_eq_some.mpr ⟨Table.mem_put_self hmem hkey.symm, hkey, htenant⟩

theorem ofTenant_erase (h : ofTenant tenantOf t tenantId id = some a) :
    ofTenant tenantOf (t.erase (key a)) tenantId id = none := by
  obtain ⟨-, rfl, -⟩ := ofTenant_eq_some.mp h
  apply Option.eq_none_iff_forall_ne_some.mpr
  intro row hrow
  obtain ⟨hmem, hkey, -⟩ := ofTenant_eq_some.mp hrow
  exact (Table.mem_erase.mp hmem).2 hkey

end Rows

theorem findStep_put {db : Db} {tenantId sequenceId stepId : Id} {step updated : SequenceStep}
    (h : SequenceService.findStep db tenantId sequenceId stepId = some step) (hid : updated.id = step.id)
    (hsequence : updated.sequenceId = step.sequenceId) :
    SequenceService.findStep (db.writeAll [.step (.set updated)]) tenantId sequenceId stepId = some updated := by
  obtain ⟨sequence, hget, hstep⟩ := Option.bind_eq_some_iff.mp h
  obtain ⟨hfind, hof⟩ := Option.filter_eq_some_iff.mp hstep
  obtain ⟨-, hkey⟩ := Table.find?_eq_some_iff.mp hfind
  have hput := Table.find?_put hfind (hid.trans hkey)
  refine Option.bind_eq_some_iff.mpr ⟨sequence, hget, Option.filter_eq_some_iff.mpr ⟨hput, ?_⟩⟩
  rwa [hsequence]

section Requests

variable {lower : String → String} {db : Db} {tenantId : Id} {r : Request} {i j : Inputs} {writes writes' : List Write}
  {jobs jobs' : List QueueJob}

theorem writeAll_again (h : Request.Effect lower db tenantId i r writes jobs) (hrep : r.Repeatable lower)
    (hnew : ∀ id ∈ writes.flatMap Write.addedIds, ∀ l ∈ db.leads, l.id ≠ id)
    (hagain : Request.Effect lower (db.writeAll writes) tenantId j r writes' jobs') :
    (db.writeAll writes).writeAll writes' = db.writeAll writes := by
  cases h with
  | createLead hlimit hfree hrows =>
    subst hrows
    cases hagain with
    | createLead hlimit' hfree' hrows' =>
      have hmem := (Table.mem_insert (hnew _ List.mem_cons_self)).mpr (.inr rfl)
      apply absurd _ (LeadRepository.findDuplicate_eq_none.mp hfree' _ hmem)
      refine ⟨rfl, ?_⟩
      rcases hrep with hemail | hphone
      · exact .inl ⟨hemail, rfl⟩
      · exact .inr ⟨hphone, rfl⟩
  | updateLead hget happly =>
    cases hagain with
    | updateLead hget' happly' =>
      obtain ⟨hid, htenant, -⟩ := LeadUpdate.apply_eq_some happly
      cases (ofTenant_put hget hid htenant).symm.trans hget'
      cases (lead_again happly).symm.trans happly'
      exact congrArg (fun rows => { db with leads := rows }) (Table.put_put db.leads _)
  | deleteLead hget =>
    cases hagain with
    | deleteLead hget' =>
      cases (ofTenant_erase hget).symm.trans hget'
  | updateTimelineEvent hget happly =>
    cases hagain with
    | updateTimelineEvent hget' happly' =>
      obtain ⟨hid, htenant, -⟩ := TimelineEventUpdate.apply_eq_some happly
      cases (ofTenant_put hget hid htenant).symm.trans hget'
      cases (timelineEvent_again happly).symm.trans happly'
      exact congrArg (fun rows => { db with timeline := rows }) (Table.put_put db.timeline _)
  | deleteTimelineEvent hget =>
    cases hagain with
    | deleteTimelineEvent hget' =>
      cases (ofTenant_erase hget).symm.trans hget'
  | @attachSession leadId sessionId lead record hlead hget =>
    cases hagain with
    | attachSession hlead' hget' =>
      have hput := ofTenant_put (b := { record with leadId := some leadId }) hget rfl rfl
      cases hput.symm.trans hget'
      exact congrArg (fun rows => { db with sessions := rows }) (Table.put_put db.sessions _)
  | @updateSession sessionId payload record hget hlead =>
    cases hagain with
    | updateSession hget' hlead' =>
      have hput := ofTenant_put (b := payload.apply record) hget rfl rfl
      cases hput.symm.trans hget'
      rw [session_again]
      exact congrArg (fun rows => { db with sessions := rows }) (Table.put_put db.sessions _)
  | deleteSession hget =>
    cases hagain with
    | deleteSession hget' =>
      cases (ofTenant_erase hget).symm.trans hget'
  | updateMessage hget happly =>
    cases hagain with
    | updateMessage hget' happly' =>
      obtain ⟨hid, htenant, -⟩ := MessageUpdate.apply_eq_some happly
      cases (ofTenant_put hget hid htenant).symm.trans hget'
      cases (message_again happly).symm.trans happly'
      exact congrArg (fun rows => { db with messages := rows }) (Table.put_put db.messages _)
  | deleteMessage hget =>
    cases hagain with
    | deleteMessage hget' =>
      cases (ofTenant_erase hget).symm.trans hget'
  | updateRule hget happly =>
    cases hagain with
    | updateRule hget' happly' =>
      obtain ⟨hid, htenant, -⟩ := RoutingRuleUpdate.apply_eq_some happly
      cases (ofTenant_put hget hid htenant).symm.trans hget'
      cases (rule_again happly).symm.trans happly'
      exact congrArg (fun rows => { db with routingRules := rows }) (Table.put_put db.routingRules _)
  | deleteRule hget =>
    cases hagain with
    | deleteRule hget' =>
      cases (ofTenant_erase hget).symm.trans hget'
  | updateSequence hget happly =>
    cases hagain with
    | updateSequence hget' happly' =>
      obtain ⟨hid, htenant⟩ := SequenceUpdate.apply_eq_some happly
      cases (ofTenant_put hget hid htenant).symm.trans hget'
      cases (sequence_again happly).symm.trans happly'
      exact congrArg (fun rows => { db with sequences := rows }) (Table.put_put db.sequences _)
  | deleteSequence hget =>
    cases hagain with
    | deleteSequence hget' =>
      cases (ofTenant_erase hget).symm.trans hget'
  | updateStep hfind happly =>
    cases hagain with
    | updateStep hfind' happly' =>
      obtain ⟨hid, hsequence⟩ := SequenceStepUpdate.apply_eq_some happly
      cases (findStep_put hfind hid hsequence).symm.trans hfind'
      cases (step_again happly).symm.trans happly'
      exact congrArg (fun rows => { db with steps := rows }) (Table.put_put db.steps _)
  | deleteStep hfind =>
    cases hagain with
    | deleteStep hfind' =>
      obtain ⟨-, hmem, hkey, -⟩ := TenantReferences.findStep_eq_some hfind'
      obtain ⟨-, -, hid, -⟩ := TenantReferences.findStep_eq_some hfind
      exact absurd (hkey.trans hid.symm) (Table.mem_erase.mp hmem).2
  | _ => exact absurd hrep id

theorem commits_again (hrep : r.Repeatable lower) (h : ∃ c, r.work lower db tenantId i = .commits c) :
    ∃ c, r.work lower db tenantId j = .commits c := by
  cases r with
  | createLead payload =>
    obtain ⟨⟨writes, value, before, after⟩, hc⟩ := h
    have heffect := Request.work_hasEffect lower db tenantId i (.createLead payload)
    rw [hc] at heffect
    obtain ⟨-, heffect⟩ := heffect
    cases heffect with
    | createLead hlimit hfree hrows =>
      have hfree' : LeadRepository.findDuplicateByEmailOrPhone db tenantId (payload.normalized lower).email
          (payload.normalized lower).phone j.choice = none :=
        LeadRepository.findDuplicate_eq_none.mpr (LeadRepository.findDuplicate_eq_none.mp hfree)
      rw [Request.work, LeadRequests.createLead, hlimit]
      dsimp only
      rw [hfree']
      exact ⟨_, rfl⟩
  | _ => first | exact h | exact absurd hrep id

variable {d : Deployment}

def Settled (d : Deployment) (tenantId : Id) (r : Request) (db : Db) : Prop :=
  ∀ inputs : Inputs, ((r.work d.py.lower db tenantId inputs).run d.settings db inputs.calls).db = db

theorem run_uncommitted {α : Type} {work : Work α} {settings : Settings} {calls : Calls}
    (h : ¬∃ c, work = .commits c) : (work.run settings db calls).db = db := by
  cases work with
  | commits c => exact absurd ⟨c, rfl⟩ h
  | _ => rfl

theorem settled_of_attempt (hrep : r.Repeatable d.py.lower)
    (hnew : ∀ id ∈ (r.work d.py.lower db tenantId i).newIds, ∀ l ∈ db.leads, l.id ≠ id)
    (hcommit : i.calls.commit.takesEffect) :
    Settled d tenantId r ((r.work d.py.lower db tenantId i).run d.settings db i.calls).db := by
  intro j
  by_cases hcommits : ∃ c, r.work d.py.lower db tenantId i = .commits c
  · obtain ⟨c, hc⟩ := hcommits
    have heffect := r.work_hasEffect d.py.lower db tenantId i
    rw [hc] at heffect hnew
    obtain ⟨hbefore, heffect⟩ := heffect
    have hdb : ((r.work d.py.lower db tenantId i).run d.settings db i.calls).db = db.writeAll c.writes := by
      rw [hc, Work.run_db, Work.written_of_committed hbefore hcommit]
    rw [hdb, Work.run_db]
    rcases (r.work_hasEffect d.py.lower (db.writeAll c.writes) tenantId j).written d.settings j.calls with
      hnone | ⟨after, hagain⟩
    · rw [hnone]
      rfl
    · exact writeAll_again heffect hrep hnew hagain
  · rw [run_uncommitted hcommits]
    apply run_uncommitted
    exact fun hagain => hcommits (commits_again hrep hagain)

end Requests

section Attempts

variable {d : Deployment} {tenantId : Id} {r : Request} {w w' : World} {tries : List Inputs}

theorem settled_run (h : Settled d tenantId r w.db) (hrun : Run (Step d) w (tries.map (Label.request tenantId r)) w') :
    w'.db = w.db := by
  induction tries generalizing w with
  | nil =>
    cases hrun
    rfl
  | cons i tries ih =>
    cases hrun with
    | cons _ hstep hrest =>
      cases hstep with
      | request _ _ _ hids =>
        have hdb : (w.afterRequest d tenantId r i).db = w.db := h i
        rw [ih (by rwa [hdb]) hrest, hdb]

theorem afterRequest_db_congr {i : Inputs} (h : w.db = w'.db) :
    (w.afterRequest d tenantId r i).db = (w'.afterRequest d tenantId r i).db := by
  simp only [World.afterRequest, h]

def AppliedOnce (d : Deployment) (tenantId : Id) (r : Request) (w : World) (tries : List Inputs) (db : Db) : Prop :=
  db = ((tries.find? fun i => i.calls.commit.takesEffect).map fun i => (w.afterRequest d tenantId r i).db).getD w.db

/-- The attempt raised, so the client does not know what it has done. -/
def Unanswered (d : Deployment) (w : World) : Label → Prop
  | .request tenantId r i => ((r.work d.py.lower w.db tenantId i).run d.settings w.db i.calls).answer.rendered = .raised
  | .job _ _ _ => True

def RetrySafe (d : Deployment) (r : Request) : Prop :=
  ∀ (tenantId : Id) (w v w' : World) (tries : List Inputs) (last : Inputs), (∀ l ∈ w.db.leads, l.id ∈ w.ids) →
    GuardedRun (Step d) (Unanswered d) w (tries.map (.request tenantId r)) v →
    Step d v (.request tenantId r last) w' → AppliedOnce d tenantId r w (tries ++ [last]) w'.db

def Doubled (d : Deployment) (r : Request) : Prop :=
  ∃ (tenantId : Id) (w v w' : World) (first second : Inputs), (∀ l ∈ w.db.leads, l.id ∈ w.ids) ∧
    first.calls.commit.takesEffect = true ∧ Unanswered d w (.request tenantId r first) ∧
    Step d w (.request tenantId r first) v ∧ Step d v (.request tenantId r second) w' ∧
    r.createdRows v.db = r.createdRows w.db + 1 ∧ r.createdRows w'.db = r.createdRows w.db + 2

theorem appliedOnce_of_run (hrep : r.Repeatable d.py.lower) (hleads : ∀ l ∈ w.db.leads, l.id ∈ w.ids)
    (hrun : Run (Step d) w (tries.map (Label.request tenantId r)) w') : AppliedOnce d tenantId r w tries w'.db := by
  induction tries generalizing w with
  | nil =>
    cases hrun
    rfl
  | cons i tries ih =>
    cases hrun with
    | cons _ hstep hrest =>
      cases hstep with
      | request _ _ _ hids =>
        cases hcommit : i.calls.commit.takesEffect with
        | true =>
          have hnew : ∀ id ∈ (r.work d.py.lower w.db tenantId i).newIds, ∀ l ∈ w.db.leads, l.id ≠ id := by
            rintro id hid l hl rfl
            exact hids.2 l.id hid (hleads l hl)
          have hsettled : Settled d tenantId r (w.afterRequest d tenantId r i).db :=
            settled_of_attempt hrep hnew hcommit
          simp [AppliedOnce, settled_run hsettled hrest, hcommit]
        | false =>
          have hdb : (w.afterRequest d tenantId r i).db = w.db := by
            rw [World.afterRequest, Work.run_db, Work.written_of_lost hcommit]
            rfl
          have hleads' : ∀ l ∈ (w.afterRequest d tenantId r i).db.leads,
              l.id ∈ (w.afterRequest d tenantId r i).ids := by
            rw [hdb]
            exact fun l hl => List.mem_append_left _ (hleads l hl)
          have hlater := ih hleads' hrest
          simp only [AppliedOnce, afterRequest_db_congr hdb, hdb] at hlater
          simp [AppliedOnce, hlater, hcommit]

theorem not_retrySafe (h : Doubled d r) : ¬RetrySafe d r := by
  intro hsafe
  obtain ⟨tenantId, w, v, w', first, second, hleads, hcommit, hlost, hfirst, hsecond, hone, htwo⟩ := h
  have honce := hsafe tenantId w v w' [first] second hleads (.cons hlost hfirst (.nil v)) hsecond
  cases hfirst with
  | request _ _ _ hids =>
    simp only [AppliedOnce, List.singleton_append, List.find?_cons, hcommit, Option.map_some, Option.getD_some] at honce
    rw [honce] at htwo
    omega

end Attempts

theorem commits_of_effect {lower : String → String} {db : Db} {tenantId : Id} {r : Request} {i : Inputs}
    {writes : List Write} {jobs : List QueueJob} (h : Request.Effect lower db tenantId i r writes jobs)
    (hrep : ¬r.Repeatable lower) :
    ∃ value, r.work lower db tenantId i = .commits { writes := writes, value := value, after := jobs } := by
  cases h with
  | createLead hlimit hfree hrows =>
    subst hrows
    rw [Request.work, LeadRequests.createLead, hlimit]
    dsimp only
    rw [hfree]
    exact ⟨_, rfl⟩
  | createTimelineEvent hget =>
    rw [Request.work, LeadRequests.createTimelineEvent, hget]
    exact ⟨_, rfl⟩
  | createSession hlimit hlead =>
    rw [Request.work, ConversationService.createSession, hlimit]
    dsimp only
    rw [ConversationService.insertSession, if_pos hlead]
    exact ⟨_, rfl⟩
  | createMessage hlimit hget =>
    rw [Request.work, ConversationService.createMessage, hlimit]
    dsimp only
    rw [ConversationService.insertMessage, hget]
    exact ⟨_, rfl⟩
  | createRule => exact ⟨_, rfl⟩
  | createSequence => exact ⟨_, rfl⟩
  | createStep hget =>
    rw [Request.work, SequenceRequests.createStep, hget]
    exact ⟨_, rfl⟩
  | enrollLead henroll =>
    rw [Request.work, SequenceRequests.enrollLead, henroll]
    exact ⟨_, rfl⟩
  | _ => exact absurd trivial hrep

def numbered (n : ℕ) : Inputs where
  newId k := String.ofList (List.replicate (n + k) '0')
  today := 0

def lost (n : ℕ) : Inputs := { numbered n with calls := { commit := .raisesAfterEffect } }

theorem exists_numbered (ids : List Id) : ∃ n, ∀ m, n ≤ m → ∀ k, (numbered m).newId k ∉ ids := by
  induction ids with
  | nil => exact ⟨0, fun _ _ _ => List.not_mem_nil⟩
  | cons id ids ih =>
    obtain ⟨n, hn⟩ := ih
    refine ⟨max n (id.length + 1), fun m hm k hmem => ?_⟩
    rcases List.mem_cons.mp hmem with heq | hrest
    · have hlength := congrArg String.length heq
      simp [numbered] at hlength
      omega
    · exact hn m (le_trans (le_max_left _ _) hm) k hrest

theorem newId_injective {m n k l : ℕ} (h : (numbered m).newId k = (numbered n).newId l) : m + k = n + l := by
  have hlength := congrArg String.length h
  simpa [numbered] using hlength

def furnished (leadId sessionId sequenceId : Id) : World where
  db :=
    { leads := Table.empty.insert (LeadRepository.create leadId "tenant-a" {})
      sessions := Table.empty.insert (SessionRepository.create sessionId "tenant-a" ⟨"visitor", none, none, none, []⟩)
      sequences := Table.empty.insert (SequenceRepository.create sequenceId "tenant-a"
        { name := "Welcome", trigger := "lead_created" }) }
  ids := [leadId, sessionId, sequenceId]

section Twice

variable {d : Deployment} {lower : String → String} {tenantId : Id} {r : Request} {w : World} {db : Db} {i : Inputs}
  {writes writes' : List Write} {jobs jobs' : List QueueJob} {n : ℕ}

theorem addedIds_sublist (h : Request.Effect lower db tenantId i r writes jobs) :
    (writes.flatMap Write.addedIds).Sublist [i.newId 0, i.newId 1] := by
  cases h with
  | createLead _ _ hrows =>
    subst hrows
    exact .refl _
  | enrollLead henroll =>
    obtain ⟨-, -, rfl⟩ := SequenceService.enroll_eq_some.mp henroll
    exact .cons_cons _ (List.nil_sublist _)
  | createTimelineEvent => exact .cons_cons _ (List.nil_sublist _)
  | createSession => exact .cons_cons _ (List.nil_sublist _)
  | createMessage => exact .cons_cons _ (List.nil_sublist _)
  | createRule => exact .cons_cons _ (List.nil_sublist _)
  | createSequence => exact .cons_cons _ (List.nil_sublist _)
  | createStep => exact .cons_cons _ (List.nil_sublist _)
  | _ => exact List.nil_sublist _

theorem newIds_of_sublist {ids : List Id} (hsub : ids.Sublist [(numbered n).newId 0, (numbered n).newId 1])
    (hn : ∀ k < 2, (numbered n).newId k ∉ w.ids) : w.NewIds ids := by
  constructor
  · apply hsub.nodup
    have hne : (numbered n).newId 0 ≠ (numbered n).newId 1 := fun h => by simpa using newId_injective h
    simp [hne]
  · intro id hid
    rcases List.mem_cons.mp (hsub.subset hid) with rfl | hrest
    · exact hn 0 (by omega)
    · rw [List.mem_singleton.mp hrest]
      exact hn 1 (by omega)

theorem doubled_of_effects (tenantId : Id) (hn : ∀ m, n ≤ m → ∀ k, (numbered m).newId k ∉ w.ids)
    (hrep : ¬r.Repeatable d.py.lower) (hleads : ∀ l ∈ w.db.leads, l.id ∈ w.ids)
    (h : Request.Effect d.py.lower w.db tenantId (lost n) r writes jobs)
    (h' : Request.Effect d.py.lower (w.db.writeAll writes) tenantId (numbered (n + 2)) r writes' jobs')
    (hrows : r.createdRows (w.db.writeAll writes) = r.createdRows w.db + 1 ∧
      r.createdRows ((w.db.writeAll writes).writeAll writes') = r.createdRows w.db + 2) : Doubled d r := by
  obtain ⟨value, hfirst⟩ := commits_of_effect h hrep
  obtain ⟨value', hsecond⟩ := commits_of_effect h' hrep
  let v := w.afterRequest d tenantId r (lost n)
  have hdb : v.db = w.db.writeAll writes := by
    show (Work.run _ _ _ _).db = _
    rw [hfirst, Work.run_db, Work.written_of_committed rfl rfl]
  have hdb' : (v.afterRequest d tenantId r (numbered (n + 2))).db = (w.db.writeAll writes).writeAll writes' := by
    show (Work.run _ _ _ _).db = _
    rw [hdb, hsecond, Work.run_db, Work.written_of_committed rfl rfl]
  have hraised : Unanswered d w (.request tenantId r (lost n)) := by
    rw [Unanswered, hfirst]
    rfl
  have hsub : (writes.flatMap Write.addedIds).Sublist [(numbered n).newId 0, (numbered n).newId 1] :=
    addedIds_sublist (i := lost n) h
  have hids : w.NewIds (r.work d.py.lower w.db tenantId (lost n)).newIds := by
    rw [hfirst]
    exact newIds_of_sublist hsub fun k _ => hn n le_rfl k
  have hids' : v.NewIds (r.work d.py.lower v.db tenantId (numbered (n + 2))).newIds := by
    rw [hdb, hsecond]
    apply newIds_of_sublist (addedIds_sublist h')
    intro k hk hmem
    rcases List.mem_append.mp hmem with hold | hnew
    · exact hn (n + 2) (by omega) k hold
    · rw [hfirst] at hnew
      rcases List.mem_cons.mp (hsub.subset hnew) with heq | hrest
      · have hsum := newId_injective heq
        omega
      · have hsum := newId_injective (List.mem_singleton.mp hrest)
        omega
  refine ⟨tenantId, w, v, _, lost n, numbered (n + 2), hleads, rfl, hraised, .request tenantId r _ hids,
    .request tenantId r _ hids', ?_, ?_⟩
  · rw [hdb]
    exact hrows.1
  · rw [hdb']
    exact hrows.2

theorem length_inserted_twice {α : Type} {key : α → Id} {t : Table key} {a b : α} {ids : List Id}
    (hn : ∀ m, n ≤ m → ∀ k, (numbered m).newId k ∉ ids) (hknown : ∀ c ∈ t, key c ∈ ids)
    (ha : key a = (numbered n).newId 0) (hb : key b = (numbered (n + 2)).newId 0) :
    (t.insert a).rows.length = t.rows.length + 1 ∧ ((t.insert a).insert b).rows.length = t.rows.length + 2 := by
  have hfirst : t.Fresh (key a) := by
    intro c hc hkey
    rw [ha] at hkey
    exact hn n le_rfl 0 (hkey ▸ hknown c hc)
  have hsecond : (t.insert a).Fresh (key b) := by
    intro c hc hkey
    rw [hb] at hkey
    rcases Table.mem_of_mem_insert hc with hold | rfl
    · exact hn (n + 2) (by omega) 0 (hkey ▸ hknown c hold)
    · have hsum := newId_injective (ha.symm.trans hkey)
      omega
  rw [Table.rows_insert hsecond, Table.rows_insert hfirst]
  simp

end Twice

section Furnished

variable (leadId sessionId sequenceId : Id)

theorem lead_of_furnished :
    LeadRepository.get (furnished leadId sessionId sequenceId).db "tenant-a" leadId =
      some (LeadRepository.create leadId "tenant-a" {}) :=
  ofTenant_eq_some.mpr ⟨List.mem_singleton_self _, rfl, rfl⟩

theorem session_of_furnished :
    SessionRepository.get (furnished leadId sessionId sequenceId).db "tenant-a" sessionId =
      some (SessionRepository.create sessionId "tenant-a" ⟨"visitor", none, none, none, []⟩) :=
  ofTenant_eq_some.mpr ⟨List.mem_singleton_self _, rfl, rfl⟩

theorem sequence_of_furnished :
    SequenceRepository.get (furnished leadId sessionId sequenceId).db "tenant-a" sequenceId =
      some (SequenceRepository.create sequenceId "tenant-a" { name := "Welcome", trigger := "lead_created" }) :=
  ofTenant_eq_some.mpr ⟨List.mem_singleton_self _, rfl, rfl⟩

theorem enforceLimit_ok {α : Type} {rows : List α} {p : α → Bool} {limit : ℤ} {detail : String}
    (hlimit : 500 ≤ limit) (h : rows.length ≤ 2) :
    PlanLimitService.enforceLimit (rows.countP p) limit detail = .ok () := by
  have hcount : rows.countP p ≤ rows.length := List.countP_le_length
  apply if_neg
  omega

theorem length_insert {α : Type} {key : α → Id} (t : Table key) (a : α) :
    (t.insert a).rows.length ≤ t.rows.length + 1 := by
  unfold Table.insert
  split <;> simp

theorem leads_of_furnished : ∀ l ∈ (furnished leadId sessionId sequenceId).db.leads,
    l.id ∈ (furnished leadId sessionId sequenceId).ids := by
  intro l hl
  rw [List.mem_singleton.mp hl]
  exact List.mem_cons_self

theorem sessions_of_furnished : ∀ s ∈ (furnished leadId sessionId sequenceId).db.sessions,
    s.id ∈ (furnished leadId sessionId sequenceId).ids := by
  intro s hs
  rw [List.mem_singleton.mp hs]
  exact List.mem_cons_of_mem _ List.mem_cons_self

theorem sequences_of_furnished : ∀ s ∈ (furnished leadId sessionId sequenceId).db.sequences,
    s.id ∈ (furnished leadId sessionId sequenceId).ids := by
  intro s hs
  rw [List.mem_singleton.mp hs]
  exact List.mem_cons_of_mem _ (List.mem_cons_of_mem _ List.mem_cons_self)

theorem of_empty {α : Type} {key : α → Id} {p : α → Prop} : ∀ a ∈ (Table.empty : Table key), p a :=
  fun a ha => absurd ha (Table.not_mem_empty a)

end Furnished

theorem doubled_of_not_repeatable {d : Deployment} {r : Request} (hrep : ¬r.Repeatable d.py.lower) : Doubled d r := by
  cases r with
  | createLead payload =>
    obtain ⟨n, hn⟩ := exists_numbered (furnished "lead" "session" "sequence").ids
    have hnone : ∀ (db : Db) (choice : ℕ), LeadRepository.findDuplicateByEmailOrPhone db "tenant-a"
        (payload.normalized d.py.lower).email (payload.normalized d.py.lower).phone choice = none := by
      intro db choice
      apply LeadRepository.findDuplicate_eq_none.mpr
      intro l _ hdup
      exact hrep (hdup.2.imp (fun hmatch => hmatch.1) fun hmatch => hmatch.1)
    refine doubled_of_effects "tenant-a" hn hrep (leads_of_furnished _ _ _)
      (.createLead (enforceLimit_ok (by decide : (500 : ℤ) ≤ 500) (by decide)) (hnone _ _) rfl)
      (.createLead (enforceLimit_ok (by decide : (500 : ℤ) ≤ 500) ?_) (hnone _ _) rfl) ?_
    · exact length_insert (furnished "lead" "session" "sequence").db.leads _
    · exact length_inserted_twice hn (leads_of_furnished _ _ _) rfl rfl
  | createTimelineEvent leadId payload =>
    obtain ⟨n, hn⟩ := exists_numbered (furnished leadId "session" "sequence").ids
    have hlead := lead_of_furnished leadId "session" "sequence"
    refine doubled_of_effects "tenant-a" hn hrep (leads_of_furnished _ _ _) (.createTimelineEvent hlead)
      (.createTimelineEvent hlead) ?_
    exact length_inserted_twice hn of_empty rfl rfl
  | createSession payload =>
    obtain ⟨n, hn⟩ := exists_numbered (furnished (payload.leadId.getD "lead") "session" "sequence").ids
    have hlead : ConversationService.LeadExists (furnished (payload.leadId.getD "lead") "session" "sequence").db
        payload.leadId := by
      intro id hid
      rw [hid]
      exact Option.isSome_iff_exists.mpr ⟨_, Table.find?_eq_some_iff.mpr ⟨List.mem_singleton_self _, rfl⟩⟩
    refine doubled_of_effects "tenant-a" hn hrep (leads_of_furnished _ _ _)
      (.createSession (enforceLimit_ok (by decide : (500 : ℤ) ≤ 3000) (by decide : 1 ≤ 2)) hlead)
      (.createSession (enforceLimit_ok (by decide : (500 : ℤ) ≤ 3000) ?_) hlead) ?_
    · exact length_insert (furnished (payload.leadId.getD "lead") "session" "sequence").db.sessions _
    · exact length_inserted_twice hn (sessions_of_furnished _ _ _) rfl rfl
  | createMessage sessionId payload =>
    obtain ⟨n, hn⟩ := exists_numbered (furnished "lead" sessionId "sequence").ids
    have hsession := session_of_furnished "lead" sessionId "sequence"
    refine doubled_of_effects "tenant-a" hn hrep (leads_of_furnished _ _ _)
      (.createMessage (enforceLimit_ok (by decide : (500 : ℤ) ≤ 20000) (by decide : 0 ≤ 2)) hsession)
      (.createMessage (enforceLimit_ok (by decide : (500 : ℤ) ≤ 20000) ?_) hsession) ?_
    · exact (length_insert (furnished "lead" sessionId "sequence").db.messages _).trans (by decide : 1 ≤ 2)
    · exact length_inserted_twice hn of_empty rfl rfl
  | createRule payload =>
    obtain ⟨n, hn⟩ := exists_numbered (furnished "lead" "session" "sequence").ids
    refine doubled_of_effects "tenant-a" hn hrep (leads_of_furnished _ _ _) .createRule .createRule ?_
    exact length_inserted_twice hn of_empty rfl rfl
  | createSequence payload =>
    obtain ⟨n, hn⟩ := exists_numbered (furnished "lead" "session" "sequence").ids
    refine doubled_of_effects "tenant-a" hn hrep (leads_of_furnished _ _ _) .createSequence .createSequence ?_
    exact length_inserted_twice hn (sequences_of_furnished _ _ _) rfl rfl
  | createStep sequenceId payload =>
    obtain ⟨n, hn⟩ := exists_numbered (furnished "lead" "session" sequenceId).ids
    have hsequence := sequence_of_furnished "lead" "session" sequenceId
    refine doubled_of_effects "tenant-a" hn hrep (leads_of_furnished _ _ _) (.createStep hsequence)
      (.createStep hsequence) ?_
    exact length_inserted_twice hn of_empty rfl rfl
  | enrollLead sequenceId leadId =>
    obtain ⟨n, hn⟩ := exists_numbered (furnished leadId "session" sequenceId).ids
    have henroll : ∀ id, SequenceService.enroll (furnished leadId "session" sequenceId).db "tenant-a" sequenceId
        leadId id = some (SequenceEnrollmentRepository.newEnrollment id "tenant-a" leadId sequenceId) := by
      intro id
      rw [SequenceService.enroll, sequence_of_furnished, lead_of_furnished]
    refine doubled_of_effects "tenant-a" hn hrep (leads_of_furnished _ _ _) (.enrollLead (henroll _))
      (.enrollLead (henroll _)) ?_
    exact length_inserted_twice hn of_empty rfl rfl
  | _ => exact absurd trivial hrep

end ClientRetries

open ClientRetries

theorem retries_apply_once (d : Deployment) (r : Request) :
    (RetrySafe d r ↔ r.Repeatable d.py.lower) ∧ (Doubled d r ↔ ¬r.Repeatable d.py.lower) := by
  have hsafe : r.Repeatable d.py.lower → RetrySafe d r := by
    intro hrep tenantId w v w' tries last hleads hrun hlast
    have hall := hrun.toRun.snoc trivial hlast
    rw [← List.map_singleton (f := Label.request tenantId r), ← List.map_append] at hall
    exact appliedOnce_of_run hrep hleads hall
  constructor
  · refine ⟨fun h => ?_, hsafe⟩
    by_contra hrep
    exact not_retrySafe (doubled_of_not_repeatable hrep) h
  · exact ⟨fun h hrep => not_retrySafe h (hsafe hrep), doubled_of_not_repeatable⟩

end Leadline
