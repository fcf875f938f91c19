import Leadline.Library.Ownership
import Leadline.System

namespace Leadline

open Library Table

namespace TenantWrites

def grows {α : Type} : RowWrite α → Prop
  | .delete _ => False
  | _ => True

def RowWithin {α ω : Type} {key : α → Id} (owner : α → ω) (t : Table key) (o : ω) (refs : α → Prop) :
    RowWrite α → Prop
  | .add row => owner row = o ∧ refs row
  | .set row => t.Owns owner o (key row) ∧ owner row = o ∧ refs row
  | .delete id => t.Owns owner o id

section RowWithin

variable {α ω : Type} {key : α → Id} {owner : α → ω} {t t' : Table key} {o o' : ω} {refs : α → Prop}
  {w : RowWrite α} {id : Id}

theorem RowWithin.owns (hw : RowWithin owner t o refs w) (hgrows : grows w) (h : t.Owns owner o' id) :
    (w.apply t).Owns owner o' id := by
  cases w with
  | add row => exact h.insert
  | set row =>
    obtain ⟨hold, ho, -⟩ := hw
    apply Owns.put
    · rw [ho]
      exact hold
    · exact h
  | delete id => exact False.elim hgrows

theorem RowWithin.refers {β : Type} {key' : β → Id} {owner' : β → ω} {ref : α → Option Id} {parents : Table key'}
    (hw : RowWithin owner t o refs w)
    (hrefs : ∀ row, owner row = o → refs row → ∀ k ∈ ref row, parents.Owns owner' o k)
    (h : RefersWithin owner ref t owner' parents) : RefersWithin owner ref (w.apply t) owner' parents := by
  apply h.of_mem
  intro a ha
  cases w with
  | add row =>
    obtain ⟨ho, hrow⟩ := hw
    rcases mem_of_mem_insert ha with hold | rfl
    · exact .inl hold
    · rw [ho]
      exact .inr (hrefs a ho hrow)
  | set row =>
    obtain ⟨-, ho, hrow⟩ := hw
    rcases mem_of_mem_put ha with rfl | ⟨hold, -⟩
    · rw [ho]
      exact .inr (hrefs a ho hrow)
    · exact .inl hold
  | delete id => exact .inl (mem_erase.mp ha).1

variable [DecidableEq ω]

theorem RowWithin.view_of_ne (hw : RowWithin owner t o refs w) (hne : o ≠ o') :
    (w.apply t).view owner o' = t.view owner o' := by
  cases w with
  | add row =>
    apply view_insert_of_ne
    rw [hw.1]
    exact hne
  | set row =>
    obtain ⟨hold, ho, -⟩ := hw
    apply view_put_of_ne
    · rw [ho]
      exact hold
    · rw [ho]
      exact hne
  | delete id => exact view_erase_of_ne hw hne

theorem RowWithin.view_congr (hw : RowWithin owner t o refs w) (hview : t.view owner o = t'.view owner o)
    (hfresh : ∀ id ∈ w.addedIds key, t.Fresh id ∧ t'.Fresh id) :
    (w.apply t).view owner o = (w.apply t').view owner o := by
  cases w with
  | add row =>
    obtain ⟨ht, ht'⟩ := hfresh (key row) (List.mem_singleton_self _)
    simp only [RowWrite.apply]
    rw [view_insert ht hw.1, view_insert ht' hw.1, hview]
  | set row =>
    obtain ⟨hold, ho, -⟩ := hw
    simp only [RowWrite.apply]
    rw [view_put hold ho, view_put ((owns_congr hview).mp hold) ho, hview]
  | delete id =>
    simp only [RowWrite.apply]
    rw [view_erase, view_erase, hview]

end RowWithin

abbrev OwnsLead (db : Db) (tenantId leadId : Id) : Prop := db.leads.Owns Lead.tenantId tenantId leadId

abbrev OwnsSession (db : Db) (tenantId sessionId : Id) : Prop := db.sessions.Owns Session.tenantId tenantId sessionId

abbrev OwnsSequence (db : Db) (tenantId sequenceId : Id) : Prop :=
  db.sequences.Owns Sequence.tenantId tenantId sequenceId

def Within (db : Db) (tenantId : Id) : Write → Prop
  | .lead w => RowWithin Lead.tenantId db.leads tenantId (fun _ => True) w
  | .timelineEvent w =>
    RowWithin LeadTimelineEvent.tenantId db.timeline tenantId (fun e => OwnsLead db tenantId e.leadId) w
  | .session w =>
    RowWithin Session.tenantId db.sessions tenantId (fun s => ∀ leadId ∈ s.leadId, OwnsLead db tenantId leadId) w
  | .message w =>
    RowWithin Message.tenantId db.messages tenantId (fun m => OwnsSession db tenantId m.sessionId) w
  | .routingRule w => RowWithin RoutingRule.tenantId db.routingRules tenantId (fun _ => True) w
  | .sequence w => RowWithin Sequence.tenantId db.sequences tenantId (fun _ => True) w
  | .step w =>
    ∃ sequenceId, OwnsSequence db tenantId sequenceId ∧
      RowWithin SequenceStep.sequenceId db.steps sequenceId (fun _ => True) w
  | .enrollment w =>
    RowWithin SequenceEnrollment.tenantId db.enrollments tenantId
      (fun e => OwnsLead db tenantId e.leadId ∧ OwnsSequence db tenantId e.sequenceId) w
  | .connection w => RowWithin IntegrationConnection.tenantId db.integrationConnections tenantId (fun _ => True) w
  | .usage change => change.tenantId = tenantId

def Grows : Write → Prop
  | .lead w => grows w
  | .timelineEvent w => grows w
  | .session w => grows w
  | .message w => grows w
  | .routingRule w => grows w
  | .sequence w => grows w
  | .step w => grows w
  | .enrollment w => grows w
  | .connection w => grows w
  | .usage _ => True

structure Keeps (db db' : Db) : Prop where
  leads : ∀ o k, OwnsLead db o k → OwnsLead db' o k
  timeline : ∀ o k, db.timeline.Owns LeadTimelineEvent.tenantId o k →
    db'.timeline.Owns LeadTimelineEvent.tenantId o k
  sessions : ∀ o k, OwnsSession db o k → OwnsSession db' o k
  messages : ∀ o k, db.messages.Owns Message.tenantId o k → db'.messages.Owns Message.tenantId o k
  routingRules : ∀ o k, db.routingRules.Owns RoutingRule.tenantId o k →
    db'.routingRules.Owns RoutingRule.tenantId o k
  sequences : ∀ o k, OwnsSequence db o k → OwnsSequence db' o k
  steps : ∀ o k, db.steps.Owns SequenceStep.sequenceId o k → db'.steps.Owns SequenceStep.sequenceId o k
  enrollments : ∀ o k, db.enrollments.Owns SequenceEnrollment.tenantId o k →
    db'.enrollments.Owns SequenceEnrollment.tenantId o k
  connections : ∀ o k, db.integrationConnections.Owns IntegrationConnection.tenantId o k →
    db'.integrationConnections.Owns IntegrationConnection.tenantId o k

theorem Keeps.refl (db : Db) : Keeps db db where
  leads _ _ h := h
  timeline _ _ h := h
  sessions _ _ h := h
  messages _ _ h := h
  routingRules _ _ h := h
  sequences _ _ h := h
  steps _ _ h := h
  enrollments _ _ h := h
  connections _ _ h := h

variable {db db' : Db} {tenantId : Id} {w : Write}

theorem RowWithin.mono {α ω : Type} {key : α → Id} {owner : α → ω} {t t' : Table key} {o : ω} {refs refs' : α → Prop}
    {w : RowWrite α} (h : RowWithin owner t o refs w) (hkeep : ∀ k, t.Owns owner o k → t'.Owns owner o k)
    (hrefs : ∀ row, refs row → refs' row) : RowWithin owner t' o refs' w := by
  cases w with
  | add row => exact ⟨h.1, hrefs row h.2⟩
  | set row => exact ⟨hkeep _ h.1, h.2.1, hrefs row h.2.2⟩
  | delete id => exact hkeep id h

theorem Within.mono (h : Within db tenantId w) (hkeep : Keeps db db') : Within db' tenantId w := by
  cases w with
  | lead w => exact RowWithin.mono h (hkeep.leads tenantId) fun _ hr => hr
  | timelineEvent w => exact RowWithin.mono h (hkeep.timeline tenantId) fun _ hr => hkeep.leads _ _ hr
  | session w =>
    exact RowWithin.mono h (hkeep.sessions tenantId) fun _ hr k hk => hkeep.leads _ _ (hr k hk)
  | message w => exact RowWithin.mono h (hkeep.messages tenantId) fun _ hr => hkeep.sessions _ _ hr
  | routingRule w => exact RowWithin.mono h (hkeep.routingRules tenantId) fun _ hr => hr
  | sequence w => exact RowWithin.mono h (hkeep.sequences tenantId) fun _ hr => hr
  | step w =>
    obtain ⟨sequenceId, hsequence, hw⟩ := h
    exact ⟨sequenceId, hkeep.sequences _ _ hsequence, RowWithin.mono hw (hkeep.steps sequenceId) fun _ hr => hr⟩
  | enrollment w =>
    exact RowWithin.mono h (hkeep.enrollments tenantId) fun _ hr =>
      ⟨hkeep.leads _ _ hr.1, hkeep.sequences _ _ hr.2⟩
  | connection w => exact RowWithin.mono h (hkeep.connections tenantId) fun _ hr => hr
  | usage change => exact h

theorem Within.keeps (h : Within db tenantId w) (hgrows : Grows w) : Keeps db (db.write w) := by
  have hrefl := Keeps.refl db
  cases w with
  | lead w =>
    have hkeep : ∀ o k, OwnsLead db o k → (w.apply db.leads).Owns Lead.tenantId o k :=
      fun _ _ => RowWithin.owns h hgrows
    cases w with
    | add row => exact { hrefl with leads := hkeep }
    | set row => exact { hrefl with leads := hkeep }
    | delete id => exact False.elim hgrows
  | timelineEvent w => exact { hrefl with timeline := fun _ _ => RowWithin.owns h hgrows }
  | session w =>
    have hkeep : ∀ o k, OwnsSession db o k → (w.apply db.sessions).Owns Session.tenantId o k :=
      fun _ _ => RowWithin.owns h hgrows
    cases w with
    | add row => exact { hrefl with sessions := hkeep }
    | set row => exact { hrefl with sessions := hkeep }
    | delete id => exact False.elim hgrows
  | message w => exact { hrefl with messages := fun _ _ => RowWithin.owns h hgrows }
  | routingRule w => exact { hrefl with routingRules := fun _ _ => RowWithin.owns h hgrows }
  | sequence w =>
    have hkeep : ∀ o k, OwnsSequence db o k → (w.apply db.sequences).Owns Sequence.tenantId o k :=
      fun _ _ => RowWithin.owns h hgrows
    cases w with
    | add row => exact { hrefl with sequences := hkeep }
    | set row => exact { hrefl with sequences := hkeep }
    | delete id => exact False.elim hgrows
  | step w =>
    obtain ⟨_, -, hw⟩ := h
    exact { hrefl with steps := fun _ _ => RowWithin.owns hw hgrows }
  | enrollment w => exact { hrefl with enrollments := fun _ _ => RowWithin.owns h hgrows }
  | connection w => exact { hrefl with connections := fun _ _ => RowWithin.owns h hgrows }
  | usage change => exact { hrefl with }

def WritesWithin (tenantId : Id) : Db → List Write → Prop
  | _, [] => True
  | db, w :: writes => Within db tenantId w ∧ WritesWithin tenantId (db.write w) writes

theorem WritesWithin.invariant (I : Db → Prop) {writes : List Write} (h : WritesWithin tenantId db writes)
    (hstep : ∀ db w, w ∈ writes → I db → Within db tenantId w → I (db.write w)) (hdb : I db) :
    I (db.writeAll writes) := by
  induction writes generalizing db with
  | nil => exact hdb
  | cons w writes ih =>
    obtain ⟨hw, hrest⟩ := h
    have hnext := hstep db w List.mem_cons_self hdb hw
    rw [Db.writeAll_cons]
    exact ih hrest (fun db x hx => hstep db x (List.mem_cons_of_mem w hx)) hnext

theorem WritesWithin.one (h : Within db tenantId w) : WritesWithin tenantId db [w] := ⟨h, trivial⟩

theorem WritesWithin.of_grows {writes : List Write} (hgrows : ∀ w ∈ writes, Grows w)
    (hwithin : ∀ w ∈ writes, Within db tenantId w) : WritesWithin tenantId db writes := by
  induction writes generalizing db with
  | nil => trivial
  | cons w writes ih =>
    have hw := hwithin w List.mem_cons_self
    have hkeep := hw.keeps (hgrows w List.mem_cons_self)
    constructor
    · exact hw
    · apply ih
      · exact fun x hx => hgrows x (List.mem_cons_of_mem w hx)
      · exact fun x hx => (hwithin x (List.mem_cons_of_mem w hx)).mono hkeep

theorem Keeps.trans {db'' : Db} (h : Keeps db db') (h' : Keeps db' db'') : Keeps db db'' where
  leads o k hk := h'.leads o k (h.leads o k hk)
  timeline o k hk := h'.timeline o k (h.timeline o k hk)
  sessions o k hk := h'.sessions o k (h.sessions o k hk)
  messages o k hk := h'.messages o k (h.messages o k hk)
  routingRules o k hk := h'.routingRules o k (h.routingRules o k hk)
  sequences o k hk := h'.sequences o k (h.sequences o k hk)
  steps o k hk := h'.steps o k (h.steps o k hk)
  enrollments o k hk := h'.enrollments o k (h.enrollments o k hk)
  connections o k hk := h'.connections o k (h.connections o k hk)

theorem WritesWithin.keeps {writes : List Write} (h : WritesWithin tenantId db writes)
    (hgrows : ∀ w ∈ writes, Grows w) : Keeps db (db.writeAll writes) := by
  apply h.invariant (fun db' => Keeps db db')
  · intro db' w hw hkeep hwithin
    exact hkeep.trans (hwithin.keeps (hgrows w hw))
  · exact Keeps.refl db

end TenantWrites

end Leadline
