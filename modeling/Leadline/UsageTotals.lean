import Leadline.Library.Ownership
import Leadline.RequestEffects
import Leadline.System
import Mathlib.Algebra.BigOperators.Group.List.Basic

namespace Leadline

open Library Table

def tenantUsage (db : Db) (tenantId : Id) : Usage :=
  ((db.usage.view UsageRecord.tenantId tenantId).map UsageRecord.usage).sum

namespace UsageTotals

variable {db : Db} {tenantId other : Id} {w : Write}

theorem usage_write_of_ne (h : ∀ change, w ≠ .usage change) : (db.write w).usage = db.usage := by
  cases w with
  | lead w => cases w <;> rfl
  | session w => cases w <;> rfl
  | sequence w => cases w <;> rfl
  | usage change => exact absurd rfl (h change)
  | _ => rfl

theorem sum_replaced {rows : List UsageRecord} {f : UsageRecord → UsageRecord} {r : UsageRecord} {added : Usage}
    (hnodup : (rows.map UsageRecord.key).Nodup) (hr : r ∈ rows) (hadded : (f r).usage = r.usage + added) :
    ((rows.map fun a => if a.key = r.key then f a else a).map UsageRecord.usage).sum =
      (rows.map UsageRecord.usage).sum + added := by
  induction rows with
  | nil => cases hr
  | cons a rows ih =>
    obtain ⟨hnew, hrest⟩ := List.nodup_cons.mp hnodup
    rw [List.map_cons, List.map_cons, List.map_cons, List.sum_cons, List.sum_cons]
    rcases List.mem_cons.mp hr with rfl | hr
    · have hothers : (rows.map fun a => if a.key = r.key then f a else a) = rows := by
        conv_rhs => rw [← List.map_id rows]
        apply List.map_congr_left
        intro b hb
        rw [if_neg]
        · rfl
        · intro hkey
          exact hnew (hkey ▸ List.mem_map_of_mem hb)
      rw [if_pos rfl, hothers, hadded, add_right_comm]
    · have hne : a.key ≠ r.key := by
        intro hkey
        exact hnew (hkey ▸ List.mem_map_of_mem hr)
      rw [if_neg hne, ih hrest hr, add_assoc]

theorem usage_increment (db : Db) (tenantId : Id) (today : Day) (added : Usage) (other : Id) :
    tenantUsage (db.write (.usage (UsageTrackingService.increment db tenantId today added))) other =
      tenantUsage db other + if other = tenantId then added else 0 := by
  cases hfind : db.usage.find? (tenantId, today) with
  | none =>
    let row : UsageRecord := ⟨tenantId, today, Usage.add {} added⟩
    have hchange : UsageTrackingService.increment db tenantId today added = ⟨tenantId, today, true, {}, added⟩ := by
      unfold UsageTrackingService.increment
      rw [hfind]
    have htable : (db.write (.usage (UsageTrackingService.increment db tenantId today added))).usage =
        db.usage.insert row := by
      let change : UsageChange := ⟨tenantId, today, true, {}, added⟩
      have hinserted : change.inserted = true := rfl
      rw [hchange]
      exact UsageChange.write_inserted hinserted _
    have hfresh : db.usage.Fresh row.key := find?_eq_none_iff.mp hfind
    unfold tenantUsage
    rw [htable]
    by_cases hother : other = tenantId
    · have hrow : row.usage = added := zero_add added
      rw [view_insert hfresh hother.symm, List.map_append, List.sum_append, if_pos hother]
      simp [hrow]
    · rw [view_insert_of_ne fun h => hother h.symm, if_neg hother, add_zero]
  | some r =>
    obtain ⟨hmem, hkey⟩ := find?_eq_some_iff.mp hfind
    let change : UsageChange := ⟨tenantId, today, false, r.usage, added⟩
    have hchange : UsageTrackingService.increment db tenantId today added = change := by
      unfold UsageTrackingService.increment
      rw [hfind]
    have hview : (db.write (.usage (UsageTrackingService.increment db tenantId today added))).usage.view
        UsageRecord.tenantId other = (db.usage.view UsageRecord.tenantId other).map fun a =>
          if a.key = r.key then change.overwriteRow a else a := by
      rw [hchange, hkey]
      exact UsageChange.view_write_seen rfl db.usage other
    have howner : r.tenantId = tenantId := (Prod.mk.inj hkey).1
    unfold tenantUsage
    rw [hview]
    by_cases hother : other = tenantId
    · have hr : r ∈ db.usage.view UsageRecord.tenantId other := mem_view.mpr ⟨hmem, howner.trans hother.symm⟩
      have hnodup : ((db.usage.view UsageRecord.tenantId other).map UsageRecord.key).Nodup :=
        db.usage.nodup.sublist (List.filter_sublist.map UsageRecord.key)
      rw [sum_replaced hnodup hr (r.usage.overwrite_self added), if_pos hother]
    · have hnone : ∀ a ∈ db.usage.view UsageRecord.tenantId other, a.key ≠ r.key := by
        intro a ha hk
        have hsame := (Prod.mk.inj hk).1
        rw [(mem_view.mp ha).2, howner] at hsame
        exact hother hsame
      rw [if_neg hother, add_zero]
      congr 2
      conv_rhs => rw [← List.map_id (db.usage.view UsageRecord.tenantId other)]
      apply List.map_congr_left
      intro a ha
      rw [if_neg (hnone a ha)]
      rfl

structure Counter where
  count : Usage → ℕ
  add : ∀ u v, count (u + v) = count u + count v
  overwrite : ∀ u seen added,
    count (u.overwrite seen added) = overwriteCounter (count u) (count seen) (count added)

namespace Counter

def aiTokensUsed : Counter := ⟨Usage.aiTokensUsed, fun _ _ => rfl, fun _ _ _ => rfl⟩

def messagesSent : Counter := ⟨Usage.messagesSent, fun _ _ => rfl, fun _ _ _ => rfl⟩

def leadsCreated : Counter := ⟨Usage.leadsCreated, fun _ _ => rfl, fun _ _ _ => rfl⟩

def sessionsCreated : Counter := ⟨Usage.sessionsCreated, fun _ _ => rfl, fun _ _ _ => rfl⟩

def Leaves (c : Counter) : Write → Prop
  | .usage change => c.count change.added = 0 ∧ (change.inserted = true → change.seen = 0)
  | _ => True

variable {c : Counter}

theorem count_overwrite {current seen added : Usage} (h : c.count added = 0) :
    c.count (current.overwrite seen added) = c.count current := by
  rw [c.overwrite, h]
  rfl

theorem count_sum {α : Type} {rows : List α} {f g : α → Usage} (h : ∀ r, c.count (f r) = c.count (g r)) :
    c.count (rows.map f).sum = c.count (rows.map g).sum := by
  induction rows with
  | nil => rfl
  | cons r rows ih => rw [List.map_cons, List.map_cons, List.sum_cons, List.sum_cons, c.add, c.add, h, ih]

theorem total_write (hw : c.Leaves w) : c.count (tenantUsage (db.write w) other) = c.count (tenantUsage db other) := by
  by_cases husage : ∃ change, w = .usage change
  · obtain ⟨change, rfl⟩ := husage
    obtain ⟨hadded, hseen⟩ := hw
    cases hinserted : change.inserted with
    | true =>
      let row : UsageRecord := ⟨change.tenantId, change.recordDate, change.seen.add change.added⟩
      have htable : (db.write (.usage change)).usage = db.usage.insert row := UsageChange.write_inserted hinserted _
      have hrow : c.count row.usage = 0 := by
        have husage : row.usage = change.seen + change.added := rfl
        rw [husage, hseen hinserted, zero_add, hadded]
      unfold tenantUsage
      rw [htable]
      by_cases hfresh : db.usage.Fresh row.key
      · by_cases howner : row.tenantId = other
        · rw [view_insert hfresh howner, List.map_append, List.sum_append, List.map_singleton, List.sum_singleton, c.add,
            hrow, Nat.add_zero]
        · rw [view_insert_of_ne howner]
      · rw [insert_of_not_fresh hfresh]
    | false =>
      have hrow : ∀ r : UsageRecord,
          c.count (if r.key = (change.tenantId, change.recordDate) then change.overwriteRow r else r).usage =
            c.count r.usage := by
        intro r
        split
        · exact count_overwrite hadded
        · rfl
      have hview : (db.write (.usage change)).usage.view UsageRecord.tenantId other = _ :=
        UsageChange.view_write_seen hinserted db.usage other
      unfold tenantUsage
      rw [hview, List.map_map]
      exact count_sum hrow
  · unfold tenantUsage
    rw [usage_write_of_ne fun change h => husage ⟨change, h⟩]

theorem total_writeAll {writes : List Write} (hw : ∀ w ∈ writes, c.Leaves w) :
    c.count (tenantUsage (db.writeAll writes) other) = c.count (tenantUsage db other) := by
  induction writes generalizing db with
  | nil => rfl
  | cons w writes ih =>
    rw [Db.writeAll_cons, ih fun x hx => hw x (List.mem_cons_of_mem w hx)]
    exact total_write (hw w List.mem_cons_self)

theorem leaves_increment {today : Day} {added : Usage} (h : c.count added = 0) :
    c.Leaves (.usage (UsageTrackingService.increment db tenantId today added)) := by
  unfold UsageTrackingService.increment
  cases db.usage.find? (tenantId, today) with
  | none => exact ⟨h, fun _ => rfl⟩
  | some record => exact ⟨h, fun hinserted => Bool.noConfusion hinserted⟩

end Counter

def Routine : Write → Prop
  | .usage _ => False
  | .lead (.add _) => False
  | .session (.add _) => False
  | _ => True

theorem effect_cases {lower : String → String} {inputs : Inputs} {r : Request} {writes : List Write}
    {after : List QueueJob} (heffect : r.Effect lower db tenantId inputs writes after) :
    (∀ w ∈ writes, Routine w) ∨
      (∃ data, writes =
        let new := LeadService.newLead db tenantId (inputs.newId 0) (inputs.newId 1) inputs.today data
        [.lead (.add new.lead), .timelineEvent (.add new.event), .usage new.usage]) ∨
      ∃ payload, writes = [.session (.add (SessionRepository.create (inputs.newId 0) tenantId payload)),
        .usage (UsageTrackingService.increment db tenantId inputs.today { sessionsCreated := 1 })] := by
  cases heffect with
  | createLead hlimit hnew hrows =>
    subst hrows
    exact .inr (.inl ⟨_, rfl⟩)
  | createSession hlimit hlead => exact .inr (.inr ⟨_, rfl⟩)
  | _ =>
    apply Or.inl
    simp [Routine]

def CountsDelivery (db : Db) (w : Write) : Prop :=
  Routine w ∨ ∃ tenantId today added, w = .usage (UsageTrackingService.increment db tenantId today added) ∧
    (added = { emailsSent := 1 } ∨ added = { smsSent := 1 })

namespace Counter

variable {c : Counter}

theorem leaves_routine (h : Routine w) : c.Leaves w := by
  cases w with
  | usage change => exact False.elim h
  | _ => trivial

theorem leaves_request (lower : String → String) (db : Db) (tenantId : Id) (inputs : Inputs) (r : Request)
    (hlead : c.count { leadsCreated := 1 } = 0) (hsession : c.count { sessionsCreated := 1 } = 0) :
    (r.work lower db tenantId inputs).Each c.Leaves := by
  apply (r.work_hasEffect lower db tenantId inputs).each
  intro writes after heffect w hw
  rcases effect_cases heffect with hroutine | ⟨data, rfl⟩ | ⟨payload, rfl⟩
  · exact leaves_routine (hroutine w hw)
  · rcases List.mem_cons.mp hw with rfl | hw
    · trivial
    · rcases List.mem_cons.mp hw with rfl | hw
      · trivial
      · rw [List.mem_singleton.mp hw]
        exact leaves_increment hlead
  · rcases List.mem_cons.mp hw with rfl | hw
    · trivial
    · rw [List.mem_singleton.mp hw]
      exact leaves_increment hsession

theorem leaves_delivery (hemail : c.count { emailsSent := 1 } = 0) (hsms : c.count { smsSent := 1 } = 0)
    (h : CountsDelivery db w) : c.Leaves w := by
  rcases h with hroutine | ⟨tenantId, today, added, rfl, rfl | rfl⟩
  · exact leaves_routine hroutine
  · exact leaves_increment hemail
  · exact leaves_increment hsms

end Counter

theorem job_counts (d : Deployment) (db : Db) (cache : AICache) (payload : Dict) (inputs : JobInputs) {event : JobEvent}
    (hne : event ≠ .messageCreated) : (event.handle d db cache payload inputs).1.Each (CountsDelivery db) := by
  apply (event.handle_writes d db cache payload inputs).imp
  intro w hw
  cases hw with
  | countAnalysis => exact absurd rfl hne
  | countDelivery hread hadded => exact .inr ⟨_, _, _, rfl, hadded⟩
  | _ => exact .inl trivial

theorem scoreWrites_routine {sessionId messageId eventId : Id} {understanding : MessageUnderstanding} :
    ∀ w ∈ MessageEvents.scoreWrites db tenantId sessionId messageId understanding eventId, Routine w := by
  intro w hw
  obtain ⟨_, _, _, -, rfl | rfl⟩ := MessageEvents.mem_scoreWrites hw
  · trivial
  · trivial

theorem message_counts (d : Deployment) (db : Db) (cache : AICache) (payload : Dict) (inputs : JobInputs) :
    (JobEvent.messageCreated.handle d db cache payload inputs).1.Each fun w =>
      Routine w ∨ ∃ tenantId today understanding, w =
        .usage (UsageTrackingService.increment db tenantId today (MessageEvents.analysisUsage understanding)) := by
  apply (JobEvent.messageCreated.handle_writes d db cache payload inputs).imp
  intro w hw
  cases hw with
  | countAnalysis => exact .inr ⟨_, _, _, rfl⟩
  | _ => exact .inl trivial

end UsageTotals

end Leadline
