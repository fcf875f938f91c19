import Leadline.Library.Ownership
import Leadline.Rows
import Mathlib.Algebra.Group.Nat.Defs

namespace Leadline

open Library

instance : Zero Usage := ⟨{}⟩

instance : Add Usage := ⟨Usage.add⟩

instance : AddCommMonoid Usage where
  add_assoc u v w := by
    apply Usage.ext <;> exact Nat.add_assoc _ _ _
  zero_add u := by
    apply Usage.ext <;> exact Nat.zero_add _
  add_zero u := by
    apply Usage.ext <;> exact Nat.add_zero _
  add_comm u v := by
    apply Usage.ext <;> exact Nat.add_comm _ _
  nsmul := nsmulRec

theorem Usage.add_def (u v : Usage) : u.add v = u + v := rfl

/-- The day's record as a transaction holds it: the counters it read, or inserted as zeros, and
what it added to them. -/
structure UsageChange where
  tenantId : Id
  recordDate : Day
  inserted : Bool
  seen : Usage
  added : Usage
  deriving DecidableEq

def UsageTrackingService.increment (db : Db) (tenantId : Id) (today : Day) (added : Usage) : UsageChange :=
  match db.usage.find? (tenantId, today) with
  | none => ⟨tenantId, today, true, {}, added⟩
  | some record => ⟨tenantId, today, false, record.usage, added⟩

theorem UsageTrackingService.increment_tenantId (db : Db) (tenantId : Id) (today : Day) (added : Usage) :
    (increment db tenantId today added).tenantId = tenantId := by
  unfold increment
  split <;> rfl

def overwriteCounter (current seen added : ℕ) : ℕ := if added = 0 then current else seen + added

def Usage.overwrite (current seen added : Usage) : Usage where
  aiTokensUsed := overwriteCounter current.aiTokensUsed seen.aiTokensUsed added.aiTokensUsed
  messagesSent := overwriteCounter current.messagesSent seen.messagesSent added.messagesSent
  emailsSent := overwriteCounter current.emailsSent seen.emailsSent added.emailsSent
  smsSent := overwriteCounter current.smsSent seen.smsSent added.smsSent
  leadsCreated := overwriteCounter current.leadsCreated seen.leadsCreated added.leadsCreated
  sessionsCreated := overwriteCounter current.sessionsCreated seen.sessionsCreated added.sessionsCreated

def UsageChange.write (c : UsageChange) (usage : Table UsageRecord.key) : Table UsageRecord.key :=
  if c.inserted then usage.insert ⟨c.tenantId, c.recordDate, c.seen.add c.added⟩
  else
    usage.modify (c.tenantId, c.recordDate)
      (fun r => { r with usage := r.usage.overwrite c.seen c.added }) fun _ => rfl

def UsageChange.overwriteRow (c : UsageChange) (r : UsageRecord) : UsageRecord :=
  { r with usage := r.usage.overwrite c.seen c.added }

theorem UsageChange.overwriteRow_key (c : UsageChange) (r : UsageRecord) : (c.overwriteRow r).key = r.key := rfl

theorem UsageChange.write_inserted {c : UsageChange} (h : c.inserted = true) (usage : Table UsageRecord.key) :
    c.write usage = usage.insert ⟨c.tenantId, c.recordDate, c.seen.add c.added⟩ := if_pos h

theorem UsageChange.write_seen {c : UsageChange} (h : c.inserted = false) (usage : Table UsageRecord.key) :
    c.write usage = usage.modify (c.tenantId, c.recordDate) c.overwriteRow c.overwriteRow_key := by
  unfold write
  rw [if_neg]
  · rfl
  · simp [h]

theorem UsageChange.view_write_seen {c : UsageChange} (h : c.inserted = false) (usage : Table UsageRecord.key)
    (owner : Id) : (c.write usage).view UsageRecord.tenantId owner =
      (usage.view UsageRecord.tenantId owner).map fun r =>
        if r.key = (c.tenantId, c.recordDate) then c.overwriteRow r else r := by
  rw [write_seen h, Table.view_modify]
  exact fun _ => rfl

def Usage.UpToDate (current seen added : Usage) : Prop :=
  (added.aiTokensUsed ≠ 0 → current.aiTokensUsed = seen.aiTokensUsed) ∧
  (added.messagesSent ≠ 0 → current.messagesSent = seen.messagesSent) ∧
  (added.emailsSent ≠ 0 → current.emailsSent = seen.emailsSent) ∧
  (added.smsSent ≠ 0 → current.smsSent = seen.smsSent) ∧
  (added.leadsCreated ≠ 0 → current.leadsCreated = seen.leadsCreated) ∧
  (added.sessionsCreated ≠ 0 → current.sessionsCreated = seen.sessionsCreated)

instance (current seen added : Usage) : Decidable (current.UpToDate seen added) :=
  inferInstanceAs (Decidable ((_ → _) ∧ (_ → _) ∧ (_ → _) ∧ (_ → _) ∧ (_ → _) ∧ (_ → _)))

theorem overwriteCounter_eq_add_iff {current seen added : ℕ} :
    overwriteCounter current seen added = current + added ↔ (added ≠ 0 → current = seen) := by
  unfold overwriteCounter
  split <;> omega

theorem Usage.overwrite_eq_add_iff {current seen added : Usage} :
    current.overwrite seen added = current + added ↔ current.UpToDate seen added := by
  rw [← add_def, Usage.ext_iff]
  simp only [overwrite, add, overwriteCounter_eq_add_iff, UpToDate]

theorem Usage.overwrite_self (u v : Usage) : u.overwrite u v = u.add v := by
  apply Usage.overwrite_eq_add_iff.mpr
  simp [UpToDate]

def usageOn (db : Db) (tenantId : Id) (day : Day) : Usage :=
  ((db.usage.find? (tenantId, day)).map UsageRecord.usage).getD {}

theorem UsageTrackingService.find?_write_increment (db : Db) (tenantId : Id) (today : Day) (added : Usage) :
    ((increment db tenantId today added).write db.usage).find? (tenantId, today) =
      some ⟨tenantId, today, (usageOn db tenantId today).add added⟩ := by
  unfold increment usageOn
  cases hr : db.usage.find? (tenantId, today) with
  | none =>
    let record : UsageRecord := ⟨tenantId, today, Usage.add {} added⟩
    have hfresh : db.usage.Fresh record.key := Table.find?_eq_none_iff.mp hr
    exact Table.find?_insert_self hfresh
  | some record =>
    obtain ⟨-, hkey⟩ := Table.find?_eq_some_iff.mp hr
    obtain ⟨rfl, rfl⟩ := Prod.mk.inj hkey
    have hw : (db.usage.modify record.key
        (fun r => { r with usage := r.usage.overwrite record.usage added }) fun _ => rfl).find? record.key =
          some { record with usage := record.usage.overwrite record.usage added } := by
      apply Table.find?_modify_self
      exact hr
    rw [Usage.overwrite_self] at hw
    exact hw

end Leadline
