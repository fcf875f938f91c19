import Leadline.Transactions
import Leadline.UsageTracking
import Mathlib.Algebra.BigOperators.Group.List.Basic
import Mathlib.Data.List.Induction
import Mathlib.Data.List.Sort
import Mathlib.Data.Nat.Cast.Order.Ring

namespace Leadline

open Library

namespace UsageTrackingService

/-- `order_by(UsageRecord.record_date.desc())` -/
def Newer (r s : UsageRecord) : Prop := s.recordDate ≤ r.recordDate

instance : DecidableRel Newer := fun _ _ => inferInstanceAs (Decidable (_ ≤ _))

instance : Std.Total Newer := ⟨fun r s => Nat.le_total s.recordDate r.recordDate⟩

instance : IsTrans UsageRecord Newer := ⟨fun _ _ _ hrs hst => Nat.le_trans hst hrs⟩

def getSummary (db : Db) (tenantId : Id) (today : Day) (days : ℕ) : List UsageRecord :=
  let cutoff : ℤ := today - days
  (db.usage.rows.filter fun r => r.tenantId = tenantId ∧ cutoff ≤ r.recordDate).insertionSort Newer

end UsageTrackingService

namespace UsageReports

open UsageTrackingService

structure Increment where
  tenantId : Id
  day : Day
  added : Usage

def incrementsOn (increments : List Increment) (tenantId : Id) (day : Day) : List Increment :=
  increments.filter fun i => i.tenantId = tenantId ∧ i.day = day

def commit (db : Db) (i : Increment) : Db := db.write (.usage (increment db i.tenantId i.day i.added))

def commitAll (db : Db) (increments : List Increment) : Db := increments.foldl commit db

def InWindow (today days day : ℕ) : Prop := today < day + days ∧ day ≤ today

structure Exact (increments : List Increment) (tenantId : Id) (today : Day) (days : ℕ) (report : List UsageRecord) :
    Prop where
  newestFirst : report.Pairwise fun r s => s.recordDate < r.recordDate
  tenant : ∀ r ∈ report, r.tenantId = tenantId
  window : ∀ r ∈ report, InWindow today days r.recordDate
  few : report.length ≤ days
  complete : ∀ i ∈ increments, i.tenantId = tenantId → InWindow today days i.day → ∃ r ∈ report, r.recordDate = i.day
  counters : ∀ r ∈ report, r.usage = ((incrementsOn increments tenantId r.recordDate).map Increment.added).sum

variable {db : Db} {tenantId : Id} {today day : Day} {days : ℕ} {increments : List Increment} {i : Increment}
  {r : UsageRecord}

theorem find?_commit_of_ne (h : (i.tenantId, i.day) ≠ (tenantId, day)) :
    (commit db i).usage.find? (tenantId, day) = db.usage.find? (tenantId, day) := by
  change ((increment db i.tenantId i.day i.added).write db.usage).find? (tenantId, day) = _
  unfold increment
  cases db.usage.find? (i.tenantId, i.day) with
  | none =>
    rw [UsageChange.write_inserted rfl]
    exact Table.find?_insert_of_ne h
  | some record =>
    rw [UsageChange.write_seen rfl]
    exact Table.find?_modify_of_ne _ (Ne.symm h)

theorem incrementsOn_append (increments : List Increment) (i : Increment) (tenantId : Id) (day : Day) :
    incrementsOn (increments ++ [i]) tenantId day =
      incrementsOn increments tenantId day ++ if i.tenantId = tenantId ∧ i.day = day then [i] else [] := by
  unfold incrementsOn
  rw [List.filter_append]
  congr 1
  by_cases h : i.tenantId = tenantId ∧ i.day = day
  · simp [h]
  · simp [h]

theorem find?_commitAll (hdb : db.usage = .empty) (increments : List Increment) (tenantId : Id) (day : Day) :
    (commitAll db increments).usage.find? (tenantId, day) =
      if incrementsOn increments tenantId day = [] then none
      else some ⟨tenantId, day, ((incrementsOn increments tenantId day).map Increment.added).sum⟩ := by
  induction increments using List.reverseRecOn with
  | nil =>
    rw [commitAll, List.foldl_nil, hdb]
    rfl
  | append_singleton increments i ih =>
    have hlast : commitAll db (increments ++ [i]) = commit (commitAll db increments) i := by
      rw [commitAll, List.foldl_append]
      rfl
    rw [hlast]
    -- A day has a record as soon as it has an increment.
    by_cases hi : i.tenantId = tenantId ∧ i.day = day
    · obtain ⟨rfl, rfl⟩ := hi
      have hgrown : incrementsOn (increments ++ [i]) i.tenantId i.day = incrementsOn increments i.tenantId i.day ++ [i] := by
        rw [incrementsOn_append, if_pos ⟨rfl, rfl⟩]
      have hsome : (commit (commitAll db increments) i).usage.find? (i.tenantId, i.day) =
          some ⟨i.tenantId, i.day, (usageOn (commitAll db increments) i.tenantId i.day).add i.added⟩ :=
        find?_write_increment _ _ _ _
      have hbefore : usageOn (commitAll db increments) i.tenantId i.day =
          ((incrementsOn increments i.tenantId i.day).map Increment.added).sum := by
        rw [usageOn, ih]
        split_ifs with hnone
        · rw [hnone]
          rfl
        · rfl
      rw [hsome, hgrown, if_neg (by simp), hbefore, List.map_append, List.sum_append, List.map_singleton,
        List.sum_singleton]
      rfl
    · rw [find?_commit_of_ne (by simpa using hi), ih, incrementsOn_append, if_neg hi, List.append_nil]

theorem mem_commitAll (hdb : db.usage = .empty) : r ∈ (commitAll db increments).usage ↔
    incrementsOn increments r.tenantId r.recordDate ≠ [] ∧
      r.usage = ((incrementsOn increments r.tenantId r.recordDate).map Increment.added).sum := by
  have hfind : r ∈ (commitAll db increments).usage ↔
      (commitAll db increments).usage.find? (r.tenantId, r.recordDate) = some r := by
    rw [Table.find?_eq_some_iff]
    exact (and_iff_left rfl).symm
  rw [hfind, find?_commitAll hdb]
  split_ifs with hnone
  · simp [hnone]
  · rw [Option.some.injEq, UsageRecord.mk.injEq]
    simp [hnone, eq_comm]

theorem incrementsOn_ne_nil : incrementsOn increments tenantId day ≠ [] ↔
    ∃ i ∈ increments, i.tenantId = tenantId ∧ i.day = day := by
  simp [incrementsOn, List.filter_eq_nil_iff]

theorem cutoff_le (today days day : ℕ) : (today : ℤ) - days ≤ day ↔ today ≤ day + days := by omega

theorem sub_ne {today d e : ℕ} (hlt : e < d) (htoday : d ≤ today) : today - d ≠ today - e := by omega

theorem InWindow.sub_lt {today days day : ℕ} (h : InWindow today days day) : today - day < days := by
  unfold InWindow at h
  omega

theorem edge_of_not_le {today days day : ℕ} (h : ¬today ≤ day + days) : day + days ≠ today ∧ day ≤ today := by omega

theorem mem_getSummary : r ∈ getSummary db tenantId today days ↔
    r ∈ db.usage ∧ r.tenantId = tenantId ∧ today ≤ r.recordDate + days := by
  rw [getSummary, (List.perm_insertionSort _ _).mem_iff, List.mem_filter, decide_eq_true_eq]
  exact and_congr_right fun _ => and_congr_right fun _ => cutoff_le today days r.recordDate

theorem getSummary_newestFirst (db : Db) (tenantId : Id) (today : Day) (days : ℕ) :
    (getSummary db tenantId today days).Pairwise fun r s => s.recordDate < r.recordDate := by
  have hsorted : (getSummary db tenantId today days).Pairwise Newer := List.pairwise_insertionSort Newer _
  have hrows : (db.usage.rows.filter fun r => r.tenantId = tenantId ∧ (today : ℤ) - days ≤ r.recordDate).Nodup :=
    (List.Nodup.of_map UsageRecord.key db.usage.nodup).filter _
  have hnodup : (getSummary db tenantId today days).Nodup := (List.perm_insertionSort _ _).nodup_iff.mpr hrows
  have hboth := hsorted.and hnodup
  refine hboth.imp_of_mem ?_
  intro r s hr hs hrs
  obtain ⟨hnewer, hne⟩ := hrs
  obtain ⟨hrmem, hrtenant, -⟩ := mem_getSummary.mp hr
  obtain ⟨hsmem, hstenant, -⟩ := mem_getSummary.mp hs
  refine Nat.lt_of_le_of_ne hnewer ?_
  intro hdate
  apply hne
  apply Table.eq_of_key_eq hrmem hsmem
  rw [UsageRecord.key, UsageRecord.key, hrtenant, hstenant, hdate]

theorem length_le {report : List UsageRecord} (hsorted : report.Pairwise fun r s => s.recordDate < r.recordDate)
    (hwindow : ∀ r ∈ report, InWindow today days r.recordDate) : report.length ≤ days := by
  have hnodup : (report.map fun r => today - r.recordDate).Nodup := by
    rw [List.nodup_iff_pairwise_ne, List.pairwise_map]
    refine hsorted.imp_of_mem ?_
    intro r s hr hs hlt
    exact sub_ne hlt (hwindow r hr).2
  have hsub : ∀ k ∈ report.map fun r => today - r.recordDate, k ∈ List.range days := by
    intro k hk
    obtain ⟨r, hr, rfl⟩ := List.mem_map.mp hk
    rw [List.mem_range]
    exact (hwindow r hr).sub_lt
  have hlength := hnodup.length_le_of_subset hsub
  rwa [List.length_map, List.length_range] at hlength

end UsageReports

open UsageReports

theorem usage_report_exact_iff (db : Db) (hdb : db.usage = .empty) (increments : List Increment) (tenantId : Id)
    (today : Day) (days : ℕ) :
    Exact increments tenantId today days
        (UsageTrackingService.getSummary (commitAll db increments) tenantId today days) ↔
      ∀ i ∈ increments, i.tenantId = tenantId → i.day + days ≠ today ∧ i.day ≤ today := by
  have hmem : ∀ r, r ∈ UsageTrackingService.getSummary (commitAll db increments) tenantId today days ↔
      ((∃ i ∈ increments, i.tenantId = r.tenantId ∧ i.day = r.recordDate) ∧
        r.usage = ((incrementsOn increments r.tenantId r.recordDate).map Increment.added).sum) ∧
      r.tenantId = tenantId ∧ today ≤ r.recordDate + days := by
    intro r
    rw [mem_getSummary, mem_commitAll hdb, incrementsOn_ne_nil]
  constructor
  · intro h i hi htenant
    by_cases hreported : today ≤ i.day + days
    · let record : UsageRecord := ⟨tenantId, i.day, ((incrementsOn increments tenantId i.day).map Increment.added).sum⟩
      have hrecord : record ∈ UsageTrackingService.getSummary (commitAll db increments) tenantId today days :=
        (hmem record).mpr ⟨⟨⟨i, hi, htenant, rfl⟩, rfl⟩, rfl, hreported⟩
      obtain ⟨hfirst, hlast⟩ := h.window record hrecord
      exact ⟨hfirst.ne', hlast⟩
    · exact edge_of_not_le hreported
  · intro h
    have hwindow : ∀ r ∈ UsageTrackingService.getSummary (commitAll db increments) tenantId today days,
        InWindow today days r.recordDate := by
      intro r hr
      obtain ⟨⟨⟨i, hi, htenant, hday⟩, -⟩, hr, hcutoff⟩ := (hmem r).mp hr
      obtain ⟨hedge, htoday⟩ := h i hi (htenant.trans hr)
      rw [hday] at hedge htoday
      exact ⟨Nat.lt_of_le_of_ne hcutoff hedge.symm, htoday⟩
    have hsorted := getSummary_newestFirst (commitAll db increments) tenantId today days
    constructor
    · exact hsorted
    · intro r hr
      exact ((hmem r).mp hr).2.1
    · exact hwindow
    · exact length_le hsorted hwindow
    · intro i hi htenant hday
      refine ⟨⟨tenantId, i.day, ((incrementsOn increments tenantId i.day).map Increment.added).sum⟩, ?_, rfl⟩
      exact (hmem _).mpr ⟨⟨⟨i, hi, htenant, rfl⟩, rfl⟩, rfl, hday.1.le⟩
    · intro r hr
      obtain ⟨⟨-, husage⟩, htenant, -⟩ := (hmem r).mp hr
      rw [husage, htenant]

namespace UsageReports

def threeIncrements : List Increment :=
  [⟨"tenant-1", 19, { leadsCreated := 1 }⟩, ⟨"tenant-1", 20, { leadsCreated := 2 }⟩,
    ⟨"tenant-1", 20, { messagesSent := 1 }⟩]

end UsageReports

theorem usage_report_exact_iff_week : Exact threeIncrements "tenant-1" 20 7
    (UsageTrackingService.getSummary (commitAll {} threeIncrements) "tenant-1" 20 7) := by
  refine (usage_report_exact_iff {} rfl threeIncrements "tenant-1" 20 7).mpr ?_
  decide

theorem usage_report_of_two_days :
    (UsageTrackingService.getSummary (commitAll {} threeIncrements) "tenant-1" 20 1).map UsageRecord.recordDate =
        [20, 19] ∧
      ¬Exact threeIncrements "tenant-1" 20 1
        (UsageTrackingService.getSummary (commitAll {} threeIncrements) "tenant-1" 20 1) := by
  have hdates : (UsageTrackingService.getSummary (commitAll {} threeIncrements) "tenant-1" 20 1).map
      UsageRecord.recordDate = [20, 19] := by decide
  refine ⟨hdates, ?_⟩
  intro h
  have hfew := h.few
  rw [← List.length_map (f := UsageRecord.recordDate), hdates] at hfew
  simp at hfew

end Leadline
