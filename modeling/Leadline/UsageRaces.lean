import Leadline.Library.GuardedRun
import Leadline.UsageTracking
import Mathlib.Algebra.BigOperators.Group.Finset.Basic
import Mathlib.Data.Fintype.BigOperators

/-!
Transactions of one tenant and day that call `increment` at the same time (READ COMMITTED). An
insert waits for the uncommitted one of the same key, an update for the uncommitted one of the row.
-/

namespace Leadline.UsageRaces

open Library

inductive Phase
  | started
  | missed
  | changed (change : UsageChange)
  | written (change : UsageChange)
  | committed
  | failed
  | aborted
  deriving DecidableEq

inductive Action
  | select
  | insert
  | write
  | commit
  | abort

def Phase.change : Phase → Option UsageChange
  | changed change => some change
  | written change => some change
  | _ => none

def Phase.HoldsKey (p : Phase) : Prop := ∃ c ∈ p.change, c.inserted

def Phase.HoldsRow : Phase → Prop
  | written change => change.inserted = false ∧ change.added ≠ 0
  | _ => False

instance (p : Phase) : Decidable p.HoldsKey := inferInstanceAs (Decidable (∃ c ∈ p.change, _))

instance (p : Phase) : Decidable p.HoldsRow :=
  match p with
  | .written _ => inferInstanceAs (Decidable (_ ∧ _))
  | .started => inferInstanceAs (Decidable False)
  | .missed => inferInstanceAs (Decidable False)
  | .changed _ => inferInstanceAs (Decidable False)
  | .committed => inferInstanceAs (Decidable False)
  | .failed => inferInstanceAs (Decidable False)
  | .aborted => inferInstanceAs (Decidable False)

structure State (ι : Type) where
  db : Db
  transactions : ι → Phase

variable {ι : Type}

def State.start (db : Db) : State ι := ⟨db, fun _ => .started⟩

variable [DecidableEq ι]

def State.set (s : State ι) (i : ι) (p : Phase) : State ι := ⟨s.db, Function.update s.transactions i p⟩

def State.commit (s : State ι) (i : ι) (change : UsageChange) : State ι :=
  ⟨{ s.db with usage := change.write s.db.usage }, Function.update s.transactions i .committed⟩

section

variable [Fintype ι] (tenantId : Id) (today : Day) (added : ι → Usage)

def step (s : State ι) (label : ι × Action) : Option (State ι) :=
  match s.transactions label.1, label.2 with
  | .started, .select =>
    match s.db.usage.find? (tenantId, today) with
    | none => some (s.set label.1 .missed)
    | some record => some (s.set label.1 (.changed ⟨tenantId, today, false, record.usage, added label.1⟩))
  | .missed, .insert =>
    if ∃ j, (s.transactions j).HoldsKey then none
    else
      match s.db.usage.find? (tenantId, today) with
      | none => some (s.set label.1 (.changed ⟨tenantId, today, true, 0, added label.1⟩))
      | some _ => some (s.set label.1 .failed)
  | .changed change, .write =>
    if change.inserted = false ∧ ∃ j, (s.transactions j).HoldsRow then none
    else some (s.set label.1 (.written change))
  | .written change, .commit => some (s.commit label.1 change)
  | .committed, _ => none
  | .failed, _ => none
  | .aborted, _ => none
  | _, .abort => some (s.set label.1 .aborted)
  | _, _ => none

def Phase.credited : Phase → Usage → Usage
  | committed, u => u
  | _, _ => 0

structure Accounted (base : Usage) (s : State ι) : Prop where
  total : usageOn s.db tenantId today = base + ∑ i, (s.transactions i).credited (added i)
  unfailed : ∀ i, s.transactions i ≠ .failed

def inserts : Phase → Action → Bool
  | .missed, .insert => true
  | _, _ => false

def updates : Phase → Action → Option UsageChange
  | .written change, .commit => if change.inserted then none else some change
  | _, _ => none

/-- An insert comes before any other committed row of the day, and an update reaches the counters
it adds to with the values they had when it read them. -/
def Admitted (s : State ι) (label : ι × Action) : Prop :=
  (inserts (s.transactions label.1) label.2 → (s.db.usage.find? (tenantId, today)).isNone) ∧
    ∀ c ∈ updates (s.transactions label.1) label.2, (usageOn s.db tenantId today).UpToDate c.seen c.added

instance (s : State ι) (label : ι × Action) : Decidable (Admitted tenantId today s label) :=
  inferInstanceAs (Decidable ((_ → _) ∧ ∀ c ∈ updates _ _, _))

end

inductive Quiet (tenantId : Id) (today : Day) (added : Usage) (db : Db) (p : Phase) : Phase → Prop
  | missed : Quiet tenantId today added db p .missed
  | selected (record : UsageRecord) (h : db.usage.find? (tenantId, today) = some record) :
    Quiet tenantId today added db p (.changed ⟨tenantId, today, false, record.usage, added⟩)
  | written (change : UsageChange) (h : p = .changed change) : Quiet tenantId today added db p (.written change)
  | aborted : Quiet tenantId today added db p .aborted

variable [Fintype ι] {tenantId : Id} {today : Day} {added : ι → Usage} {s s' : State ι} {i : ι} {a : Action}

theorem step_cases (h : step tenantId today added s (i, a) = some s') :
    (∃ p, s' = s.set i p ∧ (s.transactions i).credited (added i) = 0 ∧
        Quiet tenantId today (added i) s.db (s.transactions i) p) ∨
      (s.transactions i = .missed ∧ a = .insert ∧ (∀ j, ¬(s.transactions j).HoldsKey) ∧
        (s.db.usage.find? (tenantId, today) = none ∧
            s' = s.set i (.changed ⟨tenantId, today, true, 0, added i⟩) ∨
          (s.db.usage.find? (tenantId, today)).isSome ∧ s' = s.set i .failed)) ∨
      ∃ change, s.transactions i = .written change ∧ a = .commit ∧ s' = s.commit i change := by
  unfold step at h
  dsimp only at h
  split at h
  case h_1 hphase =>
    rw [hphase]
    split at h
    · cases h
      exact .inl ⟨_, rfl, rfl, .missed⟩
    · cases h
      exact .inl ⟨_, rfl, rfl, .selected _ (by assumption)⟩
  case h_2 hphase =>
    split at h
    · cases h
    · rename_i hfree
      refine .inr (.inl ⟨hphase, rfl, fun j hj => hfree ⟨j, hj⟩, ?_⟩)
      split at h
      · rename_i hnone
        cases h
        exact .inl ⟨hnone, rfl⟩
      · rename_i hsome
        cases h
        exact .inr ⟨by rw [hsome]; rfl, rfl⟩
  case h_3 change hphase =>
    split at h
    · cases h
    · cases h
      rw [hphase]
      exact .inl ⟨_, rfl, rfl, .written change rfl⟩
  case h_4 change hphase =>
    cases h
    exact .inr (.inr ⟨change, hphase, rfl, rfl⟩)
  case h_5 => cases h
  case h_6 => cases h
  case h_7 => cases h
  case h_8 =>
    cases h
    refine .inl ⟨_, rfl, ?_, .aborted⟩
    cases hphase : s.transactions i with
    | committed => exact absurd hphase (by assumption)
    | started => rfl
    | missed => rfl
    | changed change => rfl
    | written change => rfl
    | failed => rfl
    | aborted => rfl
  case h_9 => cases h

theorem sum_credited {p : Phase} {transactions : ι → Phase}
    (hold : (transactions i).credited (added i) = 0) :
    ∑ j, (Function.update transactions i p j).credited (added j) =
      (∑ j, (transactions j).credited (added j)) + p.credited (added i) := by
  have hrest : ∀ j ∈ Finset.univ.erase i,
      (Function.update transactions i p j).credited (added j) = (transactions j).credited (added j) := by
    intro j hj
    rw [Function.update_of_ne (Finset.ne_of_mem_erase hj)]
  rw [← Finset.add_sum_erase _ _ (Finset.mem_univ i), ← Finset.add_sum_erase _ _ (Finset.mem_univ i),
    Finset.sum_congr rfl hrest, Function.update_self, hold, zero_add, add_comm]

theorem find?_write {db : Db} {inserted : Bool} {seen u : Usage}
    (hrow : if inserted then seen = 0 ∧ db.usage.find? (tenantId, today) = none
      else (db.usage.find? (tenantId, today)).isSome) :
    (((UsageChange.mk tenantId today inserted seen u).write db.usage).find? (tenantId, today)).map
        UsageRecord.usage =
      some (if inserted then usageOn db tenantId today + u else (usageOn db tenantId today).overwrite seen u) := by
  cases inserted with
  | true =>
    obtain ⟨rfl, hnone⟩ := hrow
    let record : UsageRecord := ⟨tenantId, today, Usage.add 0 u⟩
    have hfresh : db.usage.Fresh record.key := Table.find?_eq_none_iff.mp hnone
    have hfind : (db.usage.insert record).find? (tenantId, today) = some record := Table.find?_insert_self hfresh
    have hbefore : usageOn db tenantId today = 0 := by
      rw [usageOn, hnone]
      rfl
    simp only [UsageChange.write, if_true]
    rw [hfind, hbefore]
    rfl
  | false =>
    obtain ⟨record, hrecord⟩ := Option.isSome_iff_exists.mp hrow
    let f : UsageRecord → UsageRecord := fun r => { r with usage := r.usage.overwrite seen u }
    have hfind : (db.usage.modify (tenantId, today) f fun _ => rfl).find? (tenantId, today) =
        some (f record) := by
      apply Table.find?_modify_self
      exact hrecord
    simp only [UsageChange.write, Bool.false_eq_true, if_false]
    rw [hfind, usageOn, hrecord]
    rfl

structure Sound (tenantId : Id) (today : Day) (added : ι → Usage) (base : Usage) (s : State ι) : Prop where
  accounted : Accounted tenantId today added base s
  changes : ∀ i c, (s.transactions i).change = some c →
    c = ⟨tenantId, today, c.inserted, c.seen, added i⟩ ∧
      if c.inserted then c.seen = 0 ∧ s.db.usage.find? (tenantId, today) = none
      else (s.db.usage.find? (tenantId, today)).isSome
  alone : ∀ i j, (s.transactions i).HoldsKey → (s.transactions j).HoldsKey → i = j

namespace Sound

variable {base : Usage} {p : Phase}

theorem set (h : Sound tenantId today added base s) (hold : (s.transactions i).credited (added i) = 0)
    (hnew : p.credited (added i) = 0) (hfailed : p ≠ .failed)
    (hchange : ∀ c, p.change = some c → c = ⟨tenantId, today, c.inserted, c.seen, added i⟩ ∧
      if c.inserted then c.seen = 0 ∧ s.db.usage.find? (tenantId, today) = none
      else (s.db.usage.find? (tenantId, today)).isSome)
    (hkey : p.HoldsKey → ∀ j, (s.transactions j).HoldsKey → j = i) :
    Sound tenantId today added base (s.set i p) := by
  have hphase : ∀ j, (s.set i p).transactions j = if j = i then p else s.transactions j := by
    intro j
    exact Function.update_apply _ _ _ _
  constructor
  · constructor
    · rw [State.set, sum_credited hold, hnew, add_zero]
      exact h.accounted.total
    · intro j
      rw [hphase]
      split
      · exact hfailed
      · exact h.accounted.unfailed j
  · intro j c hc
    rw [hphase] at hc
    split at hc
    · rename_i hj
      rw [hj]
      exact hchange c hc
    · exact h.changes j c hc
  · intro j k hj hk
    rw [hphase] at hj hk
    split at hj
    · rename_i hji
      split at hk
      · rename_i hki
        rw [hji, hki]
      · rw [hji]
        exact (hkey hj k hk).symm
    · split at hk
      · rename_i hki
        rw [hki]
        exact hkey hk j hj
      · exact h.alone j k hj hk

theorem quiet (h : Sound tenantId today added base s) (hold : (s.transactions i).credited (added i) = 0)
    (hp : Quiet tenantId today (added i) s.db (s.transactions i) p) :
    Sound tenantId today added base (s.set i p) := by
  cases hp with
  | missed =>
    apply h.set hold rfl Phase.noConfusion
    · intro c hc
      cases hc
    · rintro ⟨c, hc, -⟩
      cases hc
  | selected record hrecord =>
    apply h.set hold rfl Phase.noConfusion
    · intro c hc
      cases hc
      exact ⟨rfl, by simp [hrecord]⟩
    · rintro ⟨c, hc, hinserted⟩
      cases hc
      cases hinserted
  | written change hchange =>
    have hsame : (s.transactions i).change = some change := by
      rw [hchange]
      rfl
    apply h.set hold rfl Phase.noConfusion
    · intro c hc
      cases hc
      exact h.changes i change hsame
    · rintro ⟨c, hc, hinserted⟩ j hj
      cases hc
      exact h.alone j i hj ⟨change, hsame, hinserted⟩
  | aborted =>
    apply h.set hold rfl Phase.noConfusion
    · intro c hc
      cases hc
    · rintro ⟨c, hc, -⟩
      cases hc

theorem insert (h : Sound tenantId today added base s) (hphase : s.transactions i = .missed)
    (hfree : ∀ j, ¬(s.transactions j).HoldsKey) (hnone : s.db.usage.find? (tenantId, today) = none) :
    Sound tenantId today added base (s.set i (.changed ⟨tenantId, today, true, 0, added i⟩)) := by
  apply h.set (by rw [hphase]; rfl) rfl Phase.noConfusion
  · intro c hc
    cases hc
    exact ⟨rfl, rfl, hnone⟩
  · exact fun _ j hj => absurd hj (hfree j)

theorem write (h : Sound tenantId today added base s) {c : UsageChange}
    (hphase : s.transactions i = .written c) :
    ((s.commit i c).db.usage.find? (tenantId, today)).map UsageRecord.usage =
      some (if c.inserted then usageOn s.db tenantId today + added i
        else (usageOn s.db tenantId today).overwrite c.seen (added i)) := by
  have hchange : (s.transactions i).change = some c := by
    rw [hphase]
    rfl
  obtain ⟨hc, hrow⟩ := h.changes i c hchange
  rw [State.commit, hc]
  exact find?_write hrow

theorem total_iff (h : Sound tenantId today added base s) {c : UsageChange}
    (hphase : s.transactions i = .written c) :
    usageOn (s.commit i c).db tenantId today =
        base + ∑ j, ((s.commit i c).transactions j).credited (added j) ↔
      (c.inserted = false → (usageOn s.db tenantId today).UpToDate c.seen (added i)) := by
  have hwritten := h.write hphase
  have hsum : base + ∑ j, ((s.commit i c).transactions j).credited (added j) =
      usageOn s.db tenantId today + added i := by
    rw [State.commit, sum_credited (by rw [hphase]; rfl), h.accounted.total, add_assoc]
    rfl
  rw [hsum, usageOn, hwritten, Option.getD_some]
  cases c.inserted with
  | true => simp
  | false => simp [Usage.overwrite_eq_add_iff]

theorem commit (h : Sound tenantId today added base s) {c : UsageChange}
    (hphase : s.transactions i = .written c)
    (hcurrent : c.inserted = false → (usageOn s.db tenantId today).UpToDate c.seen (added i)) :
    Sound tenantId today added base (s.commit i c) := by
  have hchange : (s.transactions i).change = some c := by
    rw [hphase]
    rfl
  have hrow := (h.changes i c hchange).2
  have hback : ∀ j, (s.commit i c).transactions j = if j = i then .committed else s.transactions j := by
    intro j
    exact Function.update_apply _ _ _ _
  have hothers : ∀ j d, ((s.commit i c).transactions j).change = some d →
      j ≠ i ∧ (s.transactions j).change = some d := by
    intro j d hd
    rw [hback] at hd
    split at hd
    · cases hd
    · exact ⟨by assumption, hd⟩
  have hstored : ((s.commit i c).db.usage.find? (tenantId, today)).isSome := by
    rw [← Option.isSome_map, h.write hphase]
    rfl
  constructor
  · constructor
    · exact (h.total_iff hphase).mpr hcurrent
    · intro j
      rw [hback]
      split
      · exact Phase.noConfusion
      · exact h.accounted.unfailed j
  · intro j d hd
    obtain ⟨hne, hold⟩ := hothers j d hd
    obtain ⟨hd, hdrow⟩ := h.changes j d hold
    refine ⟨hd, ?_⟩
    cases hdi : d.inserted with
    | false => exact hstored
    | true =>
      rw [hdi] at hdrow
      cases hci : c.inserted with
      | true => exact absurd (h.alone j i ⟨d, hold, hdi⟩ ⟨c, hchange, hci⟩) hne
      | false =>
        rw [hci, hdrow.2] at hrow
        cases hrow
  · rintro j k ⟨d, hd, hdi⟩ ⟨e, he, hei⟩
    exact h.alone j k ⟨d, (hothers j d hd).2, hdi⟩ ⟨e, (hothers k e he).2, hei⟩

theorem step (h : Sound tenantId today added base s) (hok : Admitted tenantId today s (i, a))
    (hstep : UsageRaces.step tenantId today added s (i, a) = some s') :
    Sound tenantId today added base s' := by
  rcases step_cases hstep with ⟨p, rfl, hold, hp⟩ | ⟨hphase, rfl, hfree, hinsert⟩ | ⟨c, hphase, rfl, rfl⟩
  · exact h.quiet hold hp
  · rcases hinsert with ⟨hnone, rfl⟩ | ⟨hsome, rfl⟩
    · exact h.insert hphase hfree hnone
    · have hnone := hok.1 (by rw [hphase]; rfl)
      rw [Option.isNone_iff_eq_none] at hnone
      rw [hnone] at hsome
      cases hsome
  · have hadded := congrArg UsageChange.added (h.changes i c (by rw [hphase]; rfl)).1
    apply h.commit hphase
    intro hupdate
    have hcurrent := hok.2 c (by rw [hphase]; simp [updates, hupdate])
    rwa [hadded] at hcurrent

omit [DecidableEq ι] in
theorem start {db : Db} : Sound tenantId today added (usageOn db tenantId today) (State.start db) := by
  constructor
  · constructor
    · simp [State.start, Phase.credited]
    · exact fun _ => Phase.noConfusion
  · intro i c hc
    cases hc
  · rintro i j ⟨c, hc, -⟩
    cases hc

end Sound

theorem inserts_iff {p : Phase} : inserts p a = true ↔ p = .missed ∧ a = .insert := by
  cases p <;> cases a <;> simp [inserts]

theorem updates_eq_some {p : Phase} {c : UsageChange} :
    updates p a = some c ↔ p = .written c ∧ a = .commit ∧ c.inserted = false := by
  unfold updates
  split
  · rename_i change
    cases hinserted : change.inserted with
    | true =>
      simp only [if_true, reduceCtorEq, false_iff]
      rintro ⟨hp, -, hc⟩
      cases hp
      rw [hinserted] at hc
      cases hc
    | false =>
      simp only [Bool.false_eq_true, if_false, Option.some.injEq, Phase.written.injEq, true_and]
      constructor
      · rintro rfl
        exact ⟨rfl, hinserted⟩
      · exact And.left
  · rename_i hother
    simp only [reduceCtorEq, false_iff]
    rintro ⟨rfl, rfl, -⟩
    exact hother c rfl rfl

theorem admitted_of_accounted {base : Usage} (h : Sound tenantId today added base s)
    (hstep : step tenantId today added s (i, a) = some s') (hs' : Accounted tenantId today added base s') :
    Admitted tenantId today s (i, a) := by
  constructor
  · intro hinserts
    obtain ⟨hphase, rfl⟩ := inserts_iff.mp hinserts
    simp only [step, hphase] at hstep
    split at hstep
    · cases hstep
    · split at hstep
      · rename_i hnone
        rw [hnone]
        rfl
      · cases hstep
        refine absurd ?_ (hs'.unfailed i)
        exact Function.update_self _ _ _
  · intro c hc
    obtain ⟨hphase, rfl, hupdate⟩ := updates_eq_some.mp hc
    have hadded := congrArg UsageChange.added (h.changes i c (by rw [hphase]; rfl)).1
    simp only [step, hphase] at hstep
    cases hstep
    rw [hadded]
    exact (h.total_iff hphase).mp hs'.total hupdate

theorem increment_of_steps {db : Db} {u : Usage} :
    ∃ actions : List Action,
      (runSteps (step tenantId today fun _ => u) (State.start db) (actions.map fun a => ((), a))).map
          State.db =
        some { db with usage := (UsageTrackingService.increment db tenantId today u).write db.usage } := by
  cases hrow : db.usage.find? (tenantId, today) with
  | none =>
    have hfree : ¬(Phase.missed).HoldsKey := by
      rintro ⟨c, hc, -⟩
      cases hc
    refine ⟨[.select, .insert, .write, .commit], ?_⟩
    simp [runSteps, step, State.start, State.set, State.commit, hrow, hfree,
      UsageTrackingService.increment]
    rfl
  | some record =>
    have hfree : ∀ c, ¬(Phase.changed c).HoldsRow := fun _ => id
    refine ⟨[.select, .write, .commit], ?_⟩
    simp [runSteps, step, State.start, State.set, State.commit, hrow, hfree,
      UsageTrackingService.increment]

end Leadline.UsageRaces

namespace Leadline

open Library UsageRaces

theorem usage_counts_every_increment {ι : Type} [DecidableEq ι] [Fintype ι] (tenantId : Id) (today : Day)
    (added : ι → Usage) (db : Db) (s : UsageRaces.State ι) (labels : List (ι × UsageRaces.Action))
    (hrun : GuardedRun (Enabled (UsageRaces.step tenantId today added)) (UsageRaces.Admitted tenantId today)
      (UsageRaces.State.start db) labels s) :
    Accounted tenantId today added (usageOn db tenantId today) s ∧
      ((∀ i, s.transactions i = .committed) →
        usageOn s.db tenantId today = usageOn db tenantId today + ∑ i, added i) ∧
      ∀ label s', UsageRaces.step tenantId today added s label = some s' →
        (Accounted tenantId today added (usageOn db tenantId today) s' ↔
          UsageRaces.Admitted tenantId today s label) := by
  have hsound : Sound tenantId today added (usageOn db tenantId today) s := by
    apply hrun.invariant (Sound tenantId today added (usageOn db tenantId today))
    · intro s label s' h hok hstep
      exact h.step hok hstep
    · exact Sound.start
  refine ⟨hsound.accounted, ?_, ?_⟩
  · intro hall
    rw [hsound.accounted.total]
    simp [hall, Phase.credited]
  · intro label s' hstep
    constructor
    · exact admitted_of_accounted hsound hstep
    · intro hok
      exact (hsound.step hok hstep).accounted

def UsageRaces.createdOne (_ : Fin 2) : Usage where
  leadsCreated := 1

theorem usage_counts_every_increment_inTurn :
    ∃ s : UsageRaces.State (Fin 2),
      Accounted "tenant-1" 0 UsageRaces.createdOne (usageOn {} "tenant-1" 0) s ∧
        usageOn s.db "tenant-1" 0 = { leadsCreated := 2 } := by
  have hrun : (runChecked (UsageRaces.step "tenant-1" 0 UsageRaces.createdOne)
      (UsageRaces.Admitted "tenant-1" 0) (UsageRaces.State.start {})
      [(0, .select), (0, .insert), (0, .write), (0, .commit), (1, .select), (1, .write), (1, .commit)]).any
        (fun s => decide (usageOn s.db "tenant-1" 0 = { leadsCreated := 2 })) = true := by
    decide +kernel
  obtain ⟨s, hs, htwo⟩ := (Option.any_eq_true _ _).mp hrun
  have hcounted := usage_counts_every_increment "tenant-1" 0 UsageRaces.createdOne {} s _
    (guarded_of_runChecked hs)
  exact ⟨s, hcounted.1, of_decide_eq_true htwo⟩

def UsageRaces.createdSeven : Db where
  usage := Table.empty.insert ⟨"tenant-1", 0, { leadsCreated := 7 }⟩

theorem usage_update_lost :
    (∃ s : UsageRaces.State (Fin 2),
      runSteps (UsageRaces.step "tenant-1" 0 UsageRaces.createdOne)
          (UsageRaces.State.start UsageRaces.createdSeven)
          [(0, .select), (1, .select), (0, .write), (0, .commit), (1, .write), (1, .commit)] = some s ∧
        (∀ i, s.transactions i = .committed) ∧ usageOn s.db "tenant-1" 0 = { leadsCreated := 8 } ∧
        ¬Accounted "tenant-1" 0 UsageRaces.createdOne { leadsCreated := 7 } s) ∧
      ∃ s : UsageRaces.State (Fin 2),
        runSteps (UsageRaces.step "tenant-1" 0 UsageRaces.createdOne) (UsageRaces.State.start {})
            [(0, .select), (1, .select), (0, .insert), (0, .write), (0, .commit), (1, .insert)] = some s ∧
          s.transactions 0 = .committed ∧ s.transactions 1 = .failed := by
  have hlost : (runSteps (UsageRaces.step "tenant-1" 0 UsageRaces.createdOne)
      (UsageRaces.State.start UsageRaces.createdSeven)
      [(0, .select), (1, .select), (0, .write), (0, .commit), (1, .write), (1, .commit)]).any
        (fun s => decide ((∀ i, s.transactions i = .committed) ∧
          usageOn s.db "tenant-1" 0 = { leadsCreated := 8 })) = true := by
    decide +kernel
  have hfails : (runSteps (UsageRaces.step "tenant-1" 0 UsageRaces.createdOne) (UsageRaces.State.start {})
      [(0, .select), (1, .select), (0, .insert), (0, .write), (0, .commit), (1, .insert)]).any
        (fun s => decide (s.transactions 0 = .committed ∧ s.transactions 1 = .failed)) = true := by
    decide +kernel
  constructor
  · obtain ⟨s, hs, hend⟩ := (Option.any_eq_true _ _).mp hlost
    obtain ⟨hall, height⟩ := of_decide_eq_true hend
    refine ⟨s, hs, hall, height, ?_⟩
    intro h
    have htotal := h.total
    simp only [hall, UsageRaces.Phase.credited, height] at htotal
    revert htotal
    decide
  · obtain ⟨s, hs, hend⟩ := (Option.any_eq_true _ _).mp hfails
    exact ⟨s, hs, of_decide_eq_true hend⟩

end Leadline
