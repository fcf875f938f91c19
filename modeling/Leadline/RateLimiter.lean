import Leadline.Library.FixedWindow
import Leadline.Rows

/-!
`app/security/rate_limit.py`. The clock is read in microseconds, and nothing else runs between the
reading and the answer.
-/

namespace Leadline

open Library

structure RateLimitSettings where
  rateLimitEnabled : Bool := true
  rateLimitPerMinute : ℤ := 120

structure WindowState where
  windowStartedAt : ℤ
  count : ℕ

namespace TenantRateLimiter

/-- `_windows` -/
abbrev Windows := Id → Option WindowState

/-- `timedelta(minutes=1)` -/
def minute : ℤ := 60000000

def allow (settings : RateLimitSettings) (windows : Windows) (tenantId : Id) (now : ℤ) : Bool × Windows :=
  if !settings.rateLimitEnabled then (true, windows)
  else
    match windows tenantId with
    | none => (true, Function.update windows tenantId (some ⟨now, 1⟩))
    | some state =>
      if minute ≤ now - state.windowStartedAt then (true, Function.update windows tenantId (some ⟨now, 1⟩))
      else if settings.rateLimitPerMinute ≤ state.count then (false, windows)
      else (true, Function.update windows tenantId (some { state with count := state.count + 1 }))

structure Call where
  tenantId : Id
  now : ℤ

section

variable (settings : RateLimitSettings)

def windowsAfter : Windows → List Call → Windows
  | windows, [] => windows
  | windows, call :: calls => windowsAfter (allow settings windows call.tenantId call.now).2 calls

def answers : Windows → List Call → List (Call × Bool)
  | _, [] => []
  | windows, call :: calls =>
    (call, (allow settings windows call.tenantId call.now).1) ::
      answers (allow settings windows call.tenantId call.now).2 calls

end

def start : Windows := fun _ => none

def window (windows : Windows) (tenantId : Id) : Option FixedWindow.Window :=
  (windows tenantId).map fun state => ⟨state.windowStartedAt, state.count⟩

def timesOf (tenantId : Id) (calls : List Call) : List ℤ :=
  (calls.filter fun call => call.tenantId = tenantId).map Call.now

def answersOf (tenantId : Id) (log : List (Call × Bool)) : List (Call × Bool) :=
  log.filter fun e => e.1.tenantId = tenantId

variable {settings : RateLimitSettings} {windows : Windows} {tenantId : Id} {now : ℤ} {calls : List Call}

theorem allow_self (windows : Windows) (tenantId : Id) (now : ℤ) (henabled : settings.rateLimitEnabled = true) :
    ((allow settings windows tenantId now).1, window (allow settings windows tenantId now).2 tenantId) =
      FixedWindow.answer settings.rateLimitPerMinute minute (window windows tenantId) now := by
  unfold allow window
  cases hwindow : windows tenantId with
  | none => simp [henabled, FixedWindow.answer]
  | some state =>
    simp only [henabled, Bool.not_true, Bool.false_eq_true, if_false, Option.map_some, FixedWindow.answer]
    split
    · simp
    · split
      · simp [hwindow]
      · simp

theorem allow_other {other : Id} (hne : other ≠ tenantId) :
    (allow settings windows tenantId now).2 other = windows other := by
  unfold allow
  split
  · rfl
  · split
    · exact Function.update_of_ne hne _ _
    · split
      · exact Function.update_of_ne hne _ _
      · split
        · rfl
        · exact Function.update_of_ne hne _ _

theorem allow_congr (settings : RateLimitSettings) (now : ℤ) {windows' : Windows} (h : windows tenantId = windows' tenantId) :
    (allow settings windows tenantId now).1 = (allow settings windows' tenantId now).1 ∧
      (allow settings windows tenantId now).2 tenantId = (allow settings windows' tenantId now).2 tenantId := by
  unfold allow
  rw [h]
  split
  · exact ⟨rfl, h⟩
  · split
    · simp
    · split
      · simp
      · split
        · exact ⟨rfl, h⟩
        · simp

theorem answersOf_eq {windows' : Windows} (h : windows tenantId = windows' tenantId) :
    answersOf tenantId (answers settings windows calls) =
      answers settings windows' (calls.filter fun call => call.tenantId = tenantId) := by
  induction calls generalizing windows windows' with
  | nil => rfl
  | cons call calls ih =>
    simp only [answersOf, answers, List.filter_cons] at ih ⊢
    by_cases hcall : call.tenantId = tenantId
    · subst hcall
      obtain ⟨hanswer, hwindow⟩ := allow_congr settings call.now h
      simp only [decide_true, if_true, answers, hanswer]
      rw [ih hwindow]
    · simp only [hcall, decide_false, Bool.false_eq_true, if_false]
      apply ih
      rw [allow_other (Ne.symm hcall)]
      exact h

theorem decisions_of_answers (henabled : settings.rateLimitEnabled = true) :
    (answersOf tenantId (answers settings windows calls)).map (fun e => (e.1.now, e.2)) =
        FixedWindow.decisions settings.rateLimitPerMinute minute (window windows tenantId) (timesOf tenantId calls) ∧
      window (windowsAfter settings windows calls) tenantId =
        FixedWindow.windowAfter settings.rateLimitPerMinute minute (window windows tenantId)
          (timesOf tenantId calls) := by
  induction calls generalizing windows with
  | nil => exact ⟨rfl, rfl⟩
  | cons call calls ih =>
    obtain ⟨hanswers, hwindow⟩ := @ih (allow settings windows call.tenantId call.now).2
    simp only [answersOf, answers, timesOf, windowsAfter, List.filter_cons] at hanswers hwindow ⊢
    by_cases hcall : call.tenantId = tenantId
    · subst hcall
      have hself := Prod.ext_iff.mp (allow_self windows call.tenantId call.now henabled)
      simp only [decide_true, if_true, List.map_cons, FixedWindow.decisions, FixedWindow.windowAfter, ← hself.1,
        ← hself.2]
      exact ⟨congrArg _ hanswers, hwindow⟩
    · have hsame : window (allow settings windows call.tenantId call.now).2 tenantId = window windows tenantId := by
        rw [window, allow_other (Ne.symm hcall), window]
      rw [hsame] at hanswers hwindow
      simp only [hcall, decide_false, Bool.false_eq_true, if_false]
      exact ⟨hanswers, hwindow⟩

def allowed (tenantId : Id) (log : List (Call × Bool)) (p : ℤ → Bool) : ℕ :=
  log.countP fun e => e.1.tenantId = tenantId && e.2 && p e.1.now

theorem allowed_eq_admitted (henabled : settings.rateLimitEnabled = true) (p : ℤ → Bool) :
    allowed tenantId (answers settings windows calls) p =
      FixedWindow.admitted (FixedWindow.decisions settings.rateLimitPerMinute minute (window windows tenantId)
        (timesOf tenantId calls)) p := by
  rw [← (decisions_of_answers henabled).1, FixedWindow.admitted, List.countP_map, answersOf, List.countP_filter]
  apply List.countP_congr
  intro e _
  simp only [Function.comp_apply, Bool.and_eq_true, decide_eq_true_eq]
  tauto

theorem sound_of_calls (tenantId : Id) (henabled : settings.rateLimitEnabled = true) (hlimit : 1 ≤ settings.rateLimitPerMinute)
    (hclock : calls.Pairwise fun c d => c.now ≤ d.now) :
    FixedWindow.Sound settings.rateLimitPerMinute minute
      (FixedWindow.decisions settings.rateLimitPerMinute minute none (timesOf tenantId calls))
      (window (windowsAfter settings start calls) tenantId) := by
  have hsorted : (timesOf tenantId calls).Pairwise (· ≤ ·) := List.pairwise_map.mpr (hclock.filter _)
  rw [(decisions_of_answers henabled).2]
  exact (FixedWindow.Sound.nil hlimit).run hlimit (by decide) hsorted (by simp)

end TenantRateLimiter

open TenantRateLimiter

theorem rate_limiter_bounds (settings : RateLimitSettings) (henabled : settings.rateLimitEnabled = true)
    (hlimit : 1 ≤ settings.rateLimitPerMinute) (calls : List Call)
    (hclock : calls.Pairwise fun c d => c.now ≤ d.now) (tenantId : Id) :
    (∀ a, allowed tenantId (answers settings start calls) (fun t => a ≤ t && t < a + minute) ≤
        2 * settings.rateLimitPerMinute - 1) ∧
      (∀ before call after, calls = before ++ call :: after →
        (allow settings (windowsAfter settings start before) call.tenantId call.now).1 = false →
        ∃ state, windowsAfter settings start before call.tenantId = some state ∧
          call.now - state.windowStartedAt < minute ∧
          allowed call.tenantId (answers settings start before) (fun t => state.windowStartedAt ≤ t) =
            settings.rateLimitPerMinute) ∧
      answersOf tenantId (answers settings start calls) =
        answers settings start (calls.filter fun call => call.tenantId = tenantId) := by
  refine ⟨?_, ?_, answersOf_eq rfl⟩
  · intro a
    rw [allowed_eq_admitted henabled]
    exact (sound_of_calls tenantId henabled hlimit hclock).burst a
  · rintro before call after rfl hrefused
    have hbefore : before.Pairwise fun c d => c.now ≤ d.now := (List.pairwise_append.mp hclock).1
    have hsound := sound_of_calls call.tenantId henabled hlimit hbefore
    have hself := Prod.ext_iff.mp (allow_self (windowsAfter settings start before) call.tenantId call.now henabled)
    obtain ⟨v, hv, hopen, hcount⟩ := hsound.of_refused (hself.1.symm.trans hrefused)
    obtain ⟨state, hstate, rfl⟩ := Option.map_eq_some_iff.mp hv
    dsimp only at hopen hcount
    refine ⟨state, hstate, by omega, ?_⟩
    rw [allowed_eq_admitted henabled]
    exact hcount

namespace TenantRateLimiter

def threeCalls : List Call := [⟨"tenant-1", 0⟩, ⟨"tenant-1", 30000000⟩, ⟨"tenant-2", 40000000⟩, ⟨"tenant-1", 60000000⟩]

end TenantRateLimiter

theorem rate_limiter_bounds_three :
    (answers { rateLimitPerMinute := 1 } start threeCalls).map Prod.snd = [true, false, true, true] ∧
      allowed "tenant-1" (answers { rateLimitPerMinute := 1 } start threeCalls)
        (fun t => 1 ≤ t && t < 1 + minute) ≤ 1 := by
  have hbounds := rate_limiter_bounds { rateLimitPerMinute := 1 } rfl (by decide) threeCalls (by decide) "tenant-1"
  refine ⟨by decide +kernel, ?_⟩
  have hburst := hbounds.1 1
  simpa using hburst

end Leadline
