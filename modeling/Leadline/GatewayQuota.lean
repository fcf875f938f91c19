import Leadline.GatewayAccess

namespace Leadline

open Library Table

namespace TenantRateLimiter

variable {settings : RateLimitSettings} {windows : Windows} {calls : List Call} {tenantId : Id} {now : ℤ}

theorem windowsAfter_snoc (calls : List Call) (call : Call) :
    windowsAfter settings windows (calls ++ [call]) =
      (allow settings (windowsAfter settings windows calls) call.tenantId call.now).2 := by
  induction calls generalizing windows with
  | nil => rfl
  | cons first calls ih => exact ih

theorem answers_snoc (calls : List Call) (call : Call) :
    answers settings windows (calls ++ [call]) = answers settings windows calls ++
      [(call, (allow settings (windowsAfter settings windows calls) call.tenantId call.now).1)] := by
  induction calls generalizing windows with
  | nil => rfl
  | cons first calls ih =>
    rw [List.cons_append, answers, answers, ih, List.cons_append]
    rfl

theorem allow_refused {windows' : Windows} (h : allow settings windows tenantId now = (false, windows')) :
    windows' = windows := by
  unfold allow at h
  split at h
  · cases h
  · split at h
    · cases h
    · split at h
      · cases h
      · split at h
        · cases h
          rfl
        · cases h

end TenantRateLimiter

namespace Gateway

open AuthMiddleware TenantRateLimiter

variable {app : App} {p p' : Platform} {a : Arrival} {context : AuthContext} {tenantId : Id}

def clockOf : Label → Option ℤ
  | .exchange a => some a.clock
  | _ => none

def letThrough (p : Platform) (tenantId : Id) (times : ℤ → Bool) : ℕ :=
  p.admitted.countP fun call => call.tenantId = tenantId && times call.now

structure Counted (app : App) (p : Platform) : Prop where
  windows : p.windows = windowsAfter app.gate.rateLimit start p.admitted
  allowed : answers app.gate.rateLimit start p.admitted = p.admitted.map fun call => (call, true)

theorem windows_afterDispatch : (p.afterDispatch app a).windows = p.windows ∧
      (∀ context, p.verdict app a ≠ .admitted context) ∨
    ∃ context, p.verdict app a = .admitted context ∧
      allow app.gate.rateLimit p.windows context.tenantId a.clock = (true, (p.afterDispatch app a).windows) := by
  have hdispatched := dispatch_dispatched app.auth app.gate p.gate a.http a.now a.clock a.xTenantId
  unfold Platform.afterDispatch Platform.verdict
  cases hresult : app.auth.dispatch app.gate p.gate a.http a.xTenantId a.now a.clock with
  | mk verdict gate =>
    rw [hresult] at hdispatched
    cases hdispatched with
    | admitted htoken hresolve hallow => exact .inr ⟨_, rfl, hallow⟩
    | limited htoken hresolve hallow => exact .inl ⟨allow_refused hallow, by simp⟩
    | _ => exact .inl ⟨rfl, by simp⟩

theorem serve_notAdmitted (hnone : ∀ context, p.verdict app a ≠ .admitted context) :
    (p.serve app a).admitted = p.admitted := by
  have hlogs := @sameLogs_answer app p a
  have hsame : (p.afterDispatch app a).admitted = p.admitted := rfl
  unfold Platform.serve
  dsimp only
  cases hverdict : p.verdict app a with
  | admitted context => exact absurd hverdict (hnone context)
  | excluded => rw [hlogs.admitted, hsame, List.append_nil]
  | refused e => rw [hlogs.admitted, hsame, List.append_nil]

theorem serve_admitted (hverdict : p.verdict app a = .admitted context) :
    (p.serve app a).admitted = p.admitted ++ [⟨context.tenantId, a.clock⟩] := by
  have hlogs := @sameLogs_answer app p a
  have hsame : (p.afterDispatch app a).admitted = p.admitted := rfl
  unfold Platform.serve
  dsimp only
  rw [hverdict, hlogs.admitted, hsame]

theorem Counted.serve (h : Counted app p) : Counted app (p.serve app a) := by
  have hserve : (p.serve app a).windows = (p.afterDispatch app a).windows := sameLogs_answer.windows
  rcases @windows_afterDispatch app p a with ⟨hwindows, hnone⟩ | ⟨context, hverdict, hallow⟩
  · constructor
    · rw [hserve, serve_notAdmitted hnone, hwindows]
      exact h.windows
    · rw [serve_notAdmitted hnone]
      exact h.allowed
  · rw [h.windows] at hallow
    constructor
    · rw [hserve, serve_admitted hverdict, windowsAfter_snoc, hallow]
    · rw [serve_admitted hverdict, answers_snoc, h.allowed, hallow, List.map_append]
      rfl

theorem Counted.step {label : Label} (h : Counted app p) (hstep : Step app p label p') : Counted app p' := by
  cases hstep with
  | exchange a hnew => exact h.serve
  | job job event inputs hjob hevent hids => exact ⟨h.windows, h.allowed⟩
  | deadLetter job row hjob hpayload => exact ⟨h.windows, h.allowed⟩

theorem clocks_step {label : Label} {clocks : List ℤ} (h : (p.admitted.map Call.now).Sublist clocks)
    (hstep : Step app p label p') : (p'.admitted.map Call.now).Sublist (clocks ++ (clockOf label).toList) := by
  cases hstep with
  | exchange a hnew =>
    rcases @windows_afterDispatch app p a with ⟨-, hnone⟩ | ⟨context, hverdict, -⟩
    · rw [serve_notAdmitted hnone]
      exact h.trans (List.sublist_append_left _ _)
    · rw [serve_admitted hverdict, List.map_append]
      exact h.append (.refl _)
  | job job event inputs hjob hevent hids => exact h.trans (List.sublist_append_left _ _)
  | deadLetter job row hjob hpayload => exact h.trans (List.sublist_append_left _ _)

theorem letThrough_eq (h : Counted app p) (tenantId : Id) (times : ℤ → Bool) :
    letThrough p tenantId times = allowed tenantId (answers app.gate.rateLimit start p.admitted) times := by
  rw [h.allowed, allowed, List.countP_map, letThrough]
  simp only [Function.comp_def, Bool.and_true]

theorem limited_of_verdict (h : p.verdict app a = .refused ⟨429, "rate limit exceeded"⟩) : ∃ context,
    Presents app p a context ∧ (allow app.gate.rateLimit p.windows context.tenantId a.clock).1 = false := by
  have hdispatched := dispatch_dispatched app.auth app.gate p.gate a.http a.now a.clock a.xTenantId
  unfold Platform.verdict at h
  cases hresult : app.auth.dispatch app.gate p.gate a.http a.xTenantId a.now a.clock with
  | mk verdict gate =>
    rw [hresult] at hdispatched h
    cases hdispatched with
    | limited htoken hresolve hallow =>
      exact ⟨_, ⟨_, htoken, congrArg Prod.fst hresolve⟩, congrArg Prod.fst hallow⟩
    | noToken htoken =>
      have hstatus := statusCode_bearerToken htoken
      dsimp only at h
      rw [(Verdict.refused.inj h)] at hstatus
      cases hstatus
    | unknown htoken hresolve => cases h
    | mismatch htoken hresolve => cases h
    | excluded hpath => cases h
    | admitted htoken hresolve hallow => cases h

theorem counted_of_run {p₀ : Platform} {labels : List Label} (hwindows : p₀.windows = start)
    (hadmitted : p₀.admitted = []) (hrun : Run (Step app) p₀ labels p)
    (hclock : (labels.filterMap clockOf).Pairwise (· ≤ ·)) :
    Counted app p ∧ p.admitted.Pairwise fun c d => c.now ≤ d.now := by
  have hstart : Counted app p₀ := by
    constructor
    · rw [hwindows, hadmitted]
      rfl
    · rw [hadmitted]
      rfl
  have hboth : Counted app p ∧ (p.admitted.map Call.now).Sublist (labels.filterMap clockOf) := by
    apply hrun.trace_invariant fun ls p => Counted app p ∧ (p.admitted.map Call.now).Sublist (ls.filterMap clockOf)
    · rintro ls p label p' ⟨hcounted, hclocks⟩ - hstep
      refine ⟨hcounted.step hstep, ?_⟩
      rw [List.filterMap_append, List.filterMap_cons, List.filterMap_nil]
      have hnext := clocks_step hclocks hstep
      cases hlabel : clockOf label with
      | none => simpa [hlabel] using hnext
      | some clock => simpa [hlabel] using hnext
    · refine ⟨hstart, ?_⟩
      rw [hadmitted]
      exact List.nil_sublist _
  exact ⟨hboth.1, List.pairwise_map.mp (hclock.sublist hboth.2)⟩

end Gateway

open Gateway

theorem requests_let_through (app : App) (henabled : app.gate.rateLimit.rateLimitEnabled = true)
    (hlimit : 1 ≤ app.gate.rateLimit.rateLimitPerMinute) {p₀ p : Platform} {labels : List Gateway.Label}
    (hwindows : p₀.windows = TenantRateLimiter.start) (hadmitted : p₀.admitted = [])
    (hrun : Run (Gateway.Step app) p₀ labels p) (hclock : (labels.filterMap clockOf).Pairwise (· ≤ ·)) :
    (∀ tenantId t, letThrough p tenantId (fun s => t ≤ s && s < t + TenantRateLimiter.minute) ≤
        2 * app.gate.rateLimit.rateLimitPerMinute - 1) ∧
      ∀ a, p.verdict app a = .refused ⟨429, "rate limit exceeded"⟩ → ∃ context opened,
        Presents app p a context ∧ a.clock < opened + TenantRateLimiter.minute ∧
          letThrough p context.tenantId (fun s => opened ≤ s) = app.gate.rateLimit.rateLimitPerMinute := by
  obtain ⟨hcounted, hsorted⟩ := counted_of_run hwindows hadmitted hrun hclock
  constructor
  · intro tenantId t
    rw [letThrough_eq hcounted, TenantRateLimiter.allowed_eq_admitted henabled]
    exact (TenantRateLimiter.sound_of_calls tenantId henabled hlimit hsorted).burst t
  · intro a hverdict
    obtain ⟨context, hcontext, hrefused⟩ := limited_of_verdict hverdict
    have hsound := TenantRateLimiter.sound_of_calls context.tenantId henabled hlimit hsorted
    rw [← hcounted.windows] at hsound
    have hself := Prod.ext_iff.mp (TenantRateLimiter.allow_self p.windows context.tenantId a.clock henabled)
    obtain ⟨v, -, hopen, hfull⟩ := hsound.of_refused (hself.1.symm.trans hrefused)
    refine ⟨context, v.start, hcontext, hopen, ?_⟩
    rw [letThrough_eq hcounted, TenantRateLimiter.allowed_eq_admitted henabled]
    exact hfull

namespace Gateway

def refusal : AuthMiddleware.Verdict → Option HTTPException
  | .refused e => some e
  | _ => none

theorem eq_of_refusal {v : AuthMiddleware.Verdict} {e : HTTPException} (h : refusal v = some e) : v = .refused e := by
  cases v with
  | refused other => rw [Option.some.inj h]
  | excluded => cases h
  | admitted context => cases h

def slowApp : App := { opsApp with gate := { rateLimit := { rateLimitPerMinute := 1 } } }

def readUsage (clock : ℤ) : Arrival := { byOps (.adminRead (.returned ())) with clock }

def oneRead : Platform := ({} : Platform).serve slowApp (readUsage 0)

theorem oneRead_run : Run (Gateway.Step slowApp) {} [.exchange (readUsage 0)] oneRead := by
  apply GuardedRun.cons trivial (Gateway.Step.exchange _ ?_) (.nil _)
  intro context endpoint _ hendpoint
  cases hendpoint
  trivial

end Gateway

theorem requests_let_through_one : oneRead.verdict slowApp (readUsage 59) = .refused ⟨429, "rate limit exceeded"⟩ ∧
    ∃ context opened, Presents slowApp oneRead (readUsage 59) context ∧ 59 < opened + TenantRateLimiter.minute ∧
      letThrough oneRead context.tenantId (fun s => opened ≤ s) = 1 := by
  have hrefused : oneRead.verdict slowApp (readUsage 59) = .refused ⟨429, "rate limit exceeded"⟩ :=
    eq_of_refusal (by decide +kernel)
  refine ⟨hrefused, ?_⟩
  obtain ⟨context, opened, hcontext, hopen, hfull⟩ :=
    (requests_let_through slowApp rfl (by decide) rfl rfl oneRead_run (by decide)).2 (readUsage 59) hrefused
  exact ⟨context, opened, hcontext, hopen, by simpa [slowApp] using hfull⟩

end Leadline
