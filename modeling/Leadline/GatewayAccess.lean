import Leadline.Gateway
import Leadline.TenantIsolation

namespace Leadline

open Library Table

namespace AuthMiddleware

section Dispatched

variable (m : AuthMiddleware) (settings : GateSettings) (gate : Gate) (r : HttpRequest) (now : Timestamp) (clock : ℤ)

inductive Dispatched : Verdict × Gate → Prop
  | excluded (hpath : isExcluded r.path = true) : Dispatched (.excluded, gate)
  | noToken {e : HTTPException} (htoken : bearerToken r.authorization = .error e) : Dispatched (.refused e, gate)
  | unknown {token : String} {accounts : Accounts} (htoken : bearerToken r.authorization = .ok token)
      (hresolve : m.resolveContext gate.accounts token now = (none, accounts)) :
      Dispatched (.refused ⟨401, "invalid credentials"⟩, { gate with accounts })
  | mismatch {token : String} {context : AuthContext} {accounts : Accounts}
      (htoken : bearerToken r.authorization = .ok token)
      (hresolve : m.resolveContext gate.accounts token now = (some context, accounts)) :
      Dispatched (.refused ⟨403, "tenant mismatch"⟩, { gate with accounts })
  | limited {token : String} {context : AuthContext} {accounts : Accounts} {windows : TenantRateLimiter.Windows}
      (htoken : bearerToken r.authorization = .ok token)
      (hresolve : m.resolveContext gate.accounts token now = (some context, accounts))
      (hallow : TenantRateLimiter.allow settings.rateLimit gate.windows context.tenantId clock = (false, windows)) :
      Dispatched (.refused ⟨429, "rate limit exceeded"⟩, ⟨accounts, windows⟩)
  | admitted {token : String} {context : AuthContext} {accounts : Accounts} {windows : TenantRateLimiter.Windows}
      (htoken : bearerToken r.authorization = .ok token)
      (hresolve : m.resolveContext gate.accounts token now = (some context, accounts))
      (hallow : TenantRateLimiter.allow settings.rateLimit gate.windows context.tenantId clock = (true, windows)) :
      Dispatched (.admitted context, ⟨accounts, windows⟩)

theorem dispatch_dispatched (xTenantId : Option String) :
    Dispatched m settings gate r now clock (m.dispatch settings gate r xTenantId now clock) := by
  unfold dispatch
  split
  · rename_i hpath
    exact .excluded hpath
  · split
    · rename_i e htoken
      exact .noToken htoken
    · rename_i token htoken
      unfold authenticate
      split
      · rename_i accounts hresolve
        exact .unknown htoken hresolve
      · rename_i context accounts hresolve
        split
        · exact .mismatch htoken hresolve
        · unfold limit
          split
          · rename_i windows hallow
            exact .limited htoken hresolve hallow
          · rename_i windows hallow
            exact .admitted htoken hresolve hallow

end Dispatched

variable {m : AuthMiddleware} {db db' : Accounts} {token : String} {now : Timestamp} {resolved : Option AuthContext}

theorem resolveContext_accounts (hscan : ∀ rows, (m.scan rows).Perm rows)
    (hresolve : m.resolveContext db token now = (resolved, db')) : db' = db ∨
      ∃ k ∈ db.apiKeys, resolved = some (keyContext k) ∧
        db' = { db with apiKeys := db.apiKeys.modify k.id (use now) (use_id now) } := by
  have hkey : m.resolveApiKeyContext db token now = (resolved, db') → db' = db ∨
      ∃ k ∈ db.apiKeys, resolved = some (keyContext k) ∧
        db' = { db with apiKeys := db.apiKeys.modify k.id (use now) (use_id now) } := by
    intro hresolve
    unfold resolveApiKeyContext at hresolve
    split at hresolve
    · cases hresolve
      exact .inl rfl
    · rename_i k hfind
      cases hresolve
      have hcandidate := (hscan _).mem_iff.mp (List.mem_of_find?_eq_some hfind)
      exact .inr ⟨k, (List.mem_filter.mp hcandidate).1, rfl, rfl⟩
  unfold resolveContext at hresolve
  split at hresolve
  · split at hresolve
    · cases hresolve
      exact .inl rfl
    · exact hkey hresolve
  · exact hkey hresolve

end AuthMiddleware

namespace Gateway

open AuthMiddleware TenantWrites TenantReferences TenantViews TenantIsolation

variable {app : App} {p p' : Platform} {a : Arrival} {context : AuthContext} {tenantId : Id}

def Presents (app : App) (p : Platform) (a : Arrival) (context : AuthContext) : Prop :=
  ∃ token, bearerToken a.http.authorization = .ok token ∧
    (app.auth.resolveContext p.accounts token a.now).1 = some context

theorem presents_of_admitted (h : p.verdict app a = .admitted context) : Presents app p a context ∧
    (TenantRateLimiter.allow app.gate.rateLimit p.windows context.tenantId a.clock).1 = true ∧
    (p.afterDispatch app a).windows =
      (TenantRateLimiter.allow app.gate.rateLimit p.windows context.tenantId a.clock).2 := by
  have hdispatched := dispatch_dispatched app.auth app.gate p.gate a.http a.now a.clock a.xTenantId
  unfold Platform.afterDispatch
  unfold Platform.verdict at h
  cases hresult : app.auth.dispatch app.gate p.gate a.http a.xTenantId a.now a.clock with
  | mk verdict gate =>
    rw [hresult] at hdispatched h
    dsimp only at h
    subst h
    cases hdispatched with
    | admitted htoken hresolve hallow =>
      exact ⟨⟨_, htoken, congrArg Prod.fst hresolve⟩, congrArg Prod.fst hallow, (congrArg Prod.snd hallow).symm⟩

theorem afterDispatch_eq (hscan : ∀ rows, (app.auth.scan rows).Perm rows) : ∃ keys windows,
    p.afterDispatch app a = { p with apiKeys := keys, windows := windows } ∧
      (keys = p.apiKeys ∨ ∃ k ∈ p.apiKeys, Presents app p a (keyContext k) ∧
        keys = p.apiKeys.modify k.id (use a.now) (use_id a.now)) ∧
      (windows = p.windows ∨ ∃ context, Presents app p a context ∧
        windows = (TenantRateLimiter.allow app.gate.rateLimit p.windows context.tenantId a.clock).2) := by
  have hdispatched := dispatch_dispatched app.auth app.gate p.gate a.http a.now a.clock a.xTenantId
  have hresolved : ∀ {token resolved accounts} (windows : TenantRateLimiter.Windows),
      bearerToken a.http.authorization = .ok token →
      app.auth.resolveContext p.accounts token a.now = (resolved, accounts) → ∃ keys,
        p.withGate ⟨accounts, windows⟩ = { p with apiKeys := keys, windows := windows } ∧
          (keys = p.apiKeys ∨ ∃ k ∈ p.apiKeys, Presents app p a (keyContext k) ∧
            keys = p.apiKeys.modify k.id (use a.now) (use_id a.now)) := by
    intro token resolved accounts windows htoken hresolve
    rcases resolveContext_accounts hscan hresolve with rfl | ⟨k, hk, rfl, rfl⟩
    · exact ⟨p.apiKeys, rfl, .inl rfl⟩
    · exact ⟨_, rfl, .inr ⟨k, hk, ⟨token, htoken, congrArg Prod.fst hresolve⟩, rfl⟩⟩
  unfold Platform.afterDispatch
  cases hresult : app.auth.dispatch app.gate p.gate a.http a.xTenantId a.now a.clock with
  | mk verdict gate =>
    rw [hresult] at hdispatched
    cases hdispatched with
    | excluded hpath => exact ⟨p.apiKeys, p.windows, rfl, .inl rfl, .inl rfl⟩
    | noToken htoken => exact ⟨p.apiKeys, p.windows, rfl, .inl rfl, .inl rfl⟩
    | unknown htoken hresolve =>
      obtain ⟨keys, heq, hkeys⟩ := hresolved p.windows htoken hresolve
      exact ⟨keys, p.windows, heq, hkeys, .inl rfl⟩
    | mismatch htoken hresolve =>
      obtain ⟨keys, heq, hkeys⟩ := hresolved p.windows htoken hresolve
      exact ⟨keys, p.windows, heq, hkeys, .inl rfl⟩
    | limited htoken hresolve hallow =>
      obtain ⟨keys, heq, hkeys⟩ := hresolved _ htoken hresolve
      exact ⟨keys, _, heq, hkeys, .inr ⟨_, ⟨_, htoken, congrArg Prod.fst hresolve⟩, (congrArg Prod.snd hallow).symm⟩⟩
    | admitted htoken hresolve hallow =>
      obtain ⟨keys, heq, hkeys⟩ := hresolved _ htoken hresolve
      exact ⟨keys, _, heq, hkeys, .inr ⟨_, ⟨_, htoken, congrArg Prod.fst hresolve⟩, (congrArg Prod.snd hallow).symm⟩⟩

theorem check_eq_ok {guard : Guard} {resolved : Option AuthContext} (h : guard.check resolved = .ok context) :
    resolved = some context := by
  cases resolved with
  | none => cases guard <;> cases h
  | some other =>
    cases guard with
    | getAuthContext =>
      cases h
      rfl
    | requireAdmin =>
      simp only [Guard.check, requireAdmin, getAuthContext, Except.bind] at h
      split at h
      · cases h
        rfl
      · cases h

theorem answer_induct {P : Platform → Prop} (hdispatch : P (p.afterDispatch app a))
    (hwebhook : ∀ events, P ((p.afterDispatch app a).withDb
      { (p.afterDispatch app a).world.db with webhookEvents := events }))
    (hendpoint : ∀ context endpoint, p.verdict app a = .admitted context → a.endpoint = .guarded endpoint →
      endpoint.guard.check (some context) = .ok context →
        P (endpoint.handle app (p.afterDispatch app a) context).2) :
    P (p.answer app a).2 := by
  have hopen : ∀ resolved, (∀ context, resolved = some context → p.verdict app a = .admitted context) →
      P (a.endpoint.handle app (p.afterDispatch app a) resolved).2 := by
    intro resolved hresolved
    cases hendpointEq : a.endpoint with
    | unrouted e => exact hdispatch
    | probe => exact hdispatch
    | me => exact hdispatch
    | svixWebhook request id processing => exact hwebhook _
    | hubspotWebhook request newId commit =>
      simp only [Endpoint.handle]
      split
      · exact hwebhook _
      · exact hdispatch
    | guarded endpoint =>
      simp only [Endpoint.handle]
      split
      · exact hdispatch
      · rename_i context hcheck
        obtain rfl := check_eq_ok hcheck
        exact hendpoint context endpoint (hresolved context rfl) hendpointEq hcheck
  unfold Platform.answer
  split
  · exact hdispatch
  · exact hopen none (by simp)
  · rename_i context hverdict
    refine hopen (some context) ?_
    intro other hother
    cases hother
    exact hverdict

theorem serve_induct {P : Platform → Prop} (hdispatch : P (p.afterDispatch app a))
    (hwebhook : ∀ events, P ((p.afterDispatch app a).withDb
      { (p.afterDispatch app a).world.db with webhookEvents := events }))
    (hendpoint : ∀ context endpoint, p.verdict app a = .admitted context → a.endpoint = .guarded endpoint →
      endpoint.guard.check (some context) = .ok context →
        P (endpoint.handle app (p.afterDispatch app a) context).2)
    (hlogs : ∀ q auditLogs admitted, P q → P { q with auditLogs := auditLogs, admitted := admitted }) :
    P (p.serve app a) :=
  hlogs _ _ _ (answer_induct hdispatch hwebhook hendpoint)

theorem handle_windows (endpoint : GuardedEndpoint) :
    (endpoint.handle app p context).2.windows = p.windows ∧ (endpoint.handle app p context).2.admitted = p.admitted ∧
      (endpoint.handle app p context).2.auditLogs = p.auditLogs := by
  cases endpoint <;> exact ⟨rfl, rfl, rfl⟩

structure SameLogs (p p' : Platform) : Prop where
  windows : p'.windows = p.windows
  admitted : p'.admitted = p.admitted
  auditLogs : p'.auditLogs = p.auditLogs

theorem sameLogs_answer : SameLogs (p.afterDispatch app a) (p.answer app a).2 := by
  apply answer_induct
  · exact ⟨rfl, rfl, rfl⟩
  · exact fun events => ⟨rfl, rfl, rfl⟩
  · intro context endpoint _ _ _
    obtain ⟨hwindows, hadmitted, haudit⟩ := @handle_windows app (p.afterDispatch app a) context endpoint
    exact ⟨hwindows, hadmitted, haudit⟩

theorem provisionTenant_accounts (secrets : Secrets) (db : Accounts) (payload : ProvisionTenantRequest)
    (draws : ProvisionDraws) (commit : CallOutcome) :
    (AdminApi.provisionTenant secrets db payload draws commit).2 = db ∨
      (AdminApi.provisionTenant secrets db payload draws commit).2 =
        { tenants := db.tenants.insert (ProvisioningService.newTenant payload draws)
          users := db.users.insert (ProvisioningService.newOwner payload draws)
          apiKeys := db.apiKeys.insert (ProvisioningService.newKey secrets draws) } := by
  unfold AdminApi.provisionTenant ProvisioningService.provisionTenant
  cases TenantRepository.getBySlug db payload.slug with
  | some tenant => exact .inl rfl
  | none =>
    dsimp only
    split
    · exact .inr rfl
    · exact .inl rfl

def Resettled (tenantId : Id) (db db' : Accounts) : Prop :=
  db' = db ∨ ∃ settings, db' =
    { db with
      tenants := db.tenants.modify tenantId (Tenant.withSettings settings) (Tenant.id_withSettings settings) }

theorem resettled_update (py : Python) {db : Accounts} {tenant : Tenant}
    (hget : TenantRepository.get db.tenants tenantId = some tenant) (settings : Dict) (commit : CallOutcome) :
    Resettled tenantId db (if commit.takesEffect then
      { db with tenants := TenantRepository.update py db.tenants tenant settings } else db) := by
  obtain ⟨-, rfl⟩ := find?_eq_some_iff.mp hget
  split
  · unfold TenantRepository.update
    cases TenantRepository.changedSettings py tenant settings with
    | none => exact .inl rfl
    | some changed => exact .inr ⟨changed, rfl⟩
  · exact .inl rfl

theorem resettled_enrollDesignPartner (py : Python) (db : Accounts) (payload : DesignPartnerEnrollmentRequest)
    (commit : CallOutcome) : Resettled tenantId db (AdminApi.enrollDesignPartner py db tenantId payload commit).2 := by
  unfold AdminApi.enrollDesignPartner ProvisioningService.enrollDesignPartner
  cases hget : TenantRepository.get db.tenants tenantId with
  | none => exact .inl rfl
  | some tenant => exact resettled_update py hget _ commit

theorem resettled_promoteRollout (py : Python) (db : Accounts) (payload : RolloutPromotionRequest)
    (commit : CallOutcome) : Resettled tenantId db (AdminApi.promoteRollout py db tenantId payload commit).2 := by
  unfold AdminApi.promoteRollout ProvisioningService.promoteRollout
  cases hget : TenantRepository.get db.tenants tenantId with
  | none => exact .inl rfl
  | some tenant => exact resettled_update py hget _ commit

theorem connectionWrite_within {db : Db} {type : String} {id : Id} {authData : Dict} {now : Timestamp}
    {w : RowWrite IntegrationConnection}
    (h : IntegrationEvents.connectionWrite db.integrationConnections tenantId type id authData now = some w) :
    Within db tenantId (.connection w) := by
  obtain ⟨found, hfound, rfl⟩ := Option.map_eq_some_iff.mp h
  cases found with
  | none => exact ⟨rfl, trivial⟩
  | some existing =>
    have hrows := scalarOneOrNone_eq_some.mp hfound
    have hmem : existing ∈ db.integrationConnections.rows.filter fun c => c.tenantId = tenantId ∧ c.type = type := by
      rw [hrows]
      exact List.mem_singleton_self existing
    obtain ⟨hrow, htype⟩ := List.mem_filter.mp hmem
    have howner := (of_decide_eq_true htype).1
    exact ⟨⟨existing, hrow, rfl, howner⟩, howner, trivial⟩

theorem syncWork_within (encrypt : Dict → Dict) (db : Db) (tenantId : Id) (type : String) (call : ProviderCall)
    (id : Id) (now : Timestamp) :
    WorkWithin db tenantId (IntegrationApi.syncWork encrypt db tenantId type call id now) := by
  have hnone : CommitWithin db tenantId ({ writes := [], value := () } : Commit Unit) :=
    ⟨trivial, by simp, by simp⟩
  unfold IntegrationApi.syncWork
  cases call with
  | raises => trivial
  | declined => exact hnone
  | accepted =>
    dsimp only
    split
    · trivial
    · rename_i w hw
      exact ⟨.one (connectionWrite_within hw), by simp, by simp⟩

theorem syncHubspotLead_within (encrypt : Dict → Dict) (db : Db) (tenantId leadId : Id) (call : ProviderCall)
    (id : Id) (now : Timestamp) :
    WorkWithin db tenantId (IntegrationApi.syncHubspotLead encrypt db tenantId leadId call id now) := by
  unfold IntegrationApi.syncHubspotLead
  split
  · trivial
  · exact syncWork_within encrypt db tenantId "hubspot" call id now

theorem createCalendarBooking_within (encrypt : Dict → Dict) (db : Db) (tenantId : Id) (call : ProviderCall) (id : Id)
    (now : Timestamp) : WorkWithin db tenantId (IntegrationApi.createCalendarBooking encrypt db tenantId call id now) :=
  syncWork_within encrypt db tenantId "google_calendar" call id now

theorem tenants_write (db : Db) (w : Write) : (db.write w).tenants = db.tenants := by
  cases w with
  | lead w => cases w <;> rfl
  | session w => cases w <;> rfl
  | sequence w => cases w <;> rfl
  | _ => rfl

theorem tenants_writeAll (db : Db) (writes : List Write) : (db.writeAll writes).tenants = db.tenants := by
  induction writes generalizing db with
  | nil => rfl
  | cons w writes ih => rw [Db.writeAll_cons, ih, tenants_write]

theorem tenants_run {α : Type} (work : Work α) (settings : Settings) (db : Db) (calls : Calls) :
    (work.run settings db calls).db.tenants = db.tenants := by
  rw [Work.run_db, tenants_writeAll]

def backed (p : Platform) : World :=
  { p.world with jobs := p.world.jobs ++ p.failedJobs.rows.map fun row => ⟨row.queueName, row.payload⟩ }

structure Kept (app : App) (p : Platform) : Prop where
  sound : Sound (backed p)
  sealed : IssuedKeys.Sealed app.auth p.vault

theorem sound_frame {w : World} (h : Sound w) (tenants : Table Tenant.id) (events : Table WebhookEvent.id) :
    Sound { w with db := { w.db with tenants := tenants, webhookEvents := events } } where
  references := ⟨h.references.sessionLead, h.references.eventLead, h.references.enrollmentLead,
    h.references.enrollmentSequence, h.references.messageSession⟩
  known := ⟨h.known.leads, h.known.timeline, h.known.sessions, h.known.messages, h.known.routingRules,
    h.known.sequences, h.known.steps, h.known.enrollments, h.known.connections⟩
  jobs := h.jobs

theorem sound_republish {w : World} (h : Sound w) {jobs : List QueueJob}
    (hjobs : ∀ job ∈ jobs, ∃ old ∈ w.jobs, old.payload = job.payload) : Sound { w with jobs := jobs } where
  references := h.references
  known := h.known
  jobs job hjob := by
    obtain ⟨old, hold, hpayload⟩ := hjobs job hjob
    obtain ⟨owner, htenant, hlead⟩ := h.jobs old hold
    rw [hpayload] at htenant hlead
    exact ⟨owner, htenant, hlead⟩

theorem sound_sync {w : World} {work : Work Unit} (h : Sound w) (hwork : WorkWithin w.db tenantId work)
    (hids : w.NewIds work.newIds) (settings : Settings) (commit : CallOutcome) :
    Sound { w with db := (work.run settings w.db { commit }).db, ids := w.ids ++ work.newIds } := by
  obtain ⟨hreferences, hknown, hjobs⟩ := h.run hwork hids settings { commit }
  exact ⟨hreferences, hknown, fun job hjob => hjobs job (List.mem_append_left _ hjob)⟩

theorem sealed_settings {m : AuthMiddleware} {s : IssuedKeys.Vault} (h : IssuedKeys.Sealed m s)
    (tenants : Table Tenant.id) (users : Table User.id) (hkeep : ∀ t ∈ s.db.tenants, ∃ t' ∈ tenants, t'.id = t.id) :
    IssuedKeys.Sealed m { s with db := { s.db with tenants := tenants, users := users } } where
  stores := h.stores
  stored := h.stored
  tenants key hkey := by
    obtain ⟨t, ht, hid⟩ := h.tenants key hkey
    obtain ⟨t', ht', hid'⟩ := hkeep t ht
    exact ⟨t', ht', hid'.trans hid⟩
  display := h.display
  apiKeyId := h.apiKeyId
  tenantId := h.tenantId
  undotted := h.undotted

/-- No session gets the lead of another tenant by a transaction that takes effect. -/
def Lawful (app : App) (p : Platform) : Label → Prop
  | .exchange a => ∀ context r inputs, p.verdict app a = .admitted context →
      a.endpoint = .guarded (.request r inputs) →
        ¬(TakesForeignLead p.world.db context.tenantId r ∧ inputs.calls.commit.takesEffect)
  | _ => True

theorem Kept.afterDispatch (hscan : ∀ rows, (app.auth.scan rows).Perm rows) (h : Kept app p) :
    Kept app (p.afterDispatch app a) := by
  obtain ⟨keys, windows, heq, hkeys, -⟩ := @afterDispatch_eq app p a hscan
  rw [heq]
  refine ⟨h.sound, ?_⟩
  rcases hkeys with rfl | ⟨k, -, -, rfl⟩
  · exact h.sealed
  · change IssuedKeys.Sealed app.auth
      { p.vault with db := { p.accounts with apiKeys := p.apiKeys.modify k.id (use a.now) (use_id a.now) } }
    exact h.sealed.modify fun key k hk => ⟨hk.id, hk.tenantId, hk.scopes, hk.keyPrefix, hk.keyHash⟩

theorem Kept.withAccounts {accounts : Accounts} {issued : List IssuedKeys.IssuedKey} (h : Kept app p)
    (hsealed : IssuedKeys.Sealed app.auth ⟨accounts, issued⟩) :
    Kept app { p.withAccounts accounts with issued := issued } :=
  ⟨sound_frame h.sound accounts.tenants p.world.db.webhookEvents, hsealed⟩

theorem Kept.resettled {accounts : Accounts} (h : Kept app p) (hset : Resettled tenantId p.accounts accounts) :
    Kept app (p.withAccounts accounts) := by
  apply h.withAccounts
  rcases hset with rfl | ⟨settings, rfl⟩
  · exact h.sealed
  · apply sealed_settings h.sealed
    intro t ht
    by_cases hid : t.id = tenantId
    · exact ⟨_, mem_modify_self _ ht hid, rfl⟩
    · exact ⟨t, (mem_modify_of_ne _ hid).mpr ht, rfl⟩

theorem Kept.provisioned {payload : ProvisionTenantRequest} {draws : ProvisionDraws} {commit : CallOutcome}
    (h : Kept app p) (hnew : IssuedKeys.NewDraws p.vault (.provision payload draws commit)) :
    Kept app { p.withAccounts (AdminApi.provisionTenant app.auth.secrets p.accounts payload draws commit).2 with
      issued := p.issued ++ IssuedKeys.issuedBy app.auth p.vault payload draws commit } :=
  h.withAccounts (h.sealed.provision hnew)

theorem Kept.withWorld {w : World} {jobs : List QueueJob} (h : Kept app p)
    (hsound : Sound { w with jobs := jobs })
    (hjobs : ∀ job ∈ (backed { p with world := w }).jobs, ∃ old ∈ jobs, old.payload = job.payload)
    (htenants : w.db.tenants = p.world.db.tenants) : Kept app { p with world := w } := by
  constructor
  · exact sound_republish hsound hjobs
  · have hsealed := h.sealed
    unfold Platform.vault Platform.accounts at hsealed ⊢
    rw [htenants]
    exact hsealed

theorem mem_backed {job : QueueJob} :
    job ∈ (backed p).jobs ↔ job ∈ p.world.jobs ∨ ∃ row ∈ p.failedJobs, ⟨row.queueName, row.payload⟩ = job := by
  simp only [backed, List.mem_append, List.mem_map]
  exact Iff.rfl

theorem Kept.afterSync {work : Work Unit} (h : Kept app p) (hwork : WorkWithin p.world.db tenantId work)
    (hids : p.world.NewIds work.newIds) (commit : CallOutcome) : Kept app (p.afterSync app work commit).2 := by
  have hsound := sound_sync (w := backed p) h.sound hwork hids app.deployment.settings commit
  refine h.withWorld hsound ?_ (tenants_run _ _ _ _)
  intro job hjob
  exact ⟨job, hjob, rfl⟩

theorem Kept.afterRequest {r : Request} {inputs : Inputs} (h : Kept app p)
    (hok : ¬(TakesForeignLead p.world.db tenantId r ∧ inputs.calls.commit.takesEffect))
    (hids : p.world.NewIds (r.work app.deployment.py.lower p.world.db tenantId inputs).newIds) :
    Kept app { p with world := p.world.afterRequest app.deployment tenantId r inputs } := by
  have hstep : Leadline.Step app.deployment (backed p) (.request tenantId r inputs) _ := .request tenantId r inputs hids
  refine h.withWorld ((h.sound.step hstep).1 hok) ?_ (tenants_run _ _ _ _)
  intro job hjob
  refine ⟨job, ?_, rfl⟩
  simp only [backed, World.afterRequest, List.mem_append] at hjob ⊢
  tauto

theorem Kept.afterJob {job : QueueJob} {event : JobEvent} {inputs : JobInputs} (h : Kept app p)
    (hjob : job ∈ p.world.jobs) (hevent : WorkerLoop.eventOf job.payload = event.name)
    (hids : p.world.NewIds (event.handle app.deployment p.world.db p.world.cache job.payload inputs).1.newIds) :
    Kept app { p with world := p.world.afterJob app.deployment job event inputs } := by
  have hstep : Leadline.Step app.deployment (backed p) (.job job event inputs) _ :=
    .job job event inputs (List.mem_append_left _ hjob) hevent hids
  refine h.withWorld ((h.sound.step hstep).1 trivial) ?_ (tenants_run _ _ _ _)
  intro other hother
  refine ⟨other, ?_, rfl⟩
  simp only [backed, World.afterJob, List.mem_append] at hother ⊢
  tauto

theorem mem_modify_payload {jobs : Table FailedJob.id} {jobId : Id} {now : ℕ} {row : FailedJob}
    (hrow : row ∈ jobs.modify jobId (FailedJob.markReplayed now) (FailedJob.markReplayed_id now)) :
    ∃ old ∈ jobs, old.queueName = row.queueName ∧ old.payload = row.payload := by
  obtain ⟨old, hold, rfl⟩ := (mem_modify _).mp hrow
  refine ⟨old, hold, ?_⟩
  split
  · exact ⟨rfl, rfl⟩
  · exact ⟨rfl, rfl⟩

theorem afterReplay_backed (jobId : Id) (send commit : CallOutcome) (now : ℕ) :
    ∀ job ∈ (backed (p.afterReplay app jobId send commit now).2).jobs, ∃ old ∈ (backed p).jobs,
      old.payload = job.payload := by
  have hrows : ∀ row ∈ (replayDlqJob app.deployment.settings p.failedJobs jobId send commit now).jobs,
      ∃ old ∈ p.failedJobs, old.queueName = row.queueName ∧ old.payload = row.payload := by
    intro row hrow
    unfold replayDlqJob at hrow
    split at hrow
    · exact ⟨row, hrow, rfl, rfl⟩
    · split at hrow
      · exact ⟨row, hrow, rfl, rfl⟩
      · dsimp only at hrow
        split at hrow
        · exact mem_modify_payload hrow
        · exact ⟨row, hrow, rfl, rfl⟩
  intro job hjob
  rcases mem_backed.mp hjob with hjob | ⟨row, hrow, rfl⟩
  · rcases List.mem_append.mp hjob with hold | hnew
    · exact ⟨job, mem_backed.mpr (.inl hold), rfl⟩
    · cases hfind : p.failedJobs.find? jobId with
      | none =>
        rw [hfind] at hnew
        cases hnew
      | some row =>
        rw [hfind] at hnew
        dsimp only at hnew
        split at hnew
        · cases hnew
        · rw [List.mem_singleton.mp hnew]
          exact ⟨_, mem_backed.mpr (.inr ⟨row, (find?_eq_some_iff.mp hfind).1, rfl⟩), rfl⟩
  · obtain ⟨old, hold, -, hpayload⟩ := hrows row hrow
    exact ⟨_, mem_backed.mpr (.inr ⟨old, hold, rfl⟩), hpayload⟩

theorem Kept.handle {endpoint : GuardedEndpoint} (h : Kept app p)
    (hok : ∀ r inputs, endpoint = .request r inputs →
      ¬(TakesForeignLead p.world.db context.tenantId r ∧ inputs.calls.commit.takesEffect))
    (hnew : DrawsNew app p context endpoint) : Kept app (endpoint.handle app p context).2 := by
  cases endpoint with
  | request r inputs => exact h.afterRequest (hok r inputs rfl) hnew
  | provisionTenant payload draws commit => exact h.provisioned hnew
  | enrollDesignPartner id payload commit => exact h.resettled (resettled_enrollDesignPartner _ _ _ _)
  | promoteRollout id payload commit => exact h.resettled (resettled_promoteRollout _ _ _ _)
  | replayDlqJob jobId send commit now =>
    exact ⟨sound_republish h.sound (afterReplay_backed jobId send commit now), h.sealed⟩
  | syncHubspotLead leadId call id now commit => exact h.afterSync (syncHubspotLead_within _ _ _ _ _ _ _) hnew commit
  | createCalendarBooking call id now commit => exact h.afterSync (createCalendarBooking_within _ _ _ _ _ _) hnew commit
  | adminRead answer => exact h

theorem Kept.step {label : Label} (hscan : ∀ rows, (app.auth.scan rows).Perm rows) (h : Kept app p)
    (hok : Lawful app p label) (hstep : Step app p label p') : Kept app p' := by
  cases hstep with
  | exchange a hnew =>
    have hdispatched : Kept app (p.afterDispatch app a) := h.afterDispatch hscan
    obtain ⟨keys, windows, heq, -, -⟩ := @afterDispatch_eq app p a hscan
    apply serve_induct
    · exact hdispatched
    · exact fun events => ⟨sound_frame hdispatched.sound _ events, hdispatched.sealed⟩
    · intro context endpoint hverdict hendpoint hcheck
      apply hdispatched.handle
      · rintro r inputs rfl
        have hlawful := hok context r inputs hverdict hendpoint
        rw [heq]
        exact hlawful
      · exact hnew context endpoint hverdict hendpoint
    · exact fun q auditLogs admitted hq => ⟨hq.sound, hq.sealed⟩
  | job job event inputs hjob hevent hids => exact h.afterJob hjob hevent hids
  | deadLetter job row hjob hpayload =>
    refine ⟨sound_republish h.sound ?_, h.sealed⟩
    intro other hother
    rcases mem_backed.mp hother with hold | ⟨old, hold, rfl⟩
    · exact ⟨other, mem_backed.mpr (.inl hold), rfl⟩
    · rcases mem_of_mem_insert hold with hold | rfl
      · exact ⟨_, mem_backed.mpr (.inr ⟨old, hold, rfl⟩), rfl⟩
      · exact ⟨job, mem_backed.mpr (.inl hjob), hpayload.symm⟩

structure Blank (p : Platform) : Prop where
  world : p.world = { db := { tenants := p.world.db.tenants, webhookEvents := p.world.db.webhookEvents } }
  apiKeys : p.apiKeys = .empty
  failedJobs : p.failedJobs = .empty
  issued : p.issued = []

theorem Blank.kept (h : Blank p) : Kept app p := by
  constructor
  · have hsound := sound_frame (sound_of_tenants p.world.db.tenants) p.world.db.tenants p.world.db.webhookEvents
    unfold backed
    rw [h.failedJobs, h.world]
    exact hsound
  · exact .start h.apiKeys h.issued

def Names (tenantId : Id) : GuardedEndpoint → Prop
  | .provisionTenant _ draws _ => draws.tenantId = tenantId
  | .enrollDesignPartner id _ _ => id = tenantId
  | .promoteRollout id _ _ => id = tenantId
  | _ => False

structure SameRows (tenantId : Id) (p p' : Platform) : Prop where
  rows : Agree tenantId p.world.db p'.world.db
  users : p.users.view User.tenantId tenantId = p'.users.view User.tenantId tenantId
  cache : CachesAgree tenantId p.world.cache p'.world.cache

theorem SameRows.refl (tenantId : Id) (p : Platform) : SameRows tenantId p p := ⟨.refl _ _, rfl, fun _ _ => rfl⟩

theorem SameRows.trans {p'' : Platform} (h : SameRows tenantId p p') (h' : SameRows tenantId p' p'') :
    SameRows tenantId p p'' :=
  ⟨h.rows.trans h'.rows, h.users.trans h'.users, fun key hkey => (h.cache key hkey).trans (h'.cache key hkey)⟩

theorem SameRows.of_tenants {accounts : Accounts} {issued : List IssuedKeys.IssuedKey}
    (htenant : p.world.db.tenants.find? tenantId = accounts.tenants.find? tenantId)
    (husers : p.users.view User.tenantId tenantId = accounts.users.view User.tenantId tenantId) :
    SameRows tenantId p { p.withAccounts accounts with issued := issued } :=
  ⟨{ Agree.refl tenantId p.world.db with tenant := htenant }, husers, fun _ _ => rfl⟩

theorem SameRows.resettled {id : Id} {accounts : Accounts} (hset : Resettled id p.accounts accounts)
    (hne : id ≠ tenantId) : SameRows tenantId p (p.withAccounts accounts) := by
  rcases hset with rfl | ⟨settings, rfl⟩
  · exact .of_tenants rfl rfl
  · exact .of_tenants (find?_modify_of_ne (Tenant.id_withSettings settings) hne.symm).symm rfl

theorem SameRows.provisioned {payload : ProvisionTenantRequest} {draws : ProvisionDraws} {commit : CallOutcome}
    {issued : List IssuedKeys.IssuedKey} (secrets : Secrets) (hne : draws.tenantId ≠ tenantId) :
    SameRows tenantId p { p.withAccounts (AdminApi.provisionTenant secrets p.accounts payload draws commit).2 with
      issued := issued } := by
  rcases provisionTenant_accounts secrets p.accounts payload draws commit with heq | heq
  · rw [heq]
    exact .of_tenants rfl rfl
  · have htenant : (ProvisioningService.newTenant payload draws).id ≠ tenantId := hne
    have howner : (ProvisioningService.newOwner payload draws).tenantId ≠ tenantId := hne
    rw [heq]
    exact .of_tenants (find?_insert_of_ne htenant).symm (view_insert_of_ne howner).symm

theorem Kept.agree_run {owner : Id} {α : Type} {work : Work α} {calls : Calls} {settings : Settings}
    (h : Kept app p) (hwrites : WritesWithin owner p.world.db (work.written settings calls)) (hne : owner ≠ tenantId) :
    Agree tenantId p.world.db (work.run settings p.world.db calls).db := by
  rw [Work.run_db]
  exact agree_other_writeAll h.sound.references hwrites hne

theorem SameRows.handle {endpoint : GuardedEndpoint} (h : Kept app p)
    (hok : ∀ r inputs, endpoint = .request r inputs →
      ¬(TakesForeignLead p.world.db context.tenantId r ∧ inputs.calls.commit.takesEffect))
    (hnew : DrawsNew app p context endpoint) (hne : context.tenantId ≠ tenantId) (hnames : ¬Names tenantId endpoint) :
    SameRows tenantId p (endpoint.handle app p context).2 := by
  cases endpoint with
  | request r inputs =>
    have heffect := request_effect (d := app.deployment) h.sound (hok r inputs rfl) hnew
    exact ⟨h.agree_run heffect.1 hne, rfl, fun _ _ => rfl⟩
  | provisionTenant payload draws commit => exact .provisioned app.auth.secrets hnames
  | enrollDesignPartner id payload commit => exact .resettled (resettled_enrollDesignPartner _ _ _ _) hnames
  | promoteRollout id payload commit => exact .resettled (resettled_promoteRollout _ _ _ _) hnames
  | replayDlqJob jobId send commit now => exact ⟨.refl _ _, rfl, fun _ _ => rfl⟩
  | syncHubspotLead leadId call id now commit =>
    exact ⟨h.agree_run (written_within (syncHubspotLead_within _ _ _ _ _ _ _)) hne, rfl, fun _ _ => rfl⟩
  | createCalendarBooking call id now commit =>
    exact ⟨h.agree_run (written_within (createCalendarBooking_within _ _ _ _ _ _)) hne, rfl, fun _ _ => rfl⟩
  | adminRead answer => exact .refl _ _

def Stranger (app : App) (tenantId : Id) (p : Platform) : Label → Prop
  | .exchange a => ∀ context endpoint, p.verdict app a = .admitted context → a.endpoint = .guarded endpoint →
      context.tenantId ≠ tenantId ∧ ¬Names tenantId endpoint
  | .job job _ _ => job.payload.str? "tenant_id" ≠ some tenantId
  | .deadLetter _ _ => True

theorem SameRows.step {label : Label} (hscan : ∀ rows, (app.auth.scan rows).Perm rows) (h : Kept app p)
    (hok : Lawful app p label) (hstranger : Stranger app tenantId p label) (hstep : Step app p label p') :
    SameRows tenantId p p' := by
  cases hstep with
  | exchange a hnew =>
    have hdispatched : Kept app (p.afterDispatch app a) := h.afterDispatch hscan
    obtain ⟨keys, windows, heq, -, -⟩ := @afterDispatch_eq app p a hscan
    have hfirst : SameRows tenantId p (p.afterDispatch app a) := by
      rw [heq]
      exact ⟨.refl _ _, rfl, fun _ _ => rfl⟩
    apply serve_induct
    · exact hfirst
    · exact fun events => hfirst.trans ⟨{ Agree.refl tenantId _ with }, rfl, fun _ _ => rfl⟩
    · intro context endpoint hverdict hendpoint hcheck
      obtain ⟨hne, hnames⟩ := hstranger context endpoint hverdict hendpoint
      apply hfirst.trans
      apply SameRows.handle hdispatched
      · rintro r inputs rfl
        have hlawful := hok context r inputs hverdict hendpoint
        rw [heq]
        exact hlawful
      · exact hnew context endpoint hverdict hendpoint
      · exact hne
      · exact hnames
    · exact fun q auditLogs admitted hq => ⟨hq.rows, hq.users, hq.cache⟩
  | job job event inputs hjob hevent hids =>
    obtain ⟨owner, htenant, hlead⟩ := h.sound.jobs job (List.mem_append_left _ hjob)
    have hne : owner ≠ tenantId := by
      rintro rfl
      exact hstranger htenant
    have hwork := job_within app.deployment p.world.cache inputs h.sound.references htenant
      (fun x hx => (hlead x hx).2) event
    refine ⟨h.agree_run (written_within hwork) hne, rfl, fun key hkey => ?_⟩
    rw [← hkey] at hne
    exact (cache_other app.deployment inputs htenant event hne.symm).symm
  | deadLetter job row hjob hpayload => exact ⟨.refl _ _, rfl, fun _ _ => rfl⟩

def Outsider (app : App) (tenantId : Id) (p : Platform) : Label → Prop
  | .exchange a =>
    (∀ token, bearerToken a.http.authorization = .ok token →
      (∀ context, token.toList.count '.' = 2 → app.auth.resolveJwtContext token = some context →
        context.tenantId ≠ tenantId) ∧
      ∀ key ∈ p.issued, key.tenantId = tenantId → p.vault.Active key → key.display ≠ token) ∧
    ∀ endpoint, a.endpoint = .guarded endpoint → ¬Names tenantId endpoint
  | .job job _ _ => job.payload.str? "tenant_id" ≠ some tenantId
  | .deadLetter _ _ => True

theorem Outsider.presents (hsound : app.auth.secrets.Sound) (hscan : ∀ rows, (app.auth.scan rows).Perm rows)
    (h : Kept app p) (hout : Outsider app tenantId p (.exchange a)) (hcontext : Presents app p a context) :
    context.tenantId ≠ tenantId := by
  obtain ⟨token, htoken, hresolve⟩ := hcontext
  obtain ⟨hjwt, hkeys⟩ := hout.1 token htoken
  have hkey : (app.auth.resolveApiKeyContext p.accounts token a.now).1 = some context →
      context.tenantId ≠ tenantId := by
    intro hresolve
    obtain ⟨key, hissued, hdisplay, hactive, rfl⟩ :=
      (IssuedKeys.resolveApiKeyContext_iff hsound hscan h.sealed).mp hresolve
    intro howner
    exact hkeys key hissued howner hactive hdisplay
  unfold resolveContext at hresolve
  split at hresolve
  · rename_i hdots
    split at hresolve
    · rename_i other hother
      rw [← Option.some.inj hresolve]
      exact hjwt other hdots hother
    · exact hkey hresolve
  · exact hkey hresolve

structure SameKeys (tenantId : Id) (p p' : Platform) : Prop where
  apiKeys : p.apiKeys.view APIKey.tenantId tenantId = p'.apiKeys.view APIKey.tenantId tenantId
  window : p.windows tenantId = p'.windows tenantId

theorem SameKeys.trans {p'' : Platform} (h : SameKeys tenantId p p') (h' : SameKeys tenantId p' p'') :
    SameKeys tenantId p p'' :=
  ⟨h.apiKeys.trans h'.apiKeys, h.window.trans h'.window⟩

theorem view_use_of_ne {keys : Table APIKey.id} {k : APIKey} {now : Timestamp} (hk : k ∈ keys)
    (hne : k.tenantId ≠ tenantId) :
    (keys.modify k.id (use now) (use_id now)).view APIKey.tenantId tenantId = keys.view APIKey.tenantId tenantId := by
  rw [view_modify (f := use now) fun _ => rfl]
  conv_rhs => rw [← List.map_id (keys.view APIKey.tenantId tenantId)]
  apply List.map_congr_left
  intro other hother
  obtain ⟨hmem, howner⟩ := mem_view.mp hother
  rw [if_neg]
  · rfl
  · intro hid
    rw [eq_of_key_eq hmem hk hid] at howner
    exact hne howner

theorem SameKeys.handle {endpoint : GuardedEndpoint} (hnames : ¬Names tenantId endpoint) :
    SameKeys tenantId p (endpoint.handle app p context).2 := by
  have hset : ∀ {id accounts}, Resettled id p.accounts accounts →
      SameKeys tenantId p (p.withAccounts accounts) := by
    intro id accounts hset
    rcases hset with rfl | ⟨settings, rfl⟩
    · exact ⟨rfl, rfl⟩
    · exact ⟨rfl, rfl⟩
  cases endpoint with
  | provisionTenant payload draws commit =>
    refine ⟨?_, rfl⟩
    simp only [GuardedEndpoint.handle]
    rcases provisionTenant_accounts app.auth.secrets p.accounts payload draws commit with heq | heq
    · rw [heq]
      rfl
    · have howner : (ProvisioningService.newKey app.auth.secrets draws).tenantId ≠ tenantId := hnames
      rw [heq]
      exact (view_insert_of_ne howner).symm
  | enrollDesignPartner id payload commit => exact hset (resettled_enrollDesignPartner _ _ _ _)
  | promoteRollout id payload commit => exact hset (resettled_promoteRollout _ _ _ _)
  | _ => exact ⟨rfl, rfl⟩

theorem SameKeys.afterDispatch (hscan : ∀ rows, (app.auth.scan rows).Perm rows)
    (hpresents : ∀ context, Presents app p a context → context.tenantId ≠ tenantId) :
    SameKeys tenantId p (p.afterDispatch app a) := by
  obtain ⟨keys, windows, heq, hkeys, hwindows⟩ := @afterDispatch_eq app p a hscan
  rw [heq]
  constructor
  · rcases hkeys with rfl | ⟨k, hk, hcontext, rfl⟩
    · rfl
    · exact (view_use_of_ne hk (hpresents _ hcontext)).symm
  · rcases hwindows with rfl | ⟨context, hcontext, rfl⟩
    · rfl
    · exact (TenantRateLimiter.allow_other (hpresents context hcontext).symm).symm

structure Untouched (tenantId : Id) (p p' : Platform) : Prop where
  rows : SameRows tenantId p p'
  keys : SameKeys tenantId p p'

theorem Untouched.refl (tenantId : Id) (p : Platform) : Untouched tenantId p p := ⟨.refl _ _, rfl, rfl⟩

theorem Untouched.trans {p'' : Platform} (h : Untouched tenantId p p') (h' : Untouched tenantId p' p'') :
    Untouched tenantId p p'' :=
  ⟨h.rows.trans h'.rows, h.keys.trans h'.keys⟩

theorem Untouched.step {label : Label} (hsound : app.auth.secrets.Sound)
    (hscan : ∀ rows, (app.auth.scan rows).Perm rows) (h : Kept app p) (hok : Lawful app p label)
    (hout : Outsider app tenantId p label) (hstep : Step app p label p') : Untouched tenantId p p' := by
  cases hstep with
  | exchange a hnew =>
    have hpresents : ∀ context, Presents app p a context → context.tenantId ≠ tenantId :=
      fun context hcontext => hout.presents hsound hscan h hcontext
    have hstranger : Stranger app tenantId p (.exchange a) := fun context endpoint hverdict hendpoint =>
      ⟨hpresents context (presents_of_admitted hverdict).1, hout.2 endpoint hendpoint⟩
    refine ⟨SameRows.step hscan h hok hstranger (.exchange a hnew), ?_⟩
    have hdispatched : SameKeys tenantId p (p.afterDispatch app a) := .afterDispatch hscan hpresents
    apply serve_induct
    · exact hdispatched
    · exact fun events => hdispatched.trans ⟨rfl, rfl⟩
    · intro context endpoint hverdict hendpoint hcheck
      exact hdispatched.trans (.handle (hout.2 endpoint hendpoint))
    · exact fun q auditLogs admitted hq => ⟨hq.apiKeys, hq.window⟩
  | job job event inputs hjob hevent hids =>
    exact ⟨SameRows.step hscan h hok hout (.job job event inputs hjob hevent hids), rfl, rfl⟩
  | deadLetter job row hjob hpayload => exact ⟨⟨.refl _ _, rfl, fun _ _ => rfl⟩, rfl, rfl⟩

end Gateway

open Gateway

namespace Gateway

def opsApp : App where
  deployment := plainDeployment
  auth :=
    { secrets := IssuedKeys.saltedSecrets
      jwtDecode := fun token =>
        if token = "a.b.c" then some [("tenant_id", .str "ops"), ("role", .str "admin")] else none
      py := .ascii
      str := fun
        | .str s => s
        | _ => ""
      scan := fun rows => rows }
  verifySvix _ _ := some false
  verifyHubspot _ _ _ := false

def byOps (endpoint : GuardedEndpoint) : Arrival where
  http := { method := "POST", path := "/v1", authorization := some "Bearer a.b.c" }
  endpoint := .guarded endpoint

def provisionAcme : Arrival :=
  byOps (.provisionTenant { name := "Acme", slug := "acme", ownerEmail := "ada@acme.com" }
    ⟨"tenant-1", "user-1", "key-1", "AAAAAAAA1", 1⟩ .returns)

def opsInputs : Inputs where
  newId k := if k = 0 then "lead-1" else "event-1"
  today := 1

def withAcme : Platform := ({} : Platform).serve opsApp provisionAcme

end Gateway

end Leadline
