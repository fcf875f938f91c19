import Leadline.DeadLetterReplay
import Leadline.RateLimiter
import Leadline.RequestLogs
import Leadline.System

/-!
One HTTP request from its headers to its audit entry: `AuthMiddleware.dispatch`, the dependencies of
the routers, the endpoint, and `request_logging_middleware` around all of them. The path that the
middleware sees and the endpoint that the router finds are two fields of a request: they are read
from different parts of it.
-/

namespace Leadline

open Library

namespace AuthMiddleware

def excludedPaths : List String :=
  ["/healthz", "/readyz", "/metrics", "/docs", "/openapi.json", "/redoc", "/v1/webhooks/svix", "/v1/webhooks/hubspot"]

def isExcluded (path : String) : Bool := path ∈ excludedPaths || "/docs".toList.isPrefixOf path.toList

def bearerToken (authorization : Option String) : Except HTTPException String :=
  let header := (authorization.getD "").toList
  if "Bearer ".toList.isPrefixOf header then
    let token := strip (String.ofList (header.drop 7))
    if token = "" then .error ⟨401, "empty bearer token"⟩ else .ok token
  else .error ⟨401, "missing bearer token"⟩

theorem statusCode_bearerToken {authorization : Option String} {e : HTTPException}
    (h : bearerToken authorization = .error e) : e.statusCode = 401 := by
  unfold bearerToken at h
  dsimp only at h
  split at h
  · split at h
    · cases h
      rfl
    · cases h
  · cases h
    rfl

structure GateSettings where
  enforceTenantHeaderMatch : Bool := true
  rateLimit : RateLimitSettings := {}

def isMismatch (settings : GateSettings) (xTenantId : Option String) (context : AuthContext) : Bool :=
  match configured xTenantId with
  | none => false
  | some header => settings.enforceTenantHeaderMatch && header ≠ context.tenantId

inductive Verdict
  | excluded
  | refused (e : HTTPException)
  | admitted (context : AuthContext)

structure Gate where
  accounts : Accounts
  windows : TenantRateLimiter.Windows

variable (m : AuthMiddleware) (settings : GateSettings)

def limit (gate : Gate) (context : AuthContext) (clock : ℤ) : Verdict × Gate :=
  match TenantRateLimiter.allow settings.rateLimit gate.windows context.tenantId clock with
  | (false, windows) => (.refused ⟨429, "rate limit exceeded"⟩, { gate with windows })
  | (true, windows) => (.admitted context, { gate with windows })

def authenticate (gate : Gate) (token : String) (xTenantId : Option String) (now : Timestamp) (clock : ℤ) :
    Verdict × Gate :=
  match m.resolveContext gate.accounts token now with
  | (none, accounts) => (.refused ⟨401, "invalid credentials"⟩, { gate with accounts })
  | (some context, accounts) =>
    if isMismatch settings xTenantId context then (.refused ⟨403, "tenant mismatch"⟩, { gate with accounts })
    else limit settings { gate with accounts } context clock

def dispatch (gate : Gate) (r : HttpRequest) (xTenantId : Option String) (now : Timestamp) (clock : ℤ) :
    Verdict × Gate :=
  if isExcluded r.path then (.excluded, gate)
  else
    match bearerToken r.authorization with
    | .error e => (.refused e, gate)
    | .ok token => m.authenticate settings gate token xTenantId now clock

end AuthMiddleware

def getAuthContext : Option AuthContext → Except HTTPException AuthContext
  | some context => .ok context
  | none => .error ⟨401, "authentication required"⟩

def AuthContext.IsAdmin (auth : AuthContext) : Prop := auth.role = some "admin" ∨ auth.role = some "owner"

instance (auth : AuthContext) : Decidable auth.IsAdmin := inferInstanceAs (Decidable (_ ∨ _))

def requireAdmin (context : Option AuthContext) : Except HTTPException AuthContext :=
  (getAuthContext context).bind fun auth =>
    if auth.IsAdmin then .ok auth else .error ⟨403, "admin role required"⟩

inductive Guard
  | getAuthContext
  | requireAdmin

def Guard.check : Guard → Option AuthContext → Except HTTPException AuthContext
  | getAuthContext => Leadline.getAuthContext
  | requireAdmin => Leadline.requireAdmin

/-- The routers of the rules and of the sequences depend on `require_admin`. -/
def Request.guard : Request → Guard
  | .createRule _ => .requireAdmin
  | .listRules => .requireAdmin
  | .getRule _ => .requireAdmin
  | .updateRule _ _ => .requireAdmin
  | .deleteRule _ => .requireAdmin
  | .createSequence _ => .requireAdmin
  | .listSequences => .requireAdmin
  | .getSequence _ => .requireAdmin
  | .updateSequence _ _ => .requireAdmin
  | .deleteSequence _ => .requireAdmin
  | .createStep _ _ => .requireAdmin
  | .listSteps _ => .requireAdmin
  | .updateStep _ _ _ => .requireAdmin
  | .deleteStep _ _ => .requireAdmin
  | .enrollLead _ _ => .requireAdmin
  | _ => .getAuthContext

def Request.successCode : Request → ℤ
  | .deleteLead _ => 204
  | .deleteTimelineEvent _ => 204
  | .deleteSession _ => 204
  | .deleteMessage _ => 204
  | .deleteRule _ => 204
  | .deleteSequence _ => 204
  | .deleteStep _ _ => 204
  | _ => 200

/-- What the application runs with, `verifySvix` and `verifyHubspot` being the checks of the signatures. -/
structure App where
  deployment : Deployment
  auth : AuthMiddleware
  gate : AuthMiddleware.GateSettings := {}
  audit : AuditSettings := {}
  verifySvix : String → SvixRequest → Option Bool
  verifyHubspot : String → String → String → Bool

/-- `admitted` are the requests that passed `AuthMiddleware`, `issued` the keys that a provisioning has given out. -/
structure Platform where
  world : World := { db := {} }
  users : Table User.id := .empty
  apiKeys : Table APIKey.id := .empty
  failedJobs : Table FailedJob.id := .empty
  windows : TenantRateLimiter.Windows := TenantRateLimiter.start
  auditLogs : List AuditLog := []
  admitted : List TenantRateLimiter.Call := []
  issued : List IssuedKeys.IssuedKey := []

namespace Platform

def accounts (p : Platform) : Accounts := ⟨p.world.db.tenants, p.users, p.apiKeys⟩

def vault (p : Platform) : IssuedKeys.Vault := ⟨p.accounts, p.issued⟩

def withDb (p : Platform) (db : Db) : Platform := { p with world := { p.world with db } }

def withAccounts (p : Platform) (accounts : Accounts) : Platform :=
  { p.withDb { p.world.db with tenants := accounts.tenants } with
    users := accounts.users
    apiKeys := accounts.apiKeys }

def gate (p : Platform) : AuthMiddleware.Gate := ⟨p.accounts, p.windows⟩

def withGate (p : Platform) (gate : AuthMiddleware.Gate) : Platform :=
  { p.withAccounts gate.accounts with windows := gate.windows }

end Platform

/-- An endpoint behind a guard. What only reads, the plan limits, the usage, the dead letters and the
calendar, is `adminRead`. -/
inductive GuardedEndpoint
  | request (request : Request) (inputs : Inputs)
  | provisionTenant (payload : ProvisionTenantRequest) (draws : ProvisionDraws) (commit : CallOutcome)
  | enrollDesignPartner (tenantId : Id) (payload : DesignPartnerEnrollmentRequest) (commit : CallOutcome)
  | promoteRollout (tenantId : Id) (payload : RolloutPromotionRequest) (commit : CallOutcome)
  | replayDlqJob (jobId : Id) (send commit : CallOutcome) (now : ℕ)
  | syncHubspotLead (leadId : Id) (call : ProviderCall) (id : Id) (now : Timestamp) (commit : CallOutcome)
  | createCalendarBooking (call : ProviderCall) (id : Id) (now : Timestamp) (commit : CallOutcome)
  | adminRead (answer : Answer Unit)

/-- `unrouted` is an answer of the framework, to a path without a route or a payload that is not valid. -/
inductive Endpoint
  | unrouted (e : HTTPException)
  | probe
  | me
  | svixWebhook (request : SvixRequest) (id : Id) (processing : Processing)
  | hubspotWebhook (request : HubspotRequest) (newId : ℕ → Id) (commit : CallOutcome)
  | guarded (endpoint : GuardedEndpoint)

def GuardedEndpoint.guard : GuardedEndpoint → Guard
  | request r _ => r.guard
  | _ => .requireAdmin

namespace IntegrationApi

def syncWork (encrypt : Dict → Dict) (db : Db) (tenantId : Id) (type : String) (call : ProviderCall) (id : Id)
    (now : Timestamp) : Work Unit :=
  match call with
  | .raises => .raised
  | .declined => .commits { writes := [], value := () }
  | .accepted =>
    match IntegrationEvents.connectionWrite db.integrationConnections tenantId type id
        (encrypt [("provider", .str type)]) now with
    | none => .raised
    | some w => .commits { writes := [.connection w], value := () }

def syncHubspotLead (encrypt : Dict → Dict) (db : Db) (tenantId leadId : Id) (call : ProviderCall) (id : Id)
    (now : Timestamp) : Work Unit :=
  match LeadRepository.get db tenantId leadId with
  | none => .refused ⟨404, "lead not found"⟩
  | some _ => syncWork encrypt db tenantId "hubspot" call id now

def createCalendarBooking (encrypt : Dict → Dict) (db : Db) (tenantId : Id) (call : ProviderCall) (id : Id)
    (now : Timestamp) : Work Unit :=
  syncWork encrypt db tenantId "google_calendar" call id now

end IntegrationApi

def Answer.done {α : Type} : Answer α → Answer Unit
  | returned _ => .returned ()
  | refused e => .refused e
  | raised => .raised

def Answer.committed {α : Type} (commit : CallOutcome) : Answer α → Answer α
  | returned value => if commit.raises then .raised else .returned value
  | refused e => .refused e
  | raised => .raised

namespace Platform

variable (app : App) (p : Platform)

def afterSync (work : Work Unit) (commit : CallOutcome) : Answer Unit × Platform :=
  let outcome := work.run app.deployment.settings p.world.db { commit }
  (outcome.answer, { p with world := { p.world with db := outcome.db, ids := p.world.ids ++ work.newIds } })

def afterReplay (jobId : Id) (send commit : CallOutcome) (now : ℕ) : Answer Unit × Platform :=
  let replay := Leadline.replayDlqJob app.deployment.settings p.failedJobs jobId send commit now
  let putBack := match p.failedJobs.find? jobId with
    | some job => if replay.sent.isEmpty then [] else [(⟨job.queueName, job.payload⟩ : QueueJob)]
    | none => []
  (match replay.response with
    | .replayed _ => .returned ()
    | .notFound detail => .refused ⟨404, detail⟩
    | .raised => .raised,
    { p with failedJobs := replay.jobs, world := { p.world with jobs := p.world.jobs ++ putBack } })

end Platform

def GuardedEndpoint.handle (app : App) (p : Platform) (auth : AuthContext) :
    GuardedEndpoint → Answer Unit × Platform
  | request r inputs =>
    let work := r.work app.deployment.py.lower p.world.db auth.tenantId inputs
    ((work.run app.deployment.settings p.world.db inputs.calls).answer.rendered.done,
      { p with world := p.world.afterRequest app.deployment auth.tenantId r inputs })
  | provisionTenant payload draws commit =>
    let provisioned := AdminApi.provisionTenant app.auth.secrets p.accounts payload draws commit
    (provisioned.1.done,
      { p.withAccounts provisioned.2 with
        issued := p.issued ++ IssuedKeys.issuedBy app.auth p.vault payload draws commit })
  | enrollDesignPartner tenantId payload commit =>
    let enrolled := AdminApi.enrollDesignPartner app.deployment.py p.accounts tenantId payload commit
    (enrolled.1.done, p.withAccounts enrolled.2)
  | promoteRollout tenantId payload commit =>
    let promoted := AdminApi.promoteRollout app.deployment.py p.accounts tenantId payload commit
    (promoted.1.done, p.withAccounts promoted.2)
  | replayDlqJob jobId send commit now => p.afterReplay app jobId send commit now
  | syncHubspotLead leadId call id now commit =>
    p.afterSync app (IntegrationApi.syncHubspotLead app.deployment.encrypt p.world.db auth.tenantId leadId call id now)
      commit
  | createCalendarBooking call id now commit =>
    p.afterSync app (IntegrationApi.createCalendarBooking app.deployment.encrypt p.world.db auth.tenantId call id now)
      commit
  | adminRead answer => (answer, p)

/-- `/auth/me` reads the context without a guard, and has none to read on an excluded path. -/
def Endpoint.handle (app : App) (p : Platform) (context : Option AuthContext) : Endpoint → Answer Unit × Platform
  | unrouted e => (.refused e, p)
  | probe => (.returned (), p)
  | me => (if context.isSome then .returned () else .raised, p)
  | svixWebhook request id processing =>
    let handled := receiveSvixWebhook app.deployment.settings app.verifySvix p.world.db.webhookEvents request id
      processing
    (handled.answer.done, p.withDb { p.world.db with webhookEvents := handled.events })
  | hubspotWebhook request newId commit =>
    let handled := receiveHubspotWebhook app.deployment.settings app.verifyHubspot p.world.db.webhookEvents request
      newId
    (handled.answer.done.committed commit,
      if commit.takesEffect then p.withDb { p.world.db with webhookEvents := handled.events } else p)
  | guarded endpoint =>
    match endpoint.guard.check context with
    | .error e => (.refused e, p)
    | .ok auth => endpoint.handle app p auth

def Endpoint.successCode : Endpoint → ℤ
  | guarded (.request r _) => r.successCode
  | _ => 200

structure Arrival where
  http : HttpRequest
  xTenantId : Option String := none
  endpoint : Endpoint
  now : Timestamp := 0
  clock : ℤ := 0
  uuid : String := ""
  latencyMs : ℚ := 0
  auditCommit : CallOutcome := .returns

inductive Ending
  | response (statusCode : ℤ) (context : Option AuthContext)
  | exception

def Answer.ending {α : Type} (success : ℤ) (context : Option AuthContext) : Answer α → Ending
  | returned _ => .response success context
  | refused e => .response e.statusCode context
  | raised => .exception

namespace Platform

variable (app : App) (p : Platform) (a : Arrival)

def verdict : AuthMiddleware.Verdict :=
  (app.auth.dispatch app.gate p.gate a.http a.xTenantId a.now a.clock).1

def afterDispatch : Platform :=
  p.withGate (app.auth.dispatch app.gate p.gate a.http a.xTenantId a.now a.clock).2

def answer : Ending × Platform :=
  match p.verdict app a with
  | .refused e => (.response e.statusCode none, p.afterDispatch app a)
  | .excluded =>
    let (answer, p') := a.endpoint.handle app (p.afterDispatch app a) none
    (answer.ending a.endpoint.successCode none, p')
  | .admitted context =>
    let (answer, p') := a.endpoint.handle app (p.afterDispatch app a) (some context)
    (answer.ending a.endpoint.successCode (some context), p')

def auditEntry : Ending → Option AuditLog
  | .response statusCode context =>
    (requestLoggingMiddleware app.deployment.py app.audit a.http ⟨a.uuid, context, statusCode, a.latencyMs⟩).2
  | .exception => none

def serve : Platform :=
  let (ending, p') := p.answer app a
  { p' with
    auditLogs := p'.auditLogs ++ if a.auditCommit.takesEffect then (auditEntry app a ending).toList else []
    admitted := p'.admitted ++ match p.verdict app a with
      | .admitted context => [⟨context.tenantId, a.clock⟩]
      | _ => [] }

end Platform

namespace Gateway

inductive Label
  | exchange (a : Arrival)
  | job (job : QueueJob) (event : JobEvent) (inputs : JobInputs)
  | deadLetter (job : QueueJob) (row : FailedJob)

/-- What an endpoint draws is new. -/
def DrawsNew (app : App) (p : Platform) (auth : AuthContext) : GuardedEndpoint → Prop
  | .request r inputs => p.world.NewIds (r.work app.deployment.py.lower p.world.db auth.tenantId inputs).newIds
  | .provisionTenant payload draws commit => IssuedKeys.NewDraws p.vault (.provision payload draws commit)
  | .syncHubspotLead leadId call id now _ =>
    p.world.NewIds (IntegrationApi.syncHubspotLead app.deployment.encrypt p.world.db auth.tenantId leadId call id
      now).newIds
  | .createCalendarBooking call id now _ =>
    p.world.NewIds (IntegrationApi.createCalendarBooking app.deployment.encrypt p.world.db auth.tenantId call id
      now).newIds
  | _ => True

inductive Step (app : App) (p : Platform) : Label → Platform → Prop
  | exchange (a : Arrival)
      (hnew : ∀ context endpoint, p.verdict app a = .admitted context → a.endpoint = .guarded endpoint →
        DrawsNew app (p.afterDispatch app a) context endpoint) :
      Step app p (.exchange a) (p.serve app a)
  | job (job : QueueJob) (event : JobEvent) (inputs : JobInputs) (hjob : job ∈ p.world.jobs)
      (hevent : WorkerLoop.eventOf job.payload = event.name)
      (hids : p.world.NewIds
        (event.handle app.deployment p.world.db p.world.cache job.payload inputs).1.newIds) :
      Step app p (.job job event inputs) { p with world := p.world.afterJob app.deployment job event inputs }
  | deadLetter (job : QueueJob) (row : FailedJob) (hjob : job ∈ p.world.jobs) (hpayload : row.payload = job.payload) :
      Step app p (.deadLetter job row) { p with failedJobs := p.failedJobs.insert row }

end Gateway

end Leadline
