import Leadline.LeadService

namespace Leadline

open Library

/-- `scalar_one_or_none`, or `none` where it raises because several rows match. -/
def scalarOneOrNone {α : Type} : List α → Option (Option α)
  | [] => some none
  | [a] => some (some a)
  | _ :: _ :: _ => none

theorem scalarOneOrNone_eq_none {α : Type} {rows : List α} :
    scalarOneOrNone rows = none ↔ 2 ≤ rows.length := by
  match rows with
  | [] => simp [scalarOneOrNone]
  | [a] => simp [scalarOneOrNone]
  | a :: b :: rest => simp [scalarOneOrNone]

theorem scalarOneOrNone_eq_some {α : Type} {rows : List α} {a : α} :
    scalarOneOrNone rows = some (some a) ↔ rows = [a] := by
  match rows with
  | [] => simp [scalarOneOrNone]
  | [b] => simp [scalarOneOrNone]
  | b :: c :: rest => simp [scalarOneOrNone]

theorem scalarOneOrNone_eq_some_none {α : Type} {rows : List α} :
    scalarOneOrNone rows = some none ↔ rows = [] := by
  match rows with
  | [] => simp [scalarOneOrNone]
  | [a] => simp [scalarOneOrNone]
  | a :: b :: rest => simp [scalarOneOrNone]

abbrev SourceKey := Id × String × String

def WebhookEvent.source (e : WebhookEvent) : SourceKey := (e.tenantId, e.provider, e.sourceEventId)

namespace WebhookEventRepository

def getBySource (events : Table WebhookEvent.id) (source : SourceKey) : Option (Option WebhookEvent) :=
  scalarOneOrNone (events.rows.filter fun e => e.source = source)

def update (events : Table WebhookEvent.id) (id : Id) (status : WebhookStatus) (attempts : ℕ)
    (lastError : Option String) : Table WebhookEvent.id :=
  events.modify id (fun e => { e with status := status, attempts := attempts, lastError := lastError })
    fun _ => rfl

variable {events : Table WebhookEvent.id} {source : SourceKey} {id : Id} {status : WebhookStatus}
  {attempts : ℕ} {lastError : Option String}

theorem getBySource_missing (h : ∀ e ∈ events, e.source ≠ source) : getBySource events source = some none := by
  have hnone : events.rows.filter (fun e => e.source = source) = [] := by
    rw [List.filter_eq_nil_iff]
    intro e he
    simpa using h e he
  rw [getBySource, hnone]
  rfl

theorem missing_of_getBySource (h : getBySource events source = some none) : ∀ e ∈ events, e.source ≠ source := by
  rw [getBySource, scalarOneOrNone_eq_some_none, List.filter_eq_nil_iff] at h
  intro e he
  simpa using h e he

theorem getBySource_insert {new : WebhookEvent} (h : ∀ e ∈ events, e.source ≠ new.source)
    (hid : events.Fresh new.id) : getBySource (events.insert new) new.source = some (some new) := by
  have hnone : events.rows.filter (fun e => e.source = new.source) = [] := by
    rw [List.filter_eq_nil_iff]
    intro e he
    simpa using h e he
  rw [getBySource, scalarOneOrNone_eq_some, Table.rows_insert hid, List.filter_append, hnone]
  simp

theorem getBySource_update {record : WebhookEvent} (h : getBySource events source = some (some record)) :
    getBySource (update events record.id status attempts lastError) source =
      some (some { record with status := status, attempts := attempts, lastError := lastError }) := by
  rw [getBySource, scalarOneOrNone_eq_some] at h ⊢
  simp only [update, Table.modify, List.filter_map]
  have hkeep : (fun e : WebhookEvent => decide (e.source = source)) ∘
      (fun e => if e.id = record.id then
        { e with status := status, attempts := attempts, lastError := lastError } else e) =
      fun e => decide (e.source = source) := by
    funext e
    simp only [Function.comp_apply]
    split <;> rfl
  rw [hkeep, h]
  simp

end WebhookEventRepository

namespace WebhookService

open WebhookEventRepository

def received (id : Id) (source : SourceKey) (eventType : String) (payload : Dict) : WebhookEvent where
  id := id
  tenantId := source.1
  provider := source.2.1
  sourceEventId := source.2.2
  eventType := eventType
  payload := payload
  signatureValid := true
  status := .received
  attempts := 0
  lastError := none

variable (events : Table WebhookEvent.id)

def ensureIdempotent (new : WebhookEvent) : Option ((Bool × WebhookStatus) × Table WebhookEvent.id) :=
  (getBySource events new.source).map fun
    | some existing => ((false, existing.status), events)
    | none => ((true, .received), events.insert new)

def markProcessed (source : SourceKey) : Option (Table WebhookEvent.id) :=
  (getBySource events source).map fun
    | some record => update events record.id .processed (record.attempts + 1) record.lastError
    | none => events

def failedStatus (maxRetries : ℤ) (attempts : ℕ) : WebhookStatus :=
  if (attempts : ℤ) < maxRetries then .retry else .failed

def markFailed (maxRetries : ℤ) (source : SourceKey) (error : String) : Option (Table WebhookEvent.id) :=
  (getBySource events source).map fun
    | some record =>
      update events record.id (failedStatus maxRetries (record.attempts + 1)) (record.attempts + 1)
        (some (String.ofList (error.toList.take 2000)))
    | none => events

end WebhookService

/-- `str(payload.get(key, default))` -/
def textOr (payload : Dict) (key default : String) : String :=
  ((payload.get key).map Json.pyStr).getD default

structure SvixRequest where
  body : String
  svixId : Option String
  svixTimestamp : Option String
  svixSignature : Option String

/-- How the body of the endpoint's `try` ends, with a session that is still usable. It holds the new status and the
counted attempt when the exception comes from the refresh after the update. -/
inductive Processing
  | succeeds
  | failsBeforeUpdate (error : String)
  | failsAfterUpdate (error : String)
  deriving DecidableEq

def Processing.error : Processing → Option String
  | succeeds => none
  | failsBeforeUpdate e => some e
  | failsAfterUpdate e => some e

structure WebhookHandled where
  answer : Answer WebhookStatus
  events : Table WebhookEvent.id
  processings : List Processing := []

section

variable (settings : Settings) (verify : String → SvixRequest → Option Bool)

/-- The part before the database. `verify` is the signature check of the Svix package, which may
also raise something that is not its `WebhookVerificationError`. -/
def verifiedSvix (request : SvixRequest) : Answer (String × Dict) :=
  match Json.loads request.body with
  | none => .raised
  | some payload =>
    match configured request.svixId, configured request.svixTimestamp, configured request.svixSignature with
    | some svixId, some _, some _ =>
      match configured settings.svixWebhookSecret with
      | none => .refused ⟨500, "SVIX_WEBHOOK_SECRET is not configured"⟩
      | some secret =>
        match verify secret request, payload with
        | none, _ => .raised
        | some false, _ => .refused ⟨401, "Invalid webhook signature"⟩
        | some true, .obj payload => .returned (svixId, payload)
        | some true, _ => .raised
    | _, _, _ => .refused ⟨400, "missing svix headers"⟩

def svixSource (svixId : String) (payload : Dict) : SourceKey :=
  (textOr payload "tenant_id" "global", "svix", svixId)

def multipleResultsFound : String := "Multiple rows were found when one or none was required"

def tryProcess (pending : Table WebhookEvent.id) (source : SourceKey) (processing : Processing) :
    Table WebhookEvent.id × Option String :=
  match processing with
  | .failsBeforeUpdate e => (pending, some e)
  | _ =>
    match WebhookService.markProcessed pending source with
    | none => (pending, some multipleResultsFound)
    | some marked => (marked, processing.error)

def processSvix (events pending : Table WebhookEvent.id) (source : SourceKey) (processing : Processing) :
    WebhookHandled :=
  match tryProcess pending source processing with
  | (marked, none) => ⟨.returned .processed, marked, [processing]⟩
  | (held, some error) =>
    match WebhookService.markFailed held settings.integrationMaxRetries source error with
    | none => ⟨.raised, events, [processing]⟩
    | some failed => ⟨.refused ⟨500, "failed"⟩, failed, [processing]⟩

def receiveSvixWebhook (events : Table WebhookEvent.id) (request : SvixRequest) (id : Id)
    (processing : Processing) : WebhookHandled :=
  match verifiedSvix settings verify request with
  | .refused e => ⟨.refused e, events, []⟩
  | .raised => ⟨.raised, events, []⟩
  | .returned (svixId, payload) =>
    let source := svixSource svixId payload
    match WebhookService.ensureIdempotent events
        (WebhookService.received id source (textOr payload "type" "unknown") payload) with
    | none => ⟨.raised, events, []⟩
    | some ((false, status), _) => ⟨.returned status, events, []⟩
    | some ((true, _), pending) => processSvix settings events pending source processing

end

structure HubspotRequest where
  body : String
  signature : Option String

def hubspotItems : Json → List Dict
  | .arr items => items.filterMap fun
    | .obj item => some item
    | _ => none
  | .obj item => [item]
  | _ => []

def hubspotEventId (item : Dict) : String :=
  ((item.get "eventId").map Json.pyStr).getD (textOr item "id" "unknown")

def hubspotSource (item : Dict) : SourceKey := (textOr item "tenantId" "global", "hubspot", hubspotEventId item)

def receiveHubspotItem (id : Id) (item : Dict) (pending : Table WebhookEvent.id) :
    Option (Table WebhookEvent.id) :=
  match WebhookService.ensureIdempotent pending
      (WebhookService.received id (hubspotSource item) (textOr item "subscriptionType" "unknown") item) with
  | none => none
  | some ((false, _), held) => some held
  | some ((true, _), held) => WebhookService.markProcessed held (hubspotSource item)

def receiveHubspotItems : List (Id × Dict) → Table WebhookEvent.id → Option (Table WebhookEvent.id)
  | [], pending => some pending
  | (id, item) :: rest, pending => (receiveHubspotItem id item pending).bind (receiveHubspotItems rest)

/-- `verify` is the comparison with the HMAC of the body. -/
def receiveHubspotWebhook (settings : Settings) (verify : String → String → String → Bool)
    (events : Table WebhookEvent.id) (request : HubspotRequest) (newId : ℕ → Id) : WebhookHandled :=
  match configured settings.hubspotWebhookSecret with
  | none => ⟨.refused ⟨500, "HUBSPOT_WEBHOOK_SECRET is not configured"⟩, events, []⟩
  | some secret =>
    match Json.loads request.body, configured request.signature with
    | none, _ => ⟨.raised, events, []⟩
    | some _, none => ⟨.refused ⟨400, "missing hubspot signature"⟩, events, []⟩
    | some payload, some signature =>
      if verify request.body signature secret then
        let items := (hubspotItems payload).zipIdx.map fun item => (newId item.2, item.1)
        match receiveHubspotItems items events with
        | none => ⟨.raised, events, []⟩
        | some stored => ⟨.returned .processed, stored, []⟩
      else ⟨.refused ⟨401, "invalid signature"⟩, events, []⟩

end Leadline
