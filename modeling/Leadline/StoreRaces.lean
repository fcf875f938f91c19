import Leadline.Integrations
import Leadline.Library.GetThenInsert

/-!
Webhook endpoints and synchronisations that run at the same time, seen as the keys that they look
up and insert in `webhook_events` and `integration_connections`.
-/

namespace Leadline.StoreRaces

open Library GetThenInsert

inductive StoreKey
  | webhookEvent (source : SourceKey)
  | connection (tenantId : Id) (type : String)
  deriving DecidableEq

/-- `mark_processed` and `mark_failed` look the event up again, `mark_synced` has its row. -/
def StoreKey.marked : StoreKey → Bool
  | webhookEvent _ => true
  | connection _ _ => false

inductive Actor
  | svix (svixId : String) (payload : Dict)
  | hubspot (items : List Dict)
  | hubspotSync (tenantId : Id)
  | calendarBooking (tenantId : Id)

def Actor.todo : Actor → List StoreKey
  | svix svixId payload => [.webhookEvent (svixSource svixId payload)]
  | hubspot items => items.map fun item => .webhookEvent (hubspotSource item)
  | hubspotSync tenantId => [.connection tenantId "hubspot"]
  | calendarBooking tenantId => [.connection tenantId "google_calendar"]

def webhookKeys (events : Table WebhookEvent.id) : List StoreKey :=
  events.rows.map fun e => .webhookEvent e.source

def connectionKeys (connections : Table IntegrationConnection.id) : List StoreKey :=
  connections.rows.map fun c => .connection c.tenantId c.type

def storeKeys (db : Db) : List StoreKey := webhookKeys db.webhookEvents ++ connectionKeys db.integrationConnections

section

open WebhookEventRepository

variable {events : Table WebhookEvent.id} {source : SourceKey}

theorem count_webhookKeys :
    (webhookKeys events).count (.webhookEvent source) = (events.rows.filter fun e => e.source = source).length := by
  rw [webhookKeys, List.count, List.countP_map, ← List.countP_eq_length_filter]
  apply List.countP_congr
  intro e _
  simp only [Function.comp_apply, beq_iff_eq, decide_eq_true_eq, StoreKey.webhookEvent.injEq]

theorem getBySource_eq_none_iff :
    getBySource events source = none ↔ 2 ≤ (webhookKeys events).count (.webhookEvent source) := by
  rw [getBySource, scalarOneOrNone_eq_none, count_webhookKeys]

theorem getBySource_missing_iff :
    getBySource events source = some none ↔ (webhookKeys events).count (.webhookEvent source) = 0 := by
  rw [getBySource, scalarOneOrNone_eq_some_none, count_webhookKeys, List.length_eq_zero_iff]

theorem count_of_getBySource {e : WebhookEvent} (h : getBySource events source = some (some e)) :
    (webhookKeys events).count (.webhookEvent source) = 1 := by
  rw [getBySource, scalarOneOrNone_eq_some] at h
  rw [count_webhookKeys, h]
  rfl

theorem webhookKeys_update {id : Id} {status : WebhookStatus} {attempts : ℕ} {lastError : Option String} :
    webhookKeys (update events id status attempts lastError) = webhookKeys events := by
  simp only [webhookKeys, update, Table.modify, List.map_map]
  congr 1
  funext e
  simp only [Function.comp_apply]
  split <;> rfl

theorem webhookKeys_insert {e : WebhookEvent} (h : events.Fresh e.id) :
    webhookKeys (events.insert e) = webhookKeys events ++ [.webhookEvent e.source] := by
  rw [webhookKeys, Table.rows_insert h, List.map_append]
  rfl

theorem webhookKeys_markProcessed {marked : Table WebhookEvent.id}
    (h : WebhookService.markProcessed events source = some marked) : webhookKeys marked = webhookKeys events := by
  obtain ⟨found, -, rfl⟩ := Option.map_eq_some_iff.mp h
  cases found with
  | none => rfl
  | some record => exact webhookKeys_update

theorem webhookKeys_markFailed {maxRetries : ℤ} {error : String} {marked : Table WebhookEvent.id}
    (h : WebhookService.markFailed events maxRetries source error = some marked) :
    webhookKeys marked = webhookKeys events := by
  obtain ⟨found, -, rfl⟩ := Option.map_eq_some_iff.mp h
  cases found with
  | none => rfl
  | some record => exact webhookKeys_update

variable {connections : Table IntegrationConnection.id} {tenantId : Id} {type : String}

theorem count_connectionKeys :
    (connectionKeys connections).count (.connection tenantId type) =
      (connections.rows.filter fun c => c.tenantId = tenantId ∧ c.type = type).length := by
  rw [connectionKeys, List.count, List.countP_map, ← List.countP_eq_length_filter]
  apply List.countP_congr
  intro c _
  simp only [Function.comp_apply, beq_iff_eq, decide_eq_true_eq, StoreKey.connection.injEq]

theorem getByType_missing_iff :
    IntegrationConnectionRepository.getByType connections tenantId type = some none ↔
      (connectionKeys connections).count (.connection tenantId type) = 0 := by
  rw [IntegrationConnectionRepository.getByType, scalarOneOrNone_eq_some_none, count_connectionKeys,
    List.length_eq_zero_iff]

theorem count_of_getByType {c : IntegrationConnection}
    (h : IntegrationConnectionRepository.getByType connections tenantId type = some (some c)) :
    (connectionKeys connections).count (.connection tenantId type) = 1 := by
  rw [IntegrationConnectionRepository.getByType, scalarOneOrNone_eq_some] at h
  rw [count_connectionKeys, h]
  rfl

theorem connectionKeys_modify {id : Id} {f : IntegrationConnection → IntegrationConnection}
    {hf : ∀ c, (f c).id = c.id} (hkey : ∀ c, (f c).tenantId = c.tenantId ∧ (f c).type = c.type) :
    connectionKeys (connections.modify id f hf) = connectionKeys connections := by
  simp only [connectionKeys, Table.modify, List.map_map]
  congr 1
  funext c
  simp only [Function.comp_apply]
  split
  · rw [(hkey c).1, (hkey c).2]
  · rfl

theorem connectionKeys_insert {c : IntegrationConnection} (h : connections.Fresh c.id) :
    connectionKeys (connections.insert c) = connectionKeys connections ++ [.connection c.tenantId c.type] := by
  rw [connectionKeys, Table.rows_insert h, List.map_append]
  rfl

theorem getByType_eq_none_iff :
    IntegrationConnectionRepository.getByType connections tenantId type = none ↔
      2 ≤ (connectionKeys connections).count (.connection tenantId type) := by
  rw [IntegrationConnectionRepository.getByType, scalarOneOrNone_eq_none, count_connectionKeys]

end

section

variable {store pending : List StoreKey}

def alone (r : Phase StoreKey × List StoreKey) (a : Action) : Option (Phase StoreKey × List StoreKey) :=
  act StoreKey.marked r.2 r.1 a

theorem item_of_steps (item : Dict) (todo : List StoreKey) {id : Id} {events : Table WebhookEvent.id} (hid : events.Fresh id)
    (hkeys : webhookKeys events = store ++ pending) :
    match receiveHubspotItem id item events with
    | none => ∃ actions,
        runSteps alone (.ready (.webhookEvent (hubspotSource item) :: todo) pending, store) actions =
          some (.failed, store)
    | some stored => ∃ actions pending', webhookKeys stored = store ++ pending' ∧
        runSteps alone (.ready (.webhookEvent (hubspotSource item) :: todo) pending, store) actions =
          some (.ready todo pending', store) := by
  let new := WebhookService.received id (hubspotSource item) (textOr item "subscriptionType" "unknown") item
  have hsource : new.source = hubspotSource item := rfl
  unfold receiveHubspotItem WebhookService.ensureIdempotent
  cases hfound : WebhookEventRepository.getBySource events (hubspotSource item) with
  | none =>
    have hcount := getBySource_eq_none_iff.mp hfound
    rw [hkeys] at hcount
    rw [← hsource] at hfound
    rw [hfound]
    exact ⟨[.lookup], runSteps_failed hcount⟩
  | some found =>
    cases found with
    | some e =>
      have hcount := count_of_getBySource hfound
      rw [hkeys] at hcount
      rw [← hsource] at hfound
      rw [hfound]
      exact ⟨[.lookup], pending, hkeys, runSteps_found hcount⟩
    | none =>
      have hcount := getBySource_missing_iff.mp hfound
      rw [hkeys] at hcount
      rw [← hsource] at hfound
      rw [hfound]
      have hstored : webhookKeys (events.insert new) = store ++ (pending ++ [.webhookEvent (hubspotSource item)]) := by
        rw [webhookKeys_insert hid, hkeys, List.append_assoc]
        rfl
      have hinserted : WebhookEventRepository.getBySource (events.insert new) (hubspotSource item) =
          some (some new) := by
        apply WebhookEventRepository.getBySource_insert _ hid
        exact WebhookEventRepository.missing_of_getBySource hfound
      have hmarked : WebhookService.markProcessed (events.insert new) (hubspotSource item) =
          some (WebhookEventRepository.update (events.insert new) new.id .processed 1 none) := by
        rw [WebhookService.markProcessed, hinserted]
        rfl
      have hkept : webhookKeys (WebhookEventRepository.update (events.insert new) new.id .processed 1 none) =
          store ++ (pending ++ [.webhookEvent (hubspotSource item)]) := by
        rw [webhookKeys_update, hstored]
      obtain ⟨actions, hactions⟩ := runSteps_absent hcount
      simp only [Option.map_some]
      rw [hmarked]
      exact ⟨actions, _, hkept, hactions⟩

theorem commit_of_steps {todo : List StoreKey} {actions : List Action}
    (h : runSteps alone (.ready todo [], store) actions = some (.ready [] pending, store)) :
    runSteps alone (.ready todo [], store) (actions ++ [.commit]) = some (.committed, store ++ pending) := by
  rw [runSteps_append h]
  rfl

theorem id_of_item {id : Id} {item : Dict} {events stored : Table WebhookEvent.id}
    (h : receiveHubspotItem id item events = some stored) : ∀ e ∈ stored, e.id = id ∨ ∃ b ∈ events, b.id = e.id := by
  have hupdate : ∀ {pending marked : Table WebhookEvent.id} {source : SourceKey},
      WebhookService.markProcessed pending source = some marked → ∀ e ∈ marked, ∃ b ∈ pending, b.id = e.id := by
    intro pending marked source hmark e he
    obtain ⟨found, -, rfl⟩ := Option.map_eq_some_iff.mp hmark
    cases found with
    | none => exact ⟨e, he, rfl⟩
    | some record =>
      obtain ⟨b, hb, rfl⟩ := (Table.mem_modify _).mp he
      refine ⟨b, hb, ?_⟩
      split <;> rfl
  unfold receiveHubspotItem WebhookService.ensureIdempotent at h
  cases hfound : WebhookEventRepository.getBySource events
      (WebhookService.received id (hubspotSource item) (textOr item "subscriptionType" "unknown") item).source with
  | none =>
    rw [hfound] at h
    cases h
  | some found =>
    rw [hfound] at h
    cases found with
    | some e =>
      cases h
      exact fun e he => .inr ⟨e, he, rfl⟩
    | none =>
      intro e he
      obtain ⟨b, hb, hid⟩ := hupdate h e he
      rcases Table.mem_of_mem_insert hb with hb | rfl
      · exact .inr ⟨b, hb, hid⟩
      · exact .inl hid.symm

theorem items_of_steps {items : List (Id × Dict)} {events : Table WebhookEvent.id}
    (hnodup : (items.map Prod.fst).Nodup) (hid : ∀ item ∈ items, events.Fresh item.1)
    (hkeys : webhookKeys events = store ++ pending) :
    match receiveHubspotItems items events with
    | none => ∃ actions,
        runSteps alone (.ready (Actor.hubspot (items.map Prod.snd)).todo pending, store) actions =
          some (.failed, store)
    | some stored => ∃ actions pending', webhookKeys stored = store ++ pending' ∧
        runSteps alone (.ready (Actor.hubspot (items.map Prod.snd)).todo pending, store) actions =
          some (.ready [] pending', store) := by
  induction items generalizing events pending with
  | nil => exact ⟨[], pending, hkeys, rfl⟩
  | cons item items ih =>
    obtain ⟨hnew, hrest⟩ := List.nodup_cons.mp hnodup
    have hfirst := item_of_steps item.2 (Actor.hubspot (items.map Prod.snd)).todo
      (hid item List.mem_cons_self) hkeys
    rw [receiveHubspotItems]
    cases hstored : receiveHubspotItem item.1 item.2 events with
    | none =>
      rw [hstored] at hfirst
      exact hfirst
    | some stored =>
      rw [hstored] at hfirst
      obtain ⟨actions, pending', hkept, hactions⟩ := hfirst
      have hfresh : ∀ next ∈ items, stored.Fresh next.1 := by
        intro next hnext e he
        rcases id_of_item hstored e he with h | ⟨b, hb, h⟩
        · rw [h]
          intro heq
          exact hnew (heq ▸ List.mem_map_of_mem hnext)
        · rw [← h]
          exact hid next (List.mem_cons_of_mem item hnext) b hb
      have hlater := ih hrest hfresh hkept
      rw [Option.bind_some]
      cases hall : receiveHubspotItems items stored with
      | none =>
        rw [hall] at hlater
        obtain ⟨later, hlater⟩ := hlater
        exact ⟨actions ++ later, (runSteps_append hactions).trans hlater⟩
      | some final =>
        rw [hall] at hlater
        obtain ⟨later, pending'', hfinal, hlater⟩ := hlater
        exact ⟨actions ++ later, pending'', hfinal, (runSteps_append hactions).trans hlater⟩

theorem processSvix_keys {settings : Settings} {events pending : Table WebhookEvent.id} {source : SourceKey}
    {new : WebhookEvent} {processing : Processing}
    (hnew : WebhookEventRepository.getBySource pending source = some (some new)) :
    webhookKeys (processSvix settings events pending source processing).events = webhookKeys pending := by
  have hmark : WebhookService.markProcessed pending source =
      some (WebhookEventRepository.update pending new.id .processed (new.attempts + 1) new.lastError) := by
    rw [WebhookService.markProcessed, hnew]
    rfl
  have hmarked : WebhookEventRepository.getBySource
      (WebhookEventRepository.update pending new.id .processed (new.attempts + 1) new.lastError) source =
        some (some { new with status := .processed, attempts := new.attempts + 1, lastError := new.lastError }) :=
    WebhookEventRepository.getBySource_update hnew
  cases processing with
  | succeeds =>
    simp only [processSvix, tryProcess, hmark, Processing.error]
    exact webhookKeys_update
  | failsBeforeUpdate e =>
    simp only [processSvix, tryProcess, WebhookService.markFailed, hnew, Option.map_some]
    exact webhookKeys_update
  | failsAfterUpdate e =>
    simp only [processSvix, tryProcess, hmark, Processing.error, WebhookService.markFailed, hmarked,
      Option.map_some]
    rw [webhookKeys_update, webhookKeys_update]

theorem svix_of_steps {settings : Settings} {verify : String → SvixRequest → Option Bool}
    {events : Table WebhookEvent.id} {request : SvixRequest} {id : Id} {processing : Processing}
    {svixId : String} {payload : Dict}
    (hverified : verifiedSvix settings verify request = .returned (svixId, payload)) (hid : events.Fresh id) :
    ∃ actions p,
      runSteps alone (.ready (Actor.svix svixId payload).todo [], webhookKeys events) actions =
        some (p, webhookKeys (receiveSvixWebhook settings verify events request id processing).events) ∧
      (p = .committed ∨
        p = .failed ∧ (receiveSvixWebhook settings verify events request id processing).answer = .raised) := by
  let new := WebhookService.received id (svixSource svixId payload) (textOr payload "type" "unknown") payload
  have hsource : new.source = svixSource svixId payload := rfl
  have hkeys : webhookKeys events = webhookKeys events ++ [] := (List.append_nil _).symm
  unfold receiveSvixWebhook WebhookService.ensureIdempotent
  simp only [hverified]
  cases hfound : WebhookEventRepository.getBySource events (svixSource svixId payload) with
  | none =>
    have hcount := getBySource_eq_none_iff.mp hfound
    rw [hkeys] at hcount
    rw [← hsource] at hfound
    rw [hfound]
    exact ⟨[.lookup], .failed, runSteps_failed hcount, .inr ⟨rfl, rfl⟩⟩
  | some found =>
    cases found with
    | some e =>
      have hcount := count_of_getBySource hfound
      rw [hkeys] at hcount
      rw [← hsource] at hfound
      rw [hfound]
      refine ⟨[.lookup] ++ [.commit], .committed, ?_, .inl rfl⟩
      have hlookup : runSteps alone (.ready (Actor.svix svixId payload).todo [], webhookKeys events) [.lookup] =
          some (.ready [] [], webhookKeys events) := runSteps_found hcount
      rw [commit_of_steps hlookup, List.append_nil]
      rfl
    | none =>
      have hcount := getBySource_missing_iff.mp hfound
      rw [hkeys] at hcount
      have hinserted : WebhookEventRepository.getBySource (events.insert new) (svixSource svixId payload) =
          some (some new) := by
        apply WebhookEventRepository.getBySource_insert _ hid
        exact WebhookEventRepository.missing_of_getBySource hfound
      rw [← hsource] at hfound
      rw [hfound]
      obtain ⟨actions, hactions⟩ := runSteps_absent hcount
      refine ⟨actions ++ [.commit], .committed, ?_, .inl rfl⟩
      have hcommit := commit_of_steps hactions
      rw [Actor.todo, hcommit]
      simp only [Option.map_some]
      rw [processSvix_keys hinserted, webhookKeys_insert hid]
      rfl

theorem sync_of_steps {encrypt : Dict → Dict} {connections : Table IntegrationConnection.id} {tenantId : Id}
    {type provider : String} {id : Id} {now : Timestamp} (hid : connections.Fresh id) :
    match IntegrationService.sync encrypt connections tenantId type provider .accepted id now with
    | none => ∃ actions,
        runSteps alone (.ready [.connection tenantId type] [], connectionKeys connections) actions =
          some (.failed, connectionKeys connections)
    | some (_, stored) => ∃ actions,
        runSteps alone (.ready [.connection tenantId type] [], connectionKeys connections) actions =
          some (.committed, connectionKeys stored) := by
  have hkeys : connectionKeys connections = connectionKeys connections ++ [] := (List.append_nil _).symm
  unfold IntegrationService.sync IntegrationConnectionRepository.upsertSynced
  cases hfound : IntegrationConnectionRepository.getByType connections tenantId type with
  | none =>
    have hcount := getByType_eq_none_iff.mp hfound
    rw [hkeys] at hcount
    exact ⟨[.lookup], runSteps_failed hcount⟩
  | some found =>
    cases found with
    | some c =>
      have hcount := count_of_getByType hfound
      rw [hkeys] at hcount
      refine ⟨[.lookup] ++ [.commit], ?_⟩
      have hlookup : runSteps alone (.ready [.connection tenantId type] [], connectionKeys connections)
          [.lookup] = some (.ready [] [], connectionKeys connections) := runSteps_found hcount
      rw [commit_of_steps hlookup, List.append_nil]
      dsimp only [Option.map]
      rw [connectionKeys_modify]
      exact fun c => ⟨rfl, rfl⟩
    | none =>
      have hcount := getByType_missing_iff.mp hfound
      rw [hkeys] at hcount
      obtain ⟨actions, hactions⟩ := runSteps_absent hcount
      refine ⟨actions ++ [.commit], ?_⟩
      rw [commit_of_steps hactions]
      dsimp only [Option.map]
      rw [connectionKeys_insert hid]
      rfl

end

end Leadline.StoreRaces

namespace Leadline

open Library GetThenInsert StoreRaces

theorem stores_stay_unique {ι : Type} [DecidableEq ι] (db : Db) (callers : ι → Actor)
    (s : GetThenInsert.State ι StoreKey) (labels : List (ι × GetThenInsert.Action))
    (h₀ : (storeKeys db).Nodup)
    (hrun : GuardedRun (Enabled (GetThenInsert.step StoreKey.marked)) GetThenInsert.Admitted
      (GetThenInsert.State.start (storeKeys db) fun i => (callers i).todo) labels s) :
    Unique s ∧ ∀ label s', GetThenInsert.step StoreKey.marked s label = some s' →
      (Unique s' ↔ GetThenInsert.Admitted s label) :=
  unique_of_run h₀ hrun

def StoreRaces.sameEvent (_ : Fin 3) : Actor := .svix "msg_1" [("tenant_id", .str "tenant-1")]

theorem stores_stay_unique_inTurn :
    ∃ s : GetThenInsert.State (Fin 3) StoreKey,
      Unique s ∧ s.store = [.webhookEvent ("tenant-1", "svix", "msg_1")] ∧ s.actors 1 = .committed := by
  have hrun : (runChecked (GetThenInsert.step StoreKey.marked) GetThenInsert.Admitted
      (GetThenInsert.State.start (storeKeys {}) fun i => (StoreRaces.sameEvent i).todo)
      [(0, .lookup), (0, .insert), (0, .mark false), (0, .commit), (1, .lookup), (1, .commit)]).any
        (fun s => decide (s.store = [.webhookEvent ("tenant-1", "svix", "msg_1")] ∧ s.actors 1 = .committed)) =
          true := by
    decide +kernel
  obtain ⟨s, hs, hend⟩ := (Option.any_eq_true _ _).mp hrun
  have hunique := stores_stay_unique {} StoreRaces.sameEvent s _ List.nodup_nil (guarded_of_runChecked hs)
  exact ⟨s, hunique.1, of_decide_eq_true hend⟩

theorem event_inserted_twice :
    ∃ s : GetThenInsert.State (Fin 3) StoreKey,
      runSteps (GetThenInsert.step StoreKey.marked)
          (GetThenInsert.State.start (storeKeys {}) fun i => (StoreRaces.sameEvent i).todo)
          [(0, .lookup), (1, .lookup), (0, .insert), (1, .insert), (0, .mark false), (1, .mark false),
            (0, .commit), (1, .commit), (2, .lookup)] = some s ∧
        ¬s.store.Nodup ∧ s.actors 2 = .failed := by
  have hrun : (runSteps (GetThenInsert.step StoreKey.marked)
      (GetThenInsert.State.start (storeKeys {}) fun i => (StoreRaces.sameEvent i).todo)
      [(0, .lookup), (1, .lookup), (0, .insert), (1, .insert), (0, .mark false), (1, .mark false),
        (0, .commit), (1, .commit), (2, .lookup)]).any
          (fun s => decide (¬s.store.Nodup ∧ s.actors 2 = .failed)) = true := by
    decide +kernel
  obtain ⟨s, hs, hend⟩ := (Option.any_eq_true _ _).mp hrun
  exact ⟨s, hs, of_decide_eq_true hend⟩

end Leadline
