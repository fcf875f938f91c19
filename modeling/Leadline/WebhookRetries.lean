import Leadline.Webhooks

namespace Leadline.WebhookRetries

open Library WebhookEventRepository

structure Delivery where
  request : SvixRequest
  id : Id
  processing : Processing

structure World where
  events : Table WebhookEvent.id
  processings : List Processing := []

variable (settings : Settings) (verify : String → SvixRequest → Option Bool)

def deliver (w : World) (d : Delivery) : World :=
  let handled := receiveSvixWebhook settings verify w.events d.request d.id d.processing
  ⟨handled.events, w.processings ++ handled.processings⟩

def deliverAll (w : World) (deliveries : List Delivery) : World := deliveries.foldl (deliver settings verify) w

def World.record (w : World) (source : SourceKey) : Option WebhookEvent := (getBySource w.events source).join

def failures (processings : List Processing) : ℕ := processings.countP (· ≠ .succeeds)

structure Retried (events : Table WebhookEvent.id) (source : SourceKey) (deliveries : List Delivery) : Prop where
  again : ∀ earlier d later, deliveries = earlier ++ d :: later →
    .succeeds ∉ (deliverAll settings verify ⟨events, []⟩ earlier).processings →
    (failures (deliverAll settings verify ⟨events, []⟩ earlier).processings : ℤ) <
      settings.integrationMaxRetries →
    (deliverAll settings verify ⟨events, []⟩ (earlier ++ [d])).processings =
      (deliverAll settings verify ⟨events, []⟩ earlier).processings ++ [d.processing]
  processed : .succeeds ∈ (deliverAll settings verify ⟨events, []⟩ deliveries).processings →
    ((deliverAll settings verify ⟨events, []⟩ deliveries).record source).map WebhookEvent.status =
      some .processed
  failed : ((deliverAll settings verify ⟨events, []⟩ deliveries).record source).map WebhookEvent.status =
      some .failed →
    settings.integrationMaxRetries ≤ failures (deliverAll settings verify ⟨events, []⟩ deliveries).processings
  counted : (((deliverAll settings verify ⟨events, []⟩ deliveries).record source).map
      WebhookEvent.attempts).getD 0 =
    (deliverAll settings verify ⟨events, []⟩ deliveries).processings.length

def NoRetryNeeded (maxRetries : ℤ) : List Processing → Prop
  | [] => True
  | first :: later =>
    (∀ e, first ≠ .failsAfterUpdate e) ∧ (first = .succeeds ∨ later = [] ∨ maxRetries ≤ 1)

variable {settings verify} {events : Table WebhookEvent.id} {svixId : String} {payload : Dict} {w : World}
  {d : Delivery}

theorem deliver_known {record : WebhookEvent}
    (hverified : verifiedSvix settings verify d.request = .returned (svixId, payload))
    (hrecord : getBySource w.events (svixSource svixId payload) = some (some record)) :
    deliver settings verify w d = w := by
  have hseen : ∀ id eventType, getBySource w.events
      (WebhookService.received id (svixSource svixId payload) eventType payload).source =
        some (some record) := fun _ _ => hrecord
  simp only [deliver, receiveSvixWebhook, hverified, WebhookService.ensureIdempotent, hseen,
    Option.map_some, List.append_nil]

theorem deliverAll_known {record : WebhookEvent} {deliveries : List Delivery}
    (hverified : ∀ d ∈ deliveries, verifiedSvix settings verify d.request = .returned (svixId, payload))
    (hrecord : getBySource w.events (svixSource svixId payload) = some (some record)) :
    deliverAll settings verify w deliveries = w := by
  induction deliveries with
  | nil => rfl
  | cons d deliveries ih =>
    have hfirst : deliver settings verify w d = w := by
      apply deliver_known _ hrecord
      exact hverified d List.mem_cons_self
    have hrest := ih fun e he => hverified e (List.mem_cons_of_mem d he)
    rw [deliverAll, List.foldl_cons, hfirst]
    exact hrest

def firstMark (maxRetries : ℤ) : Processing → WebhookStatus × ℕ
  | .succeeds => (.processed, 1)
  | .failsBeforeUpdate _ => (WebhookService.failedStatus maxRetries 1, 1)
  | .failsAfterUpdate _ => (WebhookService.failedStatus maxRetries 2, 2)

theorem deliver_first (hverified : verifiedSvix settings verify d.request = .returned (svixId, payload))
    (hfresh : w.events.Fresh d.id) (hnew : ∀ e ∈ w.events, e.source ≠ svixSource svixId payload) :
    (deliver settings verify w d).processings = w.processings ++ [d.processing] ∧
      ∃ record, getBySource (deliver settings verify w d).events (svixSource svixId payload) =
          some (some record) ∧
        (record.status, record.attempts) = firstMark settings.integrationMaxRetries d.processing := by
  let new := WebhookService.received d.id (svixSource svixId payload) (textOr payload "type" "unknown") payload
  have hmissing : getBySource w.events new.source = some none := getBySource_missing hnew
  have hinserted : getBySource (w.events.insert new) (svixSource svixId payload) = some (some new) :=
    getBySource_insert hnew hfresh
  have hdeliver : deliver settings verify w d =
      ⟨(processSvix settings w.events (w.events.insert new) (svixSource svixId payload) d.processing).events,
        w.processings ++ (processSvix settings w.events (w.events.insert new) (svixSource svixId payload)
          d.processing).processings⟩ := by
    simp only [deliver, receiveSvixWebhook, hverified, WebhookService.ensureIdempotent]
    rw [hmissing]
    rfl
  have hmark : WebhookService.markProcessed (w.events.insert new) (svixSource svixId payload) =
      some (update (w.events.insert new) new.id .processed 1 none) := by
    rw [WebhookService.markProcessed, hinserted]
    rfl
  let marked : WebhookEvent := { new with status := .processed, attempts := 1, lastError := none }
  have hmarked : getBySource (update (w.events.insert new) new.id .processed 1 none)
      (svixSource svixId payload) = some (some marked) := getBySource_update hinserted
  rw [hdeliver]
  cases hp : d.processing with
  | succeeds =>
    simp only [processSvix, tryProcess, hmark, Processing.error]
    exact ⟨trivial, _, hmarked, rfl⟩
  | failsBeforeUpdate e =>
    simp only [processSvix, tryProcess, WebhookService.markFailed, hinserted, Option.map_some]
    exact ⟨trivial, _, getBySource_update hinserted, rfl⟩
  | failsAfterUpdate e =>
    simp only [processSvix, tryProcess, hmark, Processing.error, WebhookService.markFailed, hmarked,
      Option.map_some]
    have hfailed : ∀ status lastError, getBySource
        (update (update (w.events.insert new) new.id .processed 1 none) marked.id status 2 lastError)
          (svixSource svixId payload) =
        some (some { marked with status := status, attempts := 2, lastError := lastError }) :=
      fun _ _ => getBySource_update hmarked
    exact ⟨trivial, _, hfailed _ _, rfl⟩

variable {deliveries : List Delivery}

theorem deliverAll_cons (hverified : ∀ e ∈ d :: deliveries,
      verifiedSvix settings verify e.request = .returned (svixId, payload))
    (hfresh : events.Fresh d.id) (hnew : ∀ e ∈ events, e.source ≠ svixSource svixId payload) :
    (deliverAll settings verify ⟨events, []⟩ (d :: deliveries)).processings = [d.processing] ∧
      ∃ record, (deliverAll settings verify ⟨events, []⟩ (d :: deliveries)).record
          (svixSource svixId payload) = some record ∧
        (record.status, record.attempts) = firstMark settings.integrationMaxRetries d.processing := by
  obtain ⟨hprocessings, record, hrecord, hmark⟩ :=
    deliver_first (w := ⟨events, []⟩) (hverified d List.mem_cons_self) hfresh hnew
  have hrest : deliverAll settings verify ⟨events, []⟩ (d :: deliveries) =
      deliver settings verify ⟨events, []⟩ d := by
    rw [deliverAll, List.foldl_cons]
    apply deliverAll_known _ hrecord
    exact fun e he => hverified e (List.mem_cons_of_mem d he)
  rw [hrest]
  refine ⟨hprocessings, record, ?_, hmark⟩
  rw [World.record, hrecord]
  rfl

theorem retried_nil {source : SourceKey} (hnew : ∀ e ∈ events, e.source ≠ source) :
    Retried settings verify events source [] := by
  have hrecord : World.record ⟨events, []⟩ source = none := by
    rw [World.record, getBySource_missing hnew]
    rfl
  constructor
  · intro earlier d later h
    cases earlier <;> cases h
  · intro h
    cases h
  · intro h
    rw [deliverAll, List.foldl_nil, hrecord] at h
    cases h
  · rw [deliverAll, List.foldl_nil, hrecord]
    rfl

theorem counted_iff {first : Processing} {record : WebhookEvent} {maxRetries : ℤ}
    (hmark : (record.status, record.attempts) = firstMark maxRetries first) :
    record.attempts = 1 ↔ ∀ e, first ≠ .failsAfterUpdate e := by
  obtain ⟨-, hattempts⟩ := Prod.mk.inj hmark
  rw [hattempts]
  cases first with
  | succeeds => simp
  | failsBeforeUpdate e => simp
  | failsAfterUpdate e => simp

theorem failed_after {first : Processing} {record : WebhookEvent} {maxRetries : ℤ}
    (hmark : (record.status, record.attempts) = firstMark maxRetries first)
    (hcounts : ∀ e, first ≠ .failsAfterUpdate e) (hfailed : record.status = .failed) :
    maxRetries ≤ failures [first] := by
  obtain ⟨hstatus, -⟩ := Prod.mk.inj hmark
  rw [hfailed] at hstatus
  cases first with
  | succeeds => cases hstatus
  | failsBeforeUpdate e =>
    simp only [WebhookService.failedStatus] at hstatus
    split at hstatus
    · cases hstatus
    · rename_i hlt
      have hone : failures [.failsBeforeUpdate e] = 1 := by simp [failures]
      omega
  | failsAfterUpdate e => exact absurd rfl (hcounts e)

theorem failures_of_ne {first : Processing} (h : first ≠ .succeeds) : failures [first] = 1 := by
  simp [failures, h]

theorem retried_cons_iff (hverified : ∀ e ∈ d :: deliveries,
      verifiedSvix settings verify e.request = .returned (svixId, payload))
    (hfresh : events.Fresh d.id) (hnew : ∀ e ∈ events, e.source ≠ svixSource svixId payload) :
    Retried settings verify events (svixSource svixId payload) (d :: deliveries) ↔
      NoRetryNeeded settings.integrationMaxRetries ((d :: deliveries).map Delivery.processing) := by
  have hstart : ∀ earlier, (∀ e ∈ earlier, e ∈ d :: deliveries) →
      (deliverAll settings verify ⟨events, []⟩ (d :: earlier)).processings = [d.processing] := by
    intro earlier hearlier
    have hall : ∀ e ∈ d :: earlier, verifiedSvix settings verify e.request = .returned (svixId, payload) := by
      intro e he
      rcases List.mem_cons.mp he with rfl | he
      · exact hverified e List.mem_cons_self
      · exact hverified e (hearlier e he)
    exact (deliverAll_cons hall hfresh hnew).1
  obtain ⟨hprocessings, record, hrecord, hmark⟩ := deliverAll_cons hverified hfresh hnew
  constructor
  · intro h
    have hcounted := h.counted
    rw [hprocessings, hrecord] at hcounted
    refine ⟨(counted_iff hmark).mp hcounted, ?_⟩
    by_contra hneeded
    simp only [not_or, not_le] at hneeded
    obtain ⟨hfails, hlater, hretries⟩ := hneeded
    obtain ⟨e, later, rfl⟩ := List.exists_cons_of_ne_nil (mt (congrArg (List.map Delivery.processing)) hlater)
    have hfirst := hstart [] (by simp)
    have hsecond := hstart [e] (by simp)
    have hagain := h.again [d] e later rfl
    rw [List.singleton_append, hfirst, hsecond] at hagain
    have htwo : [d.processing] = [d.processing] ++ [e.processing] := by
      apply hagain
      · simpa using Ne.symm hfails
      · rw [failures_of_ne hfails]
        omega
    simp at htwo
  · rintro ⟨hcounts, hneeded⟩
    constructor
    · intro earlier e later hsplit hnone hfew
      cases earlier with
      | nil =>
        obtain ⟨rfl, -⟩ := List.cons.inj hsplit
        exact hstart [] (by simp)
      | cons d' earlier =>
        obtain ⟨rfl, hrest⟩ := List.cons.inj hsplit
        have hsub : ∀ b ∈ earlier, b ∈ d :: deliveries := by
          intro b hb
          rw [hrest]
          simp [hb]
        rw [hstart earlier hsub] at hnone hfew
        have hfails : d.processing ≠ .succeeds := fun h => hnone (by simp [h])
        rw [failures_of_ne hfails] at hfew
        rcases hneeded with h | h | h
        · exact absurd h hfails
        · rw [hrest] at h
          simp at h
        · omega
    · intro hsucceeds
      rw [hprocessings, List.mem_singleton] at hsucceeds
      rw [← hsucceeds] at hmark
      rw [hrecord]
      exact congrArg some (Prod.mk.inj hmark).1
    · intro hfailed
      rw [hrecord] at hfailed
      rw [hprocessings]
      exact failed_after hmark hcounts (Option.some.inj hfailed)
    · rw [hrecord, hprocessings]
      exact (counted_iff hmark).mpr hcounts

end Leadline.WebhookRetries

namespace Leadline

open Library WebhookRetries

theorem webhook_retried_iff (settings : Settings) (verify : String → SvixRequest → Option Bool)
    (events : Table WebhookEvent.id) (svixId : String) (payload : Dict)
    (deliveries : List WebhookRetries.Delivery)
    (hverified : ∀ d ∈ deliveries, verifiedSvix settings verify d.request = .returned (svixId, payload))
    (hfresh : ∀ d ∈ deliveries, events.Fresh d.id)
    (hnew : ∀ e ∈ events, e.source ≠ svixSource svixId payload) :
    Retried settings verify events (svixSource svixId payload) deliveries ↔
      NoRetryNeeded settings.integrationMaxRetries (deliveries.map WebhookRetries.Delivery.processing) := by
  cases deliveries with
  | nil => exact iff_of_true (retried_nil hnew) trivial
  | cons d deliveries => exact retried_cons_iff hverified (hfresh d List.mem_cons_self) hnew

namespace WebhookRetries

def signedSettings : Settings where
  svixWebhookSecret := some "whsec"

def acceptSigned (secret : String) (request : SvixRequest) : Option Bool :=
  some (request.svixSignature = some ("v1," ++ secret))

def emptyEvent (processing : Processing) : WebhookRetries.Delivery where
  request := ⟨"\x7b\x7d", some "msg_1", some "1700000000", some "v1,whsec"⟩
  id := "event-1"
  processing := processing

theorem eq_emptyObject {read : Option Json}
    (h : (match read with | some (.obj []) => true | _ => false) = true) : read = some (.obj []) := by
  split at h
  · rfl
  · cases h

theorem emptyEvent_verified (processing : Processing) :
    verifiedSvix signedSettings acceptSigned (emptyEvent processing).request = .returned ("msg_1", []) := by
  have hread : Json.loads "\x7b\x7d" = some (.obj []) := by
    apply eq_emptyObject
    decide +kernel
  simp only [verifiedSvix, emptyEvent, hread]
  rfl

end WebhookRetries

theorem webhook_retried_processed :
    Retried signedSettings acceptSigned .empty (svixSource "msg_1" [])
      [emptyEvent .succeeds, emptyEvent .succeeds] := by
  apply (webhook_retried_iff signedSettings acceptSigned .empty "msg_1" []
    [emptyEvent .succeeds, emptyEvent .succeeds] _ _ _).mpr
  · exact ⟨fun e => Processing.noConfusion, .inl rfl⟩
  · intro d hd
    simp only [List.mem_cons, List.not_mem_nil, or_false, or_self] at hd
    rw [hd]
    exact emptyEvent_verified _
  · exact fun d _ e he => absurd he (Table.not_mem_empty e)
  · exact fun e he => absurd he (Table.not_mem_empty e)

theorem failed_webhook_not_retried :
    ¬Retried signedSettings acceptSigned .empty (svixSource "msg_1" [])
      [emptyEvent (.failsBeforeUpdate "timeout"), emptyEvent .succeeds] := by
  intro h
  have hfirst : (deliverAll signedSettings acceptSigned ⟨.empty, []⟩
      [emptyEvent (.failsBeforeUpdate "timeout")]).processings = [.failsBeforeUpdate "timeout"] := by
    decide +kernel
  have hsecond : (deliverAll signedSettings acceptSigned ⟨.empty, []⟩
      ([emptyEvent (.failsBeforeUpdate "timeout")] ++ [emptyEvent .succeeds])).processings =
        [.failsBeforeUpdate "timeout"] := by
    decide +kernel
  have hagain := h.again [emptyEvent (.failsBeforeUpdate "timeout")] (emptyEvent .succeeds) [] rfl
  rw [hfirst, hsecond] at hagain
  have htwo := hagain (by decide) (by decide)
  cases htwo

end Leadline
