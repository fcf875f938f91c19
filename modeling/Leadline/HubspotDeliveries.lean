import Leadline.Library.GuardedRun
import Leadline.Library.KeepFirst
import Leadline.Library.Python
import Leadline.Webhooks

namespace Leadline

open Library WebhookEventRepository

/-- The event id that the item gives; without one its row is stored under `unknown`. -/
def givenEventId (item : Dict) : Option String :=
  ((item.get "eventId").map Json.pyStr).or ((item.get "id").map Json.pyStr)

def BothGive (x y : Dict) : Prop := ∃ id, givenEventId x = some id ∧ givenEventId y = some id

/-- `==`. No key is twice in a `dict`, so it does not matter which of the two is asked. -/
def SameDict (py : Python) (x y : Dict) : Prop :=
  x = y ∨ py.equal (.obj x) (.obj y) = true ∧ py.equal (.obj y) (.obj x) = true

def StandsFor (py : Python) (y x : Dict) : Prop := SameDict py y x ∨ BothGive y x

theorem hubspotEventId_eq (item : Dict) : hubspotEventId item = (givenEventId item).getD "unknown" := by
  unfold hubspotEventId givenEventId textOr
  cases item.get "eventId" <;> rfl

namespace HubspotDeliveries

variable {settings : Settings} {verify : String → String → String → Bool} {events pending held : Table WebhookEvent.id}
  {request : HubspotRequest} {newId : ℕ → Id} {id : Id} {x y item : Dict} {source : SourceKey}
  {e : WebhookEvent}

abbrev Entry := SourceKey × Dict × WebhookStatus × ℕ

def entry (e : WebhookEvent) : Entry := (e.source, e.payload, e.status, e.attempts)

def entries (events : Table WebhookEvent.id) : List Entry := events.rows.map entry

def processed (item : Dict) : Entry := (hubspotSource item, item, .processed, 1)

theorem entries_source (events : Table WebhookEvent.id) :
    (entries events).map Prod.fst = events.rows.map WebhookEvent.source := by
  simp [entries, entry]

theorem count_source (events : Table WebhookEvent.id) (source : SourceKey) :
    KeepFirst.count Prod.fst (entries events) source = (events.rows.filter fun e => e.source = source).length := by
  rw [KeepFirst.count, entries, List.countP_map, List.countP_eq_length_filter]
  rfl

theorem getBySource_eq_none : getBySource events source = none ↔ 1 < KeepFirst.count Prod.fst (entries events) source := by
  rw [count_source]
  exact scalarOneOrNone_eq_none

theorem source_mem (h : getBySource events source = some (some e)) : source ∈ (entries events).map Prod.fst := by
  have hrows := scalarOneOrNone_eq_some.mp h
  have hmem : e ∈ events.rows.filter fun e => e.source = source := hrows ▸ List.mem_singleton_self e
  obtain ⟨hrow, hsource⟩ := List.mem_filter.mp hmem
  rw [entries_source]
  exact List.mem_map.mpr ⟨e, hrow, of_decide_eq_true hsource⟩

theorem source_not_mem (h : getBySource events source = some none) : source ∉ (entries events).map Prod.fst := by
  rw [entries_source]
  intro hmem
  obtain ⟨e, he, hsource⟩ := List.mem_map.mp hmem
  exact missing_of_getBySource h e he hsource

theorem receiveHubspotItem_raises (h : getBySource pending (hubspotSource item) = none) :
    receiveHubspotItem id item pending = none := by
  have hlook : ∀ eventType, getBySource pending
      (WebhookService.received id (hubspotSource item) eventType item).source = none := fun _ => h
  simp only [receiveHubspotItem, WebhookService.ensureIdempotent, hlook, Option.map_none]

theorem receiveHubspotItem_known (h : getBySource pending (hubspotSource item) = some (some e)) :
    receiveHubspotItem id item pending = some pending := by
  have hlook : ∀ eventType, getBySource pending
      (WebhookService.received id (hubspotSource item) eventType item).source = some (some e) := fun _ => h
  simp only [receiveHubspotItem, WebhookService.ensureIdempotent, hlook, Option.map_some]

theorem receiveHubspotItem_new (hfresh : pending.Fresh id)
    (h : getBySource pending (hubspotSource item) = some none) :
    ∃ held row, receiveHubspotItem id item pending = some held ∧ held.rows = pending.rows ++ [row] ∧
      row.id = id ∧ entry row = processed item := by
  let new := WebhookService.received id (hubspotSource item) (textOr item "subscriptionType" "unknown") item
  let row : WebhookEvent := { new with status := .processed, attempts := 1 }
  have hlook : getBySource pending new.source = some none := h
  have hinserted : getBySource (pending.insert new) (hubspotSource item) = some (some new) :=
    getBySource_insert (missing_of_getBySource h) hfresh
  have hmark : WebhookService.markProcessed (pending.insert new) (hubspotSource item) =
      some (update (pending.insert new) new.id .processed 1 none) := by
    rw [WebhookService.markProcessed, hinserted]
    rfl
  have hreceive : receiveHubspotItem id item pending =
      some (update (pending.insert new) new.id .processed 1 none) := by
    unfold receiveHubspotItem WebhookService.ensureIdempotent
    rw [hlook]
    exact hmark
  have hothers : ∀ e ∈ pending.rows, e.id ≠ new.id := hfresh
  have hrows : (update (pending.insert new) new.id .processed 1 none).rows = pending.rows ++ [row] := by
    simp only [update, Table.modify, Table.rows_insert (a := new) hfresh, List.map_append, List.map_singleton]
    congr 1
    conv_rhs => rw [← List.map_id pending.rows]
    apply List.map_congr_left
    intro e he
    rw [if_neg (hothers e he)]
    rfl
  exact ⟨_, row, hreceive, hrows, rfl, rfl⟩

theorem receiveHubspotItem_spec (item : Dict) (hfresh : pending.Fresh id) :
    (KeepFirst.count Prod.fst (entries pending) (hubspotSource item) ≤ 1 ↔
      (receiveHubspotItem id item pending).isSome = true) ∧
    ∀ held, receiveHubspotItem id item pending = some held →
      entries held = KeepFirst.add Prod.fst (entries pending) (processed item) ∧
        ∀ e ∈ held, e ∈ pending ∨ e.id = id := by
  cases hlook : getBySource pending (hubspotSource item) with
  | none =>
    have hraises : receiveHubspotItem id item pending = none := receiveHubspotItem_raises hlook
    have hmany := getBySource_eq_none.mp hlook
    rw [hraises]
    constructor
    · simp [hmany]
    · intro held h
      cases h
  | some found =>
    have hone : KeepFirst.count Prod.fst (entries pending) (hubspotSource item) ≤ 1 := by
      by_contra hmany
      rw [getBySource_eq_none.mpr (by omega)] at hlook
      cases hlook
    cases found with
    | some e =>
      rw [receiveHubspotItem_known hlook]
      refine ⟨by simp [hone], ?_⟩
      intro held h
      obtain rfl := Option.some.inj h
      exact ⟨(if_pos (source_mem hlook)).symm, fun e he => .inl he⟩
    | none =>
      obtain ⟨held, row, hreceive, hrows, hid, hentry⟩ := receiveHubspotItem_new hfresh hlook
      rw [hreceive]
      refine ⟨by simp [hone], ?_⟩
      intro held' h
      obtain rfl := Option.some.inj h
      constructor
      · rw [entries, hrows, List.map_append, List.map_singleton, hentry]
        exact (if_neg (source_not_mem hlook)).symm
      · intro e he
        rw [Table.mem_def, hrows] at he
        obtain he | he := List.mem_append.mp he
        · exact .inl he
        · exact .inr (List.mem_singleton.mp he ▸ hid)

theorem receiveHubspotItems_spec {items : List (Id × Dict)} (hfresh : ∀ p ∈ items, pending.Fresh p.1)
    (hids : (items.map Prod.fst).Nodup) :
    ((∀ p ∈ items, KeepFirst.count Prod.fst (entries pending) (hubspotSource p.2) ≤ 1) ↔
      (receiveHubspotItems items pending).isSome = true) ∧
    ∀ held, receiveHubspotItems items pending = some held →
      entries held = KeepFirst.addAll Prod.fst (entries pending) (items.map fun p => processed p.2) := by
  induction items generalizing pending with
  | nil =>
    refine ⟨by simp [receiveHubspotItems], ?_⟩
    intro held h
    obtain rfl := Option.some.inj h
    rfl
  | cons p items ih =>
    obtain ⟨hnew, hrest⟩ := List.nodup_cons.mp hids
    obtain ⟨hgoes, hfirst⟩ := receiveHubspotItem_spec p.2 (hfresh p List.mem_cons_self)
    cases hitem : receiveHubspotItem p.1 p.2 pending with
    | none =>
      have hmany : ¬KeepFirst.count Prod.fst (entries pending) (hubspotSource p.2) ≤ 1 := by
        rw [hgoes, hitem]
        simp
      have hraises : receiveHubspotItems (p :: items) pending = none := by rw [receiveHubspotItems, hitem]; rfl
      rw [hraises]
      constructor
      · refine iff_of_false ?_ (by simp)
        intro hall
        exact hmany (hall p List.mem_cons_self)
      · intro held h
        cases h
    | some next =>
      obtain ⟨hentries, hmem⟩ := hfirst next hitem
      have hone : KeepFirst.count Prod.fst (entries pending) (hubspotSource p.2) ≤ 1 := by rw [hgoes, hitem]; rfl
      have hlater : ∀ q ∈ items, next.Fresh q.1 := by
        intro q hq e he
        obtain he | he := hmem e he
        · exact hfresh q (List.mem_cons_of_mem p hq) e he
        · rw [he]
          intro hsame
          exact hnew (hsame ▸ List.mem_map_of_mem hq)
      have hgo : receiveHubspotItems (p :: items) pending = receiveHubspotItems items next := by
        rw [receiveHubspotItems, hitem]
        rfl
      obtain ⟨hall, hspec⟩ := ih hlater hrest
      rw [hgo, ← hall, hentries]
      refine ⟨?_, ?_⟩
      · constructor
        · intro h q hq
          exact KeepFirst.count_add (h q (List.mem_cons_of_mem p hq))
        · intro h q hq
          obtain rfl | hq := List.mem_cons.mp hq
          · exact hone
          · exact KeepFirst.count_le_add.trans (h q hq)
      · intro held h
        rw [hspec held h, hentries]
        rfl

def verifiedHubspot (settings : Settings) (verify : String → String → String → Bool) (request : HubspotRequest) :
    Option Json :=
  match configured settings.hubspotWebhookSecret, Json.loads request.body, configured request.signature with
  | some secret, some payload, some signature => if verify request.body signature secret then some payload else none
  | _, _, _ => none

def numbered (newId : ℕ → Id) (items : List Dict) : List (Id × Dict) :=
  items.zipIdx.map fun item => (newId item.2, item.1)

theorem numbered_snd (newId : ℕ → Id) (items : List Dict) : (numbered newId items).map Prod.snd = items := by
  rw [numbered, List.map_map]
  exact List.zipIdx_map_fst 0 items

theorem numbered_fst_nodup (hinj : newId.Injective) (items : List Dict) :
    ((numbered newId items).map Prod.fst).Nodup := by
  have hids : (numbered newId items).map Prod.fst = (List.range' 0 items.length).map newId := by
    rw [numbered, List.map_map, ← List.zipIdx_map_snd, List.map_map]
    rfl
  rw [hids]
  exact List.Nodup.map hinj List.nodup_range'

theorem receiveHubspotWebhook_of_verified {payload : Json} (h : verifiedHubspot settings verify request = some payload) :
    receiveHubspotWebhook settings verify events request newId =
      match receiveHubspotItems (numbered newId (hubspotItems payload)) events with
      | none => ⟨.raised, events, []⟩
      | some stored => ⟨.returned .processed, stored, []⟩ := by
  unfold verifiedHubspot at h
  unfold receiveHubspotWebhook
  split at h
  · rename_i secret payload' signature hsecret hloads hsignature
    obtain ⟨hverify, hpayload⟩ := Option.ite_none_right_eq_some.mp h
    obtain rfl := Option.some.inj hpayload
    rw [hsecret, hloads, hsignature]
    exact if_pos hverify
  · cases h

theorem receiveHubspotWebhook_of_unverified (h : verifiedHubspot settings verify request = none) :
    (receiveHubspotWebhook settings verify events request newId).events = events ∧
      (receiveHubspotWebhook settings verify events request newId).answer ≠ .returned .processed := by
  unfold verifiedHubspot at h
  unfold receiveHubspotWebhook
  cases hsecret : configured settings.hubspotWebhookSecret with
  | none => simp
  | some secret =>
    cases hloads : Json.loads request.body with
    | none => simp
    | some payload =>
      cases hsignature : configured request.signature with
      | none => simp
      | some signature =>
        rw [hsecret, hloads, hsignature] at h
        have hverify : ¬verify request.body signature secret = true := by
          intro hverify
          simp [hverify] at h
        simp [hverify]

theorem receive_spec {payload : Json} (hinj : newId.Injective) (hfresh : ∀ k, events.Fresh (newId k))
    (hverified : verifiedHubspot settings verify request = some payload) :
    ((receiveHubspotWebhook settings verify events request newId).answer = .returned .processed ↔
      ∀ x ∈ hubspotItems payload, KeepFirst.count Prod.fst (entries events) (hubspotSource x) ≤ 1) ∧
    ((receiveHubspotWebhook settings verify events request newId).answer = .returned .processed →
      entries (receiveHubspotWebhook settings verify events request newId).events =
        KeepFirst.addAll Prod.fst (entries events) ((hubspotItems payload).map processed)) := by
  have hall : ∀ p ∈ numbered newId (hubspotItems payload), events.Fresh p.1 := by
    intro p hp
    obtain ⟨q, -, rfl⟩ := List.mem_map.mp hp
    exact hfresh q.2
  obtain ⟨hgoes, hspec⟩ := receiveHubspotItems_spec hall (numbered_fst_nodup hinj _)
  have hitems : (numbered newId (hubspotItems payload)).map (fun p => processed p.2) =
      (hubspotItems payload).map processed := by
    conv_rhs => rw [← numbered_snd newId (hubspotItems payload), List.map_map]
    rfl
  have hcount : (∀ p ∈ numbered newId (hubspotItems payload),
      KeepFirst.count Prod.fst (entries events) (hubspotSource p.2) ≤ 1) ↔
        ∀ x ∈ hubspotItems payload, KeepFirst.count Prod.fst (entries events) (hubspotSource x) ≤ 1 := by
    conv_rhs => rw [← numbered_snd newId (hubspotItems payload)]
    rw [List.forall_mem_map]
  rw [receiveHubspotWebhook_of_verified hverified, ← hcount, hgoes]
  cases hreceive : receiveHubspotItems (numbered newId (hubspotItems payload)) events with
  | none => simp
  | some stored => simpa [hitems] using hspec stored hreceive

def Accounted (py : Python) (events : Table WebhookEvent.id) (x : Dict) : Prop :=
  ∃ e ∈ events, e.source = hubspotSource x ∧ StandsFor py e.payload x

def Apart (py : Python) (x y : Dict) : Prop := hubspotSource x = hubspotSource y → StandsFor py x y

variable {py : Python}

theorem bothGive_of_given (hkey : hubspotSource x = hubspotSource y) (hx : (givenEventId x).isSome = true)
    (hy : (givenEventId y).isSome = true) : BothGive x y := by
  have hid : hubspotEventId x = hubspotEventId y := (Prod.mk.inj (Prod.mk.inj hkey).2).2
  obtain ⟨idx, hx⟩ := Option.isSome_iff_exists.mp hx
  obtain ⟨idy, hy⟩ := Option.isSome_iff_exists.mp hy
  rw [hubspotEventId_eq, hubspotEventId_eq, hx, hy] at hid
  obtain rfl : idx = idy := hid
  exact ⟨idx, hx, hy⟩

theorem given_of_bothGive (h : BothGive x y) : (givenEventId x).isSome = true ∧ (givenEventId y).isSome = true := by
  obtain ⟨id, hx, hy⟩ := h
  rw [hx, hy]
  exact ⟨rfl, rfl⟩

theorem sameDict_symm (h : SameDict py x y) : SameDict py y x := by
  rcases h with rfl | ⟨hxy, hyx⟩
  · exact .inl rfl
  · exact .inr ⟨hyx, hxy⟩

theorem sameDict_trans {z : Dict} (hxy : SameDict py x y) (hyz : SameDict py y z) : SameDict py x z := by
  rcases hxy with rfl | ⟨hxy, hyx⟩
  · exact hyz
  · rcases hyz with rfl | ⟨hyz, hzy⟩
    · exact .inr ⟨hxy, hyx⟩
    · exact .inr ⟨Python.equal_trans _ _ _ hxy hyz, Python.equal_trans _ _ _ hzy hyx⟩

theorem isSome_given : (givenEventId x).isSome = true ↔
    (x.get "eventId").isSome = true ∨ (x.get "id").isSome = true := by
  simp [givenEventId]

theorem given_of_sameDict (h : SameDict py x y) (hx : (givenEventId x).isSome = true) :
    (givenEventId y).isSome = true := by
  rcases h with rfl | ⟨hxy, -⟩
  · exact hx
  · have hkept : ∀ k, (x.get k).isSome = true → (y.get k).isSome = true := by
      intro k hk
      obtain ⟨v, hv⟩ := Option.isSome_iff_exists.mp hk
      obtain ⟨gs, w, hgs, hw, -⟩ := Python.equal_obj_get hxy hv
      cases hgs
      rw [hw]
      rfl
    rw [isSome_given] at hx ⊢
    exact hx.imp (hkept "eventId") (hkept "id")

theorem given_of_standsFor (h : StandsFor py x y) (hx : (givenEventId x).isSome = true) :
    (givenEventId y).isSome = true := by
  rcases h with hsame | hboth
  · exact given_of_sameDict hsame hx
  · exact (given_of_bothGive hboth).2

theorem standsFor_symm (h : StandsFor py x y) : StandsFor py y x := by
  rcases h with hsame | ⟨id, hx, hy⟩
  · exact .inl (sameDict_symm hsame)
  · exact .inr ⟨id, hy, hx⟩

theorem standsFor_trans {z : Dict} (hkey : hubspotSource x = hubspotSource z) (hxy : StandsFor py x y)
    (hyz : StandsFor py y z) : StandsFor py x z := by
  rcases hxy with hxy | hboth
  · rcases hyz with hyz | hboth
    · exact .inl (sameDict_trans hxy hyz)
    · obtain ⟨hy, hz⟩ := given_of_bothGive hboth
      exact .inr (bothGive_of_given hkey (given_of_sameDict (sameDict_symm hxy) hy) hz)
  · obtain ⟨hx, hy⟩ := given_of_bothGive hboth
    exact .inr (bothGive_of_given hkey hx (given_of_standsFor hyz hy))

theorem accounted_iff {x : Dict} : Accounted py events x ↔
    ∃ r ∈ entries events, r.1 = hubspotSource x ∧ StandsFor py r.2.1 x := by
  constructor
  · rintro ⟨e, he, hrow⟩
    exact ⟨entry e, List.mem_map_of_mem he, hrow⟩
  · rintro ⟨r, hr, hrow⟩
    obtain ⟨e, he, rfl⟩ := List.mem_map.mp hr
    exact ⟨e, he, hrow⟩

theorem eq_of_count {kept : List Entry} {r s : Entry} (hone : KeepFirst.count Prod.fst kept source ≤ 1)
    (hr : r ∈ kept) (hs : s ∈ kept) (hrkey : r.1 = source) (hskey : s.1 = source) : r = s := by
  rw [KeepFirst.count, List.countP_eq_length_filter] at hone
  have hr' : r ∈ kept.filter fun a => a.1 = source := List.mem_filter.mpr ⟨hr, by simp [hrkey]⟩
  have hs' : s ∈ kept.filter fun a => a.1 = source := List.mem_filter.mpr ⟨hs, by simp [hskey]⟩
  cases hrows : kept.filter fun a => a.1 = source with
  | nil =>
    rw [hrows] at hr'
    cases hr'
  | cons t ts =>
    rw [hrows] at hone hr' hs'
    obtain rfl : ts = [] := List.eq_nil_of_length_eq_zero (by simpa using hone)
    rw [List.mem_singleton.mp hr', List.mem_singleton.mp hs']

theorem accounted_addAll (py : Python) {kept : List Entry} {items : List Dict}
    (hone : ∀ x ∈ items, KeepFirst.count Prod.fst kept (hubspotSource x) ≤ 1) :
    (∀ x ∈ items, ∃ r ∈ KeepFirst.addAll Prod.fst kept (items.map processed),
      r.1 = hubspotSource x ∧ StandsFor py r.2.1 x) ↔
    ∀ x ∈ items, (∀ y ∈ items, Apart py y x) ∧ ∀ r ∈ kept, r.1 = hubspotSource x → StandsFor py r.2.1 x := by
  have hunique : ∀ x ∈ items, ∀ r ∈ KeepFirst.addAll Prod.fst kept (items.map processed),
      ∀ s ∈ KeepFirst.addAll Prod.fst kept (items.map processed),
        r.1 = hubspotSource x → s.1 = hubspotSource x → r = s := fun x hx r hr s hs =>
    eq_of_count (KeepFirst.count_addAll (hone x hx)) hr hs
  constructor
  · intro h x hx
    obtain ⟨r, hr, hrkey, hrx⟩ := h x hx
    constructor
    · intro y hy hkey
      obtain ⟨s, hs, hskey, hsy⟩ := h y hy
      obtain rfl := hunique x hx r hr s hs hrkey (hskey.trans hkey)
      exact standsFor_trans hkey (standsFor_symm hsy) hrx
    · intro s hs hskey
      obtain rfl := hunique x hx r hr s (KeepFirst.mem_addAll_of_mem hs) hrkey hskey
      exact hrx
  · intro h x hx
    obtain ⟨hitems, hstored⟩ := h x hx
    have hmem : processed x ∈ items.map processed := List.mem_map_of_mem hx
    have hkey : (processed x).1 ∈ (KeepFirst.addAll Prod.fst kept (items.map processed)).map Prod.fst :=
      KeepFirst.key_mem_addAll hmem
    obtain ⟨r, hr, hrkey⟩ := List.mem_map.mp hkey
    refine ⟨r, hr, hrkey, ?_⟩
    obtain hr | hr := KeepFirst.mem_of_mem_addAll hr
    · exact hstored r hr hrkey
    · obtain ⟨y, hy, rfl⟩ := List.mem_map.mp hr
      exact hitems y hy hrkey

end HubspotDeliveries

open HubspotDeliveries

theorem hubspot_items_accounted_iff (py : Python) (settings : Settings) (verify : String → String → String → Bool)
    (events : Table WebhookEvent.id) (request : HubspotRequest) (newId : ℕ → Id) (hinj : newId.Injective)
    (hfresh : ∀ k, events.Fresh (newId k)) (payload : Json)
    (hverified : verifiedHubspot settings verify request = some payload)
    (hsuccess : (receiveHubspotWebhook settings verify events request newId).answer = .returned .processed) :
    (∀ x ∈ hubspotItems payload, Accounted py (receiveHubspotWebhook settings verify events request newId).events x) ↔
      ∀ x ∈ hubspotItems payload, (∀ y ∈ hubspotItems payload, Apart py y x) ∧
        ∀ e ∈ events, e.source = hubspotSource x → StandsFor py e.payload x := by
  obtain ⟨hgoes, hspec⟩ := receive_spec hinj hfresh hverified
  have hentries := hspec hsuccess
  have haccounted := accounted_addAll py (hgoes.mp hsuccess)
  rw [← hentries] at haccounted
  simp only [accounted_iff]
  rw [haccounted]
  have hstored : ∀ x, (∀ r ∈ entries events, r.1 = hubspotSource x → StandsFor py r.2.1 x) ↔
      ∀ e ∈ events, e.source = hubspotSource x → StandsFor py e.payload x := fun x => List.forall_mem_map
  simp only [hstored]

namespace HubspotDeliveries

variable {py : Python}

theorem apart_of_given (hx : (givenEventId x).isSome = true) (hy : (givenEventId y).isSome = true) : Apart py x y :=
  fun hkey => .inr (bothGive_of_given hkey hx hy)

def signedSettings : Settings where
  hubspotWebhookSecret := some "secret"

def acceptSigned (_body signature secret : String) : Bool := signature = "signed with " ++ secret

def eventIds (k : ℕ) : Id := String.ofList (List.replicate k 'e')

theorem eventIds_injective : eventIds.Injective := by
  intro j k h
  have hlength := congrArg String.length h
  simpa [eventIds] using hlength

def signed (body : String) : HubspotRequest := ⟨body, some "signed with secret"⟩

def twoItems (key : String) : Json := .arr [.obj [(key, .int 1)], .obj [(key, .int 2)]]

theorem eq_twoItems {key : String} {read : Option Json}
    (h : (match read with
      | some (.arr [.obj [(j, .int 1)], .obj [(k, .int 2)]]) => j = key && k = key
      | _ => false) = true) : read = some (twoItems key) := by
  split at h
  · simp only [Bool.and_eq_true, decide_eq_true_eq] at h
    rw [h.1, h.2]
    rfl
  · cases h

theorem verified_eventIds : verifiedHubspot signedSettings acceptSigned
    (signed "[\x7b\"eventId\": 1\x7d, \x7b\"eventId\": 2\x7d]") = some (twoItems "eventId") := by
  apply eq_twoItems
  decide +kernel

theorem verified_objectIds : verifiedHubspot signedSettings acceptSigned
    (signed "[\x7b\"objectId\": 1\x7d, \x7b\"objectId\": 2\x7d]") = some (twoItems "objectId") := by
  apply eq_twoItems
  decide +kernel

theorem first_request_succeeds {payload : Json} (h : verifiedHubspot settings verify request = some payload) :
    (receiveHubspotWebhook settings verify .empty request eventIds).answer = .returned .processed := by
  apply (receive_spec eventIds_injective (fun _ e he => absurd he (Table.not_mem_empty e)) h).1.mpr
  intro x _
  exact Nat.zero_le 1

end HubspotDeliveries

theorem hubspot_items_accounted_iff_given :
    let stored := (receiveHubspotWebhook signedSettings acceptSigned .empty
      (signed "[\x7b\"eventId\": 1\x7d, \x7b\"eventId\": 2\x7d]") eventIds).events
    Accounted Python.ascii stored [("eventId", .int 1)] ∧ Accounted Python.ascii stored [("eventId", .int 2)] := by
  have hgiven : ∀ x ∈ hubspotItems (twoItems "eventId"), (givenEventId x).isSome = true := by
    simp only [hubspotItems, twoItems, List.filterMap_cons, List.filterMap_nil, List.mem_cons, List.not_mem_nil, or_false]
    rintro x (rfl | rfl) <;> rfl
  have hstored := (hubspot_items_accounted_iff Python.ascii signedSettings acceptSigned .empty _ eventIds eventIds_injective
    (fun _ e he => absurd he (Table.not_mem_empty e)) _ verified_eventIds
    (first_request_succeeds verified_eventIds)).mpr fun x hx =>
      ⟨fun y hy => apart_of_given (hgiven y hy) (hgiven x hx), fun e he => absurd he (Table.not_mem_empty e)⟩
  constructor
  · apply hstored
    simp [hubspotItems, twoItems]
  · apply hstored
    simp [hubspotItems, twoItems]

theorem hubspot_item_dropped :
    (receiveHubspotWebhook signedSettings acceptSigned .empty
        (signed "[\x7b\"objectId\": 1\x7d, \x7b\"objectId\": 2\x7d]") eventIds).answer = .returned .processed ∧
      [("objectId", .int 2)] ∈ hubspotItems (twoItems "objectId") ∧
      ¬Accounted Python.ascii (receiveHubspotWebhook signedSettings acceptSigned .empty
        (signed "[\x7b\"objectId\": 1\x7d, \x7b\"objectId\": 2\x7d]") eventIds).events [("objectId", .int 2)] := by
  have hsuccess := first_request_succeeds verified_objectIds
  refine ⟨hsuccess, by simp [hubspotItems, twoItems], ?_⟩
  have hentries := (receive_spec eventIds_injective (fun _ e he => absurd he (Table.not_mem_empty e))
    verified_objectIds).2 hsuccess
  have hfirst : KeepFirst.addAll Prod.fst (entries .empty) ((hubspotItems (twoItems "objectId")).map processed) =
      [processed [("objectId", .int 1)]] := rfl
  rw [accounted_iff, hentries, hfirst]
  rintro ⟨r, hr, -, hrow⟩
  obtain rfl := List.mem_singleton.mp hr
  obtain (hsame | ⟨hsame, -⟩) | ⟨id, hid, -⟩ := hrow
  · simp [processed] at hsame
  · revert hsame
    decide
  · cases hid

/-- A commit that raises may have taken effect; a request that fails before it raises without effect. -/
structure HubspotDelivery where
  request : HubspotRequest
  newId : ℕ → Id
  commit : CallOutcome

namespace HubspotDelivery

variable (settings : Settings) (verify : String → String → String → Bool)

def items (d : HubspotDelivery) : List Dict := (verifiedHubspot settings verify d.request).elim [] hubspotItems

def Succeeds (d : HubspotDelivery) : Prop :=
  (verifiedHubspot settings verify d.request).isSome = true ∧ d.commit = .returns

def Delivers (events : Table WebhookEvent.id) (d : HubspotDelivery) (next : Table WebhookEvent.id) : Prop :=
  d.newId.Injective ∧ (∀ k, events.Fresh (d.newId k)) ∧
    next = if d.commit.takesEffect then (receiveHubspotWebhook settings verify events d.request d.newId).events
      else events

def effective (d : HubspotDelivery) : List Dict := if d.commit.takesEffect then d.items settings verify else []

end HubspotDelivery

namespace HubspotDeliveries

open HubspotDelivery

variable {next final : Table WebhookEvent.id} {d : HubspotDelivery} {deliveries : List HubspotDelivery}

def OneRowEach (kept : List Entry) : Prop := ∀ source, source.2.1 = "hubspot" → KeepFirst.count Prod.fst kept source ≤ 1

theorem entries_delivered (hone : OneRowEach (entries events)) (h : Delivers settings verify events d next) :
    entries next = KeepFirst.addAll Prod.fst (entries events) ((d.effective settings verify).map processed) := by
  obtain ⟨hinj, hfresh, rfl⟩ := h
  unfold effective items
  split_ifs with hcommit
  · cases hverified : verifiedHubspot settings verify d.request with
    | none =>
      rw [(receiveHubspotWebhook_of_unverified hverified).1]
      rfl
    | some payload =>
      obtain ⟨hgoes, hspec⟩ := receive_spec hinj hfresh hverified
      apply hspec
      rw [hgoes]
      intro x _
      exact hone _ rfl
  · rfl

theorem entries_run (hone : OneRowEach (entries events))
    (hrun : Run (Delivers settings verify) events deliveries final) :
    entries final = KeepFirst.addAll Prod.fst (entries events)
      ((deliveries.flatMap (effective settings verify)).map processed) := by
  induction hrun with
  | nil events => rfl
  | @cons events next final d deliveries _ hstep _ ih =>
    have hnext := entries_delivered hone hstep
    have hlater : OneRowEach (entries next) := by
      intro source hsource
      rw [hnext]
      exact KeepFirst.count_addAll (hone source hsource)
    rw [ih hlater, hnext, List.flatMap_cons, List.map_append, KeepFirst.addAll_append]

theorem oneRowEach_of_none (h : ∀ e ∈ events, e.provider ≠ "hubspot") : OneRowEach (entries events) := by
  intro source hsource
  rw [count_source, List.filter_eq_nil_iff.mpr]
  · exact Nat.zero_le 1
  · intro e he
    simp only [decide_eq_true_eq]
    intro hkey
    rw [← hkey] at hsource
    exact h e he hsource

theorem mem_effective (hd : d ∈ deliveries) (hsucceeds : d.Succeeds settings verify) (hx : x ∈ d.items settings verify) :
    x ∈ deliveries.flatMap (effective settings verify) := by
  apply List.mem_flatMap.mpr
  refine ⟨d, hd, ?_⟩
  unfold effective
  rw [hsucceeds.2]
  exact hx

theorem items_of_effective (h : x ∈ deliveries.flatMap (effective settings verify)) :
    ∃ d ∈ deliveries, x ∈ d.items settings verify := by
  obtain ⟨d, hd, hx⟩ := List.mem_flatMap.mp h
  unfold effective at hx
  split_ifs at hx
  · exact ⟨d, hd, hx⟩
  · cases hx

end HubspotDeliveries

theorem hubspot_deliveries_settle (settings : Settings) (verify : String → String → String → Bool)
    (events final : Table WebhookEvent.id) (hnone : ∀ e ∈ events, e.provider ≠ "hubspot")
    (deliveries : List HubspotDelivery)
    (hrun : Run (HubspotDelivery.Delivers settings verify) events deliveries final) (items : List Dict)
    (hsent : ∀ d ∈ deliveries, ∀ x ∈ d.items settings verify, x ∈ items)
    (hall : ∀ x ∈ items, ∃ d ∈ deliveries, d.Succeeds settings verify ∧ x ∈ d.items settings verify) :
    (∀ x ∈ items, ∃ e, final.rows.filter (fun e => e.source = hubspotSource x) = [e] ∧
      e.status = .processed ∧ e.attempts = 1) ∧
    ∀ e ∈ final, e.provider = "hubspot" → ∃ x ∈ items, e.source = hubspotSource x := by
  have hone := oneRowEach_of_none hnone
  have hentries := entries_run hone hrun
  have hrow : ∀ e ∈ final, e.provider = "hubspot" → ∃ x ∈ items, entry e = processed x := by
    intro e he hprovider
    have hmem : entry e ∈ entries final := List.mem_map_of_mem he
    rw [hentries] at hmem
    obtain hold | hnew := KeepFirst.mem_of_mem_addAll hmem
    · obtain ⟨e', he', hsame⟩ := List.mem_map.mp hold
      have hsource : e'.provider = e.provider := congrArg (fun r => r.1.2.1) hsame
      exact absurd (hsource.trans hprovider) (hnone e' he')
    · obtain ⟨x, hx, hsame⟩ := List.mem_map.mp hnew
      obtain ⟨d, hd, hxd⟩ := items_of_effective hx
      exact ⟨x, hsent d hd x hxd, hsame.symm⟩
  constructor
  · intro x hx
    obtain ⟨d, hd, hsucceeds, hxd⟩ := hall x hx
    have hmem : processed x ∈ (deliveries.flatMap (HubspotDelivery.effective settings verify)).map processed :=
      List.mem_map_of_mem (mem_effective hd hsucceeds hxd)
    have hkey : (processed x).1 ∈ (KeepFirst.addAll Prod.fst (entries events) _).map Prod.fst :=
      KeepFirst.key_mem_addAll hmem
    rw [← hentries, entries_source] at hkey
    obtain ⟨e, he, hsource⟩ := List.mem_map.mp hkey
    have hone' : (final.rows.filter fun e => e.source = hubspotSource x).length ≤ 1 := by
      rw [← count_source, hentries]
      exact KeepFirst.count_addAll (hone _ rfl)
    have hfilter : e ∈ final.rows.filter fun e => e.source = hubspotSource x :=
      List.mem_filter.mpr ⟨he, decide_eq_true hsource⟩
    obtain ⟨y, -, hentry⟩ := hrow e he (congrArg (fun source => source.2.1) hsource)
    refine ⟨e, ?_, congrArg (fun r => r.2.2.1) hentry, congrArg (fun r => r.2.2.2) hentry⟩
    obtain ⟨e', hrows⟩ := List.length_eq_one_iff.mp (Nat.le_antisymm hone' (List.length_pos_of_mem hfilter))
    rw [hrows] at hfilter
    rw [hrows, List.mem_singleton.mp hfilter]
  · intro e he hprovider
    obtain ⟨x, hx, hentry⟩ := hrow e he hprovider
    exact ⟨x, hx, congrArg Prod.fst hentry⟩

namespace HubspotDeliveries

def bothIds : HubspotRequest := signed "[\x7b\"eventId\": 1\x7d, \x7b\"eventId\": 2\x7d]"

def failedThenRepeated : List HubspotDelivery :=
  [⟨bothIds, eventIds, .raisesWithoutEffect⟩, ⟨bothIds, eventIds, .returns⟩]

end HubspotDeliveries

theorem hubspot_deliveries_settle_repeated :
    ∃ final, Run (HubspotDelivery.Delivers signedSettings acceptSigned) .empty failedThenRepeated final ∧
      ∃ e, final.rows.filter (fun e => e.source = hubspotSource [("eventId", .int 2)]) = [e] ∧
        e.status = .processed ∧ e.attempts = 1 := by
  have hnew : ∀ k, (Table.empty : Table WebhookEvent.id).Fresh (eventIds k) :=
    fun _ e he => absurd he (Table.not_mem_empty e)
  have hrun : Run (HubspotDelivery.Delivers signedSettings acceptSigned) .empty failedThenRepeated
      (receiveHubspotWebhook signedSettings acceptSigned .empty bothIds eventIds).events :=
    .cons trivial ⟨eventIds_injective, hnew, rfl⟩ (.cons trivial ⟨eventIds_injective, hnew, rfl⟩ (.nil _))
  have hitems : ∀ d ∈ failedThenRepeated, d.items signedSettings acceptSigned = hubspotItems (twoItems "eventId") := by
    intro d hd
    simp only [failedThenRepeated, List.mem_cons, List.not_mem_nil, or_false] at hd
    obtain rfl | rfl := hd
    all_goals
      unfold HubspotDelivery.items
      exact congrArg (fun payload => Option.elim payload [] hubspotItems) verified_eventIds
  refine ⟨_, hrun, ?_⟩
  apply (hubspot_deliveries_settle signedSettings acceptSigned .empty _ (fun e he => absurd he (Table.not_mem_empty e))
    failedThenRepeated hrun (hubspotItems (twoItems "eventId")) ?_ ?_).1
  · simp [hubspotItems, twoItems]
  · intro d hd x hx
    rw [hitems d hd] at hx
    exact hx
  · intro x hx
    have hlast : (⟨bothIds, eventIds, .returns⟩ : HubspotDelivery) ∈ failedThenRepeated := by simp [failedThenRepeated]
    refine ⟨_, hlast, ⟨?_, rfl⟩, ?_⟩
    · exact Option.isSome_iff_exists.mpr ⟨_, verified_eventIds⟩
    · rw [hitems _ hlast]
      exact hx

end Leadline
