import Leadline.LeadService
import Mathlib.Order.Interval.Set.Basic

namespace Leadline

open Library

structure GoogleCalendarClient where
  apiBaseUrl : String
  accessToken : Option String

structure CalendarRequest where
  url : String
  timeMin : String
  timeMax : String
  authorization : String

/-- How a GET request ends: without a response, or with a status and what `response.json()` makes of the body. -/
inductive CalendarCall
  | raises
  | responds (status : ℕ) (json : Option Json)

structure CalendarTime (T : Type*) where
  isoformat : T → String
  instant : String → Option T
  midnight : String → Option T
  instant_empty : instant "" = none

namespace GoogleCalendarClient

/-- `item.get(k, {}).get("dateTime", "")` -/
def dateTime (item : Dict) (k : String) : Option Json :=
  match item.get k with
  | none => some (.str "")
  | some (.obj time) => some ((Dict.get time "dateTime").getD (.str ""))
  | some _ => none

def slot : Json → Option Dict
  | .obj item =>
    match dateTime item "start", dateTime item "end" with
    | some start, some endTime => some [("start", start), ("end", endTime)]
    | _, _ => none
  | _ => none

/-- What an iteration over `response.json().get("items", [])` goes through. -/
def items : Json → Option (List Json)
  | .obj body =>
    match Dict.get body "items" with
    | none => some []
    | some (.arr items) => some items
    | some (.obj fields) => some (fields.map fun p => .str p.1)
    | some (.str s) => some (s.toList.map fun c => .str (String.singleton c))
    | some _ => none
  | _ => none

section

variable {T : Type*} (client : GoogleCalendarClient) (time : CalendarTime T) (get : CalendarRequest → CalendarCall)
  (calendarId : String) (timeMin timeMax : T)

def request (token : String) : CalendarRequest where
  url := client.apiBaseUrl ++ "/calendars/" ++ calendarId ++ "/events"
  timeMin := time.isoformat timeMin
  timeMax := time.isoformat timeMax
  authorization := "Bearer " ++ token

/-- `none` where it raises. -/
def getAvailability : Option (List Dict) :=
  match configured client.accessToken with
  | none => some []
  | some token =>
    match get (client.request time calendarId timeMin timeMax token) with
    | .raises => none
    | .responds status json =>
      if 300 ≤ status then some [] else (json.bind items).bind fun events => events.mapM slot

end

end GoogleCalendarClient

structure CalendarAvailabilityResponse where
  start : String
  endTime : String

/-- `model_validate`: both fields are required and are strings. -/
def CalendarAvailabilityResponse.modelValidate (slot : Dict) : Option CalendarAvailabilityResponse :=
  match slot.str? "start", slot.str? "end" with
  | some start, some endTime => some ⟨start, endTime⟩
  | _, _ => none

def IntegrationApi.getCalendarAvailability {T : Type*} (client : GoogleCalendarClient) (time : CalendarTime T)
    (get : CalendarRequest → CalendarCall) (calendarId : String) (timeMin timeMax : T) :
    Answer (List CalendarAvailabilityResponse) :=
  match client.getAvailability time get calendarId timeMin timeMax with
  | none => .raised
  | some slots =>
    match slots.mapM CalendarAvailabilityResponse.modelValidate with
    | none => .raised
    | some responses => .returned responses

namespace CalendarTime

variable {T : Type*} (time : CalendarTime T)

def moment (event : Dict) (k : String) : Option T :=
  match event.get k with
  | some (.obj fields) =>
    ((Dict.str? fields "dateTime").bind time.instant).or ((Dict.str? fields "date").bind time.midnight)
  | _ => none

def Spans (slot : Dict) (a b : T) : Prop :=
  (slot.str? "start").bind time.instant = some a ∧ (slot.str? "end").bind time.instant = some b

variable [LinearOrder T]

def busy (item : Json) : Set T :=
  {t | ∃ event a b, item = .obj event ∧ time.moment event "start" = some a ∧ time.moment event "end" = some b ∧
    t ∈ Set.Ico a b}

def Free (timeMin timeMax : T) (events : List Json) (slot : Dict) : Prop :=
  ∃ a b, time.Spans slot a b ∧ a < b ∧ timeMin ≤ a ∧ b ≤ timeMax ∧
    ∀ event ∈ events, ∀ t ∈ Set.Ico a b, t ∉ time.busy event

end CalendarTime

def CalendarCall.events : CalendarCall → List Json
  | .raises => []
  | .responds status json => if 300 ≤ status then [] else ((json.bind GoogleCalendarClient.items).getD [])

def IsEvent (item : Json) : Prop :=
  ∃ event, item = .obj event ∧ ∀ k ∈ ["start", "end"], ∀ v, Dict.get event k = some v → ∃ fields, v = .obj fields

def GoogleCalendarClient.eventsReturned {T : Type*} (client : GoogleCalendarClient) (time : CalendarTime T)
    (get : CalendarRequest → CalendarCall) (calendarId : String) (timeMin timeMax : T) : List Json :=
  match configured client.accessToken with
  | none => []
  | some token => (get (client.request time calendarId timeMin timeMax token)).events

namespace CalendarAvailability

open GoogleCalendarClient

section

variable {α β : Type*} {f : α → Option β} {items : List α} {results : List β}

theorem mapM_eq_some : items.mapM f = some results ↔ items.map f = results.map some := by
  induction items generalizing results with
  | nil => cases results <;> simp
  | cons a items ih =>
    cases ha : f a with
    | none => cases results <;> simp [List.mapM_cons, ha]
    | some b =>
      cases results with
      | nil => cases hrest : items.mapM f <;> simp [List.mapM_cons, ha, hrest]
      | cons c results =>
        rw [List.map_cons, List.map_cons, List.cons.injEq, ← ih, ha, List.mapM_cons, ha]
        cases items.mapM f <;> simp

theorem mem_of_mapM {b : β} (h : items.mapM f = some results) (hb : b ∈ results) : ∃ a ∈ items, f a = some b := by
  have hmem : some b ∈ items.map f := by
    rw [mapM_eq_some.mp h]
    exact List.mem_map_of_mem hb
  exact List.mem_map.mp hmem

theorem mapM_mem {a : α} (h : items.mapM f = some results) (ha : a ∈ items) : ∃ b ∈ results, f a = some b := by
  have hmem : f a ∈ results.map some := by
    rw [← mapM_eq_some.mp h]
    exact List.mem_map_of_mem ha
  obtain ⟨b, hb, hfa⟩ := List.mem_map.mp hmem
  exact ⟨b, hb, hfa.symm⟩

theorem mapM_complete (h : ∀ a ∈ items, ∃ b, f a = some b) : ∃ results, items.mapM f = some results := by
  induction items with
  | nil => exact ⟨[], rfl⟩
  | cons a items ih =>
    obtain ⟨b, hb⟩ := h a List.mem_cons_self
    obtain ⟨results, hresults⟩ := ih fun a ha => h a (List.mem_cons_of_mem _ ha)
    exact ⟨b :: results, by simp [List.mapM_cons, hb, hresults]⟩

end

theorem dateTime_isSome {event : Dict} {k : String} :
    (∃ v, dateTime event k = some v) ↔ ∀ v, Dict.get event k = some v → ∃ fields, v = .obj fields := by
  unfold dateTime
  cases hget : Dict.get event k with
  | none => simp
  | some v => cases v <;> simp

theorem slot_eq_some {item : Json} {s : Dict} :
    slot item = some s ↔ ∃ event v w, item = .obj event ∧ dateTime event "start" = some v ∧
      dateTime event "end" = some w ∧ s = [("start", v), ("end", w)] := by
  cases item with
  | obj event =>
    unfold slot
    cases hstart : dateTime event "start" <;> cases hend : dateTime event "end" <;> simp [hstart, hend, eq_comm]
  | _ => simp [slot]

theorem slot_isSome {item : Json} : (∃ s, slot item = some s) ↔ IsEvent item := by
  constructor
  · rintro ⟨s, hs⟩
    obtain ⟨event, v, w, rfl, hstart, hend, -⟩ := slot_eq_some.mp hs
    refine ⟨event, rfl, ?_⟩
    simp only [List.mem_cons, List.not_mem_nil, or_false, forall_eq_or_imp, forall_eq]
    exact ⟨dateTime_isSome.mp ⟨v, hstart⟩, dateTime_isSome.mp ⟨w, hend⟩⟩
  · rintro ⟨event, rfl, h⟩
    obtain ⟨v, hstart⟩ := dateTime_isSome.mpr (h "start" (by simp))
    obtain ⟨w, hend⟩ := dateTime_isSome.mpr (h "end" (by simp))
    exact ⟨_, slot_eq_some.mpr ⟨event, v, w, rfl, hstart, hend, rfl⟩⟩

variable {T : Type*} {time : CalendarTime T}

theorem moment_of_dateTime {event : Dict} {k text : String} {a : T} (h : dateTime event k = some (.str text))
    (ha : time.instant text = some a) : time.moment event k = some a := by
  have htext : text ≠ "" := by
    rintro rfl
    rw [time.instant_empty] at ha
    cases ha
  unfold dateTime at h
  unfold CalendarTime.moment
  split at h
  · exact absurd (by simpa using h) htext.symm
  · rename_i fields hget
    have hfield : Dict.str? fields "dateTime" = some text := by
      cases hdate : Dict.get fields "dateTime" with
      | none =>
        rw [hdate] at h
        exact absurd (by simpa using h) htext.symm
      | some v =>
        rw [hdate] at h
        cases h
        exact Dict.str?_eq_some.mpr hdate
    rw [hget]
    simp [hfield, ha]
  · cases h

theorem moments_of_slot {item : Json} {s : Dict} {a b : T} (hslot : slot item = some s) (hspan : time.Spans s a b) :
    ∃ event, item = .obj event ∧ time.moment event "start" = some a ∧ time.moment event "end" = some b := by
  obtain ⟨event, v, w, rfl, hstart, hend, rfl⟩ := slot_eq_some.mp hslot
  obtain ⟨ha, hb⟩ := hspan
  obtain ⟨first, hfirst, ha⟩ := Option.bind_eq_some_iff.mp ha
  obtain ⟨last, hlast, hb⟩ := Option.bind_eq_some_iff.mp hb
  have hv : v = .str first := by simpa [Dict.get] using Dict.str?_eq_some.mp hfirst
  have hw : w = .str last := by simpa [Dict.get, List.lookup_cons] using Dict.str?_eq_some.mp hlast
  subst hv hw
  exact ⟨event, rfl, moment_of_dateTime hstart ha, moment_of_dateTime hend hb⟩

variable {client : GoogleCalendarClient} {get : CalendarRequest → CalendarCall} {calendarId : String}
  {timeMin timeMax : T}

theorem getAvailability_mem {slots : List Dict} {s : Dict}
    (h : client.getAvailability time get calendarId timeMin timeMax = some slots) (hs : s ∈ slots) :
    ∃ item ∈ client.eventsReturned time get calendarId timeMin timeMax, slot item = some s := by
  unfold getAvailability at h
  unfold eventsReturned
  split at h
  · cases h
    cases hs
  · split at h
    · cases h
    · rename_i token htoken status json hcall
      rw [hcall, CalendarCall.events]
      split at h
      · cases h
        cases hs
      · rename_i hstatus
        obtain ⟨events, hevents, hslots⟩ := Option.bind_eq_some_iff.mp h
        rw [if_neg hstatus, hevents, Option.getD_some]
        exact mem_of_mapM hslots hs

theorem responds_of_events {call : CalendarCall} (h : call.events ≠ []) :
    ∃ status json, call = .responds status json ∧ ¬300 ≤ status ∧ json.bind items = some call.events := by
  cases call with
  | raises => exact absurd rfl h
  | responds status json =>
    refine ⟨status, json, rfl, ?_⟩
    by_cases hstatus : 300 ≤ status
    · exact absurd (if_pos hstatus) h
    · have hevents : (CalendarCall.responds status json).events = (json.bind items).getD [] := if_neg hstatus
      rw [hevents] at h ⊢
      refine ⟨hstatus, ?_⟩
      cases hitems : json.bind items with
      | none =>
        rw [hitems] at h
        exact absurd rfl h
      | some events => rfl

theorem getAvailability_of_events (h : client.eventsReturned time get calendarId timeMin timeMax ≠ []) :
    client.getAvailability time get calendarId timeMin timeMax =
      (client.eventsReturned time get calendarId timeMin timeMax).mapM slot := by
  unfold eventsReturned at h ⊢
  unfold getAvailability
  cases htoken : configured client.accessToken with
  | none =>
    rw [htoken] at h
    exact absurd rfl h
  | some token =>
    rw [htoken] at h
    dsimp only at h ⊢
    obtain ⟨status, json, hcall, hstatus, hevents⟩ := responds_of_events h
    rw [hcall] at hevents ⊢
    dsimp only
    rw [if_neg hstatus, hevents, Option.bind_some]

theorem spans_of_modelValidate {s : Dict} {r : CalendarAvailabilityResponse} {a b : T}
    (h : CalendarAvailabilityResponse.modelValidate s = some r) (ha : time.instant r.start = some a)
    (hb : time.instant r.endTime = some b) : time.Spans s a b := by
  unfold CalendarAvailabilityResponse.modelValidate at h
  split at h
  · rename_i start endTime hstart hend
    cases h
    rw [CalendarTime.Spans, hstart, hend]
    exact ⟨ha, hb⟩
  · cases h

variable [LinearOrder T]

theorem busy_of_slot {item : Json} {s : Dict} {a b : T} (hslot : slot item = some s) (hspan : time.Spans s a b) :
    time.busy item = Set.Ico a b := by
  obtain ⟨event, rfl, hstart, hend⟩ := moments_of_slot hslot hspan
  ext t
  constructor
  · rintro ⟨other, c, d, hother, hc, hd, ht⟩
    cases hother
    rw [hstart] at hc
    rw [hend] at hd
    cases hc
    cases hd
    exact ht
  · intro ht
    exact ⟨event, a, b, rfl, hstart, hend, ht⟩

theorem not_free {item : Json} {s : Dict} {events : List Json} (hslot : slot item = some s) (hmem : item ∈ events) :
    ¬time.Free timeMin timeMax events s := by
  rintro ⟨a, b, hspan, hlt, -, -, hfree⟩
  have hstart : a ∈ Set.Ico a b := Set.left_mem_Ico.mpr hlt
  apply hfree item hmem a hstart
  rw [busy_of_slot hslot hspan]
  exact hstart

end CalendarAvailability

open GoogleCalendarClient CalendarAvailability

theorem availability_free_iff {T : Type*} [LinearOrder T] (client : GoogleCalendarClient) (time : CalendarTime T)
    (get : CalendarRequest → CalendarCall) (calendarId : String) (timeMin timeMax : T) :
    (∀ slots, client.getAvailability time get calendarId timeMin timeMax = some slots →
      ∀ slot ∈ slots, time.Free timeMin timeMax (client.eventsReturned time get calendarId timeMin timeMax) slot) ↔
    client.eventsReturned time get calendarId timeMin timeMax = [] ∨
      ∃ item ∈ client.eventsReturned time get calendarId timeMin timeMax, ¬IsEvent item := by
  constructor
  · intro hfree
    by_contra hother
    rw [not_or] at hother
    obtain ⟨hsome, hall⟩ := hother
    have hevents : ∀ item ∈ client.eventsReturned time get calendarId timeMin timeMax, ∃ s, slot item = some s := by
      intro item hitem
      apply slot_isSome.mpr
      by_contra hnot
      exact hall ⟨item, hitem, hnot⟩
    obtain ⟨slots, hslots⟩ := mapM_complete hevents
    obtain ⟨item, hitem⟩ := List.exists_mem_of_ne_nil _ hsome
    obtain ⟨s, hs, hslot⟩ := mapM_mem hslots hitem
    have hcall := (getAvailability_of_events hsome).trans hslots
    exact not_free hslot hitem (hfree slots hcall s hs)
  · rintro hnone slots hcall s hs
    obtain ⟨item, hitem, hslot⟩ := getAvailability_mem hcall hs
    rcases hnone with hnone | ⟨other, hother, hnot⟩
    · rw [hnone] at hitem
      cases hitem
    · have hsome : client.eventsReturned time get calendarId timeMin timeMax ≠ [] := List.ne_nil_of_mem hitem
      rw [getAvailability_of_events hsome] at hcall
      obtain ⟨s', -, hs'⟩ := mapM_mem hcall hother
      exact absurd (slot_isSome.mp ⟨s', hs'⟩) hnot

namespace CalendarAvailability

def texts : List (ℕ × String) :=
  [(540, "2026-06-01T09:00:00+00:00"), (570, "2026-06-01T09:30:00+00:00"), (600, "2026-06-01T10:00:00+00:00")]

def june : CalendarTime ℕ where
  isoformat t := ((texts.find? fun p => p.1 = t).map Prod.snd).getD ""
  instant s := (texts.find? fun p => p.2 = s).map Prod.fst
  midnight s := if s = "2026-06-01" then some 0 else if s = "2026-06-02" then some 1440 else none
  instant_empty := by decide

def meeting : Json :=
  .obj [("summary", .str "Demo"), ("start", .obj [("dateTime", .str "2026-06-01T09:00:00+00:00")]),
    ("end", .obj [("dateTime", .str "2026-06-01T09:30:00+00:00")])]

def offered : Dict := [("start", .str "2026-06-01T09:00:00+00:00"), ("end", .str "2026-06-01T09:30:00+00:00")]

def calendarClient : GoogleCalendarClient := ⟨"https://www.googleapis.com/calendar/v3", some "token"⟩

def oneMeeting (_ : CalendarRequest) : CalendarCall := .responds 200 (some (.obj [("items", .arr [meeting])]))

theorem meeting_offered :
    calendarClient.eventsReturned june oneMeeting "primary" 540 600 = [meeting] ∧
      june.busy meeting = Set.Ico 540 570 ∧ june.Spans offered 540 570 ∧ 540 ≤ 600 ∧
      calendarClient.getAvailability june oneMeeting "primary" 540 600 = some [offered] ∧
      ¬june.Free 540 600 (calendarClient.eventsReturned june oneMeeting "primary" 540 600) offered := by
  have hslot : slot meeting = some offered := rfl
  have hspan : june.Spans offered 540 570 := by
    constructor
    · decide
    · decide
  exact ⟨rfl, busy_of_slot hslot hspan, hspan, by decide, rfl, not_free hslot (List.mem_singleton_self meeting)⟩

end CalendarAvailability

theorem response_busy {T : Type*} [LinearOrder T] (client : GoogleCalendarClient) (time : CalendarTime T)
    (get : CalendarRequest → CalendarCall) (calendarId : String) (timeMin timeMax : T)
    (responses : List CalendarAvailabilityResponse)
    (h : IntegrationApi.getCalendarAvailability client time get calendarId timeMin timeMax = .returned responses) :
    ∀ r ∈ responses, ∀ a b, time.instant r.start = some a → time.instant r.endTime = some b →
      ∃ event ∈ client.eventsReturned time get calendarId timeMin timeMax, time.busy event = Set.Ico a b := by
  intro r hr a b ha hb
  unfold IntegrationApi.getCalendarAvailability at h
  split at h
  · cases h
  · rename_i slots hslots
    split at h
    · cases h
    · rename_i validated hvalidated
      cases h
      obtain ⟨s, hs, hvalid⟩ := mem_of_mapM hvalidated hr
      obtain ⟨item, hitem, hslot⟩ := getAvailability_mem hslots hs
      exact ⟨item, hitem, busy_of_slot hslot (spans_of_modelValidate hvalid ha hb)⟩

end Leadline
