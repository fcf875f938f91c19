import Leadline.Conversations
import Leadline.LeadRaces

namespace Leadline.PlanLimitRaces

open Library

inductive Request
  | lead (payload : LeadCreate)
  | session (payload : SessionCreate)
  | message (sessionId : Id) (payload : MessageCreate)

inductive Phase
  | lead (p : LeadRaces.Phase)
  | started
  | counted
  | flushed (writes : List Write)
  | finished

def Request.start : Request → Phase
  | lead _ => .lead .started
  | session _ => .started
  | message _ _ => .started

inductive Deletion
  | lead (id : Id)
  | session (id : Id)
  | message (id : Id)

/-- What the database checks at a flush and no query has: keys, references, one usage record a day. -/
def Fits (db : Db) : Write → Prop
  | .session (.add s) => db.sessions.Fresh s.id ∧ ConversationService.LeadExists db s.leadId
  | .message (.add m) => db.messages.Fresh m.id ∧ (db.sessions.find? m.sessionId).isSome
  | .usage c => c.inserted → db.usage.Fresh (c.tenantId, c.recordDate)
  | _ => True

instance (db : Db) (w : Write) : Decidable (Fits db w) :=
  match w with
  | .session (.add _) => inferInstanceAs (Decidable (_ ∧ _))
  | .message (.add _) => inferInstanceAs (Decidable (_ ∧ _))
  | .usage _ => inferInstanceAs (Decidable (_ → _))
  | .lead _ => inferInstanceAs (Decidable True)
  | .timelineEvent _ => inferInstanceAs (Decidable True)
  | .session (.set _) => inferInstanceAs (Decidable True)
  | .session (.delete _) => inferInstanceAs (Decidable True)
  | .message (.set _) => inferInstanceAs (Decidable True)
  | .message (.delete _) => inferInstanceAs (Decidable True)
  | .routingRule _ => inferInstanceAs (Decidable True)
  | .sequence _ => inferInstanceAs (Decidable True)
  | .step _ => inferInstanceAs (Decidable True)
  | .enrollment _ => inferInstanceAs (Decidable True)
  | .connection _ => inferInstanceAs (Decidable True)

section

variable (lower : String → String) (settings : Settings) (tenantId : Id)

def enforce (db : Db) : Request → Except HTTPException Unit
  | .lead _ => PlanLimitService.enforceLeadCreationLimit db tenantId
  | .session _ => PlanLimitService.enforceSessionCreationLimit db tenantId
  | .message _ _ => PlanLimitService.enforceMessageCreationLimit db tenantId

def insertion (db : Db) (id : Id) (today : Day) : Request → Option (List Write)
  | .lead _ => none
  | .session payload =>
    match ConversationService.insertSession db tenantId payload id today with
    | .commits c => some c.writes
    | _ => none
  | .message sessionId payload =>
    match ConversationService.insertMessage db tenantId sessionId payload id with
    | .commits c => some c.writes
    | _ => none

def act (request : Request) (db : Db) : Phase → LeadRaces.Action → Option (Phase × Db)
  | .lead p, a =>
    match request with
    | .lead payload => (LeadRaces.act lower settings tenantId payload db p a).map fun r => (.lead r.1, r.2)
    | _ => none
  | .started, .count =>
    match enforce tenantId db request with
    | .error _ => some (.finished, db)
    | .ok _ => some (.counted, db)
  | .counted, .insert id _ today =>
    match insertion tenantId db id today request with
    | none => some (.finished, db)
    | some writes => some (.flushed writes, db)
  | .flushed writes, .commit call =>
    if call.takesEffect then
      if ∀ w ∈ writes, Fits db w then some (.finished, db.writeAll writes) else none
    else some (.finished, db)
  | .finished, _ => none
  | _, .fail => some (.finished, db)
  | _, _ => none

def remove (db : Db) : Deletion → Db
  | .lead id => (LeadService.deleteLead db tenantId id .returns).db
  | .session id => ((ConversationService.deleteSession db tenantId id).run settings db {}).db
  | .message id => ((ConversationService.deleteMessage db tenantId id).run settings db {}).db

inductive Label (ι : Type)
  | request (i : ι) (action : LeadRaces.Action)
  | delete (deletion : Deletion)

/-- `seen` is the database at the count of each request; no step reads it. -/
structure State (ι : Type) where
  db : Db
  phases : ι → Phase
  seen : ι → Db

variable {ι : Type} [DecidableEq ι] (requests : ι → Request)

def State.start (db : Db) (requests : ι → Request) : State ι := ⟨db, fun i => (requests i).start, fun _ => db⟩

def State.note (s : State ι) (i : ι) : LeadRaces.Action → ι → Db
  | .count => Function.update s.seen i s.db
  | _ => s.seen

def step (s : State ι) : Label ι → Option (State ι)
  | .request i a =>
    (act lower settings tenantId (requests i) s.db (s.phases i) a).map fun r =>
      ⟨r.2, Function.update s.phases i r.1, s.note i a⟩
  | .delete d => some ⟨remove settings tenantId s.db d, s.phases, s.seen⟩

end

inductive Resource
  | leads
  | sessions
  | messages

def Request.resource : Request → Resource
  | lead _ => .leads
  | session _ => .sessions
  | message _ _ => .messages

def Resource.count (tenantId : Id) (db : Db) : Resource → ℕ
  | leads => db.leads.rows.countP fun l => l.tenantId = tenantId
  | sessions => db.sessions.rows.countP fun s => s.tenantId = tenantId
  | messages => db.messages.rows.countP fun m => m.tenantId = tenantId

def Resource.ids (tenantId : Id) (db : Db) : Resource → List Id
  | leads => (db.leads.rows.filter fun l => l.tenantId = tenantId).map Lead.id
  | sessions => (db.sessions.rows.filter fun s => s.tenantId = tenantId).map Session.id
  | messages => (db.messages.rows.filter fun m => m.tenantId = tenantId).map Message.id

def Resource.limit (tenantId : Id) (db : Db) : Resource → ℤ
  | leads => (PlanLimitService.getPlanLimits db tenantId).maxLeads
  | sessions => (PlanLimitService.getPlanLimits db tenantId).maxSessions
  | messages => (PlanLimitService.getPlanLimits db tenantId).maxMessages

def WithinLimits (tenantId : Id) (db : Db) : Prop :=
  ∀ r : Resource, (r.count tenantId db : ℤ) ≤ r.limit tenantId db

def commits : Phase → LeadRaces.Action → Bool
  | .lead p, a => (LeadRaces.commits p a).isSome
  | .flushed _, .commit call => call.takesEffect
  | _, _ => false

def Overtaken (tenantId : Id) (seen db : Db) (r : Resource) : Prop :=
  ∃ id ∈ r.ids tenantId db, id ∉ r.ids tenantId seen

instance (tenantId : Id) (seen db : Db) (r : Resource) : Decidable (Overtaken tenantId seen db r) :=
  inferInstanceAs (Decidable (∃ id ∈ _, id ∉ _))

/-- Whoever commits after another request that has committed since its own count still finds room. -/
def Admitted {ι : Type} (tenantId : Id) (requests : ι → Request) (s : State ι) : Label ι → Prop
  | .request i a => commits (s.phases i) a → Overtaken tenantId (s.seen i) s.db (requests i).resource →
      ((requests i).resource.count tenantId s.db : ℤ) < (requests i).resource.limit tenantId s.db
  | .delete _ => True

instance {ι : Type} (tenantId : Id) (requests : ι → Request) (s : State ι) (label : Label ι) :
    Decidable (Admitted tenantId requests s label) :=
  match label with
  | .request _ _ => inferInstanceAs (Decidable (_ → _ → _))
  | .delete _ => inferInstanceAs (Decidable True)

variable {lower : String → String} {settings : Settings} {tenantId : Id} {db db' : Db}

structure Adds (tenantId : Id) (db db' : Db) (r : Resource) : Prop where
  tenants : db'.tenants = db.tenants
  one : r.count tenantId db' = r.count tenantId db + 1
  others : ∀ q, q ≠ r → q.count tenantId db' = q.count tenantId db

theorem limit_congr (h : db'.tenants = db.tenants) (r : Resource) : r.limit tenantId db' = r.limit tenantId db := by
  cases r <;> simp only [Resource.limit, PlanLimitService.getPlanLimits, h]

theorem countP_insert {α : Type} {key : α → Id} {t : Table key} {a : α} {p : α → Bool} (hid : t.Fresh (key a))
    (hp : p a = true) : (t.insert a).rows.countP p = t.rows.countP p + 1 := by
  rw [Table.rows_insert hid, List.countP_append]
  simp [hp]

theorem adds_lead {new : NewLead} (hfits : LeadRaces.Fits db new) (htenant : new.lead.tenantId = tenantId) :
    Adds tenantId db (new.commit db) .leads := by
  constructor
  · rfl
  · exact countP_insert hfits.1 (by simpa using htenant)
  · intro q hq
    cases q with
    | leads => exact absurd rfl hq
    | sessions => rfl
    | messages => rfl

theorem adds_session {record : Session} {usage : UsageChange} (hid : db.sessions.Fresh record.id)
    (htenant : record.tenantId = tenantId) :
    Adds tenantId db (db.writeAll [.session (.add record), .usage usage]) .sessions := by
  constructor
  · rfl
  · exact countP_insert hid (by simpa using htenant)
  · intro q hq
    cases q with
    | leads => rfl
    | sessions => exact absurd rfl hq
    | messages => rfl

theorem adds_message {message : Message} (hid : db.messages.Fresh message.id)
    (htenant : message.tenantId = tenantId) :
    Adds tenantId db (db.writeAll [.message (.add message)]) .messages := by
  constructor
  · rfl
  · exact countP_insert hid (by simpa using htenant)
  · intro q hq
    cases q with
    | leads => rfl
    | sessions => rfl
    | messages => exact absurd rfl hq

structure Shrinks (tenantId : Id) (db db' : Db) : Prop where
  tenants : db'.tenants = db.tenants
  counts : ∀ r : Resource, r.count tenantId db' ≤ r.count tenantId db

theorem shrinks_refl : Shrinks tenantId db db := ⟨rfl, fun _ => Nat.le_refl _⟩

theorem shrinks_removeLead {id : Id} : Shrinks tenantId db (LeadService.removeLead db id) := by
  constructor
  · rfl
  · intro r
    cases r with
    | leads => exact List.filter_sublist.countP_le
    | sessions =>
      apply Nat.le_of_eq
      simp only [Resource.count, LeadService.removeLead, Table.mapRows, List.countP_map]
      rfl
    | messages => exact Nat.le_refl _

theorem shrinks_removeSession {id : Id} : Shrinks tenantId db (removeSession db id) := by
  constructor
  · rfl
  · intro r
    cases r with
    | leads => exact Nat.le_refl _
    | sessions => exact List.filter_sublist.countP_le
    | messages => exact List.filter_sublist.countP_le

theorem shrinks_remove (d : Deletion) : Shrinks tenantId db (remove settings tenantId db d) := by
  cases d with
  | lead id =>
    simp only [remove, LeadService.deleteLead]
    split
    · exact shrinks_refl
    · exact shrinks_removeLead
  | session id =>
    simp only [remove, ConversationService.deleteSession]
    split
    · exact shrinks_refl
    · exact shrinks_removeSession
  | message id =>
    simp only [remove, ConversationService.deleteMessage]
    split
    · exact shrinks_refl
    · constructor
      · rfl
      · intro r
        cases r with
        | leads => exact Nat.le_refl _
        | sessions => exact Nat.le_refl _
        | messages => exact List.filter_sublist.countP_le

def LeadOwned (tenantId : Id) : LeadRaces.Phase → Prop
  | .flushed _ new => new.lead.tenantId = tenantId
  | _ => True

theorem lead_act_cases {payload : LeadCreate} {p p' : LeadRaces.Phase} {a : LeadRaces.Action}
    (hp : LeadOwned tenantId p) (h : LeadRaces.act lower settings tenantId payload db p a = some (p', db')) :
    LeadOwned tenantId p' ∧
      (db' = db ∧ LeadRaces.commits p a = none ∨
        (LeadRaces.commits p a).isSome ∧ Adds tenantId db db' .leads) := by
  unfold LeadRaces.act at h
  split at h
  case h_1 =>
    split at h
    · cases h
      exact ⟨trivial, .inl ⟨rfl, rfl⟩⟩
    · cases h
      exact ⟨trivial, .inl ⟨rfl, rfl⟩⟩
  case h_2 =>
    dsimp only at h
    split at h
    · cases h
      exact ⟨trivial, .inl ⟨rfl, rfl⟩⟩
    · cases h
      exact ⟨trivial, .inl ⟨rfl, rfl⟩⟩
  case h_3 =>
    cases h
    exact ⟨rfl, .inl ⟨rfl, rfl⟩⟩
  case h_4 seen new call =>
    split at h
    · rename_i hcall
      split at h
      · rename_i hfits
        cases h
        refine ⟨?_, .inr ⟨?_, adds_lead hfits hp⟩⟩
        · split
          · trivial
          · trivial
        · simp [LeadRaces.commits, hcall]
      · cases h
    · rename_i hcall
      cases h
      exact ⟨trivial, .inl ⟨rfl, by simp [LeadRaces.commits, hcall]⟩⟩
  case h_5 =>
    split at h
    · cases h
      exact ⟨trivial, .inl ⟨rfl, rfl⟩⟩
    · cases h
      exact ⟨trivial, .inl ⟨rfl, rfl⟩⟩
  case h_6 => cases h
  case h_7 => cases h
  case h_8 => cases h
  case h_9 =>
    cases h
    refine ⟨trivial, .inl ⟨rfl, ?_⟩⟩
    cases p <;> rfl
  case h_10 => cases h

def Inserts (tenantId : Id) (writes : List Write) : Request → Prop
  | .lead _ => False
  | .session _ => ∃ record usage, writes = [.session (.add record), .usage usage] ∧ record.tenantId = tenantId
  | .message _ _ => ∃ message, writes = [.message (.add message)] ∧ message.tenantId = tenantId

theorem inserts_of_insertion {id : Id} {today : Day} {request : Request} {writes : List Write}
    (h : insertion tenantId db id today request = some writes) : Inserts tenantId writes request := by
  cases request with
  | lead payload => cases h
  | session payload =>
    simp only [insertion, ConversationService.insertSession] at h
    split at h
    · rename_i hcommits
      split at hcommits
      · cases hcommits
        cases h
        exact ⟨_, _, rfl, rfl⟩
      · cases hcommits
    · cases h
  | message sessionId payload =>
    simp only [insertion, ConversationService.insertMessage] at h
    split at h
    · rename_i hcommits
      split at hcommits
      · cases hcommits
      · cases hcommits
        cases h
        exact ⟨_, rfl, rfl⟩
    · cases h

theorem adds_of_inserts {request : Request} {writes : List Write} (h : Inserts tenantId writes request)
    (hfits : ∀ w ∈ writes, Fits db w) : Adds tenantId db (db.writeAll writes) request.resource := by
  cases request with
  | lead payload => exact absurd h id
  | session payload =>
    obtain ⟨record, usage, rfl, htenant⟩ := h
    exact adds_session (hfits _ List.mem_cons_self).1 htenant
  | message sessionId payload =>
    obtain ⟨message, rfl, htenant⟩ := h
    exact adds_message (hfits _ List.mem_cons_self).1 htenant

def Owned (tenantId : Id) (request : Request) : Phase → Prop
  | .lead p => LeadOwned tenantId p
  | .flushed writes => Inserts tenantId writes request
  | _ => True

theorem act_cases {request : Request} {p p' : Phase} {a : LeadRaces.Action} (hp : Owned tenantId request p)
    (h : act lower settings tenantId request db p a = some (p', db')) :
    Owned tenantId request p' ∧
      (db' = db ∧ commits p a = false ∨ commits p a = true ∧ Adds tenantId db db' request.resource) := by
  unfold act at h
  split at h
  case h_1 q a =>
    cases request with
    | session payload => cases h
    | message sessionId payload => cases h
    | lead payload =>
      obtain ⟨⟨q', db''⟩, hact, heq⟩ := Option.map_eq_some_iff.mp h
      cases heq
      obtain ⟨howned, hquiet | hadds⟩ := lead_act_cases hp hact
      · exact ⟨howned, .inl ⟨hquiet.1, by simp [commits, hquiet.2]⟩⟩
      · exact ⟨howned, .inr hadds⟩
  case h_2 =>
    split at h
    · cases h
      exact ⟨trivial, .inl ⟨rfl, rfl⟩⟩
    · cases h
      exact ⟨trivial, .inl ⟨rfl, rfl⟩⟩
  case h_3 =>
    split at h
    · cases h
      exact ⟨trivial, .inl ⟨rfl, rfl⟩⟩
    · rename_i writes hwrites
      cases h
      exact ⟨inserts_of_insertion hwrites, .inl ⟨rfl, rfl⟩⟩
  case h_4 writes call =>
    split at h
    · rename_i hcall
      split at h
      · rename_i hfits
        cases h
        exact ⟨trivial, .inr ⟨hcall, adds_of_inserts hp hfits⟩⟩
      · cases h
    · rename_i hcall
      cases h
      exact ⟨trivial, .inl ⟨rfl, by simpa [commits] using hcall⟩⟩
  case h_5 => cases h
  case h_6 =>
    cases h
    refine ⟨trivial, .inl ⟨rfl, ?_⟩⟩
    cases p with
    | lead q =>
      rename_i hlead _
      exact absurd rfl (hlead q)
    | started => rfl
    | counted => rfl
    | flushed writes => rfl
    | finished => rfl
  case h_7 => cases h

theorem ids_length (r : Resource) : (r.ids tenantId db).length = r.count tenantId db := by
  cases r <;> simp only [Resource.ids, Resource.count, List.length_map, List.countP_eq_length_filter]

theorem ids_nodup (r : Resource) : (r.ids tenantId db).Nodup := by
  cases r with
  | leads => exact db.leads.nodup.sublist (List.filter_sublist.map _)
  | sessions => exact db.sessions.nodup.sublist (List.filter_sublist.map _)
  | messages => exact db.messages.nodup.sublist (List.filter_sublist.map _)

theorem count_le_of_not_overtaken {seen : Db} {r : Resource} (h : ¬Overtaken tenantId seen db r) :
    r.count tenantId db ≤ r.count tenantId seen := by
  have hsub : r.ids tenantId db ⊆ r.ids tenantId seen := by
    intro id hid
    by_contra hnew
    exact h ⟨id, hid, hnew⟩
  rw [← ids_length, ← ids_length]
  exact (List.subperm_of_subset (ids_nodup r) hsub).length_le

theorem lt_of_enforceLimit {count : ℕ} {limit : ℤ} {detail : String} {u : Unit}
    (h : PlanLimitService.enforceLimit count limit detail = .ok u) : (count : ℤ) < limit := by
  unfold PlanLimitService.enforceLimit at h
  split at h
  · cases h
  · omega

theorem lt_of_enforce {request : Request} {u : Unit} (h : enforce tenantId db request = .ok u) :
    (request.resource.count tenantId db : ℤ) < request.resource.limit tenantId db := by
  cases request with
  | lead payload => exact lt_of_enforceLimit h
  | session payload => exact lt_of_enforceLimit h
  | message sessionId payload => exact lt_of_enforceLimit h

def Phase.checked : Phase → Bool
  | .lead .counted => true
  | .lead (.missed _) => true
  | .lead (.flushed _ _) => true
  | .counted => true
  | .flushed _ => true
  | _ => false

theorem checked_of_commits {p : Phase} {a : LeadRaces.Action} (h : commits p a = true) : p.checked = true := by
  cases p with
  | lead q =>
    cases q with
    | flushed seen new => rfl
    | started => cases h
    | counted => cases h
    | missed seen => cases h
    | committed lead => cases h
    | returned outcome => cases h
    | refused e => cases h
    | raised => cases h
  | flushed writes => rfl
  | started => cases h
  | counted => cases h
  | finished => cases h

theorem checked_of_lead_act {payload : LeadCreate} {p p' : LeadRaces.Phase} {a : LeadRaces.Action}
    (h : LeadRaces.act lower settings tenantId payload db p a = some (p', db'))
    (hp : (Phase.lead p').checked = true) :
    a ≠ .count ∧ (Phase.lead p).checked = true ∨ a = .count ∧
      ∃ u, PlanLimitService.enforceLeadCreationLimit db tenantId = .ok u := by
  unfold LeadRaces.act at h
  split at h
  case h_1 =>
    split at h
    · cases h
      cases hp
    · rename_i hok
      exact .inr ⟨rfl, _, hok⟩
  case h_2 => exact .inl ⟨LeadRaces.Action.noConfusion, rfl⟩
  case h_3 => exact .inl ⟨LeadRaces.Action.noConfusion, rfl⟩
  case h_4 => exact .inl ⟨LeadRaces.Action.noConfusion, rfl⟩
  case h_5 =>
    split at h
    · cases h
      cases hp
    · cases h
      cases hp
  case h_6 => cases h
  case h_7 => cases h
  case h_8 => cases h
  case h_9 =>
    cases h
    cases hp
  case h_10 => cases h

theorem checked_of_act {request : Request} {p p' : Phase} {a : LeadRaces.Action}
    (h : act lower settings tenantId request db p a = some (p', db')) (hp : p'.checked = true) :
    a ≠ .count ∧ p.checked = true ∨ a = .count ∧
      (request.resource.count tenantId db : ℤ) < request.resource.limit tenantId db := by
  unfold act at h
  split at h
  case h_1 q a =>
    cases request with
    | session payload => cases h
    | message sessionId payload => cases h
    | lead payload =>
      obtain ⟨⟨q', db''⟩, hact, heq⟩ := Option.map_eq_some_iff.mp h
      cases heq
      rcases checked_of_lead_act hact hp with hbefore | ⟨rfl, u, hok⟩
      · exact .inl hbefore
      · exact .inr ⟨rfl, lt_of_enforceLimit hok⟩
  case h_2 =>
    split at h
    · cases h
      cases hp
    · rename_i hok
      exact .inr ⟨rfl, lt_of_enforce hok⟩
  case h_3 => exact .inl ⟨LeadRaces.Action.noConfusion, rfl⟩
  case h_4 => exact .inl ⟨LeadRaces.Action.noConfusion, rfl⟩
  case h_5 => cases h
  case h_6 =>
    cases h
    cases hp
  case h_7 => cases h

section

variable {ι : Type} [DecidableEq ι] {requests : ι → Request} {s s' : State ι} {label : Label ι}

structure Sound (tenantId : Id) (requests : ι → Request) (s : State ι) : Prop where
  within : WithinLimits tenantId s.db
  owned : ∀ i, Owned tenantId (requests i) (s.phases i)
  tenants : ∀ i, (s.seen i).tenants = s.db.tenants
  room : ∀ i, (s.phases i).checked = true → ((requests i).resource.count tenantId (s.seen i) : ℤ) <
    (requests i).resource.limit tenantId (s.seen i)

theorem note_of_ne {a : LeadRaces.Action} {i : ι} (ha : a ≠ .count) : s.note i a = s.seen := by
  cases a with
  | count => exact absurd rfl ha
  | lookup choice => rfl
  | insert id eventId today => rfl
  | commit call => rfl
  | publish calls => rfl
  | fail => rfl

theorem note_of_other {a : LeadRaces.Action} {i j : ι} (hij : j ≠ i) : s.note i a j = s.seen j := by
  by_cases ha : a = .count
  · rw [ha, State.note, Function.update_of_ne hij]
  · rw [note_of_ne ha]

theorem note_tenants {a : LeadRaces.Action} {i : ι} (h : ∀ j, (s.seen j).tenants = s.db.tenants) (j : ι) :
    (s.note i a j).tenants = s.db.tenants := by
  by_cases hij : j = i
  · by_cases ha : a = .count
    · rw [hij, ha, State.note, Function.update_self]
    · rw [note_of_ne ha]
      exact h j
  · rw [note_of_other hij]
    exact h j

theorem Shrinks.within (h : Shrinks tenantId db db') (hdb : WithinLimits tenantId db) : WithinLimits tenantId db' := by
  intro r
  have hcount := h.counts r
  have hlimit := hdb r
  rw [limit_congr h.tenants]
  omega

theorem Adds.within_iff {r : Resource} (h : Adds tenantId db db' r) (hdb : WithinLimits tenantId db) :
    WithinLimits tenantId db' ↔ (r.count tenantId db : ℤ) < r.limit tenantId db := by
  constructor
  · intro hwithin
    have hnew := hwithin r
    rw [h.one, limit_congr h.tenants] at hnew
    omega
  · intro hroom q
    rw [limit_congr h.tenants]
    by_cases hq : q = r
    · rw [hq, h.one]
      omega
    · rw [h.others q hq]
      exact hdb q

omit [DecidableEq ι] in
theorem Sound.lt_iff {i : ι} (h : Sound tenantId requests s) (hi : (s.phases i).checked = true) :
    ((requests i).resource.count tenantId s.db : ℤ) < (requests i).resource.limit tenantId s.db ↔
      (Overtaken tenantId (s.seen i) s.db (requests i).resource →
        ((requests i).resource.count tenantId s.db : ℤ) < (requests i).resource.limit tenantId s.db) := by
  constructor
  · intro hroom _
    exact hroom
  · intro hroom
    by_cases hnew : Overtaken tenantId (s.seen i) s.db (requests i).resource
    · exact hroom hnew
    · have hle := count_le_of_not_overtaken hnew
      have hlt := h.room i hi
      rw [limit_congr (h.tenants i)] at hlt
      omega

theorem Sound.step_iff (h : Sound tenantId requests s)
    (hstep : PlanLimitRaces.step lower settings tenantId requests s label = some s') :
    (WithinLimits tenantId s'.db ↔ Admitted tenantId requests s label) ∧
      (WithinLimits tenantId s'.db → Sound tenantId requests s') := by
  cases label with
  | delete d =>
    cases hstep
    have hshrinks : Shrinks tenantId s.db (remove settings tenantId s.db d) := shrinks_remove d
    refine ⟨iff_of_true (hshrinks.within h.within) trivial, fun hwithin => ?_⟩
    exact ⟨hwithin, h.owned, fun i => (h.tenants i).trans hshrinks.tenants.symm, h.room⟩
  | request i a =>
    obtain ⟨⟨p, db'⟩, hact, rfl⟩ := Option.map_eq_some_iff.mp hstep
    obtain ⟨hp, heffect⟩ := act_cases (h.owned i) hact
    have htenants : db'.tenants = s.db.tenants := by
      rcases heffect with ⟨rfl, -⟩ | ⟨-, hadds⟩
      · rfl
      · exact hadds.tenants
    constructor
    · dsimp only [Admitted]
      rcases heffect with ⟨rfl, hquiet⟩ | ⟨hcommits, hadds⟩
      · rw [hquiet]
        exact iff_of_true h.within (fun hc => Bool.noConfusion hc)
      · refine (hadds.within_iff h.within).trans ((h.lt_iff (checked_of_commits hcommits)).trans ?_)
        exact ⟨fun hroom _ => hroom, fun hroom => hroom hcommits⟩
    · intro hwithin
      refine ⟨hwithin, fun j => ?_, fun j => ?_, fun j hj => ?_⟩
      · dsimp only
        rw [Function.update_apply]
        split
        · rename_i hij
          rw [hij]
          exact hp
        · exact h.owned j
      · exact (note_tenants h.tenants j).trans htenants.symm
      · change (Function.update s.phases i p j).checked = true at hj
        change ((requests j).resource.count tenantId (s.note i a j) : ℤ) <
          (requests j).resource.limit tenantId (s.note i a j)
        by_cases hij : j = i
        · rw [hij, Function.update_self] at hj
          rw [hij]
          rcases checked_of_act hact hj with ⟨hne, hbefore⟩ | ⟨rfl, hroom⟩
          · rw [note_of_ne hne]
            exact h.room i hbefore
          · rw [State.note, Function.update_self]
            exact hroom
        · rw [Function.update_of_ne hij] at hj
          rw [note_of_other hij]
          exact h.room j hj

omit [DecidableEq ι] in
theorem Sound.start (hdb : WithinLimits tenantId db) : Sound tenantId requests (State.start db requests) := by
  refine ⟨hdb, fun i => ?_, fun _ => rfl, fun i hi => ?_⟩
  · cases hr : requests i with
    | lead payload =>
      simp only [State.start, hr]
      trivial
    | session payload =>
      simp only [State.start, hr]
      trivial
    | message sessionId payload =>
      simp only [State.start, hr]
      trivial
  · dsimp only [State.start] at hi
    cases hr : requests i with
    | lead payload => rw [hr] at hi; cases hi
    | session payload => rw [hr] at hi; cases hi
    | message sessionId payload => rw [hr] at hi; cases hi

end

end Leadline.PlanLimitRaces

namespace Leadline

open Library PlanLimitRaces

theorem plan_limits_hold {ι : Type} [DecidableEq ι] (lower : String → String) (settings : Settings)
    (tenantId : Id) (requests : ι → Request) (db : Db) (s : PlanLimitRaces.State ι)
    (labels : List (PlanLimitRaces.Label ι)) (h₀ : WithinLimits tenantId db)
    (hrun : GuardedRun (Enabled (PlanLimitRaces.step lower settings tenantId requests))
      (PlanLimitRaces.Admitted tenantId requests) (PlanLimitRaces.State.start db requests) labels s) :
    WithinLimits tenantId s.db ∧ ∀ label s', PlanLimitRaces.step lower settings tenantId requests s label = some s' →
      (WithinLimits tenantId s'.db ↔ PlanLimitRaces.Admitted tenantId requests s label) := by
  have hsound : PlanLimitRaces.Sound tenantId requests s := by
    apply hrun.invariant (PlanLimitRaces.Sound tenantId requests)
    · intro s label s' h hok hstep
      obtain ⟨hwithin, hsound⟩ := h.step_iff hstep
      exact hsound (hwithin.mpr hok)
    · exact PlanLimitRaces.Sound.start h₀
  exact ⟨hsound.within, fun label s' hstep => (hsound.step_iff hstep).1⟩

def PlanLimitRaces.oneSession : Db where
  tenants := Table.empty.insert ⟨"tenant-1", "Acme", "acme", "starter", "active",
    .obj [("plan_limits", .obj [("max_sessions", .int 1)])]⟩

def PlanLimitRaces.twoSessions (_ : Fin 2) : Request := .session { visitorId := "visitor" }

theorem PlanLimitRaces.oneSession_within : WithinLimits "tenant-1" oneSession := by
  intro r
  cases r <;> decide

def PlanLimitRaces.Phase.isFinished : Phase → Bool
  | .finished => true
  | _ => false

theorem plan_limits_hold_inTurn :
    ∃ s : PlanLimitRaces.State (Fin 2), WithinLimits "tenant-1" s.db ∧
      Resource.sessions.count "tenant-1" s.db = 1 ∧ (s.phases 1).isFinished = true := by
  have hrun : (runChecked (PlanLimitRaces.step asciiLower {} "tenant-1" twoSessions)
      (PlanLimitRaces.Admitted "tenant-1" twoSessions) (PlanLimitRaces.State.start oneSession twoSessions)
      [.request 0 .count, .request 0 (.insert "session-1" "" 0), .request 0 (.commit .returns),
        .request 1 .count]).any
        (fun s => decide (Resource.sessions.count "tenant-1" s.db = 1 ∧ (s.phases 1).isFinished = true)) = true := by
    decide +kernel
  obtain ⟨s, hs, hend⟩ := (Option.any_eq_true _ _).mp hrun
  have hwithin := plan_limits_hold asciiLower {} "tenant-1" twoSessions oneSession s _ oneSession_within
    (guarded_of_runChecked hs)
  exact ⟨s, hwithin.1, of_decide_eq_true hend⟩

theorem plan_limit_exceeded :
    ∃ s : PlanLimitRaces.State (Fin 2),
      runSteps (PlanLimitRaces.step asciiLower {} "tenant-1" twoSessions)
          (PlanLimitRaces.State.start oneSession twoSessions)
          [.request 0 .count, .request 1 .count, .request 0 (.insert "session-1" "" 0),
            .request 0 (.commit .returns), .request 1 (.insert "session-2" "" 0),
            .request 1 (.commit .returns)] = some s ∧
        Resource.sessions.count "tenant-1" s.db = 2 ∧ ¬WithinLimits "tenant-1" s.db := by
  have hrun : (runSteps (PlanLimitRaces.step asciiLower {} "tenant-1" twoSessions)
      (PlanLimitRaces.State.start oneSession twoSessions)
      [.request 0 .count, .request 1 .count, .request 0 (.insert "session-1" "" 0),
        .request 0 (.commit .returns), .request 1 (.insert "session-2" "" 0),
        .request 1 (.commit .returns)]).any
        (fun s => decide (Resource.sessions.count "tenant-1" s.db = 2 ∧
          Resource.sessions.limit "tenant-1" s.db = 1)) = true := by
    decide +kernel
  obtain ⟨s, hs, hend⟩ := (Option.any_eq_true _ _).mp hrun
  obtain ⟨htwo, hlimit⟩ := of_decide_eq_true hend
  refine ⟨s, hs, htwo, fun h => ?_⟩
  have hsessions := h .sessions
  omega

end Leadline
