import Leadline.Library.GuardedRun
import Leadline.LeadService

namespace Leadline

open Library

def Lead.emailKey (l : Lead) : Option (Id × String) :=
  (configured l.email).map fun email => (l.tenantId, email)

def Lead.phoneKey (l : Lead) : Option (Id × String) :=
  (configured l.phone).map fun phone => (l.tenantId, phone)

structure UniqueContacts (leads : Table Lead.id) : Prop where
  email : leads.UniqueOn Lead.emailKey
  phone : leads.UniqueOn Lead.phoneKey

theorem duplicates_iff {a b : Lead} : b.Duplicates a.tenantId a.email a.phone ↔
    (∃ v, a.emailKey = some v ∧ b.emailKey = some v) ∨ ∃ v, a.phoneKey = some v ∧ b.phoneKey = some v := by
  have hkey : ∀ {x y : Option String},
      (∃ v, (configured x).map (fun e => (a.tenantId, e)) = some v ∧
        (configured y).map (fun e => (b.tenantId, e)) = some v) ↔
      b.tenantId = a.tenantId ∧ MatchesColumn x y := by
    intro x y
    rw [matchesColumn_iff]
    simp only [Option.map_eq_some_iff]
    constructor
    · rintro ⟨v, ⟨e, he, rfl⟩, e', he', h⟩
      obtain ⟨ht, rfl⟩ := Prod.mk.inj h
      exact ⟨ht, e', he, he'⟩
    · rintro ⟨ht, e, he, he'⟩
      exact ⟨_, ⟨e, he, rfl⟩, e, he', by rw [ht]⟩
  rw [Lead.Duplicates, Lead.emailKey, Lead.emailKey, Lead.phoneKey, Lead.phoneKey, hkey, hkey, and_or_left]

namespace UniqueContacts

variable {leads : Table Lead.id}

theorem empty : UniqueContacts Table.empty := ⟨Table.UniqueOn.empty, Table.UniqueOn.empty⟩

theorem eq_of_duplicates {a b : Lead} (h : UniqueContacts leads) (ha : a ∈ leads) (hb : b ∈ leads)
    (hdup : b.Duplicates a.tenantId a.email a.phone) : a = b := by
  rcases duplicates_iff.mp hdup with ⟨v, hav, hbv⟩ | ⟨v, hav, hbv⟩
  · exact h.email a ha b hb v hav hbv
  · exact h.phone a ha b hb v hav hbv

theorem mono {leads' : Table Lead.id} (h : UniqueContacts leads) (hsub : ∀ l ∈ leads', l ∈ leads) :
    UniqueContacts leads' :=
  ⟨h.email.mono hsub, h.phone.mono hsub⟩

theorem insert {l : Lead} (h : UniqueContacts leads)
    (hfree : ∀ b ∈ leads, ¬b.Duplicates l.tenantId l.email l.phone) : UniqueContacts (leads.insert l) := by
  constructor
  · apply h.email.insert
    intro b hb v hl hbv
    exact hfree b hb (duplicates_iff.mpr (.inl ⟨v, hl, hbv⟩))
  · apply h.phone.insert
    intro b hb v hl hbv
    exact hfree b hb (duplicates_iff.mpr (.inr ⟨v, hl, hbv⟩))

theorem writeLead {db : Db} {leadId : Id} {updated : Lead} (h : UniqueContacts db.leads)
    (hfree : ∀ b ∈ db.leads, b.id ≠ leadId → ¬b.Duplicates updated.tenantId updated.email updated.phone) :
    UniqueContacts (LeadService.writeLead db leadId updated).leads := by
  constructor
  · apply h.email.modify (LeadService.overwriteLead_id updated)
    intro _ _ _ b hb hne v hv hbv
    exact hfree b hb hne (duplicates_iff.mpr (.inl ⟨v, hv, hbv⟩))
  · apply h.phone.modify (LeadService.overwriteLead_id updated)
    intro _ _ _ b hb hne v hv hbv
    exact hfree b hb hne (duplicates_iff.mpr (.inr ⟨v, hv, hbv⟩))

end UniqueContacts

namespace LeadUniqueness

inductive Request
  | create (tenantId : Id) (payload : LeadCreate) (calls : CreateCalls)
  | update (tenantId leadId : Id) (payload : LeadUpdate) (calls : WriteCalls)
  | delete (tenantId leadId : Id) (commit : CallOutcome)

variable (lower : String → String) (settings : Settings)

def step (db : Db) : Request → Option Db
  | .create tenantId payload calls =>
    if db.leads.Fresh calls.id ∧ db.timeline.Fresh calls.eventId then
      some (LeadService.createLead lower settings db tenantId payload calls).db
    else none
  | .update tenantId leadId payload calls =>
    some (LeadService.updateLead lower settings db tenantId leadId payload calls).db
  | .delete tenantId leadId commit => some (LeadService.deleteLead db tenantId leadId commit).db

def Admitted (db : Db) : Request → Prop
  | .update tenantId leadId payload calls =>
    let data := payload.normalized lower
    ((LeadRepository.get db tenantId leadId).bind data.apply).isSome → calls.commit.takesEffect →
      ∀ l ∈ db.leads.rows, l.id ≠ leadId →
        ¬l.Duplicates tenantId (data.email.getD none) (data.phone.getD none)
  | _ => True

instance (db : Db) : ∀ request, Decidable (Admitted lower db request)
  | .create _ _ _ => .isTrue trivial
  | .update _ _ _ _ => inferInstanceAs (Decidable (_ → _ → ∀ l ∈ _, _ → ¬_))
  | .delete _ _ _ => .isTrue trivial

variable {lower settings} {db db' : Db} {tenantId leadId : Id}

theorem updateLead_cases (payload : LeadUpdate) (calls : WriteCalls) :
    (((LeadRepository.get db tenantId leadId).bind (payload.normalized lower).apply).isSome →
        calls.commit.takesEffect → False) ∧
        (LeadService.updateLead lower settings db tenantId leadId payload calls).db = db ∨
      ∃ lead updated, LeadRepository.get db tenantId leadId = some lead ∧
        (payload.normalized lower).apply lead = some updated ∧ calls.commit.takesEffect ∧
        (LeadService.updateLead lower settings db tenantId leadId payload calls).db =
          LeadService.writeLead db leadId updated := by
  unfold LeadService.updateLead
  cases hget : LeadRepository.get db tenantId leadId with
  | none => exact .inl ⟨by simp, rfl⟩
  | some lead =>
    dsimp only
    cases happly : (payload.normalized lower).apply lead with
    | none => exact .inl ⟨by simp [happly], rfl⟩
    | some updated =>
      dsimp only
      rw [LeadService.commitAndPublish_db]
      by_cases hcommit : calls.commit.takesEffect
      · rw [if_pos hcommit]
        exact .inr ⟨lead, updated, rfl, happly, hcommit, rfl⟩
      · rw [if_neg hcommit]
        exact .inl ⟨fun _ h => hcommit h, rfl⟩

theorem unique_create (h : UniqueContacts db.leads) (payload : LeadCreate) (calls : CreateCalls) :
    UniqueContacts (LeadService.createLead lower settings db tenantId payload calls).db.leads := by
  rcases LeadService.createLead_cases lower settings db tenantId payload calls with
    ⟨e, hc⟩ | ⟨l, -, -, hc⟩ | ⟨hfree, new, rfl, hc⟩
  · rw [hc]
    exact h
  · rw [hc]
    exact h
  · rw [hc, LeadService.commitAndPublish_db]
    split
    · exact h.insert hfree
    · exact h

theorem unique_delete (h : UniqueContacts db.leads) (commit : CallOutcome) :
    UniqueContacts (LeadService.deleteLead db tenantId leadId commit).db.leads := by
  unfold LeadService.deleteLead
  split
  · exact h
  · dsimp only
    split
    · exact h.mono fun l hl => (Table.mem_erase.mp hl).1
    · exact h

theorem matchesColumn_updated (given : Option (Option String)) {old column : Option String}
    (h : MatchesColumn (given.getD old) column) :
    MatchesColumn (given.getD none) column ∨ MatchesColumn old column := by
  cases given with
  | none => exact .inr h
  | some value => exact .inl h

theorem matchesColumn_given (given : Option (Option String)) {old column : Option String}
    (h : MatchesColumn (given.getD none) column) : MatchesColumn (given.getD old) column := by
  cases given with
  | none => exact absurd rfl h.1
  | some value => exact h

theorem duplicates_updated {lead updated b : Lead} {data : LeadUpdate}
    (happly : data.apply lead = some updated)
    (hdup : b.Duplicates updated.tenantId updated.email updated.phone) :
    b.Duplicates lead.tenantId (data.email.getD none) (data.phone.getD none) ∨
      b.Duplicates lead.tenantId lead.email lead.phone := by
  obtain ⟨-, ht, he, hp⟩ := LeadUpdate.apply_eq_some happly
  rw [ht, he, hp] at hdup
  obtain ⟨htenant, hemail | hphone⟩ := hdup
  · rcases matchesColumn_updated data.email hemail with hgiven | hold
    · exact .inl ⟨htenant, .inl hgiven⟩
    · exact .inr ⟨htenant, .inl hold⟩
  · rcases matchesColumn_updated data.phone hphone with hgiven | hold
    · exact .inl ⟨htenant, .inr hgiven⟩
    · exact .inr ⟨htenant, .inr hold⟩

theorem updated_duplicates {lead updated b : Lead} {data : LeadUpdate}
    (happly : data.apply lead = some updated)
    (hdup : b.Duplicates lead.tenantId (data.email.getD none) (data.phone.getD none)) :
    b.Duplicates updated.tenantId updated.email updated.phone := by
  obtain ⟨-, ht, he, hp⟩ := LeadUpdate.apply_eq_some happly
  rw [ht, he, hp]
  obtain ⟨htenant, hemail | hphone⟩ := hdup
  · exact ⟨htenant, .inl (matchesColumn_given data.email hemail)⟩
  · exact ⟨htenant, .inr (matchesColumn_given data.phone hphone)⟩

theorem unique_update_iff (h : UniqueContacts db.leads) (payload : LeadUpdate) (calls : WriteCalls) :
    UniqueContacts (LeadService.updateLead lower settings db tenantId leadId payload calls).db.leads ↔
      Admitted lower db (.update tenantId leadId payload calls) := by
  rcases updateLead_cases payload calls with ⟨hno, hdb⟩ | ⟨lead, updated, hget, happly, hcommit, hdb⟩
  · rw [hdb]
    exact ⟨fun _ hwritten hcommit => (hno hwritten hcommit).elim, fun _ => h⟩
  · rw [hdb]
    obtain ⟨hlead, hid, htenant⟩ := ofTenant_eq_some.mp hget
    obtain ⟨huid, -⟩ := LeadUpdate.apply_eq_some happly
    constructor
    · intro hunique _ _ b hb hne hdup
      rw [← htenant] at hdup
      have hnew := LeadService.mem_writeLead hlead hid huid
      have hold : b ∈ (LeadService.writeLead db leadId updated).leads :=
        LeadService.mem_writeLead_of_ne hb hne
      have heq := hunique.eq_of_duplicates hnew hold (updated_duplicates happly hdup)
      rw [← heq, huid] at hne
      exact hne hid
    · intro hadmitted
      apply h.writeLead
      intro b hb hne hdup
      have hwritten : ((LeadRepository.get db tenantId leadId).bind
        (payload.normalized lower).apply).isSome := by
        rw [hget, Option.bind_some, happly]
        rfl
      rcases duplicates_updated happly hdup with hdup | hdup
      · rw [htenant] at hdup
        exact hadmitted hwritten hcommit b hb hne hdup
      · have heq := h.eq_of_duplicates hlead hb hdup
        rw [← heq] at hne
        exact hne hid

theorem unique_step_iff {request : Request} (h : UniqueContacts db.leads)
    (hstep : step lower settings db request = some db') :
    UniqueContacts db'.leads ↔ Admitted lower db request := by
  cases request with
  | create tenantId payload calls =>
    simp only [step] at hstep
    split at hstep
    · cases hstep
      exact ⟨fun _ => trivial, fun _ => unique_create h payload calls⟩
    · cases hstep
  | update tenantId leadId payload calls =>
    cases hstep
    exact unique_update_iff h payload calls
  | delete tenantId leadId commit =>
    cases hstep
    exact ⟨fun _ => trivial, fun _ => unique_delete h commit⟩

theorem unique_of_run {db₀ : Db} {requests : List Request} (h₀ : UniqueContacts db₀.leads)
    (hrun : GuardedRun (Enabled (step lower settings)) (Admitted lower) db₀ requests db) :
    UniqueContacts db.leads := by
  apply hrun.invariant (fun db => UniqueContacts db.leads)
  · intro db request db' h hok hstep
    exact (unique_step_iff h hstep).mpr hok
  · exact h₀

end LeadUniqueness

open LeadUniqueness

theorem contacts_stay_unique (lower : String → String) (settings : Settings) (db₀ db : Db)
    (requests : List LeadUniqueness.Request) (h₀ : UniqueContacts db₀.leads)
    (hrun : GuardedRun (Enabled (LeadUniqueness.step lower settings)) (LeadUniqueness.Admitted lower)
      db₀ requests db) :
    UniqueContacts db.leads ∧
      ∀ request db', LeadUniqueness.step lower settings db request = some db' →
        (UniqueContacts db'.leads ↔ LeadUniqueness.Admitted lower db request) := by
  have hunique := unique_of_run h₀ hrun
  refine ⟨hunique, ?_⟩
  intro request db' hstep
  exact unique_step_iff hunique hstep

/-- What `str.lower` does to ASCII letters. -/
def asciiLower (s : String) : String := String.ofList (s.toList.map Char.toLower)

def createCalls (id eventId : Id) : CreateCalls where
  id := id
  eventId := eventId
  today := 0

def adaThenBob : List LeadUniqueness.Request :=
  [.create "tenant-1" { email := some "Ada@Example.com", phone := some "+1 (555) 123-4567" }
      (createCalls "lead-1" "event-1"),
    .create "tenant-1" { email := some "bob@example.com" } (createCalls "lead-2" "event-2")]

theorem contacts_stay_unique_after_delete :
    ∃ db : Db, UniqueContacts db.leads ∧ ∃ l ∈ db.leads.rows,
      l.emailKey = some ("tenant-1", "ada@example.com") := by
  have hrun : (runChecked (LeadUniqueness.step asciiLower {}) (LeadUniqueness.Admitted asciiLower) {}
      (adaThenBob ++ [.delete "tenant-1" "lead-1" .returns,
        .update "tenant-1" "lead-2" { email := some (some " ADA@example.com ") } {}])).any (fun db =>
          decide (∃ l ∈ db.leads.rows, l.emailKey = some ("tenant-1", "ada@example.com"))) = true := by
    decide +kernel
  obtain ⟨db, hdb, hada⟩ := (Option.any_eq_true _ _).mp hrun
  have hstays := contacts_stay_unique asciiLower {} {} db _ UniqueContacts.empty (guarded_of_runChecked hdb)
  exact ⟨db, hstays.1, of_decide_eq_true hada⟩

theorem update_duplicates_email :
    ∃ db, runSteps (LeadUniqueness.step asciiLower {}) {}
        (adaThenBob ++
          [.update "tenant-1" "lead-2" { email := some (some " ADA@example.com ") } {}]) = some db ∧
      ¬UniqueContacts db.leads := by
  have hrun : (runSteps (LeadUniqueness.step asciiLower {}) {}
      (adaThenBob ++
        [.update "tenant-1" "lead-2" { email := some (some " ADA@example.com ") } {}])).any (fun db =>
        decide (∃ a ∈ db.leads.rows, ∃ b ∈ db.leads.rows, a.id ≠ b.id ∧
          a.emailKey = some ("tenant-1", "ada@example.com") ∧
          b.emailKey = some ("tenant-1", "ada@example.com"))) = true := by
    decide +kernel
  obtain ⟨db, hdb, hshared⟩ := (Option.any_eq_true _ _).mp hrun
  obtain ⟨a, ha, b, hb, hne, hka, hkb⟩ := of_decide_eq_true hshared
  refine ⟨db, hdb, fun h => ?_⟩
  exact hne (congrArg Lead.id (h.email a ha b hb _ hka hkb))

end Leadline
