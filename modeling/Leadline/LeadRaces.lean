import Leadline.LeadUniqueness

/-!
Create requests of one tenant that run at the same time. A query sees the rows committed before it,
and a transaction's rows are seen from its commit on.
-/

namespace Leadline.LeadRaces

open Library

/-- Where a request stands; `seen` are the rows its duplicate query looked through. -/
inductive Phase
  | started
  | counted
  | missed (seen : Table Lead.id)
  | flushed (seen : Table Lead.id) (new : NewLead)
  | committed (lead : Lead)
  | returned (outcome : LeadCreateOutcome)
  | refused (e : HTTPException)
  | raised

inductive Action
  | count
  | lookup (choice : ℕ)
  | insert (id eventId : Id) (today : Day)
  | commit (call : CallOutcome)
  | publish (calls : LifecycleCalls)
  | fail

/-- The constraints the commit is checked against: the keys, and one usage record a day. -/
def Fits (db : Db) (new : NewLead) : Prop :=
  db.leads.Fresh new.lead.id ∧ db.timeline.Fresh new.event.id ∧
    (new.usage.inserted → db.usage.Fresh (new.usage.tenantId, new.usage.recordDate))

instance (db : Db) (new : NewLead) : Decidable (Fits db new) :=
  inferInstanceAs (Decidable (_ ∧ _ ∧ (_ → _)))

section

variable (lower : String → String) (settings : Settings) (tenantId : Id)

def act (payload : LeadCreate) (db : Db) : Phase → Action → Option (Phase × Db)
  | .started, .count =>
    match PlanLimitService.enforceLeadCreationLimit db tenantId with
    | .error e => some (.refused e, db)
    | .ok _ => some (.counted, db)
  | .counted, .lookup choice =>
    let data := payload.normalized lower
    match LeadRepository.findDuplicateByEmailOrPhone db tenantId data.email data.phone choice with
    | some existing => some (.returned ⟨true, existing⟩, db)
    | none => some (.missed db.leads, db)
  | .missed seen, .insert id eventId today =>
    some (.flushed seen (LeadService.newLead db tenantId id eventId today (payload.normalized lower)), db)
  | .flushed _ new, .commit call =>
    if call.takesEffect then
      if Fits db new then some (if call.raises then .raised else .committed new.lead, new.commit db)
        else none
    else some (.raised, db)
  | .committed lead, .publish calls =>
    match publishLifecycle settings tenantId lead.id "lead.created" calls with
    | (.raised, _) => some (.raised, db)
    | _ => some (.returned ⟨false, lead⟩, db)
  | .returned _, _ => none
  | .refused _, _ => none
  | .raised, _ => none
  | _, .fail => some (.raised, db)
  | _, _ => none

end

structure State (ι : Type) where
  db : Db
  requests : ι → Phase

variable {ι : Type} [DecidableEq ι]

def State.start (db : Db) : State ι := ⟨db, fun _ => .started⟩

section

variable (lower : String → String) (settings : Settings) (tenantId : Id) (payload : ι → LeadCreate)

def step (s : State ι) (label : ι × Action) : Option (State ι) :=
  (act lower settings tenantId (payload label.1) s.db (s.requests label.1) label.2).map fun r =>
    ⟨r.2, Function.update s.requests label.1 r.1⟩

def commits : Phase → Action → Option (Table Lead.id × NewLead)
  | .flushed seen new, .commit call => if call.takesEffect then some (seen, new) else none
  | _, _ => none

/-- Nobody else has committed a lead with the same email or phone since the lookup. -/
def Admitted (s : State ι) (label : ι × Action) : Prop :=
  ∀ c ∈ commits (s.requests label.1) label.2, ∀ l ∈ s.db.leads.rows, c.1.Fresh l.id →
    ¬l.Duplicates tenantId c.2.lead.email c.2.lead.phone

theorem commits_eq_some {p : Phase} {a : Action} {seen : Table Lead.id} {new : NewLead}
    (h : commits p a = some (seen, new)) :
    p = .flushed seen new ∧ ∃ call, a = .commit call ∧ call.takesEffect := by
  unfold commits at h
  split at h
  · split at h
    · cases h
      exact ⟨rfl, _, rfl, by assumption⟩
    · cases h
  · cases h

instance (s : State ι) (label : ι × Action) : Decidable (Admitted tenantId s label) :=
  inferInstanceAs (Decidable (∀ c ∈ commits _ _, ∀ l ∈ _, _ → ¬_))

structure Deduplicated (s : State ι) : Prop where
  unique : UniqueContacts s.db.leads
  committed : ∀ i outcome, s.requests i = .returned outcome → outcome.lead ∈ s.db.leads
  shares : ∀ i outcome, s.requests i = .returned outcome → outcome.deduplicated = true →
    outcome.lead.Duplicates tenantId ((payload i).normalized lower).email
      ((payload i).normalized lower).phone
  others : ∀ i outcome, s.requests i = .returned outcome → ∀ l ∈ s.db.leads,
    l.Duplicates tenantId ((payload i).normalized lower).email ((payload i).normalized lower).phone →
      outcome.lead = l ∨ outcome.deduplicated = true
  apart : ∀ i j outcome outcome', i ≠ j → s.requests i = .returned outcome →
    s.requests j = .returned outcome' →
    outcome.deduplicated = false → outcome'.deduplicated = false → outcome.lead.id ≠ outcome'.lead.id

end

section

variable {lower : String → String} {settings : Settings} {tenantId : Id} {payload : ι → LeadCreate}

theorem runSteps_alone {s : State ι} {i : ι} (actions : List Action) :
    runSteps (step lower settings tenantId payload) s (actions.map fun a => (i, a)) =
      (runSteps (fun r a => act lower settings tenantId (payload i) r.2 r.1 a)
        (s.requests i, s.db) actions).map
        fun r => ⟨r.2, Function.update s.requests i r.1⟩ := by
  induction actions generalizing s with
  | nil => simp [runSteps]
  | cons a actions ih =>
    simp only [List.map_cons, runSteps, step, Option.bind_map, Option.map_bind]
    congr 1
    funext r
    simp only [Function.comp_apply, ih, Function.update_self, Function.update_idem]

def Phase.ofAnswer : Answer LeadCreateOutcome → Phase
  | .returned outcome => .returned outcome
  | .refused e => .refused e
  | .raised => .raised

theorem fits_newLead {db : Db} {id eventId : Id} {today : Day} {data : LeadCreate} (hid : db.leads.Fresh id)
    (hevent : db.timeline.Fresh eventId) :
    Fits db (LeadService.newLead db tenantId id eventId today data) := by
  refine ⟨hid, hevent, ?_⟩
  simp only [LeadService.newLead, UsageTrackingService.increment]
  cases hu : db.usage.find? (tenantId, today) with
  | none => exact fun _ => Table.find?_eq_none_iff.mp hu
  | some record => exact fun h => Bool.noConfusion h

theorem act_commit {payload : LeadCreate} {db : Db} {seen : Table Lead.id} {new : NewLead} (hfits : Fits db new)
    (call : CallOutcome) :
    act lower settings tenantId payload db (.flushed seen new) (.commit call) =
      some (if call.raises then .raised else .committed new.lead, if call.takesEffect then new.commit db else db) := by
  cases call with
  | raisesWithoutEffect => rfl
  | raisesAfterEffect => exact if_pos hfits
  | returns => exact if_pos hfits

theorem act_publish {payload : LeadCreate} {db : Db} {lead : Lead} {calls : LifecycleCalls}
    {result : SQSPublisher.Result} {sent : List SentMessage}
    (hsent : publishLifecycle settings tenantId lead.id "lead.created" calls = (result, sent)) :
    act lower settings tenantId payload db (.committed lead) (.publish calls) =
      some (if result = .raised then .raised else .returned ⟨false, lead⟩, db) := by
  rw [act, hsent]
  cases result <;> rfl

theorem createLead_of_steps {s : State ι} {i : ι} {calls : CreateCalls} (hstart : s.requests i = .started)
    (hid : s.db.leads.Fresh calls.id) (hevent : s.db.timeline.Fresh calls.eventId) :
    ∃ (actions : List Action) (t : State ι),
      runSteps (step lower settings tenantId payload) s (actions.map fun a => (i, a)) = some t ∧
      t.db = (LeadService.createLead lower settings s.db tenantId (payload i) calls).db ∧
      t.requests i =
        Phase.ofAnswer (LeadService.createLead lower settings s.db tenantId (payload i) calls).answer := by
  have hrun : ∃ actions, runSteps (fun r a => act lower settings tenantId (payload i) r.2 r.1 a)
      (Phase.started, s.db) actions =
        some (Phase.ofAnswer (LeadService.createLead lower settings s.db tenantId (payload i) calls).answer,
          (LeadService.createLead lower settings s.db tenantId (payload i) calls).db) := by
    unfold LeadService.createLead
    cases hlimit : PlanLimitService.enforceLeadCreationLimit s.db tenantId with
    | error e => exact ⟨[.count], by simp [runSteps, act, hlimit, Phase.ofAnswer]⟩
    | ok _ =>
      dsimp only
      cases hdup : LeadRepository.findDuplicateByEmailOrPhone s.db tenantId ((payload i).normalized lower).email
          ((payload i).normalized lower).phone calls.choice with
      | some existing =>
        exact ⟨[.count, .lookup calls.choice], by simp [runSteps, act, hlimit, hdup, Phase.ofAnswer]⟩
      | none =>
        let new := LeadService.newLead s.db tenantId calls.id calls.eventId calls.today ((payload i).normalized lower)
        have hfits : Fits s.db new := fits_newLead hid hevent
        have hflushed : runSteps (fun r a => act lower settings tenantId (payload i) r.2 r.1 a) (Phase.started, s.db)
            [.count, .lookup calls.choice, .insert calls.id calls.eventId calls.today] =
              some (.flushed s.db.leads new, s.db) := by
          simp only [runSteps, act, hlimit, hdup, Option.bind_some, new]
        unfold LeadService.commitAndPublish
        cases hraises : calls.commit.raises with
        | true =>
          refine ⟨_ ++ [.commit calls.commit], (runSteps_append hflushed).trans ?_⟩
          rw [runSteps, act_commit hfits, hraises]
          rfl
        | false =>
          cases hsent : publishLifecycle settings tenantId new.lead.id "lead.created" calls.lifecycle with
          | mk result sent =>
            refine ⟨_ ++ [.commit calls.commit, .publish calls.lifecycle], (runSteps_append hflushed).trans ?_⟩
            rw [runSteps, act_commit hfits, hraises, if_neg Bool.false_ne_true, Option.bind_some, runSteps,
              act_publish hsent]
            cases result <;> rfl
  obtain ⟨actions, hrun⟩ := hrun
  let handled := LeadService.createLead lower settings s.db tenantId (payload i) calls
  refine ⟨actions, ⟨handled.db, Function.update s.requests i (Phase.ofAnswer handled.answer)⟩, ?_, rfl, ?_⟩
  · rw [runSteps_alone, hstart, hrun]
    rfl
  · exact Function.update_self _ _ _

end

def Phase.created : Phase → Option Lead
  | .committed lead => some lead
  | .returned outcome => if outcome.deduplicated then none else some outcome.lead
  | _ => none

def Phase.outcome : Phase → Option LeadCreateOutcome
  | .returned outcome => some outcome
  | _ => none

def Phase.Sound (tenantId : Id) (data : LeadCreate) (leads : Table Lead.id) : Phase → Prop
  | .missed seen => ∀ l ∈ seen, l ∈ leads ∧ ¬l.Duplicates tenantId data.email data.phone
  | .flushed seen new =>
    (∀ l ∈ seen, l ∈ leads ∧ ¬l.Duplicates tenantId data.email data.phone) ∧
      ∃ id, new.lead = LeadRepository.create id tenantId data
  | .committed lead => lead ∈ leads ∧ ∃ id, lead = LeadRepository.create id tenantId data
  | .returned outcome => outcome.lead ∈ leads ∧
    (outcome.deduplicated = true → outcome.lead.Duplicates tenantId data.email data.phone) ∧
      (outcome.deduplicated = false → ∃ id, outcome.lead = LeadRepository.create id tenantId data)
  | _ => True

theorem Phase.Sound.mono {tenantId : Id} {data : LeadCreate} {leads leads' : Table Lead.id} {p : Phase}
    (h : p.Sound tenantId data leads) (hsub : ∀ l ∈ leads, l ∈ leads') : p.Sound tenantId data leads' := by
  cases p with
  | missed seen => exact fun l hl => ⟨hsub l (h l hl).1, (h l hl).2⟩
  | flushed seen new => exact ⟨fun l hl => ⟨hsub l (h.1 l hl).1, (h.1 l hl).2⟩, h.2⟩
  | committed lead => exact ⟨hsub lead h.1, h.2⟩
  | returned outcome => exact ⟨hsub _ h.1, h.2⟩
  | started => trivial
  | counted => trivial
  | refused e => trivial
  | raised => trivial

variable {lower : String → String} {settings : Settings} {tenantId : Id}

theorem act_cases {payload : LeadCreate} {db db' : Db} {p p' : Phase} {a : Action}
    (hp : p.Sound tenantId (payload.normalized lower) db.leads)
    (h : act lower settings tenantId payload db p a = some (p', db')) :
    (db' = db ∧ p'.Sound tenantId (payload.normalized lower) db.leads ∧
        ∀ l, p'.created = some l → p.created = some l) ∨
      ∃ seen new call, p = .flushed seen new ∧ a = .commit call ∧ call.takesEffect ∧ Fits db new ∧
        db' = new.commit db ∧ (p' = .raised ∨ p' = .committed new.lead) := by
  unfold act at h
  split at h
  case h_1 =>
    split at h
    · cases h
      exact .inl ⟨rfl, trivial, fun l hl => hl⟩
    · cases h
      exact .inl ⟨rfl, trivial, fun l hl => hl⟩
  case h_2 choice =>
    dsimp only at h
    split at h
    case h_1 existing hfound =>
      cases h
      obtain ⟨hm, hdup⟩ := LeadRepository.findDuplicate_eq_some hfound
      exact .inl ⟨rfl, ⟨hm, fun _ => hdup, Bool.noConfusion⟩, fun l hl => hl⟩
    case h_2 hnone =>
      cases h
      have hfree := LeadRepository.findDuplicate_eq_none.mp hnone
      exact .inl ⟨rfl, fun l hl => ⟨hl, hfree l hl⟩, fun l hl => hl⟩
  case h_3 seen id eventId today =>
    cases h
    exact .inl ⟨rfl, ⟨hp, id, rfl⟩, fun l hl => hl⟩
  case h_4 seen new call =>
    split at h
    · rename_i hcall
      split at h
      · rename_i hfits
        cases h
        refine .inr ⟨seen, new, call, rfl, rfl, hcall, hfits, rfl, ?_⟩
        split
        · exact .inl rfl
        · exact .inr rfl
      · cases h
    · cases h
      exact .inl ⟨rfl, trivial, fun l hl => hl⟩
  case h_5 lead calls =>
    split at h
    · cases h
      exact .inl ⟨rfl, trivial, fun l hl => by cases hl⟩
    · cases h
      exact .inl ⟨rfl, ⟨hp.1, Bool.noConfusion, fun _ => hp.2⟩, fun l hl => hl⟩
  case h_6 => cases h
  case h_7 => cases h
  case h_8 => cases h
  case h_9 =>
    cases h
    exact .inl ⟨rfl, trivial, fun l hl => by cases hl⟩
  case h_10 => cases h

variable {payload : ι → LeadCreate}

structure Sound (lower : String → String) (tenantId : Id) (payload : ι → LeadCreate)
    (s : State ι) : Prop where
  unique : UniqueContacts s.db.leads
  phases : ∀ i, (s.requests i).Sound tenantId ((payload i).normalized lower) s.db.leads
  apart : ∀ i j l l', i ≠ j → (s.requests i).created = some l → (s.requests j).created = some l' →
    l.id ≠ l'.id

theorem mem_of_created {tenantId : Id} {data : LeadCreate} {leads : Table Lead.id} {p : Phase} {l : Lead}
    (h : p.Sound tenantId data leads) (hl : p.created = some l) : l ∈ leads := by
  cases p with
  | committed lead =>
    cases hl
    exact h.1
  | returned outcome =>
    simp only [Phase.created] at hl
    split at hl
    · cases hl
    · cases hl
      exact h.1
  | started => cases hl
  | counted => cases hl
  | missed seen => cases hl
  | flushed seen new => cases hl
  | refused e => cases hl
  | raised => cases hl

namespace Sound

variable {s s' : State ι}

omit [DecidableEq ι] in
theorem deduplicated (h : Sound lower tenantId payload s) : Deduplicated lower tenantId payload s := by
  have hphase : ∀ i outcome, s.requests i = .returned outcome →
      (Phase.returned outcome).Sound tenantId ((payload i).normalized lower) s.db.leads := by
    intro i outcome hi
    rw [← hi]
    exact h.phases i
  have hcreated : ∀ i outcome, s.requests i = .returned outcome → outcome.deduplicated = false →
      (s.requests i).created = some outcome.lead := by
    intro i outcome hi hnew
    rw [hi, Phase.created, hnew]
    rfl
  constructor
  · exact h.unique
  · exact fun i outcome hi => (hphase i outcome hi).1
  · exact fun i outcome hi => (hphase i outcome hi).2.1
  · intro i outcome hi l hl hdup
    cases hd : outcome.deduplicated with
    | true => exact .inr rfl
    | false =>
      obtain ⟨hm, -, hown⟩ := hphase i outcome hi
      obtain ⟨id, hlead⟩ := hown hd
      rw [hlead] at hm ⊢
      exact .inl (h.unique.eq_of_duplicates hm hl hdup)
  · intro i j outcome outcome' hne hi hj hd hd'
    exact h.apart i j _ _ hne (hcreated i outcome hi hd) (hcreated j outcome' hj hd')

theorem quiet {i : ι} {p : Phase} (h : Sound lower tenantId payload s)
    (hp : p.Sound tenantId ((payload i).normalized lower) s.db.leads)
    (hcreated : ∀ l, p.created = some l → (s.requests i).created = some l) :
    Sound lower tenantId payload ⟨s.db, Function.update s.requests i p⟩ := by
  have hback : ∀ j l, (Function.update s.requests i p j).created = some l →
    (s.requests j).created = some l := by
    intro j l hl
    by_cases hj : j = i
    · rw [hj, Function.update_self] at hl
      rw [hj]
      exact hcreated l hl
    · rwa [Function.update_of_ne hj] at hl
  constructor
  · exact h.unique
  · intro j
    by_cases hj : j = i
    · dsimp only
      rw [hj, Function.update_self]
      exact hp
    · dsimp only
      rw [Function.update_of_ne hj]
      exact h.phases j
  · intro j k l l' hne hl hl'
    exact h.apart j k l l' hne (hback j l hl) (hback k l' hl')

theorem commit {i : ι} {seen : Table Lead.id} {new : NewLead} {p : Phase}
    (h : Sound lower tenantId payload s)
    (hi : s.requests i = .flushed seen new) (hfits : Fits s.db new)
    (hsince : ∀ l ∈ s.db.leads, seen.Fresh l.id → ¬l.Duplicates tenantId new.lead.email new.lead.phone)
    (hp : p = .raised ∨ p = .committed new.lead) :
    Sound lower tenantId payload ⟨new.commit s.db, Function.update s.requests i p⟩ := by
  have hphase := h.phases i
  rw [hi] at hphase
  obtain ⟨hseen, id, hnew⟩ := hphase
  have htenant : new.lead.tenantId = tenantId := by
    rw [hnew]
    rfl
  have hkeep : ∀ l ∈ s.db.leads, l ∈ (new.commit s.db).leads := fun l hl => Table.mem_insert_of_mem hl
  have hself : new.lead ∈ (new.commit s.db).leads := (Table.mem_insert hfits.1).mpr (.inr rfl)
  have hfree : ∀ b ∈ s.db.leads, ¬b.Duplicates new.lead.tenantId new.lead.email new.lead.phone := by
    intro b hb
    rw [htenant]
    by_cases hfresh : seen.Fresh b.id
    · exact hsince b hb hfresh
    · simp only [Table.Fresh, not_forall, not_not] at hfresh
      obtain ⟨a, ha, hid⟩ := hfresh
      obtain ⟨hold, hno⟩ := hseen a ha
      rw [← Table.eq_of_key_eq hold hb hid, hnew]
      exact hno
  have hcreated : ∀ j l, (Function.update s.requests i p j).created = some l →
      j = i ∧ l = new.lead ∨ j ≠ i ∧ (s.requests j).created = some l ∧ l ∈ s.db.leads := by
    intro j l hl
    by_cases hj : j = i
    · rw [hj, Function.update_self] at hl
      rcases hp with rfl | rfl
      · cases hl
      · cases hl
        exact .inl ⟨hj, rfl⟩
    · rw [Function.update_of_ne hj] at hl
      exact .inr ⟨hj, hl, mem_of_created (h.phases j) hl⟩
  constructor
  · exact h.unique.insert hfree
  · intro j
    by_cases hj : j = i
    · dsimp only
      rw [hj, Function.update_self]
      rcases hp with rfl | rfl
      · trivial
      · exact ⟨hself, id, hnew⟩
    · dsimp only
      rw [Function.update_of_ne hj]
      exact (h.phases j).mono hkeep
  · intro j k l l' hne hl hl'
    rcases hcreated j l hl with ⟨hj, rfl⟩ | ⟨hj, hjl, hm⟩
    · rcases hcreated k l' hl' with ⟨hk, rfl⟩ | ⟨hk, hkl, hm'⟩
      · exact absurd (hj.trans hk.symm) hne
      · exact (hfits.1 l' hm').symm
    · rcases hcreated k l' hl' with ⟨hk, rfl⟩ | ⟨hk, hkl, hm'⟩
      · exact hfits.1 l hm
      · exact h.apart j k l l' hne hjl hkl

theorem step {label : ι × Action} (h : Sound lower tenantId payload s) (hok : Admitted tenantId s label)
    (hstep : LeadRaces.step lower settings tenantId payload s label = some s') :
    Sound lower tenantId payload s' := by
  obtain ⟨⟨p, db⟩, hact, rfl⟩ := Option.map_eq_some_iff.mp hstep
  rcases act_cases (h.phases label.1) hact with ⟨rfl, hp, hcreated⟩ |
    ⟨seen, new, call, hi, ha, hcall, hfits, rfl, hp⟩
  · exact h.quiet hp hcreated
  · have hc : (seen, new) ∈ commits (s.requests label.1) label.2 := by
      rw [hi, ha, commits, if_pos hcall]
      rfl
    exact h.commit hi hfits (hok _ hc) hp

omit [DecidableEq ι] in
theorem start {db : Db} (h : UniqueContacts db.leads) : Sound lower tenantId payload (State.start db) := by
  constructor
  · exact h
  · exact fun _ => trivial
  · intro i j l l' _ hl
    cases hl

end Sound

theorem admitted_of_unique {s s' : State ι} {label : ι × Action} (h : Sound lower tenantId payload s)
    (hstep : step lower settings tenantId payload s label = some s') (hunique : UniqueContacts s'.db.leads) :
    Admitted tenantId s label := by
  obtain ⟨⟨p, db⟩, hact, rfl⟩ := Option.map_eq_some_iff.mp hstep
  rintro ⟨seen, new⟩ hc l hl _ hdup
  have hphase := h.phases label.1
  obtain ⟨hi, call, ha, hcall⟩ := commits_eq_some hc
  rw [hi] at hphase
  rw [hi, ha] at hact
  obtain ⟨-, id, hnew⟩ := hphase
  have htenant : new.lead.tenantId = tenantId := by
    rw [hnew]
    rfl
  simp only [act, hcall, if_true] at hact
  split at hact
  · rename_i hfits
    cases hact
    have hself : new.lead ∈ (new.commit s.db).leads := (Table.mem_insert hfits.1).mpr (.inr rfl)
    rw [← htenant] at hdup
    have heq := hunique.eq_of_duplicates hself (Table.mem_insert_of_mem hl) hdup
    exact hfits.1 l hl (congrArg Lead.id heq).symm
  · cases hact

theorem sound_of_run {db : Db} {s : State ι} {labels : List (ι × Action)} (h₀ : UniqueContacts db.leads)
    (hrun : GuardedRun (Enabled (step lower settings tenantId payload)) (Admitted tenantId) (State.start db)
      labels s) : Sound lower tenantId payload s := by
  apply hrun.invariant (Sound lower tenantId payload)
  · intro s label s' h hok hstep
    exact h.step hok hstep
  · exact Sound.start h₀

end Leadline.LeadRaces

namespace Leadline

open Library LeadRaces

theorem concurrent_creates_deduplicate {ι : Type} [DecidableEq ι] (lower : String → String)
    (settings : Settings) (tenantId : Id) (payload : ι → LeadCreate) (db : Db) (s : LeadRaces.State ι)
    (labels : List (ι × LeadRaces.Action)) (h₀ : UniqueContacts db.leads)
    (hrun : GuardedRun (Enabled (LeadRaces.step lower settings tenantId payload))
      (LeadRaces.Admitted tenantId)
      (LeadRaces.State.start db) labels s) :
    Deduplicated lower tenantId payload s ∧
      ∀ label s', LeadRaces.step lower settings tenantId payload s label = some s' →
        (Deduplicated lower tenantId payload s' ↔ LeadRaces.Admitted tenantId s label) := by
  have hsound := sound_of_run h₀ hrun
  refine ⟨hsound.deduplicated, ?_⟩
  intro label s' hstep
  constructor
  · intro h
    exact admitted_of_unique hsound hstep h.unique
  · intro hok
    exact (hsound.step hok hstep).deduplicated

def twoAdas (r : Fin 2) : LeadCreate where
  email := some "Ada@example.com"
  phone := if r = 0 then some "+1 555 123" else some "+1 555 456"

def LeadRaces.createdToday : Db where
  usage := Table.empty.insert ⟨"tenant-1", 0, { leadsCreated := 7 }⟩

theorem concurrent_creates_deduplicate_twoAdas :
    ∃ s : LeadRaces.State (Fin 2), Deduplicated asciiLower "tenant-1" twoAdas s ∧
      (s.requests 1).outcome.map (fun o => (o.deduplicated, o.lead.id)) = some (true, "lead-1") := by
  have hrun : (runChecked (LeadRaces.step asciiLower {} "tenant-1" twoAdas) (LeadRaces.Admitted "tenant-1")
      (LeadRaces.State.start createdToday)
      [(0, .count), (1, .count), (0, .lookup 0), (0, .insert "lead-1" "event-1" 0), (0, .commit .returns),
        (1, .lookup 0), (0, .publish {})]).any (fun s => decide ((s.requests 1).outcome.map
          (fun o => (o.deduplicated, o.lead.id)) = some (true, "lead-1"))) = true := by
    decide +kernel
  obtain ⟨s, hs, hsecond⟩ := (Option.any_eq_true _ _).mp hrun
  have hdedup := concurrent_creates_deduplicate asciiLower {} "tenant-1" twoAdas createdToday s _
    UniqueContacts.empty (guarded_of_runChecked hs)
  exact ⟨s, hdedup.1, of_decide_eq_true hsecond⟩

theorem both_creates_commit :
    ∃ s : LeadRaces.State (Fin 2), runSteps (LeadRaces.step asciiLower {} "tenant-1" twoAdas)
        (LeadRaces.State.start createdToday)
        [(0, .count), (1, .count), (0, .lookup 0), (1, .lookup 0), (0, .insert "lead-1" "event-1" 0),
          (0, .commit .returns), (1, .insert "lead-2" "event-2" 0), (1, .commit .returns),
          (0, .publish {}), (1, .publish {})] = some s ∧
      ¬Deduplicated asciiLower "tenant-1" twoAdas s := by
  have hrun : (runSteps (LeadRaces.step asciiLower {} "tenant-1" twoAdas)
    (LeadRaces.State.start createdToday)
        [(0, .count), (1, .count), (0, .lookup 0), (1, .lookup 0), (0, .insert "lead-1" "event-1" 0),
          (0, .commit .returns), (1, .insert "lead-2" "event-2" 0), (1, .commit .returns),
          (0, .publish {}), (1, .publish {})]).any (fun s =>
        decide (∃ a ∈ s.db.leads.rows, ∃ b ∈ s.db.leads.rows, a.id ≠ b.id ∧
          a.emailKey = some ("tenant-1", "ada@example.com") ∧
          b.emailKey = some ("tenant-1", "ada@example.com"))) = true := by
    decide +kernel
  obtain ⟨s, hs, hshared⟩ := (Option.any_eq_true _ _).mp hrun
  obtain ⟨a, ha, b, hb, hne, hka, hkb⟩ := of_decide_eq_true hshared
  refine ⟨s, hs, fun h => ?_⟩
  exact hne (congrArg Lead.id (h.unique.email a ha b hb _ hka hkb))

end Leadline
