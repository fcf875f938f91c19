import Leadline.RolloutTool
import Leadline.SettingsRaces

namespace Leadline

open Library

namespace RolloutTool

variable {py : Python} {secrets : Secrets} {db db' : Accounts} {slug : String} {t : Tenant}

section

variable {α β : Type} {call : PostCall} {endpoint : CallOutcome → PostReply α × Accounts} {a : α} {code : ℕ}

theorem post_accounts (call : PostCall) (db : Accounts) (endpoint : CallOutcome → PostReply α × Accounts) :
    (call.post db endpoint).2 = db ∨ ∃ commit, (call.post db endpoint).2 = (endpoint commit).2 := by
  have hhandled : ∀ handled, PostCall.accounts db endpoint handled = db ∨
      ∃ commit, PostCall.accounts db endpoint handled = (endpoint commit).2 := by
    intro handled
    cases handled with
    | none => exact .inl rfl
    | some commit => exact .inr ⟨commit, rfl⟩
  cases call with
  | answered commit => exact .inr ⟨commit, rfl⟩
  | lost handled => exact hhandled handled
  | failed handled code error => exact hhandled handled

theorem post_ok (h : (call.post db endpoint).1 = .ok a) :
    ∃ commit, (endpoint commit).1 = .ok a ∧ (call.post db endpoint).2 = (endpoint commit).2 := by
  cases call with
  | answered commit => exact ⟨commit, h, rfl⟩
  | lost handled => cases h
  | failed handled code error => cases h

theorem post_status (h : (call.post db endpoint).1 = .status code) :
    (∃ handled error, call = .failed handled code error) ∨
      ∃ commit, (endpoint commit).1 = .status code ∧ (call.post db endpoint).2 = (endpoint commit).2 := by
  cases call with
  | answered commit => exact .inr ⟨commit, h, rfl⟩
  | lost handled => cases h
  | failed handled code' error =>
    cases h
    exact .inl ⟨handled, error, rfl⟩

theorem reply_eq_ok {answer : Answer α} (h : answer.reply = .ok a) : answer = .returned a := by
  cases answer with
  | returned b =>
    cases h
    rfl
  | refused e => cases h
  | raised => cases h

end

theorem getBySlug_append (hrows : db'.tenants.rows = db.tenants.rows ++ [t]) :
    TenantRepository.getBySlug db' slug =
      (TenantRepository.getBySlug db slug).or (if t.slug = slug then some t else none) := by
  unfold TenantRepository.getBySlug
  rw [hrows, List.find?_append, List.find?_singleton]
  simp

structure Keeps (db db' : Accounts) : Prop where
  tenants : ∀ slug t, TenantRepository.getBySlug db slug = some t → TenantRepository.getBySlug db' slug = some t
  users : ∀ u ∈ db.users, u ∈ db'.users
  apiKeys : ∀ k ∈ db.apiKeys, k ∈ db'.apiKeys

theorem Keeps.refl (db : Accounts) : Keeps db db where
  tenants _ _ h := h
  users _ h := h
  apiKeys _ h := h

theorem Keeps.trans {db'' : Accounts} (h : Keeps db db') (h' : Keeps db' db'') : Keeps db db'' where
  tenants slug t ht := h'.tenants slug t (h.tenants slug t ht)
  users u hu := h'.users u (h.users u hu)
  apiKeys k hk := h'.apiKeys k (h.apiKeys k hk)

theorem Keeps.absent (h : Keeps db db') (hnone : TenantRepository.getBySlug db' slug = none) :
    TenantRepository.getBySlug db slug = none := by
  cases hsome : TenantRepository.getBySlug db slug with
  | none => rfl
  | some t =>
    rw [h.tenants slug t hsome] at hnone
    cases hnone

/-- The ids that are drawn are new, and `uuid4` gives no empty text. -/
structure NewIds (db : Accounts) (draws : ProvisionDraws) : Prop where
  tenantId : db.tenants.Fresh draws.tenantId
  userId : db.users.Fresh draws.userId
  apiKeyId : db.apiKeys.Fresh draws.apiKeyId
  nonempty : draws.tenantId ≠ ""

def added (payload : ProvisionTenantRequest) (draws : ProvisionDraws) (settings : Dict) : Tenant :=
  (ProvisioningService.newTenant payload draws).withSettings settings

structure Adds (secrets : Secrets) (payload : ProvisionTenantRequest) (draws : ProvisionDraws) (settings : Dict)
    (db db' : Accounts) : Prop where
  unclaimed : TenantRepository.getBySlug db payload.slug = none
  tenants : db'.tenants.rows = db.tenants.rows ++ [added payload draws settings]
  users : db'.users = db.users.insert (ProvisioningService.newOwner payload draws)
  apiKeys : db'.apiKeys = db.apiKeys.insert (ProvisioningService.newKey secrets draws)

def initialSettings : Dict :=
  [("plan_limits", .obj []), ("design_partner", .bool false), ("rollout_percentage", .int 0)]

variable {payload : ProvisionTenantRequest} {draws : ProvisionDraws} {settings : Dict}

section

variable (h : Adds secrets payload draws settings db db')
include h

theorem Adds.getBySlug (slug : String) :
    TenantRepository.getBySlug db' slug = (TenantRepository.getBySlug db slug).or
      (if payload.slug = slug then some (added payload draws settings) else none) :=
  getBySlug_append h.tenants

theorem Adds.getBySlug_self : TenantRepository.getBySlug db' payload.slug = some (added payload draws settings) := by
  rw [h.getBySlug, h.unclaimed, if_pos rfl]
  rfl

theorem Adds.keeps : Keeps db db' where
  tenants slug t ht := by
    rw [h.getBySlug, ht]
    rfl
  users u hu := by
    rw [h.users]
    exact Table.mem_insert_of_mem hu
  apiKeys k hk := by
    rw [h.apiKeys]
    exact Table.mem_insert_of_mem hk

theorem Adds.get : TenantRepository.get db'.tenants draws.tenantId = some (added payload draws settings) := by
  refine Table.find?_eq_some_iff.mpr ⟨?_, rfl⟩
  rw [Table.mem_def, h.tenants]
  exact List.mem_append_right _ (List.mem_singleton_self _)

theorem Adds.writeSettings (hnew : db.tenants.Fresh draws.tenantId) (new : Option Dict) :
    Adds secrets payload draws (new.getD settings) db
      { db' with tenants := TenantRepository.writeSettings db'.tenants draws.tenantId new } := by
  refine { h with tenants := ?_ }
  cases new with
  | none => exact h.tenants
  | some changed =>
    have hid : (added payload draws settings).id = draws.tenantId := rfl
    have hothers : db.tenants.rows.map (fun t => if t.id = draws.tenantId then t.withSettings changed else t) =
        db.tenants.rows := by
      rw [List.map_congr_left fun t ht => if_neg (hnew t ht), List.map_id']
    change (db'.tenants.rows.map fun t => if t.id = draws.tenantId then t.withSettings changed else t) = _
    rw [h.tenants, List.map_append, List.map_singleton, if_pos hid, hothers]
    rfl

end

def changedOr (py : Python) (t : Tenant) (settings : Dict) (change : SettingsChange) : Dict :=
  (TenantRepository.changedSettings py t (change.settings t)).getD settings

section

variable {α β : Type} {call : PostCall} {body : Option β} {endpoint : β → CallOutcome → Answer α × Accounts}
  {response : β → α} {change : β → SettingsChange}

theorem Adds.post (h : Adds secrets payload draws settings db db') (hnew : db.tenants.Fresh draws.tenantId)
    (hcall : ∀ b commit, endpoint b commit =
      (if commit.raises then .raised else .returned (response b),
        if commit.takesEffect then
          { db' with
            tenants := TenantRepository.update py db'.tenants (added payload draws settings)
              ((change b).settings (added payload draws settings)) }
        else db')) :
    let posted := call.post db' fun commit => AdminApi.validated body db' fun b => endpoint b commit
    (∃ settings', Adds secrets payload draws settings' db posted.2) ∧
      ∀ a, posted.1 = .ok a → ∃ b, body = some b ∧
        Adds secrets payload draws (changedOr py (added payload draws settings) settings (change b)) db posted.2 := by
  intro posted
  constructor
  · rcases post_accounts call db' fun commit => AdminApi.validated body db' fun b => endpoint b commit
      with hsame | ⟨commit, hsame⟩
    · exact ⟨settings, hsame ▸ h⟩
    · cases body with
      | none => exact ⟨settings, hsame ▸ h⟩
      | some b =>
        have haccounts : posted.2 = (endpoint b commit).2 := hsame
        rw [haccounts, hcall]
        dsimp only
        split
        · exact ⟨_, h.writeSettings hnew _⟩
        · exact ⟨settings, h⟩
  · intro a ha
    obtain ⟨commit, hok, haccounts⟩ := post_ok ha
    cases body with
    | none => cases hok
    | some b =>
      refine ⟨b, rfl, ?_⟩
      have hreturned : (endpoint b commit).1 = .returned a := reply_eq_ok hok
      have hposted : posted.2 = (endpoint b commit).2 := haccounts
      rw [hcall] at hreturned
      rw [hposted, hcall]
      cases commit with
      | returns => exact h.writeSettings hnew _
      | raisesAfterEffect => cases hreturned
      | raisesWithoutEffect => cases hreturned

end

theorem postEnroll_spec (py : Python) (row : RolloutRow) (calls : RowCalls)
    (h : Adds secrets payload draws settings db db') (hnew : db.tenants.Fresh draws.tenantId) :
    (∃ settings', Adds secrets payload draws settings' db (postEnroll py row calls draws.tenantId db').2) ∧
      ∀ a, (postEnroll py row calls draws.tenantId db').1 = .ok a → ∃ request, row.enrollmentRequest = some request ∧
        Adds secrets payload draws (changedOr py (added payload draws settings) settings (.enroll request)) db
          (postEnroll py row calls draws.tenantId db').2 := by
  apply h.post hnew
  intro request commit
  unfold AdminApi.enrollDesignPartner ProvisioningService.enrollDesignPartner
  rw [h.get]
  rfl

theorem postPromote_spec (py : Python) (row : RolloutRow) (calls : RowCalls)
    (h : Adds secrets payload draws settings db db') (hnew : db.tenants.Fresh draws.tenantId) :
    (∃ settings', Adds secrets payload draws settings' db (postPromote py row calls draws.tenantId db').2) ∧
      ∀ a, (postPromote py row calls draws.tenantId db').1 = .ok a → ∃ request, row.promotionRequest = some request ∧
        Adds secrets payload draws (changedOr py (added payload draws settings) settings (.promote request)) db
          (postPromote py row calls draws.tenantId db').2 := by
  apply h.post hnew
  intro request commit
  unfold AdminApi.promoteRollout ProvisioningService.promoteRollout
  rw [h.get]
  rfl

theorem setting_added (k : String) : (added payload draws settings).setting k = settings.get k := rfl

theorem changedOr_cases (py : Python) (change : SettingsChange) :
    changedOr py (added payload draws settings) settings change = change.settings (added payload draws settings) ∨
      changedOr py (added payload draws settings) settings change = settings ∧
        change.HeldBy py (added payload draws settings) := by
  unfold changedOr
  cases hchanged : TenantRepository.changedSettings py (added payload draws settings)
      (change.settings (added payload draws settings)) with
  | none => exact .inr ⟨rfl, SettingsChange.heldBy_of_unchanged hchanged⟩
  | some new =>
    unfold TenantRepository.changedSettings at hchanged
    split at hchanged
    · cases hchanged
    · cases hchanged
      exact .inl rfl

theorem enrolled_settings (request : DesignPartnerEnrollmentRequest) :
    changedOr py (added payload draws initialSettings) initialSettings (.enroll request) =
      (SettingsChange.enroll request).settings (added payload draws initialSettings) := by
  rcases changedOr_cases py (.enroll request) with hwritten | ⟨-, hheld⟩
  · exact hwritten
  · obtain ⟨v, hv, hequal⟩ := hheld ("design_partner", .bool true) List.mem_cons_self
    cases hv
    simp [Python.equal, Python.numeric, Double.equal] at hequal

theorem promoted_percentage (request : RolloutPromotionRequest)
    (hzero : settings.get "rollout_percentage" = some (.int 0)) :
    Dict.get (changedOr py (added payload draws settings) settings (.promote request)) "rollout_percentage" =
      some (.int request.rolloutPercentage) := by
  rcases changedOr_cases py (.promote request) with hwritten | ⟨hsame, hheld⟩
  · rw [hwritten]
    exact SettingsChange.get_settings List.mem_cons_self
  · obtain ⟨v, hv, hequal⟩ := hheld ("rollout_percentage", .int request.rolloutPercentage) List.mem_cons_self
    rw [setting_added, hzero] at hv
    cases hv
    have hvalue : request.rolloutPercentage = 0 := by simpa [Python.equal, Python.numeric, Double.equal] using hequal
    rw [hsame, hzero, hvalue]

theorem promoted_others (request : RolloutPromotionRequest) {k : String} (hk : k ≠ "rollout_percentage") :
    Dict.get (changedOr py (added payload draws settings) settings (.promote request)) k = settings.get k := by
  rcases changedOr_cases py (.promote request) with hwritten | ⟨hsame, -⟩
  · rw [hwritten]
    exact SettingsChange.get_settings_of_not_mem (by simpa [SettingsChange.keys] using hk)
  · rw [hsame]

def RolledOut (row : RolloutRow) (t : Tenant) : Prop :=
  ∃ cohort, row.cohort = some cohort ∧ t.setting "design_partner" = some (.bool true) ∧
    t.setting "design_partner_cohort" = some (.str cohort) ∧
    t.setting "rollout_percentage" = some (.int row.rolloutPercentage)

def Mistaken (calls : RowCalls) : Prop := ∃ handled error, calls.provision = .failed handled 400 error

def GoesOn (e : RowEnd) : Prop := ∃ line, e = .next line

variable {row : RolloutRow} {calls : RowCalls}

theorem rolledOut_of_requests {enrollment : DesignPartnerEnrollmentRequest} {promotion : RolloutPromotionRequest}
    (henroll : row.enrollmentRequest = some enrollment) (hpromote : row.promotionRequest = some promotion)
    (hsettings : settings = changedOr py (added payload draws initialSettings) initialSettings (.enroll enrollment)) :
    RolledOut row
      (added payload draws (changedOr py (added payload draws settings) settings (.promote promotion))) := by
  obtain ⟨cohort, hcohort, rfl⟩ := Option.map_eq_some_iff.mp henroll
  have hpercentage : promotion.rolloutPercentage = row.rolloutPercentage := by
    obtain ⟨_, hsome⟩ := Option.dite_none_right_eq_some.mp hpromote
    cases hsome
    rfl
  rw [enrolled_settings] at hsettings
  have hpartner : settings.get "design_partner" = some (.bool true) := by
    rw [hsettings]
    exact SettingsChange.get_settings (by simp [SettingsChange.values])
  have hname : settings.get "design_partner_cohort" = some (.str cohort) := by
    rw [hsettings]
    exact SettingsChange.get_settings (by simp [SettingsChange.values])
  have hzero : settings.get "rollout_percentage" = some (.int 0) := by
    rw [hsettings, SettingsChange.get_settings_of_not_mem (by simp [SettingsChange.keys])]
    rfl
  refine ⟨cohort, hcohort, ?_, ?_, ?_⟩
  · rw [setting_added, promoted_others promotion (by decide), hpartner]
  · rw [setting_added, promoted_others promotion (by decide), hname]
  · rw [setting_added, promoted_percentage promotion hzero, hpercentage]

section

variable (hnew : NewIds db calls.draws)
include hnew

theorem handleProvision_cases (secrets : Secrets) (row : RolloutRow) (commit : CallOutcome) :
    handleProvision secrets row calls db commit = (.status 422, db) ∨
    (∃ payload t, row.provisionRequest = some payload ∧ TenantRepository.getBySlug db payload.slug = some t ∧
      handleProvision secrets row calls db commit = (.status 400, db)) ∨
    ∃ payload response after, row.provisionRequest = some payload ∧ response.tenantId = calls.draws.tenantId ∧
      Adds secrets payload calls.draws initialSettings db after ∧
      handleProvision secrets row calls db commit =
        (if commit.raises then .status 500 else .ok response, if commit.takesEffect then after else db) := by
  unfold handleProvision
  cases hrequest : row.provisionRequest with
  | none => exact .inl rfl
  | some payload =>
    dsimp only [AdminApi.validated, AdminApi.provisionTenant, ProvisioningService.provisionTenant]
    cases hslug : TenantRepository.getBySlug db payload.slug with
    | some t => exact .inr (.inl ⟨payload, t, rfl, hslug, rfl⟩)
    | none =>
      have hadds : Adds secrets payload calls.draws initialSettings db
          { tenants := db.tenants.insert (ProvisioningService.newTenant payload calls.draws)
            users := db.users.insert (ProvisioningService.newOwner payload calls.draws)
            apiKeys := db.apiKeys.insert (ProvisioningService.newKey secrets calls.draws) } :=
        ⟨hslug, Table.rows_insert hnew.tenantId, rfl, rfl⟩
      refine .inr (.inr ⟨payload, ⟨calls.draws.tenantId, calls.draws.userId,
        (ProvisioningService.rawKey calls.draws).display, payload.plan⟩, _, rfl, rfl, hadds, ?_⟩)
      cases commit <;> rfl

theorem postProvision_accounts (secrets : Secrets) (row : RolloutRow) : (postProvision secrets row calls db).2 = db ∨
    ∃ payload, row.provisionRequest = some payload ∧
      Adds secrets payload calls.draws initialSettings db (postProvision secrets row calls db).2 := by
  unfold postProvision
  rcases post_accounts calls.provision db (handleProvision secrets row calls db) with hsame | ⟨commit, hsame⟩
  · exact .inl hsame
  · rw [hsame]
    rcases handleProvision_cases hnew secrets row commit with
      hcall | ⟨payload, t, -, -, hcall⟩ | ⟨payload, response, after, hrequest, -, hadds, hcall⟩
    · exact .inl (by rw [hcall])
    · exact .inl (by rw [hcall])
    · rw [hcall]
      dsimp only
      split
      · exact .inr ⟨payload, hrequest, hadds⟩
      · exact .inl rfl

theorem postProvision_ok {response : ProvisionTenantResponse}
    (h : (postProvision secrets row calls db).1 = .ok response) :
    response.tenantId = calls.draws.tenantId ∧ ∃ payload, row.provisionRequest = some payload ∧
      Adds secrets payload calls.draws initialSettings db (postProvision secrets row calls db).2 := by
  obtain ⟨commit, hok, haccounts⟩ := post_ok h
  have hposted : (postProvision secrets row calls db).2 = (handleProvision secrets row calls db commit).2 := haccounts
  rw [hposted]
  rcases handleProvision_cases hnew secrets row commit with
    hcall | ⟨payload, t, -, -, hcall⟩ | ⟨payload, response', after, hrequest, hid, hadds, hcall⟩
  · rw [hcall] at hok
    cases hok
  · rw [hcall] at hok
    cases hok
  · rw [hcall] at hok ⊢
    cases commit with
    | returns =>
      cases hok
      exact ⟨hid, payload, hrequest, hadds⟩
    | raisesAfterEffect => cases hok
    | raisesWithoutEffect => cases hok

theorem postProvision_refused (h : (postProvision secrets row calls db).1 = .status 400) :
    Mistaken calls ∨ (postProvision secrets row calls db).2 = db ∧
      ∃ payload t, row.provisionRequest = some payload ∧ TenantRepository.getBySlug db payload.slug = some t := by
  rcases post_status h with hfailed | ⟨commit, hstatus, haccounts⟩
  · exact .inl hfailed
  · have hposted : (postProvision secrets row calls db).2 = (handleProvision secrets row calls db commit).2 := haccounts
    rw [hposted]
    rcases handleProvision_cases hnew secrets row commit with
      hcall | ⟨payload, t, hrequest, hslug, hcall⟩ | ⟨payload, response, after, -, -, -, hcall⟩
    · rw [hcall] at hstatus
      cases hstatus
    · exact .inr ⟨by rw [hcall], payload, t, hrequest, hslug⟩
    · rw [hcall] at hstatus
      cases commit <;> cases hstatus

end

theorem not_goesOn_raises : ¬GoesOn .raises := by
  rintro ⟨line, h⟩
  cases h

theorem not_goesOn_returns (text : String) : ¬GoesOn (.returns text) := by
  rintro ⟨line, h⟩
  cases h

theorem promote_spec (py : Python) (row : RolloutRow) (calls : RowCalls)
    (h : Adds secrets payload draws settings db db') (hnew : db.tenants.Fresh draws.tenantId) :
    ∃ settings', Adds secrets payload draws settings' db (promote py row calls draws.tenantId db').2 ∧
      (GoesOn (promote py row calls draws.tenantId db').1 → ∃ request, row.promotionRequest = some request ∧
        settings' = changedOr py (added payload draws settings) settings (.promote request)) := by
  obtain ⟨⟨settings', hposted⟩, hok⟩ := postPromote_spec py row calls h hnew
  unfold promote
  dsimp only
  split
  · exact ⟨settings', hposted, fun hgoes => absurd hgoes not_goesOn_raises⟩
  · exact ⟨settings', hposted, fun hgoes => absurd hgoes (not_goesOn_returns _)⟩
  · rename_i hreply
    obtain ⟨request, hrequest, hadds⟩ := hok _ hreply
    exact ⟨_, hadds, fun _ => ⟨request, hrequest, rfl⟩⟩

theorem enroll_spec (py : Python) (row : RolloutRow) (calls : RowCalls)
    (h : Adds secrets payload draws initialSettings db db') (hnew : db.tenants.Fresh draws.tenantId) :
    ∃ settings, Adds secrets payload draws settings db (enroll py row calls draws.tenantId db').2 ∧
      (GoesOn (enroll py row calls draws.tenantId db').1 → RolledOut row (added payload draws settings)) := by
  obtain ⟨⟨settings, hposted⟩, hok⟩ := postEnroll_spec py row calls h hnew
  unfold enroll
  dsimp only
  split
  · exact ⟨settings, hposted, fun hgoes => absurd hgoes not_goesOn_raises⟩
  · exact ⟨settings, hposted, fun hgoes => absurd hgoes (not_goesOn_returns _)⟩
  · rename_i hreply
    obtain ⟨enrollment, henroll, hadds⟩ := hok _ hreply
    obtain ⟨settings', hadds', hgoes⟩ := promote_spec py row calls hadds hnew
    refine ⟨settings', hadds', ?_⟩
    intro hnext
    obtain ⟨promotion, hpromote, rfl⟩ := hgoes hnext
    exact rolledOut_of_requests henroll hpromote rfl

theorem processRow_cases (py : Python) (secrets : Secrets) (row : RolloutRow) (hnew : NewIds db calls.draws) :
    ((processRow py secrets row calls db).2 = db ∧
      (GoesOn (processRow py secrets row calls db).1 → Mistaken calls ∨
        ∃ payload t, row.provisionRequest = some payload ∧ TenantRepository.getBySlug db payload.slug = some t)) ∨
    ∃ payload settings, row.provisionRequest = some payload ∧
      Adds secrets payload calls.draws settings db (processRow py secrets row calls db).2 ∧
      (GoesOn (processRow py secrets row calls db).1 →
        Mistaken calls ∨ RolledOut row (added payload calls.draws settings)) := by
  have hposted := postProvision_accounts hnew secrets row
  unfold processRow
  dsimp only
  split
  · rcases hposted with hsame | ⟨payload, hrequest, hadds⟩
    · exact .inl ⟨hsame, fun hgoes => absurd hgoes not_goesOn_raises⟩
    · exact .inr ⟨payload, _, hrequest, hadds, fun hgoes => absurd hgoes not_goesOn_raises⟩
  · rename_i code hreply
    by_cases hcode : code = 400
    · -- The endpoint's own answer to a slug that is taken, or a failed request that looks like it.
      rw [if_pos hcode]
      rw [hcode] at hreply
      rcases postProvision_refused hnew hreply with hmistaken | ⟨hsame, htaken⟩
      · rcases hposted with hsame | ⟨payload, hrequest, hadds⟩
        · exact .inl ⟨hsame, fun _ => .inl hmistaken⟩
        · exact .inr ⟨payload, _, hrequest, hadds, fun _ => .inl hmistaken⟩
      · exact .inl ⟨hsame, fun _ => .inr htaken⟩
    · rw [if_neg hcode]
      rcases hposted with hsame | ⟨payload, hrequest, hadds⟩
      · exact .inl ⟨hsame, fun hgoes => absurd hgoes (not_goesOn_returns _)⟩
      · exact .inr ⟨payload, _, hrequest, hadds, fun hgoes => absurd hgoes (not_goesOn_returns _)⟩
  · rename_i response hreply
    obtain ⟨hid, payload, hrequest, hadds⟩ := postProvision_ok hnew hreply
    have hsent : response.tenantId ≠ "" := by
      rw [hid]
      exact hnew.nonempty
    rw [if_neg hsent, hid]
    obtain ⟨settings, hadds', hgoes⟩ := enroll_spec py row calls hadds hnew.tenantId
    exact .inr ⟨payload, settings, hrequest, hadds', fun hnext => .inr (hgoes hnext)⟩

theorem provisionRequest_eq_some (h : row.provisionRequest = some payload) :
    row.companyName = some payload.name ∧ row.tenantSlug = some payload.slug ∧
      row.ownerEmail = some payload.ownerEmail ∧ payload.plan = "starter" := by
  unfold RolloutRow.provisionRequest at h
  split at h
  · rename_i name slug ownerEmail hname hslug howner
    cases h
    exact ⟨hname, hslug, howner, rfl⟩
  · cases h

structure Provisioned (db : Accounts) (row : RolloutRow) (t : Tenant) : Prop where
  tenant : ∃ slug, row.tenantSlug = some slug ∧ TenantRepository.getBySlug db slug = some t
  name : row.companyName = some t.name
  plan : t.plan = "starter"
  status : t.status = "active"
  owner : ∃ u ∈ db.users, u.tenantId = t.id ∧ row.ownerEmail = some u.email ∧ u.role = "owner"
  apiKey : ∃ k ∈ db.apiKeys, k.tenantId = t.id ∧ k.scopes = ["*"] ∧ k.status = "active"

def Absent (db : Accounts) (row : RolloutRow) : Prop :=
  ∀ slug, row.tenantSlug = some slug → TenantRepository.getBySlug db slug = none

theorem absent_iff (hslug : row.tenantSlug = some slug) :
    Absent db row ↔ TenantRepository.getBySlug db slug = none := by
  simp [Absent, hslug]

theorem Provisioned.not_absent (h : Provisioned db row t) : ¬Absent db row := by
  intro habsent
  obtain ⟨slug, hslug, hget⟩ := h.tenant
  rw [habsent slug hslug] at hget
  cases hget

theorem Provisioned.mono (h : Provisioned db row t) (hkeeps : Keeps db db') : Provisioned db' row t := by
  obtain ⟨slug, hslug, hget⟩ := h.tenant
  obtain ⟨u, hu, howner⟩ := h.owner
  obtain ⟨k, hk, hkey⟩ := h.apiKey
  exact { h with
    tenant := ⟨slug, hslug, hkeeps.tenants slug t hget⟩
    owner := ⟨u, hkeeps.users u hu, howner⟩
    apiKey := ⟨k, hkeeps.apiKeys k hk, hkey⟩ }

theorem Adds.provisioned (h : Adds secrets payload draws settings db db') (hnew : NewIds db draws)
    (hrequest : row.provisionRequest = some payload) : Provisioned db' row (added payload draws settings) := by
  obtain ⟨hname, hslug, howner, hplan⟩ := provisionRequest_eq_some hrequest
  have huser : db.users.Fresh (ProvisioningService.newOwner payload draws).id := hnew.userId
  have hkey : db.apiKeys.Fresh (ProvisioningService.newKey secrets draws).id := hnew.apiKeyId
  refine ⟨⟨payload.slug, hslug, h.getBySlug_self⟩, hname, hplan, rfl,
    ⟨ProvisioningService.newOwner payload draws, ?_, rfl, howner, rfl⟩,
    ⟨ProvisioningService.newKey secrets draws, ?_, rfl, rfl, rfl⟩⟩
  · rw [h.users]
    exact (Table.mem_insert huser).mpr (.inr rfl)
  · rw [h.apiKeys]
    exact (Table.mem_insert hkey).mpr (.inr rfl)

structure Apart (draws draws' : ProvisionDraws) : Prop where
  tenantId : draws.tenantId ≠ draws'.tenantId
  userId : draws.userId ≠ draws'.userId
  apiKeyId : draws.apiKeyId ≠ draws'.apiKeyId

theorem fresh_insert {α κ : Type} {key : α → κ} [DecidableEq κ] {table : Table key} {a : α} {k : κ}
    (h : table.Fresh k) (hne : key a ≠ k) : (table.insert a).Fresh k := by
  intro b hb
  rcases Table.mem_of_mem_insert hb with hb | rfl
  · exact h b hb
  · exact hne

theorem NewIds.adds {draws' : ProvisionDraws} (h : NewIds db draws')
    (hadds : Adds secrets payload draws settings db db') (hapart : Apart draws draws') : NewIds db' draws' where
  tenantId t ht := by
    rw [Table.mem_def, hadds.tenants] at ht
    rcases List.mem_append.mp ht with ht | ht
    · exact h.tenantId t ht
    · rw [List.mem_singleton.mp ht]
      exact hapart.tenantId
  userId := by
    rw [hadds.users]
    exact fresh_insert h.userId hapart.userId
  apiKeyId := by
    rw [hadds.apiKeys]
    exact fresh_insert h.apiKeyId hapart.apiKeyId
  nonempty := h.nonempty

section

variable (py : Python) (secrets : Secrets) (hnew : NewIds db calls.draws)
include hnew

theorem processRow_keeps (row : RolloutRow) : Keeps db (processRow py secrets row calls db).2 := by
  rcases processRow_cases py secrets row hnew with ⟨hsame, -⟩ | ⟨payload, settings, -, hadds, -⟩
  · rw [hsame]
    exact Keeps.refl db
  · exact hadds.keeps

theorem processRow_newIds {draws' : ProvisionDraws} (row : RolloutRow) (h : NewIds db draws')
    (hapart : Apart calls.draws draws') : NewIds (processRow py secrets row calls db).2 draws' := by
  rcases processRow_cases py secrets row hnew with ⟨hsame, -⟩ | ⟨payload, settings, -, hadds, -⟩
  · rw [hsame]
    exact h
  · exact h.adds hadds hapart

theorem processRow_absent (hslug : row.tenantSlug ≠ some slug) (hnone : TenantRepository.getBySlug db slug = none) :
    TenantRepository.getBySlug (processRow py secrets row calls db).2 slug = none := by
  rcases processRow_cases py secrets row hnew with ⟨hsame, -⟩ | ⟨payload, settings, hrequest, hadds, -⟩
  · rw [hsame]
    exact hnone
  · have hother : payload.slug ≠ slug := by
      rintro rfl
      exact hslug (provisionRequest_eq_some hrequest).2.1
    rw [hadds.getBySlug, hnone, if_neg hother]
    rfl

theorem processRow_own (hslug : row.tenantSlug = some slug) (hnone : TenantRepository.getBySlug db slug = none) :
    (TenantRepository.getBySlug (processRow py secrets row calls db).2 slug = none ∧
      (GoesOn (processRow py secrets row calls db).1 → Mistaken calls)) ∨
    ∃ t, Provisioned (processRow py secrets row calls db).2 row t ∧
      (GoesOn (processRow py secrets row calls db).1 → Mistaken calls ∨ RolledOut row t) := by
  rcases processRow_cases py secrets row hnew with ⟨hsame, hgoes⟩ | ⟨payload, settings, hrequest, hadds, hgoes⟩
  · refine .inl ⟨by rw [hsame, hnone], ?_⟩
    intro hnext
    rcases hgoes hnext with hmistaken | ⟨payload, t, hrequest, htaken⟩
    · exact hmistaken
    · have hsame : payload.slug = slug :=
        Option.some.inj ((provisionRequest_eq_some hrequest).2.1.symm.trans hslug)
      rw [hsame, hnone] at htaken
      cases htaken
  · exact .inr ⟨_, hadds.provisioned hnew hrequest, hgoes⟩

end

end RolloutTool

end Leadline
