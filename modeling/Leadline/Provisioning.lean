import Leadline.Library.Python
import Leadline.LeadService

namespace Leadline

open Library

structure User where
  id : Id
  tenantId : Id
  email : String
  role : String
  status : String
  preferences : Dict

structure APIKey where
  id : Id
  tenantId : Id
  name : String
  scopes : List String
  status : String
  lastUsedAt : Option Timestamp
  keyPrefix : String
  keyHash : String

structure Accounts where
  tenants : Table Tenant.id := .empty
  users : Table User.id := .empty
  apiKeys : Table APIKey.id := .empty

structure RawAPIKey where
  display : String
  keyPrefix : String

def lookupPrefix (token : String) : String := String.ofList (token.toList.take 16)

/-- `build_api_key`, after `secrets.token_urlsafe` gave the random part. -/
def buildApiKey (live random : String) : RawAPIKey :=
  let token := live ++ "_" ++ random
  ⟨token, lookupPrefix token⟩

/-- `pwd_context`: a hash takes a salt of its own. -/
structure Secrets where
  hashSecret : ℕ → String → String
  verifySecret : String → String → Bool

def Secrets.Sound (secrets : Secrets) : Prop :=
  ∀ salt raw secret, secrets.verifySecret raw (secrets.hashSecret salt secret) = true ↔ raw = secret

structure ProvisionTenantRequest where
  name : String
  slug : String
  ownerEmail : String
  plan : String := "starter"

structure ProvisionDraws where
  tenantId : Id
  userId : Id
  apiKeyId : Id
  random : String
  salt : ℕ

structure ProvisionTenantResponse where
  tenantId : Id
  userId : Id
  apiKey : String
  plan : String
  deriving DecidableEq

def TenantRepository.getBySlug (db : Accounts) (slug : String) : Option Tenant :=
  db.tenants.rows.find? fun t => t.slug = slug

namespace ProvisioningService

def newTenant (payload : ProvisionTenantRequest) (draws : ProvisionDraws) : Tenant where
  id := draws.tenantId
  name := payload.name
  slug := payload.slug
  plan := payload.plan
  status := "active"
  settings := .obj [("plan_limits", .obj []), ("design_partner", .bool false), ("rollout_percentage", .int 0)]

def newOwner (payload : ProvisionTenantRequest) (draws : ProvisionDraws) : User where
  id := draws.userId
  tenantId := draws.tenantId
  email := payload.ownerEmail
  role := "owner"
  status := "active"
  preferences := []

def rawKey (draws : ProvisionDraws) : RawAPIKey := buildApiKey "ll_live" draws.random

def newKey (secrets : Secrets) (draws : ProvisionDraws) : APIKey where
  id := draws.apiKeyId
  tenantId := draws.tenantId
  name := "default-live-key"
  scopes := ["*"]
  status := "active"
  lastUsedAt := none
  keyPrefix := (rawKey draws).keyPrefix
  keyHash := secrets.hashSecret draws.salt (rawKey draws).display

def provisionTenant (secrets : Secrets) (db : Accounts) (payload : ProvisionTenantRequest) (draws : ProvisionDraws) :
    Except String (Accounts × ProvisionTenantResponse) :=
  match TenantRepository.getBySlug db payload.slug with
  | some _ => .error "tenant slug already exists"
  | none =>
    .ok ({ tenants := db.tenants.insert (newTenant payload draws)
           users := db.users.insert (newOwner payload draws)
           apiKeys := db.apiKeys.insert (newKey secrets draws) },
      { tenantId := draws.tenantId
        userId := draws.userId
        apiKey := (rawKey draws).display
        plan := payload.plan })

end ProvisioningService

structure DesignPartnerEnrollmentRequest where
  cohort : String := "wave-1"
  launchNotes : Option String := none

/-- `Field(ge=0, le=100)` -/
structure RolloutPromotionRequest where
  rolloutPercentage : ℤ
  nonneg : 0 ≤ rolloutPercentage
  le_hundred : rolloutPercentage ≤ 100

structure DesignPartnerEnrollmentResponse where
  tenantId : Id
  enrolled : Bool
  cohort : String

structure RolloutPromotionResponse where
  tenantId : Id
  rolloutPercentage : ℤ

/-- `dict(tenant.settings) if isinstance(tenant.settings, dict) else {}` -/
def Tenant.settingsCopy (tenant : Tenant) : Dict :=
  match tenant.settings with
  | .obj settings => settings
  | _ => []

def Tenant.setting (tenant : Tenant) (k : String) : Option Json := tenant.settingsCopy.get k

def Tenant.withSettings (settings : Dict) (tenant : Tenant) : Tenant := { tenant with settings := .obj settings }

theorem Tenant.id_withSettings (settings : Dict) (tenant : Tenant) : (tenant.withSettings settings).id = tenant.id :=
  rfl

namespace TenantRepository

def get (tenants : Table Tenant.id) (tenantId : Id) : Option Tenant := tenants.find? tenantId

/-- What the flush of `update(tenant, {"settings": settings})` writes: nothing where the new object
equals the one that was read. -/
def changedSettings (py : Python) (tenant : Tenant) (settings : Dict) : Option Dict :=
  if py.equal (.obj settings) tenant.settings then none else some settings

def writeSettings (tenants : Table Tenant.id) (tenantId : Id) : Option Dict → Table Tenant.id
  | none => tenants
  | some settings => tenants.modify tenantId (Tenant.withSettings settings) (Tenant.id_withSettings settings)

def update (py : Python) (tenants : Table Tenant.id) (tenant : Tenant) (settings : Dict) : Table Tenant.id :=
  writeSettings tenants tenant.id (changedSettings py tenant settings)

end TenantRepository

namespace ProvisioningService

def enrolledSettings (tenant : Tenant) (cohort : String) (launchNotes : Option String) : Dict :=
  ((tenant.settingsCopy.set "design_partner" (.bool true)).set "design_partner_cohort" (.str cohort)).set
    "design_partner_notes" (.str (launchNotes.getD ""))

def promotedSettings (tenant : Tenant) (rolloutPercentage : ℤ) : Dict :=
  tenant.settingsCopy.set "rollout_percentage" (.int rolloutPercentage)

def enrollDesignPartner (py : Python) (tenants : Table Tenant.id) (tenantId : Id) (cohort : String)
    (launchNotes : Option String) : Except String (Table Tenant.id × Bool × String) :=
  match TenantRepository.get tenants tenantId with
  | none => .error "tenant not found"
  | some tenant =>
    .ok (TenantRepository.update py tenants tenant (enrolledSettings tenant cohort launchNotes), true, cohort)

def promoteRollout (py : Python) (tenants : Table Tenant.id) (tenantId : Id) (rolloutPercentage : ℤ) :
    Except String (Table Tenant.id × ℤ) :=
  match TenantRepository.get tenants tenantId with
  | none => .error "tenant not found"
  | some tenant =>
    .ok (TenantRepository.update py tenants tenant (promotedSettings tenant rolloutPercentage), rolloutPercentage)

end ProvisioningService

namespace AdminApi

/-- `POST /v1/admin/design-partners/{tenant_id}/enroll` -/
def enrollDesignPartner (py : Python) (db : Accounts) (tenantId : Id) (payload : DesignPartnerEnrollmentRequest)
    (commit : CallOutcome) : Answer DesignPartnerEnrollmentResponse × Accounts :=
  match ProvisioningService.enrollDesignPartner py db.tenants tenantId payload.cohort payload.launchNotes with
  | .error detail => (.refused ⟨404, detail⟩, db)
  | .ok (tenants, enrolled, cohort) =>
    (if commit.raises then .raised else .returned ⟨tenantId, enrolled, cohort⟩,
      if commit.takesEffect then { db with tenants } else db)

/-- `POST /v1/admin/design-partners/{tenant_id}/promote` -/
def promoteRollout (py : Python) (db : Accounts) (tenantId : Id) (payload : RolloutPromotionRequest)
    (commit : CallOutcome) : Answer RolloutPromotionResponse × Accounts :=
  match ProvisioningService.promoteRollout py db.tenants tenantId payload.rolloutPercentage with
  | .error detail => (.refused ⟨404, detail⟩, db)
  | .ok (tenants, rolloutPercentage) =>
    (if commit.raises then .raised else .returned ⟨tenantId, rolloutPercentage⟩,
      if commit.takesEffect then { db with tenants } else db)

end AdminApi

/-- `POST /v1/admin/provision` -/
def AdminApi.provisionTenant (secrets : Secrets) (db : Accounts) (payload : ProvisionTenantRequest)
    (draws : ProvisionDraws) (commit : CallOutcome) : Answer ProvisionTenantResponse × Accounts :=
  match ProvisioningService.provisionTenant secrets db payload draws with
  | .error detail => (.refused ⟨400, detail⟩, db)
  | .ok (db', response) =>
    (if commit.raises then .raised else .returned response, if commit.takesEffect then db' else db)

end Leadline
