import Leadline.Webhooks

namespace Leadline

open Library

/-- How a call of a provider's client ends: with its `bool`, or an exception. -/
inductive ProviderCall
  | accepted
  | declined
  | raises
  deriving DecidableEq

namespace IntegrationConnectionRepository

variable (connections : Table IntegrationConnection.id) (tenantId : Id) (type : String)

def getByType : Option (Option IntegrationConnection) :=
  scalarOneOrNone (connections.rows.filter fun c => c.tenantId = tenantId ∧ c.type = type)

/-- The row of the tenant and type, changed or new, after `mark_synced`; `none` where the lookup raises. -/
def upsertSynced (id : Id) (authData : Dict) (now : Timestamp) : Option (Table IntegrationConnection.id) :=
  (getByType connections tenantId type).map fun
    | some existing =>
      connections.modify existing.id
        (fun c => { c with authData := authData, status := "active", lastSyncAt := some now }) fun _ => rfl
    | none => connections.insert ⟨id, tenantId, type, authData, "active", some now⟩

end IntegrationConnectionRepository

namespace IntegrationService

/-- `encrypt` is `encrypt_json`, which depends on the configured key. -/
def sync (encrypt : Dict → Dict) (connections : Table IntegrationConnection.id) (tenantId : Id)
    (type provider : String) (call : ProviderCall) (id : Id) (now : Timestamp) :
    Option (Bool × Table IntegrationConnection.id) :=
  match call with
  | .raises => none
  | .declined => some (false, connections)
  | .accepted =>
    (IntegrationConnectionRepository.upsertSynced connections tenantId type id
      (encrypt [("provider", .str provider)]) now).map fun stored => (true, stored)

variable (encrypt : Dict → Dict) (connections : Table IntegrationConnection.id) (tenantId : Id)
  (call : ProviderCall) (id : Id) (now : Timestamp)

def syncHubspotLead : Option (Bool × Table IntegrationConnection.id) :=
  sync encrypt connections tenantId "hubspot" "hubspot" call id now

def syncHubspotActivity : Option (Bool × Table IntegrationConnection.id) :=
  sync encrypt connections tenantId "hubspot" "hubspot" call id now

def createCalendarBooking : Option (Bool × Table IntegrationConnection.id) :=
  sync encrypt connections tenantId "google_calendar" "google_calendar" call id now

end IntegrationService

end Leadline
