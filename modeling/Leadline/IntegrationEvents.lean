import Leadline.Integrations
import Leadline.Transactions

namespace Leadline

open Library

/-- How the providers answer; the connection row gets `connectionId` if there is none. -/
structure IntegrationCalls where
  hubspot : ProviderCall := .declined
  slackRaises : Bool := false
  svixRaises : Bool := false
  connectionId : Id
  now : Timestamp

namespace IntegrationEvents

/-- As `upsertSynced`, with the row it writes; `none` where the lookup raises. -/
def connectionWrite (connections : Table IntegrationConnection.id) (tenantId : Id) (type : String) (id : Id)
    (authData : Dict) (now : Timestamp) : Option (RowWrite IntegrationConnection) :=
  (IntegrationConnectionRepository.getByType connections tenantId type).map fun
    | some existing =>
      .set { existing with authData := authData, status := "active", lastSyncAt := some now }
    | none => .add ⟨id, tenantId, type, authData, "active", some now⟩

/-- The writes of `sync_hubspot_lead` and `sync_hubspot_activity`; `none` where they raise. -/
def syncWrites (encrypt : Dict → Dict) (db : Db) (tenantId : Id) (calls : IntegrationCalls) : Option (List Write) :=
  match calls.hubspot with
  | .raises => none
  | .declined => some []
  | .accepted =>
    (connectionWrite db.integrationConnections tenantId "hubspot" calls.connectionId
      (encrypt [("provider", .str "hubspot")]) calls.now).map fun w => [.connection w]

def isLeadChange (event : String) : Bool := event ∈ ["integration.lead.created", "integration.lead.updated"]

def isScoreUpdate (event : String) : Bool := event = "integration.lead.score_updated"

def notifiesHighIntent (event : String) (lead : Lead) : Bool := isScoreUpdate event && 80 ≤ lead.leadScore

def leadWork (encrypt : Dict → Dict) (db : Db) (tenantId : Id) (event : String) (lead : Lead)
    (calls : IntegrationCalls) : Work Unit :=
  if isLeadChange event || isScoreUpdate event then
    match syncWrites encrypt db tenantId calls with
    | none => .raised
    | some writes =>
      if (notifiesHighIntent event lead && calls.slackRaises) || calls.svixRaises then .raised
      else .commits { writes := writes, value := () }
  else .commits { writes := [], value := () }

end IntegrationEvents

def processIntegrationEvent (encrypt : Dict → Dict) (db : Db) (payload : Dict) (calls : IntegrationCalls) :
    Work Unit :=
  match payload.text "event", payload.text "tenant_id", payload.text "lead_id" with
  | some event, some tenantId, some leadId =>
    match LeadRepository.get db tenantId leadId with
    | none => .answered ()
    | some lead => IntegrationEvents.leadWork encrypt db tenantId event lead calls
  | _, _, _ => .answered ()

namespace IntegrationEvents

theorem syncWrites_eq (encrypt : Dict → Dict) (db : Db) (tenantId : Id) (calls : IntegrationCalls) :
    (IntegrationService.syncHubspotLead encrypt db.integrationConnections tenantId calls.hubspot
        calls.connectionId calls.now).map Prod.snd =
      (syncWrites encrypt db tenantId calls).map fun writes => (db.writeAll writes).integrationConnections := by
  unfold IntegrationService.syncHubspotLead IntegrationService.sync syncWrites
  cases calls.hubspot with
  | raises => rfl
  | declined => rfl
  | accepted =>
    unfold IntegrationConnectionRepository.upsertSynced connectionWrite
    cases hrow : IntegrationConnectionRepository.getByType db.integrationConnections tenantId "hubspot" with
    | none => rfl
    | some found =>
      cases found with
      | none => rfl
      | some existing =>
        have hrows := scalarOneOrNone_eq_some.mp hrow
        have hmem : existing ∈ db.integrationConnections := by
          have hfirst : existing ∈ db.integrationConnections.rows.filter
              fun c => c.tenantId = tenantId ∧ c.type = "hubspot" := by
            rw [hrows]
            exact List.mem_singleton_self existing
          exact (List.mem_filter.mp hfirst).1
        have hput := Table.modify_eq_put
          (f := fun c => { c with
            authData := encrypt [("provider", .str "hubspot")]
            status := "active"
            lastSyncAt := some calls.now })
          (fun _ => rfl) (Table.find?_eq_some_iff.mpr ⟨hmem, rfl⟩)
        simp only [Option.map_some]
        rw [hput]
        rfl

theorem syncWrites_cases {encrypt : Dict → Dict} {db : Db} {tenantId : Id} {calls : IntegrationCalls}
    {writes : List Write} (h : syncWrites encrypt db tenantId calls = some writes) :
    writes = [] ∨
      (∃ c : IntegrationConnection, c.id = calls.connectionId ∧ c.tenantId = tenantId ∧
        writes = [.connection (.add c)]) ∨
      ∃ old ∈ db.integrationConnections, ∃ c : IntegrationConnection, c.id = old.id ∧
        old.tenantId = tenantId ∧ c.tenantId = tenantId ∧ writes = [.connection (.set c)] := by
  unfold syncWrites at h
  cases hcall : calls.hubspot with
  | raises =>
    rw [hcall] at h
    cases h
  | declined =>
    rw [hcall] at h
    exact .inl (Option.some.inj h).symm
  | accepted =>
    rw [hcall] at h
    obtain ⟨w, hw, rfl⟩ := Option.map_eq_some_iff.mp h
    obtain ⟨found, hrow, hfound⟩ := Option.map_eq_some_iff.mp hw
    cases found with
    | none =>
      subst hfound
      exact .inr (.inl ⟨_, rfl, rfl, rfl⟩)
    | some existing =>
      subst hfound
      have hfirst : existing ∈ db.integrationConnections.rows.filter
          fun c => c.tenantId = tenantId ∧ c.type = "hubspot" := by
        rw [scalarOneOrNone_eq_some.mp hrow]
        exact List.mem_singleton_self existing
      obtain ⟨hmem, hkey⟩ := List.mem_filter.mp hfirst
      have htenant : existing.tenantId = tenantId := (of_decide_eq_true hkey).1
      let changed : IntegrationConnection :=
        { existing with
          authData := encrypt [("provider", .str "hubspot")], status := "active", lastSyncAt := some calls.now }
      exact .inr (.inr ⟨existing, hmem, changed, rfl, htenant, htenant, rfl⟩)

end IntegrationEvents

theorem processIntegrationEvent_cases (encrypt : Dict → Dict) (db : Db) (payload : Dict)
    (calls : IntegrationCalls) :
    processIntegrationEvent encrypt db payload calls = .answered () ∨
      processIntegrationEvent encrypt db payload calls = .raised ∨
      ∃ tenantId writes, payload.text "tenant_id" = some tenantId ∧
        (writes = [] ∨ IntegrationEvents.syncWrites encrypt db tenantId calls = some writes) ∧
        processIntegrationEvent encrypt db payload calls = .commits { writes := writes, value := () } := by
  unfold processIntegrationEvent
  cases payload.text "event" with
  | none => exact .inl rfl
  | some event =>
    cases ht : payload.text "tenant_id" with
    | none => exact .inl rfl
    | some tenantId =>
      cases payload.text "lead_id" with
      | none => exact .inl rfl
      | some leadId =>
        dsimp only
        cases LeadRepository.get db tenantId leadId with
        | none => exact .inl rfl
        | some lead =>
          dsimp only
          unfold IntegrationEvents.leadWork
          split
          · cases hsync : IntegrationEvents.syncWrites encrypt db tenantId calls with
            | none => exact .inr (.inl rfl)
            | some writes =>
              dsimp only
              split
              · exact .inr (.inl rfl)
              · exact .inr (.inr ⟨tenantId, writes, rfl, .inr hsync, rfl⟩)
          · exact .inr (.inr ⟨tenantId, [], rfl, .inl rfl, rfl⟩)

end Leadline
