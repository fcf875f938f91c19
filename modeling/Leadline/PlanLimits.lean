import Leadline.Rows

namespace Leadline

open Library

/-- The errors the program answers with by itself. -/
structure HTTPException where
  statusCode : ℕ
  detail : String
  deriving DecidableEq

structure PlanLimits where
  maxLeads : ℤ
  maxSessions : ℤ
  maxMessages : ℤ

namespace PlanLimitService

def starter : PlanLimits := ⟨500, 3000, 20000⟩

def defaultLimits : List (String × PlanLimits) :=
  [("starter", starter), ("growth", ⟨5000, 30000, 250000⟩), ("enterprise", ⟨1000000, 1000000, 10000000⟩)]

/-- `isinstance(value, int)`; a `bool` is an `int`. -/
def intValue : Option Json → Option ℤ
  | some (.int n) => some n
  | some (.bool b) => some (if b then 1 else 0)
  | _ => none

def overrideLimit (tenantLimits : Dict) (key : String) (limit : ℤ) : ℤ :=
  ((intValue (tenantLimits.get key)).filter (0 < ·)).getD limit

def overrideLimits (limits : PlanLimits) (tenantLimits : Dict) : PlanLimits where
  maxLeads := overrideLimit tenantLimits "max_leads" limits.maxLeads
  maxSessions := overrideLimit tenantLimits "max_sessions" limits.maxSessions
  maxMessages := overrideLimit tenantLimits "max_messages" limits.maxMessages

/-- `tenant.settings.get("plan_limits", {})`, where a value that is no object changes nothing. -/
def tenantLimits : Json → Dict
  | .obj settings =>
    match Dict.get settings "plan_limits" with
    | some (.obj limits) => limits
    | _ => []
  | _ => []

def getPlanLimits (db : Db) (tenantId : Id) : PlanLimits :=
  match db.tenants.find? tenantId with
  | none => starter
  | some tenant =>
    overrideLimits ((defaultLimits.lookup tenant.plan).getD starter) (tenantLimits tenant.settings)

def enforceLimit (count : ℕ) (limit : ℤ) (detail : String) : Except HTTPException Unit :=
  if limit ≤ count then .error ⟨429, detail⟩ else .ok ()

def enforceLeadCreationLimit (db : Db) (tenantId : Id) : Except HTTPException Unit :=
  enforceLimit (db.leads.rows.countP (fun l => l.tenantId = tenantId)) (getPlanLimits db tenantId).maxLeads
    "plan lead limit exceeded"

def enforceSessionCreationLimit (db : Db) (tenantId : Id) : Except HTTPException Unit :=
  enforceLimit (db.sessions.rows.countP (fun s => s.tenantId = tenantId)) (getPlanLimits db tenantId).maxSessions
    "plan session limit exceeded"

def enforceMessageCreationLimit (db : Db) (tenantId : Id) : Except HTTPException Unit :=
  enforceLimit (db.messages.rows.countP (fun m => m.tenantId = tenantId)) (getPlanLimits db tenantId).maxMessages
    "plan message limit exceeded"

theorem overrideLimit_pos {tenantLimits : Dict} {key : String} {limit : ℤ} (h : 0 < limit) :
    0 < overrideLimit tenantLimits key limit := by
  unfold overrideLimit
  cases hv : (intValue (tenantLimits.get key)).filter (0 < ·) with
  | none => exact h
  | some value =>
    have hpos := (Option.filter_eq_some_iff.mp hv).2
    exact of_decide_eq_true hpos

theorem maxLeads_pos (db : Db) (tenantId : Id) : 0 < (getPlanLimits db tenantId).maxLeads := by
  unfold getPlanLimits
  cases db.tenants.find? tenantId with
  | none => exact by decide
  | some tenant =>
    apply overrideLimit_pos
    cases hl : defaultLimits.lookup tenant.plan with
    | none => exact by decide
    | some limits =>
      obtain ⟨l₁, l₂, hd, -⟩ := List.lookup_eq_some_iff.mp hl
      have hm : (tenant.plan, limits) ∈ defaultLimits := by
        rw [hd]
        simp
      have hall : ∀ p ∈ defaultLimits, 0 < p.2.maxLeads := by decide
      exact hall _ hm

end PlanLimitService

end Leadline
