import Leadline.GatewayAccess

namespace Leadline

open Library Table

namespace Gateway

open AuthMiddleware

variable {app : App} {p p' : Platform} {a : Arrival} {context : AuthContext} {tenantId : Id}

/-- The request is answered and its audit entry stored, and it is no administrator's call that names the tenant. -/
def Recorded (app : App) (tenantId : Id) (p : Platform) : Label → Prop
  | .exchange a => (p.answer app a).1 ≠ .exception ∧ a.auditCommit.takesEffect = true ∧
      ∀ endpoint, a.endpoint = .guarded endpoint → ¬Names tenantId endpoint
  | .job job _ _ => job.payload.str? "tenant_id" ≠ some tenantId
  | .deadLetter _ _ => True

end Gateway

open Gateway

namespace Gateway

end Gateway

end Leadline
