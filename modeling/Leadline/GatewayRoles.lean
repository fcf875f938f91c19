import Leadline.GatewayAccess
import Leadline.RequestEffects

namespace Leadline

open Library Table

namespace Gateway

open AuthMiddleware

variable {app : App} {p p' : Platform} {a : Arrival} {context : AuthContext} {db db' : Db}

def Configures : Write → Prop
  | .routingRule _ => True
  | .sequence _ => True
  | .step _ => True
  | _ => False

structure SameConfiguration (db db' : Db) : Prop where
  tenants : db'.tenants = db.tenants
  routingRules : db'.routingRules = db.routingRules
  sequences : db'.sequences = db.sequences
  steps : db'.steps = db.steps

theorem SameConfiguration.refl (db : Db) : SameConfiguration db db := ⟨rfl, rfl, rfl, rfl⟩

theorem SameConfiguration.trans {db'' : Db} (h : SameConfiguration db db') (h' : SameConfiguration db' db'') :
    SameConfiguration db db'' :=
  ⟨h'.tenants.trans h.tenants, h'.routingRules.trans h.routingRules, h'.sequences.trans h.sequences,
    h'.steps.trans h.steps⟩

theorem sameConfiguration_write {w : Write} (h : ¬Configures w) : SameConfiguration db (db.write w) := by
  cases w with
  | lead w => cases w <;> exact ⟨rfl, rfl, rfl, rfl⟩
  | session w => cases w <;> exact ⟨rfl, rfl, rfl, rfl⟩
  | routingRule w => exact absurd trivial h
  | sequence w => exact absurd trivial h
  | step w => exact absurd trivial h
  | _ => exact ⟨rfl, rfl, rfl, rfl⟩

theorem sameConfiguration_writeAll {writes : List Write} (h : ∀ w ∈ writes, ¬Configures w) :
    SameConfiguration db (db.writeAll writes) := by
  induction writes generalizing db with
  | nil => exact .refl db
  | cons w writes ih =>
    rw [Db.writeAll_cons]
    apply SameConfiguration.trans (sameConfiguration_write (h w List.mem_cons_self))
    exact ih fun x hx => h x (List.mem_cons_of_mem w hx)

theorem sameConfiguration_run {α : Type} {work : Work α} (h : work.Each fun w => ¬Configures w) (settings : Settings)
    (calls : Calls) : SameConfiguration db (work.run settings db calls).db := by
  rw [Work.run_db]
  exact sameConfiguration_writeAll (Work.each_written h)

theorem request_not_configures {lower : String → String} {tenantId : Id} {inputs : Inputs} {r : Request}
    (hguard : r.guard = .getAuthContext) : (r.work lower db tenantId inputs).Each fun w => ¬Configures w := by
  have heffect := r.work_hasEffect lower db tenantId inputs
  cases hwork : r.work lower db tenantId inputs with
  | commits c =>
    rw [hwork] at heffect
    obtain ⟨-, heffect⟩ := heffect
    intro w hw
    rcases c with ⟨writes, value, before, after⟩
    cases heffect with
    | createRule => cases hguard
    | updateRule => cases hguard
    | deleteRule => cases hguard
    | createSequence => cases hguard
    | updateSequence => cases hguard
    | deleteSequence => cases hguard
    | createStep => cases hguard
    | updateStep => cases hguard
    | deleteStep => cases hguard
    | enrollLead => cases hguard
    | createLead =>
      simp only [List.mem_cons, List.not_mem_nil, or_false] at hw
      rcases hw with rfl | rfl | rfl
      all_goals exact id
    | createSession =>
      simp only [List.mem_cons, List.not_mem_nil, or_false] at hw
      rcases hw with rfl | rfl
      all_goals exact id
    | _ =>
      rw [List.mem_singleton.mp hw]
      exact id
  | _ => trivial

theorem job_not_configures (d : Deployment) (cache : AICache) (payload : Dict) (inputs : JobInputs)
    (event : JobEvent) : (event.handle d db cache payload inputs).1.Each fun w => ¬Configures w := by
  apply (event.handle_writes d db cache payload inputs).imp
  intro w hw
  cases hw <;> exact id

def NoAdmin (app : App) : Platform → Label → Prop
  | _, .exchange a => ∀ token context, bearerToken a.http.authorization = .ok token →
      app.auth.resolveJwtContext token = some context → ¬context.IsAdmin
  | _, _ => True

def unstamped (k : APIKey) : APIKey := { k with lastUsedAt := none }

structure SameSetup (p p' : Platform) : Prop where
  configuration : SameConfiguration p.world.db p'.world.db
  users : p'.users = p.users
  apiKeys : p'.apiKeys.rows.map unstamped = p.apiKeys.rows.map unstamped
  issued : p'.issued = p.issued
  failedJobs : ∀ row ∈ p.failedJobs, row ∈ p'.failedJobs

theorem SameSetup.refl (p : Platform) : SameSetup p p := ⟨.refl _, rfl, rfl, rfl, fun _ hrow => hrow⟩

theorem SameSetup.trans {p'' : Platform} (h : SameSetup p p') (h' : SameSetup p' p'') : SameSetup p p'' :=
  ⟨h.configuration.trans h'.configuration, h'.users.trans h.users, h'.apiKeys.trans h.apiKeys,
    h'.issued.trans h.issued, fun row hrow => h'.failedJobs row (h.failedJobs row hrow)⟩

theorem sameSetup_withWorld {w : World} (h : SameConfiguration p.world.db w.db) :
    SameSetup p { p with world := w } :=
  ⟨h, rfl, rfl, rfl, fun _ hrow => hrow⟩

theorem unstamped_use (k : APIKey) (now : Timestamp) : unstamped (use now k) = unstamped k := rfl

theorem sameSetup_afterDispatch (hscan : ∀ rows, (app.auth.scan rows).Perm rows) :
    SameSetup p (p.afterDispatch app a) := by
  obtain ⟨keys, windows, heq, hkeys, -⟩ := @afterDispatch_eq app p a hscan
  rw [heq]
  refine ⟨.refl _, rfl, ?_, rfl, fun _ hrow => hrow⟩
  rcases hkeys with rfl | ⟨k, -, -, rfl⟩
  · rfl
  · simp only [Table.modify, List.map_map]
    apply List.map_congr_left
    intro other _
    simp only [Function.comp_apply]
    split
    · exact unstamped_use other a.now
    · rfl

theorem not_admin_of_admitted (hno : NoAdmin app p (.exchange a)) (h : p.verdict app a = .admitted context) :
    ¬context.IsAdmin := by
  obtain ⟨⟨token, htoken, hresolve⟩, -⟩ := presents_of_admitted h
  have hkey : (app.auth.resolveApiKeyContext p.accounts token a.now).1 = some context → ¬context.IsAdmin := by
    intro hresolve hadmin
    unfold resolveApiKeyContext at hresolve
    split at hresolve
    · cases hresolve
    · cases hresolve
      rcases hadmin with hrole | hrole
      · cases hrole
      · cases hrole
  unfold resolveContext at hresolve
  split at hresolve
  · split at hresolve
    · rename_i other hother
      cases hresolve
      exact hno token context htoken hother
    · exact hkey hresolve
  · exact hkey hresolve

theorem sameSetup_handle {endpoint : GuardedEndpoint} (hno : ¬context.IsAdmin)
    (hcheck : endpoint.guard.check (some context) = .ok context) :
    SameSetup p (endpoint.handle app p context).2 := by
  have hguard : endpoint.guard = .getAuthContext := by
    cases hguard : endpoint.guard with
    | getAuthContext => rfl
    | requireAdmin =>
      rw [hguard] at hcheck
      simp only [Guard.check, requireAdmin, getAuthContext, Except.bind, if_neg hno] at hcheck
      cases hcheck
  cases endpoint with
  | request r inputs =>
    apply sameSetup_withWorld
    exact sameConfiguration_run (request_not_configures hguard) app.deployment.settings inputs.calls
  | _ => cases hguard

theorem SameSetup.step {label : Label} (hscan : ∀ rows, (app.auth.scan rows).Perm rows)
    (hno : NoAdmin app p label) (hstep : Step app p label p') : SameSetup p p' := by
  cases hstep with
  | exchange a hnew =>
    have hdispatched : SameSetup p (p.afterDispatch app a) := sameSetup_afterDispatch hscan
    apply serve_induct
    · exact hdispatched
    · exact fun events => hdispatched.trans ⟨⟨rfl, rfl, rfl, rfl⟩, rfl, rfl, rfl, fun _ hrow => hrow⟩
    · intro context endpoint hverdict hendpoint hcheck
      exact hdispatched.trans (sameSetup_handle (not_admin_of_admitted hno hverdict) hcheck)
    · exact fun q auditLogs admitted hq => ⟨hq.configuration, hq.users, hq.apiKeys, hq.issued, hq.failedJobs⟩
  | job job event inputs hjob hevent hids =>
    apply sameSetup_withWorld
    exact sameConfiguration_run (job_not_configures _ _ _ _ event) app.deployment.settings inputs.calls
  | deadLetter job row hjob hpayload =>
    exact ⟨.refl _, rfl, rfl, rfl, fun old hold => mem_insert_of_mem hold⟩

end Gateway

open Gateway

theorem only_admins_configure (app : App) (hscan : ∀ rows, (app.auth.scan rows).Perm rows) {p p' : Platform}
    {labels : List Gateway.Label} (hrun : GuardedRun (Gateway.Step app) (NoAdmin app) p labels p') : SameSetup p p' := by
  apply hrun.invariant (SameSetup p)
  · exact fun _ _ _ h hno hstep => h.trans (.step hscan hno hstep)
  · exact .refl p

namespace Gateway

def createRuleByKey : Arrival where
  http := { method := "POST", path := "/v1/routing/rules", authorization := some "Bearer ll_live_AAAAAAAA1" }
  endpoint := .guarded (.request (.createRule { name := "hot leads", action := "assign" }) opsInputs)

theorem createRuleByKey_step :
    Gateway.Step opsApp withAcme (.exchange createRuleByKey) (withAcme.serve opsApp createRuleByKey) := by
  constructor
  intro context endpoint _ hendpoint
  cases hendpoint
  have hids : (withAcme.afterDispatch opsApp createRuleByKey).world.NewIds ["lead-1"] := by decide +kernel
  exact hids

end Gateway

theorem only_admins_configure_key :
    (withAcme.serve opsApp createRuleByKey).auditLogs.map AuditLog.statusCode = [200, 403] ∧
      SameSetup withAcme (withAcme.serve opsApp createRuleByKey) := by
  refine ⟨by decide +kernel, ?_⟩
  refine only_admins_configure opsApp (fun _ => .refl _) (.cons ?_ createRuleByKey_step (.nil _))
  intro token context htoken hcontext
  have hbearer : AuthMiddleware.bearerToken createRuleByKey.http.authorization = .ok "ll_live_AAAAAAAA1" := by
    decide +kernel
  rw [hbearer] at htoken
  cases htoken
  cases hcontext

end Leadline
