import Leadline.Library.Python
import Leadline.Transactions

namespace Leadline

open Library

structure RoutingDecision where
  matchedRuleId : Option Id
  action : Option String
  actionPayload : Dict

def jsonOfText (value : Option String) : Json := value.elim .null .str

def Lead.columns (l : Lead) : List (String × Json) :=
  [("id", .str l.id), ("tenant_id", .str l.tenantId), ("name", jsonOfText l.name),
    ("email", jsonOfText l.email), ("phone", jsonOfText l.phone), ("company", jsonOfText l.company),
    ("role", jsonOfText l.role), ("channel", jsonOfText l.channel), ("campaign", jsonOfText l.campaign),
    ("utm_source", jsonOfText l.utmSource), ("utm_medium", jsonOfText l.utmMedium),
    ("utm_campaign", jsonOfText l.utmCampaign), ("status", .str l.status), ("stage", jsonOfText l.stage),
    ("lead_score", .int l.leadScore), ("fit_score", .int l.fitScore),
    ("engagement_score", .int l.engagementScore), ("owner_user_id", jsonOfText l.ownerUserId),
    ("assigned_team_id", jsonOfText l.assignedTeamId),
    ("assigned_queue_name", jsonOfText l.assignedQueueName), ("marketing_opt_in", .bool l.marketingOptIn),
    ("allowed_channels", l.allowedChannels.elim .null fun channels => .arr (channels.map .str)),
    ("custom_fields", l.customFields.elim .null .obj)]

/-- Their first access queries the database, which an async session refuses. -/
def unloadedAttributes : List String := ["timeline_events", "sessions"]

/-- The value of an attribute; one that is no JSON value is known by its text. -/
inductive FieldValue
  | json (value : Json)
  | object (text : String)

def FieldValue.text : FieldValue → String
  | json value => value.pyStr
  | object text => text

namespace RoutingEngine

-- `getattr` is what an attribute that is no column holds: `created_at`, `__tablename__`, a method.
variable (py : Python) (getattr : Lead → String → Option FieldValue)

/-- `_to_float`, or `none` where it raises. -/
def toFloat : FieldValue → Option (Option Double)
  | .object _ => some none
  | .json .null => some none
  | .json value =>
    match py.float value with
    | .value d => some (some d)
    | .invalid => some none
    | .overflow => none

def compareNumbers (less : Double → Double → Bool) (lhs : FieldValue) (rhs : Json) : Option Bool := do
  let left ← toFloat py lhs
  let right ← toFloat py (.json rhs)
  match left, right with
  | some left, some right => pure (less left right)
  | _, _ => pure false

def equalTo (lhs : FieldValue) (rhs : Json) : Bool :=
  match lhs with
  | .json value => py.equal value rhs
  | .object _ => false

def isIn (lhs : FieldValue) : Json → Bool
  | .arr items => items.any fun item => equalTo py lhs item
  | _ => false

def operators : List (String × (FieldValue → Json → Option Bool)) :=
  [("eq", fun lhs rhs => some (equalTo py lhs rhs)),
    ("neq", fun lhs rhs => some (!equalTo py lhs rhs)),
    ("contains", fun lhs rhs => some (py.containsText lhs.text rhs.pyStr)),
    ("gt", compareNumbers py fun left right => right.less left),
    ("gte", compareNumbers py fun left right => right.lessOrEqual left),
    ("lt", compareNumbers py Double.less),
    ("lte", compareNumbers py Double.lessOrEqual),
    ("in", fun lhs rhs => some (isIn py lhs rhs))]

def customPrefix : String := "custom_fields."

/-- `_lead_value`, or `none` where it raises. -/
def leadValue (lead : Lead) (field : String) : Option FieldValue :=
  match lead.columns.lookup field with
  | some value => some (.json value)
  | none =>
    if field ∈ unloadedAttributes then none
    else
      match getattr lead field with
      | some value => some value
      | none =>
        if customPrefix.toList.isPrefixOf field.toList then
          let key := String.ofList (field.toList.drop customPrefix.length)
          some (.json ((Dict.get (lead.customFields.getD []) key).getD .null))
        else some (.json .null)

/-- `str(condition.get(key, default)).strip()` -/
def conditionText (condition : Dict) (key default : String) : String :=
  strip ((condition.get key).elim default Json.pyStr)

def conditionHolds (lead : Lead) (condition : Dict) : Option Bool :=
  match (operators py).lookup (conditionText condition "op" "eq") with
  | none => some false
  | some comparator =>
    (leadValue getattr lead (conditionText condition "field" "")).bind fun actual =>
      comparator actual ((condition.get "value").getD .null)

def allHold (lead : Lead) : List Dict → Option Bool
  | [] => some true
  | condition :: rest =>
    (conditionHolds py getattr lead condition).bind fun holds =>
      if holds then allHold lead rest else some false

def ruleMatches (lead : Lead) (rule : RoutingRule) : Option Bool :=
  allHold py getattr lead (rule.conditions.getD [])

/-- `(-item.priority, item.id)` -/
def Precedes (r s : RoutingRule) : Prop := s.priority < r.priority ∨ r.priority = s.priority ∧ r.id ≤ s.id

instance : DecidableRel Precedes := fun _ _ => inferInstanceAs (Decidable (_ ∨ _ ∧ _))

def firstMatch (lead : Lead) : List RoutingRule → Option RoutingDecision
  | [] => some ⟨none, none, []⟩
  | rule :: rest =>
    if rule.enabled then
      (ruleMatches py getattr lead rule).bind fun holds =>
        if holds then some ⟨some rule.id, some rule.action, rule.actionPayload.getD []⟩
        else firstMatch lead rest
    else firstMatch lead rest

def evaluateRouting (lead : Lead) (rules : List RoutingRule) : Option RoutingDecision :=
  firstMatch py getattr lead (rules.insertionSort Precedes)

/-- `str(payload.get(key)) if payload.get(key) else None` -/
def assigned (payload : Dict) (key : String) : Option String :=
  ((payload.get key).filter py.truthy).map Json.pyStr

def applyRoutingDecision (lead : Lead) (decision : RoutingDecision) : Lead :=
  let payload := decision.actionPayload
  if decision.action = some "assign_user" then
    { lead with
      ownerUserId := assigned py payload "user_id", assignedTeamId := none, assignedQueueName := none }
  else if decision.action = some "assign_team" then
    { lead with
      assignedTeamId := assigned py payload "team_id", ownerUserId := none, assignedQueueName := none }
  else if decision.action = some "queue" then
    { lead with
      assignedQueueName := assigned py payload "queue_name", ownerUserId := none, assignedTeamId := none }
  else lead

theorem applyRoutingDecision_frame (py : Python) (lead : Lead) (decision : RoutingDecision) :
    ∃ owner team queue, applyRoutingDecision py lead decision =
      { lead with ownerUserId := owner, assignedTeamId := team, assignedQueueName := queue } := by
  unfold applyRoutingDecision
  dsimp only
  split
  · exact ⟨_, _, _, rfl⟩
  · split
    · exact ⟨_, _, _, rfl⟩
    · split
      · exact ⟨_, _, _, rfl⟩
      · exact ⟨lead.ownerUserId, lead.assignedTeamId, lead.assignedQueueName, rfl⟩

end RoutingEngine

structure RoutingRuleCreate where
  name : String
  priority : ℤ := 100
  enabled : Bool := true
  conditions : List Dict := []
  action : String
  actionPayload : Dict := []

structure RoutingRuleUpdate where
  name : Option (Option String) := none
  priority : Option (Option ℤ) := none
  enabled : Option (Option Bool) := none
  conditions : Option (Option (List Dict)) := none
  action : Option (Option String) := none
  actionPayload : Option (Option Dict) := none

def RoutingRuleUpdate.apply (data : RoutingRuleUpdate) (r : RoutingRule) : Option RoutingRule := do
  let name ← setColumn r.name data.name
  let priority ← setColumn r.priority data.priority
  let enabled ← setColumn r.enabled data.enabled
  let action ← setColumn r.action data.action
  pure { r with
    name := name
    priority := priority
    enabled := enabled
    conditions := data.conditions.getD r.conditions
    action := action
    actionPayload := data.actionPayload.getD r.actionPayload }

theorem RoutingRuleUpdate.apply_eq_some {data : RoutingRuleUpdate} {r updated : RoutingRule}
    (h : data.apply r = some updated) :
    updated.id = r.id ∧ updated.tenantId = r.tenantId ∧
      updated.conditions = data.conditions.getD r.conditions ∧
      updated.actionPayload = data.actionPayload.getD r.actionPayload := by
  simp only [apply, Option.bind_eq_bind, Option.bind_eq_some_iff, Option.pure_def, Option.some.injEq] at h
  obtain ⟨_, -, _, -, _, -, _, -, rfl⟩ := h
  exact ⟨rfl, rfl, rfl, rfl⟩

namespace RoutingRuleRepository

def create (id tenantId : Id) (data : RoutingRuleCreate) : RoutingRule where
  id := id
  tenantId := tenantId
  name := data.name
  priority := data.priority
  enabled := data.enabled
  conditions := some data.conditions
  action := data.action
  actionPayload := some data.actionPayload

def get (db : Db) (tenantId ruleId : Id) : Option RoutingRule :=
  ofTenant RoutingRule.tenantId db.routingRules tenantId ruleId

/-- `order_by(priority.desc(), id.asc())` -/
def listRules (db : Db) (tenantId : Id) : List RoutingRule :=
  (db.routingRules.rows.filter fun r => r.tenantId = tenantId).insertionSort RoutingEngine.Precedes

def listEnabledRules (db : Db) (tenantId : Id) : List RoutingRule :=
  (db.routingRules.rows.filter fun r => r.tenantId = tenantId ∧ r.enabled).insertionSort RoutingEngine.Precedes

end RoutingRuleRepository

def ruleNotFound : HTTPException := ⟨404, "routing rule not found"⟩

namespace RoutingService

section Requests

variable (db : Db) (tenantId : Id)

def createRule (payload : RoutingRuleCreate) (id : Id) : Work RoutingRule :=
  let record := RoutingRuleRepository.create id tenantId payload
  .commits { writes := [.routingRule (.add record)], value := record }

def listRules : Work (List RoutingRule) := .answered (RoutingRuleRepository.listRules db tenantId)

def getRule (ruleId : Id) : Work RoutingRule :=
  match RoutingRuleRepository.get db tenantId ruleId with
  | none => .refused ruleNotFound
  | some record => .answered record

def updateRule (ruleId : Id) (payload : RoutingRuleUpdate) : Work RoutingRule :=
  match RoutingRuleRepository.get db tenantId ruleId with
  | none => .refused ruleNotFound
  | some record =>
    match payload.apply record with
    | none => .raised
    | some updated => .commits { writes := [.routingRule (.set updated)], value := updated }

def deleteRule (ruleId : Id) : Work Unit :=
  match RoutingRuleRepository.get db tenantId ruleId with
  | none => .refused ruleNotFound
  | some record => .commits { writes := [.routingRule (.delete record.id)], value := () }

end Requests

def evaluatedEvent (id tenantId : Id) (lead : Lead) (decision : RoutingDecision) : LeadTimelineEvent where
  id := id
  tenantId := tenantId
  leadId := lead.id
  type := "routing_evaluated"
  payload := some [("matched_rule_id", jsonOfText decision.matchedRuleId),
    ("action", jsonOfText decision.action), ("action_payload", .obj decision.actionPayload)]

def evaluateAndApply (py : Python) (getattr : Lead → String → Option FieldValue) (db : Db) (tenantId leadId : Id)
    (eventId : Id) : Work (Option Lead × RoutingDecision) :=
  match LeadRepository.get db tenantId leadId with
  | none => .answered (none, ⟨none, none, []⟩)
  | some lead =>
    match RoutingEngine.evaluateRouting py getattr lead (RoutingRuleRepository.listEnabledRules db tenantId) with
    | none => .raised
    | some decision =>
      let routed := RoutingEngine.applyRoutingDecision py lead decision
      .commits
        { writes := [.lead (.set routed), .timelineEvent (.add (evaluatedEvent eventId tenantId lead decision))]
          value := (some routed, decision) }

end RoutingService

def processRoutingEvent (py : Python) (getattr : Lead → String → Option FieldValue) (db : Db) (payload : Dict)
    (eventId : Id) : Work Unit :=
  match payload.text "tenant_id", payload.text "lead_id" with
  | some tenantId, some leadId =>
    (RoutingService.evaluateAndApply py getattr db tenantId leadId eventId).map fun _ => ()
  | _, _ => .answered ()

theorem processRoutingEvent_cases (py : Python) (getattr : Lead → String → Option FieldValue) (db : Db)
    (payload : Dict) (eventId : Id) :
    processRoutingEvent py getattr db payload eventId = .answered () ∨
      processRoutingEvent py getattr db payload eventId = .raised ∨
      ∃ tenantId leadId lead decision, payload.text "tenant_id" = some tenantId ∧
        payload.text "lead_id" = some leadId ∧ LeadRepository.get db tenantId leadId = some lead ∧
        processRoutingEvent py getattr db payload eventId = .commits
          { writes := [.lead (.set (RoutingEngine.applyRoutingDecision py lead decision)),
              .timelineEvent (.add (RoutingService.evaluatedEvent eventId tenantId lead decision))]
            value := () } := by
  unfold processRoutingEvent
  cases ht : payload.text "tenant_id" with
  | none => exact .inl rfl
  | some tenantId =>
    cases hl : payload.text "lead_id" with
    | none => exact .inl rfl
    | some leadId =>
      dsimp only
      unfold RoutingService.evaluateAndApply
      cases hget : LeadRepository.get db tenantId leadId with
      | none => exact .inl rfl
      | some lead =>
        dsimp only
        cases RoutingEngine.evaluateRouting py getattr lead
            (RoutingRuleRepository.listEnabledRules db tenantId) with
        | none => exact .inr (.inl rfl)
        | some decision => exact .inr (.inr ⟨tenantId, leadId, lead, decision, rfl, rfl, hget, rfl⟩)

end Leadline
