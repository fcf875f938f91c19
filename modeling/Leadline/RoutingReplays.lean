import Leadline.Library.FirstHit
import Leadline.Routing

namespace Leadline

open Library

/-- The columns that `apply_routing_decision` writes. -/
structure Assignment where
  ownerUserId : Option Id
  assignedTeamId : Option Id
  assignedQueueName : Option String
  deriving DecidableEq

def Lead.assignment (l : Lead) : Assignment := ⟨l.ownerUserId, l.assignedTeamId, l.assignedQueueName⟩

def Lead.assign (l : Lead) (a : Assignment) : Lead :=
  { l with
    ownerUserId := a.ownerUserId, assignedTeamId := a.assignedTeamId, assignedQueueName := a.assignedQueueName }

@[simp] theorem Lead.assign_assignment (l : Lead) (a : Assignment) : (l.assign a).assignment = a := rfl

namespace RoutingReplays

open RoutingEngine

def assignmentOf (py : Python) (rule : RoutingRule) : Option Assignment :=
  let payload := rule.actionPayload.getD []
  if rule.action = "assign_user" then some ⟨assigned py payload "user_id", none, none⟩
  else if rule.action = "assign_team" then some ⟨none, assigned py payload "team_id", none⟩
  else if rule.action = "queue" then some ⟨none, none, assigned py payload "queue_name"⟩
  else none

def decisionOf (rule : RoutingRule) : RoutingDecision :=
  ⟨some rule.id, some rule.action, rule.actionPayload.getD []⟩

theorem applyRoutingDecision_decisionOf (py : Python) (lead : Lead) (rule : RoutingRule) :
    applyRoutingDecision py lead (decisionOf rule) = (assignmentOf py rule).elim lead lead.assign := by
  simp only [applyRoutingDecision, decisionOf, assignmentOf, Option.some.injEq]
  split
  · rfl
  · split
    · rfl
    · split
      · rfl
      · rfl

theorem precedes_total (r s : RoutingRule) : Precedes r s ∨ Precedes s r := by
  unfold Precedes
  rcases lt_trichotomy r.priority s.priority with h | h | h
  · exact .inr (.inl h)
  · rcases String.le_total r.id s.id with hid | hid
    · exact .inl (.inr ⟨h, hid⟩)
    · exact .inr (.inr ⟨h.symm, hid⟩)
  · exact .inl (.inl h)

theorem precedes_trans {r s t : RoutingRule} (hrs : Precedes r s) (hst : Precedes s t) : Precedes r t := by
  unfold Precedes at *
  rcases hrs with hrs | ⟨hrs, hid⟩
  · rcases hst with hst | ⟨hst, -⟩
    · exact .inl (hst.trans hrs)
    · exact .inl (hst ▸ hrs)
  · rcases hst with hst | ⟨hst, hid'⟩
    · exact .inl (hrs ▸ hst)
    · exact .inr ⟨hrs.trans hst, String.le_trans hid hid'⟩

theorem id_eq_of_precedes {r s : RoutingRule} (hrs : Precedes r s) (hsr : Precedes s r) : r.id = s.id := by
  unfold Precedes at *
  rcases hrs with hrs | ⟨hrs, hid⟩
  · rcases hsr with hsr | ⟨hsr, -⟩
    · omega
    · omega
  · rcases hsr with hsr | ⟨-, hid'⟩
    · omega
    · exact String.le_antisymm hid hid'

instance : Std.Total Precedes := ⟨precedes_total⟩

instance : IsTrans RoutingRule Precedes := ⟨fun _ _ _ => precedes_trans⟩

variable (py : Python) (getattr : Lead → String → Option FieldValue)

structure Fires (among : RoutingRule → Prop) (lead : Lead) (rule : RoutingRule) : Prop where
  enabled : among rule
  holds : ruleMatches py getattr lead rule = some true
  first : ∀ s, among s → s ≠ rule → Precedes s rule → ruleMatches py getattr lead s = some false

variable {py getattr} {lead : Lead}

theorem Fires.unique {among : RoutingRule → Prop} {r s : RoutingRule} (hr : Fires py getattr among lead r)
    (hs : Fires py getattr among lead s) : r = s := by
  by_contra hne
  rcases precedes_total r s with h | h
  · have hfalse := hs.first r hr.enabled hne h
    rw [hr.holds] at hfalse
    cases hfalse
  · have hfalse := hr.first s hs.enabled (Ne.symm hne) h
    rw [hs.holds] at hfalse
    cases hfalse

def EnabledIn (rules : List RoutingRule) (rule : RoutingRule) : Prop := rule ∈ rules ∧ rule.enabled = true

def checked (py : Python) (getattr : Lead → String → Option FieldValue) (lead : Lead) (rule : RoutingRule) :
    Option Bool :=
  if rule.enabled then ruleMatches py getattr lead rule else some false

theorem checked_eq_true {rule : RoutingRule} :
    checked py getattr lead rule = some true ↔ rule.enabled = true ∧ ruleMatches py getattr lead rule = some true := by
  unfold checked
  cases rule.enabled <;> simp

theorem checked_eq_false {rule : RoutingRule} :
    checked py getattr lead rule = some false ↔
      (rule.enabled = true → ruleMatches py getattr lead rule = some false) := by
  unfold checked
  cases rule.enabled <;> simp

theorem firstMatch_eq_firstHit (rules : List RoutingRule) :
    firstMatch py getattr lead rules =
      (firstHit (checked py getattr lead) rules).map fun hit => hit.elim ⟨none, none, []⟩ decisionOf := by
  induction rules with
  | nil => rfl
  | cons rule rest ih =>
    simp only [firstMatch, firstHit, checked]
    split
    · cases ruleMatches py getattr lead rule with
      | none => rfl
      | some holds =>
        cases holds with
        | true => rfl
        | false => exact ih
    · exact ih

theorem firstMatch_of_fires {rules : List RoutingRule} {rule : RoutingRule} (hsorted : rules.Pairwise Precedes)
    (h : Fires py getattr (EnabledIn rules) lead rule) :
    firstMatch py getattr lead rules = some (decisionOf rule) := by
  have hhit : firstHit (checked py getattr lead) rules = some (some rule) := by
    apply firstHit_of_first hsorted h.enabled.1 (checked_eq_true.mpr ⟨h.enabled.2, h.holds⟩)
    intro s hs hne hprecedes
    exact checked_eq_false.mpr fun henabled => h.first s ⟨hs, henabled⟩ hne hprecedes
  rw [firstMatch_eq_firstHit, hhit]
  rfl

theorem untied_of_ids {rules : List RoutingRule} (hids : ∀ r ∈ rules, ∀ s ∈ rules, r.id = s.id → r = s) :
    Untied Precedes rules :=
  fun r hr s hs hrs hsr => hids r hr s hs (id_eq_of_precedes hrs hsr)

theorem firstMatch_eq_some {rules : List RoutingRule} {decision : RoutingDecision}
    (hsorted : rules.Pairwise Precedes) (hids : ∀ r ∈ rules, ∀ s ∈ rules, r.id = s.id → r = s)
    (h : firstMatch py getattr lead rules = some decision) :
    decision = ⟨none, none, []⟩ ∨
      ∃ rule, Fires py getattr (EnabledIn rules) lead rule ∧ decision = decisionOf rule := by
  rw [firstMatch_eq_firstHit] at h
  obtain ⟨hit, hscan, rfl⟩ := Option.map_eq_some_iff.mp h
  cases hit with
  | none => exact .inl rfl
  | some rule =>
    obtain ⟨hmem, hholds, hfirst⟩ := first_of_firstHit hsorted (untied_of_ids hids) hscan
    obtain ⟨henabled, hmatches⟩ := checked_eq_true.mp hholds
    refine .inr ⟨rule, ⟨⟨hmem, henabled⟩, hmatches, ?_⟩, rfl⟩
    intro s hs hne hprecedes
    exact checked_eq_false.mp (hfirst s hs.1 hne hprecedes) hs.2

def EnabledOf (db : Db) (tenantId : Id) (rule : RoutingRule) : Prop :=
  rule ∈ db.routingRules ∧ rule.tenantId = tenantId ∧ rule.enabled = true

theorem enabledIn_sorted {db : Db} {tenantId : Id} :
    EnabledIn ((RoutingRuleRepository.listEnabledRules db tenantId).insertionSort Precedes) =
      EnabledOf db tenantId := by
  funext rule
  simp [EnabledIn, EnabledOf, RoutingRuleRepository.listEnabledRules, Table.mem_def, and_assoc]

/-- A rule assigns to the lead what its columns take. `accepts` tells the rows that the leads table
takes: their owner is a user and their texts are not too long. -/
def Assigns (py : Python) (accepts : Lead → Bool) (getattr : Lead → String → Option FieldValue) (db : Db)
    (tenantId : Id) (lead : Lead) (a : Assignment) : Prop :=
  ∃ rule, Fires py getattr (EnabledOf db tenantId) lead rule ∧ assignmentOf py rule = some a ∧
    accepts (lead.assign a)

theorem Assigns.unique {accepts : Lead → Bool} {db : Db} {tenantId : Id} {a b : Assignment}
    (ha : Assigns py accepts getattr db tenantId lead a) (hb : Assigns py accepts getattr db tenantId lead b) :
    a = b := by
  obtain ⟨r, hr, hra, -⟩ := ha
  obtain ⟨s, hs, hsb, -⟩ := hb
  rw [hr.unique hs, hsb] at hra
  exact (Option.some.inj hra).symm

def flushed (accepts : Lead → Bool) : Work (Option Lead × RoutingDecision) → CallOutcome
  | .commits c => if c.value.1.all accepts then .returns else .raisesWithoutEffect
  | _ => .returns

def routeOnce (py : Python) (accepts : Lead → Bool) (settings : Settings)
    (getattr : Lead → String → Option FieldValue) (db : Db) (tenantId leadId eventId : Id) : Db :=
  let work := RoutingService.evaluateAndApply py getattr db tenantId leadId eventId
  (work.run settings db { commit := flushed accepts work }).db

def assignmentIn (db : Db) (tenantId leadId : Id) : Option Assignment :=
  (LeadRepository.get db tenantId leadId).map Lead.assignment

variable {accepts : Lead → Bool} {settings : Settings} {db : Db} {tenantId leadId eventId : Id}

theorem routeOnce_of_missing (h : LeadRepository.get db tenantId leadId = none) :
    routeOnce py accepts settings getattr db tenantId leadId eventId = db := by
  simp only [routeOnce, RoutingService.evaluateAndApply, h]
  rfl

theorem routeOnce_of_raised (hlead : LeadRepository.get db tenantId leadId = some lead)
    (h : evaluateRouting py getattr lead (RoutingRuleRepository.listEnabledRules db tenantId) = none) :
    routeOnce py accepts settings getattr db tenantId leadId eventId = db := by
  simp only [routeOnce, RoutingService.evaluateAndApply, hlead, h]
  rfl

theorem routeOnce_of_decision (hlead : LeadRepository.get db tenantId leadId = some lead)
    {decision : RoutingDecision}
    (h : evaluateRouting py getattr lead (RoutingRuleRepository.listEnabledRules db tenantId) = some decision) :
    routeOnce py accepts settings getattr db tenantId leadId eventId =
      if accepts (applyRoutingDecision py lead decision) then
        db.writeAll [.lead (.set (applyRoutingDecision py lead decision)),
          .timelineEvent (.add (RoutingService.evaluatedEvent eventId tenantId lead decision))]
      else db := by
  simp only [routeOnce, RoutingService.evaluateAndApply, hlead, h]
  rw [Work.run_db]
  by_cases haccepts : accepts (applyRoutingDecision py lead decision)
  · rw [if_pos haccepts, Work.written_of_committed rfl]
    simp [flushed, haccepts, CallOutcome.takesEffect]
  · rw [if_neg haccepts, Work.written_of_lost]
    · rfl
    · simp [flushed, haccepts, CallOutcome.takesEffect]

theorem routeOnce_rules :
    (routeOnce py accepts settings getattr db tenantId leadId eventId).routingRules = db.routingRules := by
  cases hlead : LeadRepository.get db tenantId leadId with
  | none => rw [routeOnce_of_missing hlead]
  | some lead =>
    cases h : evaluateRouting py getattr lead (RoutingRuleRepository.listEnabledRules db tenantId) with
    | none => rw [routeOnce_of_raised hlead h]
    | some decision =>
      rw [routeOnce_of_decision hlead h]
      split
      · rfl
      · rfl

theorem get_writeAll_set {routed : Lead} {e : LeadTimelineEvent}
    (hlead : LeadRepository.get db tenantId leadId = some lead) (hid : routed.id = lead.id)
    (htenant : routed.tenantId = lead.tenantId) :
    LeadRepository.get (db.writeAll [.lead (.set routed), .timelineEvent (.add e)]) tenantId leadId =
      some routed := by
  obtain ⟨hmem, hkey, howner⟩ := ofTenant_eq_some.mp hlead
  exact ofTenant_eq_some.mpr ⟨Table.mem_put_self hmem hid.symm, hid.trans hkey, htenant.trans howner⟩

theorem evaluateRouting_of_fires {rule : RoutingRule} (h : Fires py getattr (EnabledOf db tenantId) lead rule) :
    evaluateRouting py getattr lead (RoutingRuleRepository.listEnabledRules db tenantId) =
      some (decisionOf rule) := by
  rw [← enabledIn_sorted] at h
  exact firstMatch_of_fires (List.pairwise_insertionSort Precedes _) h

theorem evaluateRouting_of_silent (h : ∀ rule, ¬Fires py getattr (EnabledOf db tenantId) lead rule)
    {decision : RoutingDecision}
    (hdecision : evaluateRouting py getattr lead (RoutingRuleRepository.listEnabledRules db tenantId) =
      some decision) : decision = ⟨none, none, []⟩ := by
  have hids : ∀ r ∈ (RoutingRuleRepository.listEnabledRules db tenantId).insertionSort Precedes,
      ∀ s ∈ (RoutingRuleRepository.listEnabledRules db tenantId).insertionSort Precedes, r.id = s.id → r = s := by
    intro r hr s hs hid
    simp only [RoutingRuleRepository.listEnabledRules, List.mem_insertionSort, List.mem_filter] at hr hs
    exact Table.eq_of_key_eq hr.1 hs.1 hid
  rcases firstMatch_eq_some (List.pairwise_insertionSort Precedes _) hids hdecision with hnone | ⟨rule, hfires, -⟩
  · exact hnone
  · rw [enabledIn_sorted] at hfires
    exact absurd hfires (h rule)

theorem get_routeOnce (py : Python) (accepts : Lead → Bool) (settings : Settings)
    (getattr : Lead → String → Option FieldValue) (eventId : Id)
    (hlead : LeadRepository.get db tenantId leadId = some lead) :
    let after := routeOnce py accepts settings getattr db tenantId leadId eventId
    (∃ a, Assigns py accepts getattr db tenantId lead a ∧
        LeadRepository.get after tenantId leadId = some (lead.assign a)) ∨
      (∀ a, ¬Assigns py accepts getattr db tenantId lead a) ∧
        LeadRepository.get after tenantId leadId = some lead := by
  intro after
  by_cases hfires : ∃ rule, Fires py getattr (EnabledOf db tenantId) lead rule
  · obtain ⟨rule, hrule⟩ := hfires
    have hafter : after = _ := routeOnce_of_decision hlead (evaluateRouting_of_fires hrule)
    rw [applyRoutingDecision_decisionOf] at hafter
    cases hassigned : assignmentOf py rule with
    | none =>
      refine .inr ⟨?_, ?_⟩
      · rintro a ⟨s, hs, hsa, -⟩
        rw [hs.unique hrule, hassigned] at hsa
        cases hsa
      · simp only [hafter, hassigned, Option.elim_none]
        split
        · exact get_writeAll_set hlead rfl rfl
        · exact hlead
    | some a =>
      simp only [hassigned, Option.elim_some] at hafter
      by_cases haccepts : accepts (lead.assign a)
      · refine .inl ⟨a, ⟨rule, hrule, hassigned, haccepts⟩, ?_⟩
        simp only [hafter, if_pos haccepts]
        exact get_writeAll_set hlead rfl rfl
      · refine .inr ⟨?_, ?_⟩
        · rintro b ⟨s, hs, hsb, hb⟩
          rw [hs.unique hrule, hassigned] at hsb
          cases hsb
          exact haccepts hb
        · simp only [hafter, if_neg haccepts]
          exact hlead
  · refine .inr ⟨fun a ⟨rule, hrule, _⟩ => hfires ⟨rule, hrule⟩, ?_⟩
    cases hdecision : evaluateRouting py getattr lead (RoutingRuleRepository.listEnabledRules db tenantId) with
    | none =>
      have hafter : after = db := routeOnce_of_raised hlead hdecision
      rwa [hafter]
    | some decision =>
      have hnothing := evaluateRouting_of_silent (fun rule hrule => hfires ⟨rule, hrule⟩) hdecision
      have hafter : after = _ := routeOnce_of_decision hlead hdecision
      simp only [hafter, hnothing]
      split
      · exact get_writeAll_set hlead rfl rfl
      · exact hlead

structure Settled (py : Python) (accepts : Lead → Bool) (getattr later : Lead → String → Option FieldValue)
    (db : Db) (tenantId : Id) (lead : Lead) : Prop where
  assigned : ∀ a, Assigns py accepts getattr db tenantId lead a →
    ∀ b, Assigns py accepts later db tenantId (lead.assign a) b → b = a
  unassigned : (∀ a, ¬Assigns py accepts getattr db tenantId lead a) →
    ∀ b, Assigns py accepts later db tenantId lead b → b = lead.assignment

theorem assigns_congr {db' : Db} (h : db'.routingRules = db.routingRules) {a : Assignment} :
    Assigns py accepts getattr db' tenantId lead a ↔ Assigns py accepts getattr db tenantId lead a := by
  have henabled : EnabledOf db' tenantId = EnabledOf db tenantId := by
    funext rule
    simp only [EnabledOf, h]
  simp only [Assigns, henabled]

theorem assignmentIn_routeOnce (hlead : LeadRepository.get db tenantId leadId = some lead) :
    assignmentIn (routeOnce py accepts settings getattr db tenantId leadId eventId) tenantId leadId =
        some lead.assignment ↔
      ∀ a, Assigns py accepts getattr db tenantId lead a → a = lead.assignment := by
  rcases get_routeOnce py accepts settings getattr eventId hlead with ⟨a, ha, hafter⟩ | ⟨hnone, hafter⟩
  · simp only [assignmentIn, hafter, Option.map_some, Option.some.injEq, Lead.assign_assignment]
    constructor
    · intro heq b hb
      rw [hb.unique ha, heq]
    · intro h
      exact h a ha
  · simp only [assignmentIn, hafter, Option.map_some, true_iff]
    intro a ha
    exact absurd ha (hnone a)

def assignmentFields : List String := ["owner_user_id", "assigned_team_id", "assigned_queue_name"]

def ReadsAssignment (rule : RoutingRule) : Prop :=
  ∃ condition ∈ rule.conditions.getD [], conditionText condition "field" "" ∈ assignmentFields

theorem leadValue_assign {later : Lead → String → Option FieldValue} {field : String} {a : Assignment}
    (hfield : field ∉ assignmentFields) (htext : later (lead.assign a) field = getattr lead field) :
    leadValue later (lead.assign a) field = leadValue getattr lead field := by
  have hcolumns : (lead.assign a).columns.lookup field = lead.columns.lookup field := by
    simp only [assignmentFields, List.mem_cons, List.not_mem_nil, or_false, not_or] at hfield
    obtain ⟨howner, hteam, hqueue⟩ := hfield
    simp only [Lead.columns, Lead.assign, List.lookup_cons, beq_eq_false_iff_ne.mpr howner,
      beq_eq_false_iff_ne.mpr hteam, beq_eq_false_iff_ne.mpr hqueue]
  simp only [leadValue, hcolumns, htext]
  rfl

theorem allHold_assign {later : Lead → String → Option FieldValue} {a : Assignment} {conditions : List Dict}
    (hunread : ∀ condition ∈ conditions, conditionText condition "field" "" ∉ assignmentFields)
    (htext : ∀ field, later (lead.assign a) field = getattr lead field) :
    allHold py later (lead.assign a) conditions = allHold py getattr lead conditions := by
  induction conditions with
  | nil => rfl
  | cons condition rest ih =>
    obtain ⟨hfirst, hrest⟩ := List.forall_mem_cons.mp hunread
    simp only [allHold, conditionHolds, leadValue_assign hfirst (htext _), ih hrest]

theorem settled_of_unread {later : Lead → String → Option FieldValue}
    (hunread : ∀ rule, EnabledOf db tenantId rule → ¬ReadsAssignment rule)
    (htext : ∀ a field, later (lead.assign a) field = getattr lead field) :
    Settled py accepts getattr later db tenantId lead := by
  have hfires : ∀ a rule, Fires py later (EnabledOf db tenantId) (lead.assign a) rule →
      Fires py getattr (EnabledOf db tenantId) lead rule := by
    intro a rule h
    have hmatch : ∀ s, EnabledOf db tenantId s →
        ruleMatches py later (lead.assign a) s = ruleMatches py getattr lead s := by
      intro s hs
      apply allHold_assign _ (htext a)
      intro condition hc hread
      exact hunread s hs ⟨condition, hc, hread⟩
    refine ⟨h.enabled, ?_, ?_⟩
    · rw [← hmatch rule h.enabled]
      exact h.holds
    · intro s hs hne hprecedes
      rw [← hmatch s hs]
      exact h.first s hs hne hprecedes
  constructor
  · rintro a ⟨r, hr, hra, -⟩ b ⟨s, hs, hsb, -⟩
    rw [hr.unique (hfires a s hs), hsb] at hra
    exact Option.some.inj hra
  · rintro hnone b ⟨s, hs, hsb, haccepts⟩
    exact absurd ⟨s, hfires lead.assignment s hs, hsb, haccepts⟩ (hnone b)

end RoutingReplays

open RoutingReplays

theorem routing_idempotent (py : Python) (accepts : Lead → Bool) (settings : Settings)
    (getattr later : Lead → String → Option FieldValue) (db : Db) (tenantId leadId eventId eventId' : Id) :
    let first := routeOnce py accepts settings getattr db tenantId leadId eventId
    assignmentIn (routeOnce py accepts settings later first tenantId leadId eventId') tenantId leadId =
        assignmentIn first tenantId leadId ↔
      ∀ lead, LeadRepository.get db tenantId leadId = some lead →
        Settled py accepts getattr later db tenantId lead := by
  intro first
  cases hlead : LeadRepository.get db tenantId leadId with
  | none =>
    have hfirst : first = db := routeOnce_of_missing hlead
    simp [hfirst, routeOnce_of_missing hlead]
  | some lead =>
    have hrules : (routeOnce py accepts settings getattr db tenantId leadId eventId).routingRules =
        db.routingRules := routeOnce_rules
    simp only [Option.some.injEq, forall_eq']
    rcases get_routeOnce py accepts settings getattr eventId hlead with ⟨a, ha, hafter⟩ | ⟨hnone, hafter⟩
    · have hin : assignmentIn first tenantId leadId = some (lead.assign a).assignment := by
        simp only [assignmentIn, first, hafter, Option.map_some]
      rw [hin, assignmentIn_routeOnce hafter, Lead.assign_assignment]
      simp only [assigns_congr hrules]
      constructor
      · intro h
        refine ⟨fun b hb => ?_, fun hnone => absurd ha (hnone a)⟩
        rwa [hb.unique ha]
      · intro h
        exact h.assigned a ha
    · have hin : assignmentIn first tenantId leadId = some lead.assignment := by
        simp only [assignmentIn, first, hafter, Option.map_some]
      rw [hin, assignmentIn_routeOnce hafter]
      simp only [assigns_congr hrules]
      constructor
      · intro h
        exact ⟨fun a ha => absurd ha (hnone a), fun _ => h⟩
      · intro h
        exact h.unassigned hnone

namespace RoutingReplays

def twoRules : Table RoutingRule.id :=
  (Table.empty.insert (RoutingRuleRepository.create "rule-1" "tenant-1"
    { name := "owner", priority := 200, action := "assign_user", actionPayload := [("user_id", .str "user-1")]
      conditions := [[("field", .str "owner_user_id"), ("op", .str "eq"), ("value", .null)]] })).insert
    (RoutingRuleRepository.create "rule-2" "tenant-1"
      { name := "team", action := "assign_team", actionPayload := [("team_id", .str "team-1")] })

def unrouted : Db where
  leads := Table.empty.insert (LeadRepository.create "lead-1" "tenant-1" {})
  routingRules := twoRules

end RoutingReplays

theorem routing_moves_lead :
    let route := fun db => routeOnce .ascii (fun _ => true) {} (fun _ _ => none) db "tenant-1" "lead-1"
    let first := route unrouted "event-1"
    let second := route first "event-2"
    assignmentIn first "tenant-1" "lead-1" = some ⟨some "user-1", none, none⟩ ∧
      assignmentIn second "tenant-1" "lead-1" = some ⟨none, some "team-1", none⟩ := by
  decide +kernel

end Leadline
