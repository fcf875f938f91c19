import Leadline.RoutingReplays
import Mathlib.Algebra.Ring.Int.Defs

namespace Leadline

open Library RoutingEngine

namespace RoutingRules

open RoutingReplays

variable (py : Python) (getattr : Lead → String → Option FieldValue)

structure Best (rules : List RoutingRule) (lead : Lead) (rule : RoutingRule) : Prop where
  mem : rule ∈ rules
  enabled : rule.enabled = true
  holds : ruleMatches py getattr lead rule = some true
  precedes : ∀ s ∈ rules, s.enabled = true → ruleMatches py getattr lead s = some true → Precedes rule s

variable {py getattr} {lead : Lead} {rules : List RoutingRule} {rule : RoutingRule}

theorem eq_of_id_eq (hids : (rules.map RoutingRule.id).Nodup) :
    ∀ r ∈ rules, ∀ s ∈ rules, r.id = s.id → r = s :=
  fun _ hr _ hs => List.inj_on_of_nodup_map hids hr hs

theorem untied_sorted (hids : (rules.map RoutingRule.id).Nodup) :
    Untied Precedes (rules.insertionSort Precedes) := by
  apply untied_of_ids
  intro r hr s hs
  rw [List.mem_insertionSort] at hr hs
  exact eq_of_id_eq hids r hr s hs

theorem evaluateRouting_eq_firstHit (rules : List RoutingRule) :
    evaluateRouting py getattr lead rules =
      (firstHit (checked py getattr lead) (rules.insertionSort Precedes)).map
        fun hit => hit.elim ⟨none, none, []⟩ decisionOf :=
  firstMatch_eq_firstHit _

theorem evaluateRouting_congr {rules' : List RoutingRule} (hids : (rules.map RoutingRule.id).Nodup)
    (hsub : ∀ r ∈ rules', r ∈ rules)
    (hkept : ∀ r ∈ rules, r.enabled = true → ruleMatches py getattr lead r ≠ some false → r ∈ rules') :
    evaluateRouting py getattr lead rules' = evaluateRouting py getattr lead rules := by
  rw [evaluateRouting_eq_firstHit, evaluateRouting_eq_firstHit]
  congr 1
  apply firstHit_congr (List.pairwise_insertionSort Precedes _) (List.pairwise_insertionSort Precedes _)
    (untied_sorted hids)
  · intro r hr
    rw [List.mem_insertionSort] at hr ⊢
    exact hsub r hr
  · intro r hr hchecked
    rw [List.mem_insertionSort] at hr ⊢
    rw [Ne, checked_eq_false, Classical.not_imp] at hchecked
    exact hkept r hr hchecked.1 hchecked.2

theorem best_of_firstHit (hids : (rules.map RoutingRule.id).Nodup)
    (h : firstHit (checked py getattr lead) (rules.insertionSort Precedes) = some (some rule)) :
    Best py getattr rules lead rule := by
  obtain ⟨hmem, hholds, hfirst⟩ :=
    first_of_firstHit (List.pairwise_insertionSort Precedes _) (untied_sorted hids) h
  rw [List.mem_insertionSort] at hmem
  obtain ⟨henabled, hmatches⟩ := checked_eq_true.mp hholds
  refine ⟨hmem, henabled, hmatches, ?_⟩
  intro s hs hsenabled hsmatches
  by_contra hnot
  have hne : s ≠ rule := by
    rintro rfl
    exact hnot (.inr ⟨rfl, String.le_refl _⟩)
  have hfalse := hfirst s ((List.mem_insertionSort Precedes).mpr hs) hne ((precedes_total s rule).resolve_right hnot)
  rw [checked_eq_true.mpr ⟨hsenabled, hsmatches⟩] at hfalse
  cases hfalse

theorem Best.unique {r s : RoutingRule} (hids : (rules.map RoutingRule.id).Nodup)
    (hr : Best py getattr rules lead r) (hs : Best py getattr rules lead s) : r = s := by
  apply eq_of_id_eq hids r hr.mem s hs.mem
  apply id_eq_of_precedes
  · exact hr.precedes s hs.mem hs.enabled hs.holds
  · exact hs.precedes r hr.mem hr.enabled hr.holds

theorem evaluateRouting_cases (hids : (rules.map RoutingRule.id).Nodup)
    (hreturns : ∀ rule ∈ rules, (ruleMatches py getattr lead rule).isSome) :
    (∃ rule, Best py getattr rules lead rule ∧ evaluateRouting py getattr lead rules = some (decisionOf rule)) ∨
      (∀ rule ∈ rules, rule.enabled = true → ruleMatches py getattr lead rule = some false) ∧
        evaluateRouting py getattr lead rules = some ⟨none, none, []⟩ := by
  have hsome : (firstHit (checked py getattr lead) (rules.insertionSort Precedes)).isSome := by
    rw [isSome_firstHit (List.pairwise_insertionSort Precedes _) (untied_sorted hids)]
    intro r hr _
    rw [List.mem_insertionSort] at hr
    unfold checked
    split
    · exact hreturns r hr
    · rfl
  rw [evaluateRouting_eq_firstHit]
  obtain ⟨hit, hhit⟩ := Option.isSome_iff_exists.mp hsome
  rw [hhit]
  cases hit with
  | some rule => exact .inl ⟨rule, best_of_firstHit hids hhit, rfl⟩
  | none =>
    refine .inr ⟨?_, rfl⟩
    intro r hr
    exact checked_eq_false.mp (firstHit_eq_some_none.mp hhit r ((List.mem_insertionSort Precedes).mpr hr))

theorem evaluate_listRules (db : Db) (tenantId : Id) :
    evaluateRouting py getattr lead (RoutingRuleRepository.listRules db tenantId) =
      evaluateRouting py getattr lead (RoutingRuleRepository.listEnabledRules db tenantId) := by
  have hids : ((RoutingRuleRepository.listRules db tenantId).map RoutingRule.id).Nodup := by
    have hrows : ((db.routingRules.rows.filter fun r => r.tenantId = tenantId).map RoutingRule.id).Nodup :=
      db.routingRules.nodup.sublist (List.filter_sublist.map RoutingRule.id)
    exact ((List.perm_insertionSort Precedes _).map RoutingRule.id).nodup_iff.mpr hrows
  symm
  apply evaluateRouting_congr hids
  · intro r hr
    simp only [RoutingRuleRepository.listEnabledRules, RoutingRuleRepository.listRules, List.mem_insertionSort,
      List.mem_filter, decide_eq_true_eq] at hr ⊢
    exact ⟨hr.1, hr.2.1⟩
  · intro r hr henabled _
    simp only [RoutingRuleRepository.listEnabledRules, RoutingRuleRepository.listRules, List.mem_insertionSort,
      List.mem_filter, decide_eq_true_eq] at hr ⊢
    exact ⟨hr.1, hr.2, henabled⟩

end RoutingRules

open RoutingReplays RoutingRules

theorem best_rule_wins (py : Python) (getattr : Lead → String → Option FieldValue) (lead : Lead)
    (rules : List RoutingRule) (hids : (rules.map RoutingRule.id).Nodup)
    (hreturns : ∀ rule ∈ rules, (ruleMatches py getattr lead rule).isSome) :
    ∃ decision, evaluateRouting py getattr lead rules = some decision ∧
      (∀ rule, Best py getattr rules lead rule → decision = decisionOf rule) ∧
      (decision = ⟨none, none, []⟩ ∨ ∃ rule, Best py getattr rules lead rule) ∧
      (decision.matchedRuleId = none ↔
        ∀ rule ∈ rules, rule.enabled = true → ruleMatches py getattr lead rule ≠ some true) ∧
      (∀ rules' : List RoutingRule, rules'.Subperm rules →
        (∀ rule ∈ rules, rule.enabled = true → ruleMatches py getattr lead rule = some true → rule ∈ rules') →
        evaluateRouting py getattr lead rules' = some decision) ∧
      ∀ db tenantId, evaluateRouting py getattr lead (RoutingRuleRepository.listRules db tenantId) =
        evaluateRouting py getattr lead (RoutingRuleRepository.listEnabledRules db tenantId) := by
  have hsame : ∀ rules' : List RoutingRule, rules'.Subperm rules →
      (∀ rule ∈ rules, rule.enabled = true → ruleMatches py getattr lead rule = some true → rule ∈ rules') →
      evaluateRouting py getattr lead rules' = evaluateRouting py getattr lead rules := by
    intro rules' hsub hkept
    apply evaluateRouting_congr hids fun r hr => hsub.subset hr
    intro r hr henabled hne
    apply hkept r hr henabled
    obtain ⟨holds, hholds⟩ := Option.isSome_iff_exists.mp (hreturns r hr)
    cases holds with
    | true => exact hholds
    | false => exact absurd hholds hne
  rcases evaluateRouting_cases hids hreturns with ⟨rule, hbest, hdecision⟩ | ⟨hnone, hdecision⟩
  · refine ⟨decisionOf rule, hdecision, ?_, .inr ⟨rule, hbest⟩, ?_, ?_, evaluate_listRules⟩
    · intro s hs
      rw [hs.unique hids hbest]
    · constructor
      · intro h
        cases h
      · intro h
        exact absurd hbest.holds (h rule hbest.mem hbest.enabled)
    · intro rules' hsub hkept
      rw [hsame rules' hsub hkept, hdecision]
  · refine ⟨⟨none, none, []⟩, hdecision, ?_, .inl rfl, ?_, ?_, evaluate_listRules⟩
    · intro s hs
      have hfalse := hnone s hs.mem hs.enabled
      rw [hs.holds] at hfalse
      cases hfalse
    · constructor
      · intro _ s hs henabled hholds
        rw [hnone s hs henabled] at hholds
        cases hholds
      · exact fun _ => rfl
    · intro rules' hsub hkept
      rw [hsame rules' hsub hkept, hdecision]

namespace RoutingRules

def ranked (id : Id) (enabled : Bool) (priority : ℤ) : RoutingRule :=
  RoutingRuleRepository.create id "tenant-1"
    { name := id, priority := priority, enabled := enabled, action := "assign_user"
      actionPayload := [("user_id", .str id)] }

def tied : List RoutingRule := [ranked "rule-3" false 300, ranked "rule-2" true 200, ranked "rule-1" true 200]

end RoutingRules

theorem best_rule_wins_tied :
    ∃ decision, evaluateRouting .ascii (fun _ _ => none) (LeadRepository.create "lead-1" "tenant-1" {}) tied =
        some decision ∧ decision.matchedRuleId = some "rule-1" := by
  obtain ⟨decision, hdecision, -⟩ := best_rule_wins .ascii (fun _ _ => none)
    (LeadRepository.create "lead-1" "tenant-1" {}) tied (by decide +kernel) (by decide +kernel)
  have hid : (evaluateRouting .ascii (fun _ _ => none) (LeadRepository.create "lead-1" "tenant-1" {}) tied).map
      RoutingDecision.matchedRuleId = some (some "rule-1") := by
    decide +kernel
  rw [hdecision] at hid
  exact ⟨decision, hdecision, Option.some.inj hid⟩

namespace RoutingRules

inductive Operator
  | eq
  | neq
  | contains
  | gt
  | gte
  | lt
  | lte
  | isIn

namespace Operator

def name : Operator → String
  | eq => "eq"
  | neq => "neq"
  | contains => "contains"
  | gt => "gt"
  | gte => "gte"
  | lt => "lt"
  | lte => "lte"
  | isIn => "in"

def comparator (py : Python) : Operator → FieldValue → Json → Option Bool
  | eq, lhs, rhs => some (equalTo py lhs rhs)
  | neq, lhs, rhs => some (!equalTo py lhs rhs)
  | contains, lhs, rhs => some (py.containsText lhs.text rhs.pyStr)
  | gt, lhs, rhs => compareNumbers py (fun left right => right.less left) lhs rhs
  | gte, lhs, rhs => compareNumbers py (fun left right => right.lessOrEqual left) lhs rhs
  | lt, lhs, rhs => compareNumbers py Double.less lhs rhs
  | lte, lhs, rhs => compareNumbers py Double.lessOrEqual lhs rhs
  | isIn, lhs, rhs => some (RoutingEngine.isIn py lhs rhs)

def Compares : Operator → Prop
  | gt => True
  | gte => True
  | lt => True
  | lte => True
  | _ => False

theorem lookup_name (py : Python) (o : Operator) : (operators py).lookup o.name = some (o.comparator py) := by
  cases o <;> rfl

theorem name_injective : Function.Injective name := by
  intro o o' h
  cases o <;> cases o' <;> first | rfl | exact absurd h (by decide)

theorem lookup_cases (py : Python) (op : String) :
    (∃ o : Operator, op = o.name ∧ (operators py).lookup op = some (o.comparator py)) ∨
      (∀ o : Operator, op ≠ o.name) ∧ (operators py).lookup op = none := by
  by_cases h : ∃ o : Operator, op = o.name
  · obtain ⟨o, rfl⟩ := h
    exact .inl ⟨o, rfl, lookup_name py o⟩
  · refine .inr ⟨fun o ho => h ⟨o, ho⟩, ?_⟩
    rw [List.lookup_eq_none_iff]
    intro entry hentry
    have hentries : operators py = [eq, neq, contains, gt, gte, lt, lte, isIn].map fun o => (o.name, o.comparator py) :=
      rfl
    rw [hentries] at hentry
    obtain ⟨o, -, rfl⟩ := List.mem_map.mp hentry
    simpa using fun ho : op = o.name => h ⟨o, ho⟩

end Operator

def Blocks (getattr : Lead → String → Option FieldValue) (lead : Lead) (condition : Dict) : Prop :=
  let field := conditionText condition "field" ""
  ∃ o : Operator, conditionText condition "op" "eq" = o.name ∧
    (field ∈ unloadedAttributes ∨
      o.Compares ∧ ∃ n, Double.BeyondRange n ∧
        (leadValue getattr lead field = some (.json (.int n)) ∨ condition.get "value" = some (.int n)))

def RuleReached (py : Python) (getattr : Lead → String → Option FieldValue) (lead : Lead)
    (rules : List RoutingRule) (rule : RoutingRule) : Prop :=
  rule ∈ rules ∧ rule.enabled = true ∧
    ∀ s ∈ rules, s ≠ rule → s.enabled = true → Precedes s rule → ruleMatches py getattr lead s ≠ some true

def ConditionReached (py : Python) (getattr : Lead → String → Option FieldValue) (lead : Lead)
    (rule : RoutingRule) (condition : Dict) : Prop :=
  ∃ before after, rule.conditions.getD [] = before ++ condition :: after ∧
    ∀ c ∈ before, conditionHolds py getattr lead c = some true

theorem leadValue_eq_none (getattr : Lead → String → Option FieldValue) (lead : Lead) {field : String} :
    leadValue getattr lead field = none ↔ field ∈ unloadedAttributes := by
  unfold leadValue
  constructor
  · intro h
    split at h
    · cases h
    · split at h
      · assumption
      · split at h
        · cases h
        · split at h <;> cases h
  · intro h
    have hcolumn : lead.columns.lookup field = none := by
      simp only [unloadedAttributes, List.mem_cons, List.not_mem_nil, or_false] at h
      rcases h with rfl | rfl <;> rfl
    rw [hcolumn, if_pos h]

theorem toFloat_eq_none (hfloat : py.OverflowsOnIntegers) {value : FieldValue} :
    toFloat py value = none ↔ ∃ n, Double.BeyondRange n ∧ value = .json (.int n) := by
  have hoverflow : toFloat py value = none ↔ ∃ v, value = .json v ∧ py.float v = .overflow := by
    cases value with
    | object text => simp [toFloat]
    | json v =>
      cases v with
      | null => simp [toFloat, hfloat .null]
      | _ =>
        simp only [toFloat, FieldValue.json.injEq, exists_eq_left']
        split <;> simp_all
  rw [hoverflow]
  constructor
  · rintro ⟨v, rfl, hv⟩
    obtain ⟨n, rfl, hn⟩ := (hfloat v).mp hv
    exact ⟨n, hn, rfl⟩
  · rintro ⟨n, hn, rfl⟩
    exact ⟨.int n, rfl, (hfloat (.int n)).mpr ⟨n, rfl, hn⟩⟩

theorem compareNumbers_eq_none (hfloat : py.OverflowsOnIntegers) {less : Double → Double → Bool} {lhs : FieldValue}
    {rhs : Json} :
    compareNumbers py less lhs rhs = none ↔
      ∃ n, Double.BeyondRange n ∧ (lhs = .json (.int n) ∨ rhs = .int n) := by
  have hsides : compareNumbers py less lhs rhs = none ↔ toFloat py lhs = none ∨ toFloat py (.json rhs) = none := by
    unfold compareNumbers
    cases toFloat py lhs with
    | none => simp
    | some left =>
      cases toFloat py (.json rhs) with
      | none => simp
      | some right =>
        simp only [Option.bind_eq_bind, Option.bind_some, reduceCtorEq, or_self, iff_false]
        split <;> simp
  rw [hsides, toFloat_eq_none hfloat, toFloat_eq_none hfloat, ← exists_or]
  simp only [FieldValue.json.injEq, ← and_or_left]

theorem comparator_eq_none (hfloat : py.OverflowsOnIntegers) {o : Operator} {actual : FieldValue} {expected : Json} :
    o.comparator py actual expected = none ↔
      o.Compares ∧ ∃ n, Double.BeyondRange n ∧ (actual = .json (.int n) ∨ expected = .int n) := by
  cases o <;> simp [Operator.comparator, Operator.Compares, compareNumbers_eq_none hfloat]

theorem conditionHolds_eq_none (hfloat : py.OverflowsOnIntegers) {condition : Dict} :
    conditionHolds py getattr lead condition = none ↔ Blocks getattr lead condition := by
  have hexpected : ∀ n, (condition.get "value").getD .null = .int n ↔ condition.get "value" = some (.int n) := by
    intro n
    cases condition.get "value" <;> simp
  unfold conditionHolds Blocks
  dsimp only
  rcases Operator.lookup_cases py (conditionText condition "op" "eq") with ⟨o, hname, hlookup⟩ | ⟨hname, hlookup⟩
  · have hunique : ∀ o' : Operator, o.name = o'.name ↔ o' = o := by
      intro o'
      exact ⟨fun h => (Operator.name_injective h).symm, fun h => by rw [h]⟩
    rw [hlookup, hname]
    simp only [hunique, exists_eq_left]
    rw [← leadValue_eq_none getattr lead]
    cases leadValue getattr lead (conditionText condition "field" "") with
    | none => simp
    | some actual => simp [comparator_eq_none hfloat, hexpected]
  · rw [hlookup]
    simp only [reduceCtorEq, false_iff]
    rintro ⟨o, ho, -⟩
    exact hname o ho

theorem isSome_allHold {conditions : List Dict} :
    (allHold py getattr lead conditions).isSome ↔
      ∀ before condition after, conditions = before ++ condition :: after →
        (∀ c ∈ before, conditionHolds py getattr lead c = some true) →
        (conditionHolds py getattr lead condition).isSome := by
  induction conditions with
  | nil => simp [allHold]
  | cons c rest ih =>
    rw [allHold]
    constructor
    · intro h before condition after heq hbefore
      cases before with
      | nil =>
        cases heq
        cases hc : conditionHolds py getattr lead c with
        | none =>
          rw [hc] at h
          cases h
        | some holds => rfl
      | cons d before =>
        cases heq
        rw [hbefore c List.mem_cons_self] at h
        exact ih.mp h before condition after rfl fun d hd => hbefore d (List.mem_cons_of_mem c hd)
    · intro h
      have hfirst := h [] c rest rfl (by simp)
      obtain ⟨holds, hholds⟩ := Option.isSome_iff_exists.mp hfirst
      rw [hholds, Option.bind_some]
      split
      · rename_i htrue
        rw [htrue] at hholds
        apply ih.mpr
        intro before condition after heq hbefore
        apply h (c :: before) condition after (by rw [heq]; rfl)
        intro d hd
        rcases List.mem_cons.mp hd with rfl | hd
        · exact hholds
        · exact hbefore d hd
      · rfl

end RoutingRules

theorem routing_returns_iff (py : Python) (hfloat : py.OverflowsOnIntegers)
    (getattr : Lead → String → Option FieldValue) (lead : Lead) (rules : List RoutingRule)
    (hids : (rules.map RoutingRule.id).Nodup) :
    (evaluateRouting py getattr lead rules).isSome ↔
      ∀ rule condition, RuleReached py getattr lead rules rule → ConditionReached py getattr lead rule condition →
        ¬Blocks getattr lead condition := by
  have hrules : (evaluateRouting py getattr lead rules).isSome ↔
      ∀ rule, RuleReached py getattr lead rules rule → (ruleMatches py getattr lead rule).isSome := by
    rw [evaluateRouting_eq_firstHit, Option.isSome_map,
      isSome_firstHit (List.pairwise_insertionSort Precedes _) (untied_sorted hids)]
    simp only [List.mem_insertionSort, Ne, checked_eq_true, not_and]
    constructor
    · rintro h rule ⟨hmem, henabled, hreached⟩
      have hchecked := h rule hmem fun s hs hne hprecedes hsenabled => hreached s hs hne hsenabled hprecedes
      rwa [checked, if_pos henabled] at hchecked
    · intro h rule hmem hreached
      unfold checked
      split
      · rename_i henabled
        exact h rule ⟨hmem, henabled, fun s hs hne hsenabled hprecedes => hreached s hs hne hprecedes hsenabled⟩
      · rfl
  rw [hrules]
  refine forall_congr' fun rule => ?_
  rw [forall_comm]
  refine forall_congr' fun _ => ?_
  unfold ruleMatches
  rw [isSome_allHold]
  constructor
  · rintro h condition ⟨before, after, heq, hbefore⟩ hblocks
    have hsome := h before condition after heq hbefore
    rw [(conditionHolds_eq_none hfloat).mpr hblocks] at hsome
    cases hsome
  · intro h before condition after heq hbefore
    rw [Option.isSome_iff_ne_none, Ne, conditionHolds_eq_none hfloat]
    exact h condition ⟨before, after, heq, hbefore⟩

namespace RoutingRules

def bounded : Python where
  lower := Python.ascii.lower
  digit := Python.ascii.digit
  double := Python.ascii.double
  int := Python.ascii.int
  float
    | .int n => if Double.BeyondRange n then .overflow else .value (.finite n)
    | value => Python.ascii.float value

theorem bounded_overflows : bounded.OverflowsOnIntegers := by
  intro value
  cases value with
  | int n =>
    simp only [bounded]
    split <;> simp_all
  | _ => simp [bounded, Python.ascii]

def conditional (id : Id) (priority : ℤ) (condition : Dict) : RoutingRule :=
  RoutingRuleRepository.create id "tenant-1"
    { name := id, priority := priority, conditions := [condition], action := "assign_user" }

def guarded : List RoutingRule :=
  [conditional "rule-1" 200 [("field", .str "company"), ("value", .null)],
    conditional "rule-2" 100 [("field", .str "sessions"), ("value", .int 1)]]

end RoutingRules

theorem routing_returns_iff_guarded :
    (evaluateRouting bounded (fun _ _ => none) (LeadRepository.create "lead-1" "tenant-1" {}) guarded).isSome := by
  apply (routing_returns_iff bounded bounded_overflows (fun _ _ => none)
    (LeadRepository.create "lead-1" "tenant-1" {}) guarded (by decide +kernel)).mpr
  rintro rule condition ⟨hmem, -, hreached⟩ ⟨before, after, heq, -⟩ hblocks
  simp only [guarded, List.mem_cons, List.not_mem_nil, or_false] at hmem
  rcases hmem with rfl | rfl
  · have hcondition : condition ∈ [[("field", .str "company"), ("value", Json.null)]] := by
      rw [show [[("field", Json.str "company"), ("value", Json.null)]] = before ++ condition :: after from heq]
      simp
    cases List.mem_singleton.mp hcondition
    obtain ⟨o, ho, hfield | ⟨hcompares, -⟩⟩ := hblocks
    · exact absurd hfield (by decide +kernel)
    · have heq : o = .eq := Operator.name_injective (ho.symm.trans (by decide +kernel))
      rw [heq] at hcompares
      exact hcompares
  · exact hreached (conditional "rule-1" 200 [("field", .str "company"), ("value", .null)]) (by simp [guarded])
      (fun h => absurd (congrArg RoutingRule.id h) (by decide)) rfl (.inl (by decide)) (by decide +kernel)

theorem routing_stopped :
    (evaluateRouting bounded (fun _ _ => none) (LeadRepository.create "lead-1" "tenant-1" {})
        [conditional "rule-1" 100
          [("field", .str "lead_score"), ("op", .str "gt"), ("value", .int (10 ^ 400))]]).isNone ∧
      (evaluateRouting bounded (fun _ _ => none) (LeadRepository.create "lead-1" "tenant-1" {})
        [conditional "rule-1" 100 [("field", .str "sessions"), ("op", .str "eq"), ("value", .int 1)]]).isNone := by
  decide +kernel

namespace RoutingRules

def relatedObjects (related : Lead → String → Option String) (lead : Lead) (field : String) : FieldValue :=
  (related lead field).elim (.json (.arr [])) .object

/-- The `<key>` of `custom_fields.<key>`. -/
def customKey (field : String) : Option String :=
  (customPrefix.toList.isPrefixOf? field.toList).map String.ofList

def storedCustomField (lead : Lead) (field : String) : Option Json :=
  (customKey field).bind (Dict.get (lead.customFields.getD []))

def meaning (getattr : Lead → String → Option FieldValue) (related : Lead → String → Option String)
    (lead : Lead) (field : String) : FieldValue :=
  if field ∈ unloadedAttributes then relatedObjects related lead field
  else
    match lead.columns.lookup field with
    | some column => .json column
    | none => (getattr lead field).getD (.json ((storedCustomField lead field).getD .null))

def toNumber (py : Python) : FieldValue → Option Double
  | .json .null => none
  | .object _ => none
  | .json value =>
    match py.float value with
    | .value d => some d
    | _ => none

def Operator.Says (py : Python) (actual : FieldValue) (expected : Json) : Operator → Prop
  | eq => equalTo py actual expected = true
  | neq => ¬equalTo py actual expected = true
  | contains => actual ≠ .json .null ∧ py.containsText actual.text expected.pyStr = true
  | gt => ∃ x y, toNumber py actual = some x ∧ toNumber py (.json expected) = some y ∧ y.less x = true
  | gte => ∃ x y, toNumber py actual = some x ∧ toNumber py (.json expected) = some y ∧ y.lessOrEqual x = true
  | lt => ∃ x y, toNumber py actual = some x ∧ toNumber py (.json expected) = some y ∧ x.less y = true
  | lte => ∃ x y, toNumber py actual = some x ∧ toNumber py (.json expected) = some y ∧ x.lessOrEqual y = true
  | isIn => ∃ items item, expected = .arr items ∧ item ∈ items ∧ equalTo py actual item = true

section

variable (py : Python) (getattr : Lead → String → Option FieldValue) (related : Lead → String → Option String)
  (lead : Lead) (condition : Dict)

def actualOf : FieldValue := meaning getattr related lead (conditionText condition "field" "")

def Holds : Prop :=
  ∃ o : Operator, conditionText condition "op" "eq" = o.name ∧
    o.Says py (actualOf getattr related lead condition) ((condition.get "value").getD .null)

/-- A `contains` on a null, whose text is `None`. -/
def Spurious : Prop :=
  conditionText condition "op" "eq" = "contains" ∧ actualOf getattr related lead condition = .json .null ∧
    py.containsText "None" ((condition.get "value").getD .null).pyStr = true

def NamesRelationship : Prop := conditionText condition "field" "" ∈ unloadedAttributes

end

theorem isPrefixOf?_eq (pre text : List Char) :
    pre.isPrefixOf? text = if pre.isPrefixOf text then some (text.drop pre.length) else none := by
  induction pre generalizing text with
  | nil => simp [List.isPrefixOf?]
  | cons c pre ih =>
    cases text with
    | nil => rfl
    | cons d text =>
      rw [List.isPrefixOf?, List.isPrefixOf, ih]
      cases c == d <;> simp

theorem leadValue_eq_meaning (related : Lead → String → Option String) {field : String}
    (h : field ∉ unloadedAttributes) :
    leadValue getattr lead field = some (meaning getattr related lead field) := by
  rw [meaning, if_neg h]
  unfold leadValue
  cases lead.columns.lookup field with
  | some column => rfl
  | none =>
    rw [if_neg h]
    cases getattr lead field with
    | some value => rfl
    | none =>
      have hlength : customPrefix.length = customPrefix.toList.length := rfl
      rw [storedCustomField, customKey, isPrefixOf?_eq, ← hlength]
      dsimp only
      split <;> rfl

theorem toFloat_eq_some {value : FieldValue} {d : Double} :
    toFloat py value = some (some d) ↔ toNumber py value = some d := by
  cases value with
  | object text => simp [toFloat, toNumber]
  | json v =>
    cases v with
    | null => simp [toFloat, toNumber]
    | _ =>
      simp only [toFloat, toNumber]
      generalize py.float _ = call
      cases call <;> simp

theorem compareNumbers_eq_true {less : Double → Double → Bool} {actual : FieldValue} {expected : Json} :
    compareNumbers py less actual expected = some true ↔
      ∃ x y, toNumber py actual = some x ∧ toNumber py (.json expected) = some y ∧ less x y = true := by
  simp only [← toFloat_eq_some]
  unfold compareNumbers
  simp only [Option.bind_eq_bind, Option.bind_eq_some_iff]
  constructor
  · rintro ⟨left, hleft, right, hright, h⟩
    split at h
    · exact ⟨_, _, hleft, hright, Option.some.inj h⟩
    · cases h
  · rintro ⟨x, y, hx, hy, h⟩
    exact ⟨some x, hx, some y, hy, congrArg some h⟩

theorem isIn_eq_true {actual : FieldValue} {expected : Json} :
    isIn py actual expected = true ↔
      ∃ items item, expected = .arr items ∧ item ∈ items ∧ equalTo py actual item = true := by
  cases expected <;> simp [isIn]

theorem comparator_eq_true {o : Operator} {actual : FieldValue} {expected : Json} :
    o.comparator py actual expected = some true ↔ o.Says py actual expected ∨
      o = .contains ∧ actual = .json .null ∧ py.containsText "None" expected.pyStr = true := by
  cases o with
  | contains =>
    simp only [Operator.comparator, Operator.Says, Option.some.injEq, true_and]
    by_cases hnull : actual = .json .null
    · simp [hnull, FieldValue.text, Json.pyStr, Json.pyRepr]
    · simp [hnull]
  | eq => simp [Operator.comparator, Operator.Says]
  | neq => simp [Operator.comparator, Operator.Says]
  | gt => simp [Operator.comparator, Operator.Says, compareNumbers_eq_true]
  | gte => simp [Operator.comparator, Operator.Says, compareNumbers_eq_true]
  | lt => simp [Operator.comparator, Operator.Says, compareNumbers_eq_true]
  | lte => simp [Operator.comparator, Operator.Says, compareNumbers_eq_true]
  | isIn => simp [Operator.comparator, Operator.Says, isIn_eq_true]

theorem conditionHolds_eq_true (related : Lead → String → Option String) {condition : Dict} :
    conditionHolds py getattr lead condition = some true ↔
      ¬NamesRelationship condition ∧
        (Holds py getattr related lead condition ∨ Spurious py getattr related lead condition) := by
  unfold conditionHolds Holds Spurious NamesRelationship actualOf
  generalize conditionText condition "field" "" = field
  rcases Operator.lookup_cases py (conditionText condition "op" "eq") with ⟨o, hname, hlookup⟩ | ⟨hname, hlookup⟩
  · rw [hlookup]
    dsimp only
    by_cases hfield : field ∈ unloadedAttributes
    · rw [(leadValue_eq_none _ _).mpr hfield]
      simp [hfield]
    · rw [leadValue_eq_meaning related hfield, Option.bind_some, comparator_eq_true, hname]
      have hcontains : o.name = "contains" ↔ o = .contains := Operator.name_injective.eq_iff (b := .contains)
      simp only [hfield, not_false_eq_true, true_and, Operator.name_injective.eq_iff, exists_eq_left', hcontains]
  · rw [hlookup]
    simp only [Option.some.injEq, Bool.false_eq_true, false_iff, not_and, not_or]
    intro _
    refine ⟨fun ⟨o, ho, _⟩ => hname o ho, ?_⟩
    intro hcontains
    exact absurd hcontains (hname .contains)

theorem allHold_eq_true {conditions : List Dict} :
    allHold py getattr lead conditions = some true ↔
      ∀ c ∈ conditions, conditionHolds py getattr lead c = some true := by
  induction conditions with
  | nil => simp [allHold]
  | cons c rest ih =>
    rw [allHold, List.forall_mem_cons, ← ih]
    cases conditionHolds py getattr lead c with
    | none => simp
    | some holds => cases holds <;> simp

theorem not_holds_of_spurious {related : Lead → String → Option String} {condition : Dict}
    (h : Spurious py getattr related lead condition) : ¬Holds py getattr related lead condition := by
  obtain ⟨hop, hnull, -⟩ := h
  rintro ⟨o, ho, hsays⟩
  have hcontains : o = .contains := Operator.name_injective (ho.symm.trans hop)
  rw [hcontains, hnull] at hsays
  exact hsays.1 rfl

end RoutingRules

theorem rule_matches_iff_holds (py : Python) (getattr : Lead → String → Option FieldValue)
    (related : Lead → String → Option String) (lead : Lead) (rule : RoutingRule) :
    (ruleMatches py getattr lead rule = some true ↔
        ∀ c ∈ rule.conditions.getD [], Holds py getattr related lead c) ↔
      ((∀ c ∈ rule.conditions.getD [], Holds py getattr related lead c ∨ Spurious py getattr related lead c) →
        ((∃ c ∈ rule.conditions.getD [], Spurious py getattr related lead c) ↔
          ∃ c ∈ rule.conditions.getD [], NamesRelationship c)) := by
  unfold ruleMatches
  rw [allHold_eq_true]
  simp only [conditionHolds_eq_true related]
  generalize rule.conditions.getD [] = conditions
  constructor
  · intro h hall
    constructor
    · rintro ⟨c, hc, hspurious⟩
      by_contra hnone
      push Not at hnone
      have hholds := h.mp fun d hd => ⟨hnone d hd, hall d hd⟩
      exact not_holds_of_spurious hspurious (hholds c hc)
    · rintro ⟨c, hc, hnames⟩
      by_contra hnone
      push Not at hnone
      have hmatches := h.mpr fun d hd => (hall d hd).resolve_right (hnone d hd)
      exact (hmatches c hc).1 hnames
  · intro h
    constructor
    · intro hmatches c hc
      refine (hmatches c hc).2.resolve_right fun hspurious => ?_
      obtain ⟨d, hd, hnames⟩ := (h fun d hd => (hmatches d hd).2).mp ⟨c, hc, hspurious⟩
      exact (hmatches d hd).1 hnames
    · intro hholds c hc
      refine ⟨fun hnames => ?_, .inl (hholds c hc)⟩
      obtain ⟨d, hd, hspurious⟩ := (h fun d hd => .inl (hholds d hd)).mpr ⟨c, hc, hnames⟩
      exact not_holds_of_spurious hspurious (hholds d hd)

namespace RoutingRules

def oneInCompany : RoutingRule :=
  conditional "rule-1" 100 [("field", .str "company"), ("op", .str "contains"), ("value", .str "one")]

end RoutingRules

theorem null_company_contains :
    let lead := LeadRepository.create "lead-1" "tenant-1" {}
    lead.company = none ∧ ruleMatches .ascii (fun _ _ => none) lead oneInCompany = some true ∧
      ¬(ruleMatches .ascii (fun _ _ => none) lead oneInCompany = some true ↔
        ∀ c ∈ oneInCompany.conditions.getD [], Holds .ascii (fun _ _ => none) (fun _ _ => none) lead c) := by
  intro lead
  have hmatches : ruleMatches .ascii (fun _ _ => none) lead oneInCompany = some true := by decide +kernel
  refine ⟨rfl, hmatches, ?_⟩
  intro h
  have hholds := h.mp hmatches [("field", .str "company"), ("op", .str "contains"), ("value", .str "one")]
    List.mem_cons_self
  refine not_holds_of_spurious ⟨?_, ?_, ?_⟩ hholds
  · decide +kernel
  · rfl
  · decide +kernel

namespace RoutingRules

def placeKeys : List (String × String) :=
  [("assign_user", "user_id"), ("assign_team", "team_id"), ("queue", "queue_name")]

def places (a : Assignment) : ℕ := [a.ownerUserId, a.assignedTeamId, a.assignedQueueName].countP Option.isSome

def PutAsDecided (lead routed : Lead) (decision : RoutingDecision) : Prop :=
  match decision.action.bind fun action => placeKeys.lookup action with
  | some _ => places routed.assignment = 1
  | none => routed.assignment = lead.assignment

theorem assigned_isSome {payload : Dict} {key : String} :
    (assigned py payload key).isSome ↔ ∃ value, payload.get key = some value ∧ py.truthy value = true := by
  rw [assigned, Option.isSome_map]
  cases payload.get key <;> simp [Option.filter]

theorem assignmentOf_eq_none {rule : RoutingRule} (h : placeKeys.lookup rule.action = none) :
    assignmentOf py rule = none := by
  simp only [placeKeys, List.lookup_eq_none_iff, List.forall_mem_cons, bne_iff_ne] at h
  simp [assignmentOf, h]

theorem assignmentOf_places (py : Python) {rule : RoutingRule} {key : String} (h : placeKeys.lookup rule.action = some key) :
    ∃ a, assignmentOf py rule = some a ∧
      (places a = 1 ↔ (assigned py (rule.actionPayload.getD []) key).isSome) := by
  have hpair : (rule.action, key) ∈ placeKeys := by
    obtain ⟨l₁, l₂, hkeys, -⟩ := List.lookup_eq_some_iff.mp h
    rw [hkeys]
    simp
  unfold assignmentOf
  simp only [placeKeys, List.mem_cons, List.not_mem_nil, or_false, Prod.mk.injEq] at hpair
  rcases hpair with ⟨haction, rfl⟩ | ⟨haction, rfl⟩ | ⟨haction, rfl⟩
  · refine ⟨_, if_pos haction, ?_⟩
    cases assigned py (rule.actionPayload.getD []) "user_id" <;> simp [places]
  · refine ⟨_, (if_neg (by simp [haction])).trans (if_pos haction), ?_⟩
    cases assigned py (rule.actionPayload.getD []) "team_id" <;> simp [places]
  · refine ⟨_, (if_neg (by simp [haction])).trans ((if_neg (by simp [haction])).trans (if_pos haction)), ?_⟩
    cases assigned py (rule.actionPayload.getD []) "queue_name" <;> simp [places]

theorem putAsDecided_iff {rule : RoutingRule} :
    PutAsDecided lead (applyRoutingDecision py lead (decisionOf rule)) (decisionOf rule) ↔
      ∀ key, placeKeys.lookup rule.action = some key →
        ∃ value, (rule.actionPayload.getD []).get key = some value ∧ py.truthy value = true := by
  have hlookup : ((decisionOf rule).action.bind fun action => placeKeys.lookup action) = placeKeys.lookup rule.action :=
    rfl
  rw [applyRoutingDecision_decisionOf, PutAsDecided, hlookup]
  cases hkey : placeKeys.lookup rule.action with
  | none => simp [assignmentOf_eq_none hkey]
  | some key =>
    obtain ⟨a, ha, hplaces⟩ := assignmentOf_places py hkey
    simp only [ha, Option.elim_some, Lead.assign_assignment, hplaces, assigned_isSome, Option.some.injEq,
      forall_eq']

end RoutingRules

theorem routed_to_one_place_iff (py : Python) (getattr : Lead → String → Option FieldValue) (db : Db)
    (tenantId leadId eventId : Id) (lead : Lead) (hlead : LeadRepository.get db tenantId leadId = some lead)
    (c : Commit (Option Lead × RoutingDecision))
    (hwork : RoutingService.evaluateAndApply py getattr db tenantId leadId eventId = .commits c) :
    ∃ routed decision, c.value = (some routed, decision) ∧ .lead (.set routed) ∈ c.writes ∧
      (PutAsDecided lead routed decision ↔
        ∀ rule, Fires py getattr (EnabledOf db tenantId) lead rule →
          ∀ key, placeKeys.lookup rule.action = some key →
            ∃ value, (rule.actionPayload.getD []).get key = some value ∧ py.truthy value = true) := by
  unfold RoutingService.evaluateAndApply at hwork
  rw [hlead] at hwork
  dsimp only at hwork
  cases hdecision : evaluateRouting py getattr lead (RoutingRuleRepository.listEnabledRules db tenantId) with
  | none =>
    rw [hdecision] at hwork
    cases hwork
  | some decision =>
    rw [hdecision] at hwork
    cases hwork
    refine ⟨_, _, rfl, List.mem_cons_self, ?_⟩
    by_cases hfires : ∃ rule, Fires py getattr (EnabledOf db tenantId) lead rule
    · obtain ⟨rule, hrule⟩ := hfires
      rw [evaluateRouting_of_fires hrule] at hdecision
      cases hdecision
      rw [putAsDecided_iff]
      constructor
      · intro h s hs
        rwa [hs.unique hrule]
      · exact fun h => h rule hrule
    · have hsilent : ∀ rule, ¬Fires py getattr (EnabledOf db tenantId) lead rule := fun rule h => hfires ⟨rule, h⟩
      rw [evaluateRouting_of_silent hsilent hdecision]
      constructor
      · exact fun _ rule hrule => absurd hrule (hsilent rule)
      · exact fun _ => rfl

namespace RoutingRules

def enterpriseRule (teamKey : String) : RoutingRule :=
  RoutingRuleRepository.create "rule-1" "tenant-1"
    { name := "High score to enterprise team"
      conditions := [[("field", .str "lead_score"), ("operator", .str "gte"), ("value", .int 80)]]
      action := "assign_team"
      actionPayload := [(teamKey, .str "team_enterprise")] }

def scored : Lead :=
  { LeadRepository.create "lead-1" "tenant-1" {} with leadScore := 80, ownerUserId := some "user-1" }

def ruled (teamKey : String) : Db where
  leads := Table.empty.insert scored
  routingRules := Table.empty.insert (enterpriseRule teamKey)

def routedBy (teamKey : String) : Work (Option Lead × RoutingDecision) :=
  RoutingService.evaluateAndApply .ascii (fun _ _ => none) (ruled teamKey) "tenant-1" "lead-1" "event-1"

end RoutingRules

theorem routed_to_one_place_iff_team :
    ∃ routed decision c, routedBy "team_id" = .commits c ∧ c.value = (some routed, decision) ∧
      PutAsDecided scored routed decision := by
  have hrun : ∃ c, routedBy "team_id" = .commits c := ⟨_, rfl⟩
  obtain ⟨c, hc⟩ := hrun
  obtain ⟨routed, decision, hvalue, -, hiff⟩ := routed_to_one_place_iff .ascii (fun _ _ => none) (ruled "team_id")
    "tenant-1" "lead-1" "event-1" scored rfl c hc
  refine ⟨routed, decision, c, hc, hvalue, hiff.mpr ?_⟩
  rintro rule ⟨⟨hrule, -, -⟩, -, -⟩ key hkey
  cases List.mem_singleton.mp hrule
  cases hkey
  exact ⟨.str "team_enterprise", rfl, rfl⟩

theorem documented_rule_unassigns :
    ∃ routed decision c, routedBy "assigned_team_id" = .commits c ∧ c.value = (some routed, decision) ∧
      decision.action = some "assign_team" ∧ routed.assignment = ⟨none, none, none⟩ ∧
      ¬PutAsDecided scored routed decision := by
  refine ⟨_, _, _, rfl, rfl, rfl, rfl, ?_⟩
  intro h
  cases h

end Leadline
