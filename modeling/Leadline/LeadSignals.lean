import Leadline.IntegrationEvents
import Leadline.MessageEvents
import Mathlib.Data.Rat.Floor
import Mathlib.Tactic.Ring

namespace Leadline

open Library

variable {u v : MessageUnderstanding} {m n : ℤ}

namespace LeadSignals

def companySize (u : MessageUnderstanding) : Option ℤ := PlanLimitService.intValue (u.entities.get "company_size")

def urgencyLevel (urgency : String) : ℕ := if urgency = "high" then 2 else if urgency = "medium" then 1 else 0

def sentimentLevel (sentiment : String) : ℕ :=
  if sentiment = "positive" then 2 else if sentiment = "negative" then 0 else 1

def intentClass (intent : String) : ℕ :=
  if intent ∈ ["demo_request", "pricing"] then 3
  else if intent ∈ ["comparison", "evaluation"] then 2
  else if intent = "support" then 1
  else 0

structure AtMost (u : MessageUnderstanding) (m : ℤ) (v : MessageUnderstanding) (n : ℤ) : Prop where
  count : m ≤ n
  size : ∀ a, companySize u = some a → ∃ b, companySize v = some b ∧ a ≤ b
  urgency : urgencyLevel u.urgency ≤ urgencyLevel v.urgency
  sentiment : sentimentLevel u.sentiment ≤ sentimentLevel v.sentiment
  intent : intentClass u.intent ≤ intentClass v.intent

theorem bound_bounds (value : ℤ) : 0 ≤ bound value ∧ bound value ≤ 100 := by
  unfold bound
  omega

theorem bound_mono {a b : ℤ} (h : a ≤ b) : bound a ≤ bound b := by
  unfold bound
  omega

theorem companyFit_bounds (entities : Dict) : 0 ≤ companyFit entities ∧ companyFit entities ≤ 25 := by
  unfold companyFit
  cases PlanLimitService.intValue (entities.get "company_size") with
  | none => simp
  | some size =>
    dsimp only
    split_ifs <;> omega

theorem companyFit_mono (h : ∀ a, companySize u = some a → ∃ b, companySize v = some b ∧ a ≤ b) :
    companyFit u.entities ≤ companyFit v.entities := by
  unfold companySize at h
  cases hu : PlanLimitService.intValue (u.entities.get "company_size") with
  | none =>
    have hfit : companyFit u.entities = 0 := by simp only [companyFit, hu]
    have hpos := (companyFit_bounds v.entities).1
    omega
  | some a =>
    obtain ⟨b, hv, hle⟩ := h a hu
    simp only [companyFit, hu, hv]
    split_ifs <;> omega

theorem intentScore_mono {i j : String} (h : intentClass i ≤ intentClass j) : intentScore i ≤ intentScore j := by
  unfold intentClass at h
  unfold intentScore
  split_ifs at * <;> omega

theorem urgencyEngagement_eq (urgency : String) : urgencyEngagement urgency = 10 * urgencyLevel urgency := by
  unfold urgencyEngagement urgencyLevel
  split_ifs <;> rfl

theorem sentimentEngagement_mono {s t : String} (h : sentimentLevel s ≤ sentimentLevel t) :
    sentimentEngagement s ≤ sentimentEngagement t := by
  unfold sentimentLevel at h
  unfold sentimentEngagement
  split_ifs at * <;> omega

theorem fitScore_mono (h : AtMost u m v n) :
    (computeInitialScores u m).fitScore ≤ (computeInitialScores v n).fitScore := by
  have hfit := companyFit_mono h.size
  apply bound_mono
  omega

theorem engagementScore_mono (h : AtMost u m v n) :
    (computeInitialScores u m).engagementScore ≤ (computeInitialScores v n).engagementScore := by
  have hcount := h.count
  have hurgency := h.urgency
  have hsentiment := sentimentEngagement_mono h.sentiment
  apply bound_mono
  rw [urgencyEngagement_eq, urgencyEngagement_eq]
  omega

theorem leadScore_eq (u : MessageUnderstanding) (m : ℤ) :
    (computeInitialScores u m).leadScore = bound ((4 * (computeInitialScores u m).fitScore +
      3 * (computeInitialScores u m).engagementScore + 3 * intentScore u.intent) / 10) := rfl

theorem leadScore_eq_floor (u : MessageUnderstanding) (m : ℤ) :
    (computeInitialScores u m).leadScore = bound ⌊(0.4 * (computeInitialScores u m).fitScore +
      0.3 * (computeInitialScores u m).engagementScore + 0.3 * intentScore u.intent : ℚ)⌋ := by
  have hsum : (0.4 * (computeInitialScores u m).fitScore + 0.3 * (computeInitialScores u m).engagementScore +
      0.3 * intentScore u.intent : ℚ) = ((4 * (computeInitialScores u m).fitScore +
        3 * (computeInitialScores u m).engagementScore + 3 * intentScore u.intent : ℤ) : ℚ) / (10 : ℕ) := by
    push_cast
    ring
  rw [hsum, Rat.floor_intCast_div_natCast, leadScore_eq]
  rfl

theorem leadScore_mono (h : AtMost u m v n) :
    (computeInitialScores u m).leadScore ≤ (computeInitialScores v n).leadScore := by
  have hfit := fitScore_mono h
  have hengagement := engagementScore_mono h
  have hintent := intentScore_mono h.intent
  rw [leadScore_eq, leadScore_eq]
  apply bound_mono
  omega

end LeadSignals

open LeadSignals

theorem scores_monotone (u v : MessageUnderstanding) (m n : ℤ) :
    (AtMost u m v n →
      (computeInitialScores u m).fitScore ≤ (computeInitialScores v n).fitScore ∧
      (computeInitialScores u m).engagementScore ≤ (computeInitialScores v n).engagementScore ∧
      (computeInitialScores u m).leadScore ≤ (computeInitialScores v n).leadScore) ∧
    ∀ score ∈ [(computeInitialScores u m).fitScore, (computeInitialScores u m).engagementScore,
      (computeInitialScores u m).leadScore], 0 ≤ score ∧ score ≤ 100 := by
  constructor
  · intro h
    exact ⟨fitScore_mono h, engagementScore_mono h, leadScore_mono h⟩
  · intro score hscore
    simp only [List.mem_cons, List.not_mem_nil, or_false] at hscore
    obtain rfl | rfl | rfl := hscore
    all_goals apply bound_bounds

namespace LeadSignals

def signals (intent urgency sentiment : String) (companySize : ℤ) : MessageUnderstanding where
  intent := intent
  entities := [("company_size", .int companySize)]
  sentiment := sentiment
  urgency := urgency
  topics := []
  model := "gpt-4o-mini"
  promptVersion := "v1"

end LeadSignals

theorem scores_monotone_support :
    (computeInitialScores (signals "support" "low" "negative" 10) 1).leadScore ≤
      (computeInitialScores (signals "evaluation" "medium" "neutral" 60) 3).leadScore := by
  have h : AtMost (signals "support" "low" "negative" 10) 1 (signals "evaluation" "medium" "neutral" 60) 3 :=
    { count := by decide
      size := by
        intro a ha
        obtain rfl : 10 = a := Option.some.inj ha
        exact ⟨60, rfl, by decide⟩
      urgency := by decide
      sentiment := by decide
      intent := by decide }
  exact ((scores_monotone _ _ 1 3).1 h).2.2

structure Strongest (u : MessageUnderstanding) (n : ℤ) : Prop where
  intent : u.intent ∈ ["demo_request", "pricing"]
  size : ∃ a, companySize u = some a ∧ 200 ≤ a
  urgency : u.urgency = "high"
  sentiment : u.sentiment = "positive"
  count : 5 ≤ n

namespace LeadSignals

theorem leadScore_le (v : MessageUnderstanding) (m : ℤ) : (computeInitialScores v m).leadScore ≤ 76 := by
  have hfit : (computeInitialScores v m).fitScore ≤ 65 := by
    have hle := (companyFit_bounds v.entities).2
    have hmono : bound (40 + companyFit v.entities) ≤ bound 65 := bound_mono (by omega)
    exact hmono
  have hengagement : (computeInitialScores v m).engagementScore ≤ 88 := by
    have hurgency : urgencyEngagement v.urgency ≤ 20 := by
      unfold urgencyEngagement
      split_ifs <;> omega
    have hsentiment : sentimentEngagement v.sentiment ≤ 8 := by
      unfold sentimentEngagement
      split_ifs <;> omega
    have hmono : (computeInitialScores v m).engagementScore ≤ bound 88 := by
      apply bound_mono
      omega
    exact hmono
  have hintent : intentScore v.intent ≤ 80 := by
    unfold intentScore
    split_ifs <;> omega
  have hmono : (computeInitialScores v m).leadScore ≤ bound 76 := by
    rw [leadScore_eq]
    apply bound_mono
    omega
  exact hmono

theorem leadScore_strongest (h : Strongest u n) : (computeInitialScores u n).leadScore = 76 := by
  obtain ⟨a, hsize, ha⟩ := h.size
  have hcount := h.count
  have hfit : (computeInitialScores u n).fitScore = 65 := by
    have hcompany : companyFit u.entities = 25 := by
      unfold companySize at hsize
      simp [companyFit, hsize, ha]
    simp [computeInitialScores, hcompany, bound]
  have hengagement : (computeInitialScores u n).engagementScore = 88 := by
    have hmin : min 35 (n * 7) = 35 := by omega
    simp [computeInitialScores, hmin, urgencyEngagement, sentimentEngagement, h.urgency, h.sentiment, bound]
  have hintent : intentScore u.intent = 80 := if_pos h.intent
  rw [leadScore_eq, hfit, hengagement, hintent]
  decide

end LeadSignals

theorem strongest_signals_unnoticed (u : MessageUnderstanding) (n : ℤ) (h : Strongest u n) :
    (∀ v m, (computeInitialScores v m).leadScore ≤ (computeInitialScores u n).leadScore) ∧
      ∀ lead : Lead, IntegrationEvents.notifiesHighIntent "integration.lead.score_updated"
        (MessageEvents.applyScores (computeInitialScores u n) lead) = false := by
  have hscore := leadScore_strongest h
  constructor
  · intro v m
    rw [hscore]
    exact leadScore_le v m
  · intro lead
    have hlead : (MessageEvents.applyScores (computeInitialScores u n) lead).leadScore = 76 := hscore
    simp [IntegrationEvents.notifiesHighIntent, hlead]

namespace LeadSignals

theorem strongest_pricing : Strongest (signals "pricing" "high" "positive" 5000) 9 where
  intent := by decide
  size := ⟨5000, rfl, by decide⟩
  urgency := rfl
  sentiment := rfl
  count := by decide

end LeadSignals

theorem strongest_signals_unnoticed_pricing :
    IntegrationEvents.notifiesHighIntent "integration.lead.score_updated"
      (MessageEvents.applyScores (computeInitialScores (signals "pricing" "high" "positive" 5000) 9)
        (LeadRepository.create "lead-1" "tenant-1" {})) = false :=
  (strongest_signals_unnoticed _ 9 strongest_pricing).2 _

theorem pricing_lead_unnoticed :
    Strongest (signals "pricing" "high" "positive" 5000) 9 ∧
      (computeInitialScores (signals "pricing" "high" "positive" 5000) 9).leadScore = 76 ∧
      IntegrationEvents.notifiesHighIntent "integration.lead.score_updated"
        (MessageEvents.applyScores (computeInitialScores (signals "pricing" "high" "positive" 5000) 9)
          (LeadRepository.create "lead-1" "tenant-1" {})) = false := by
  exact ⟨strongest_pricing, rfl, rfl⟩

end Leadline
