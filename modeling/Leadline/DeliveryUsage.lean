import Leadline.Library.GuardedRun
import Leadline.UsageTotals

namespace Leadline

open Library

namespace DeliveryUsage

structure Tally where
  db : Db
  emails : Id → ℕ := fun _ => 0
  texts : Id → ℕ := fun _ => 0

def emailCall (settings : Settings) (call : CallOutcome) (work : StepWork) : Option (Handed Bool) :=
  if work.step.type = "email" then
    (configured work.lead.email).map fun toEmail =>
      DeliveryService.sendEmail settings call toEmail "Lead Line follow-up" (work.step.template.getD "")
  else none

def textCall (settings : Settings) (call : CallOutcome) (work : StepWork) : Option (Handed Bool) :=
  if work.step.type = "sms" then
    (configured work.lead.phone).map fun toPhone =>
      DeliveryService.sendSms settings call toPhone (work.step.template.getD "")
  else none

def returnedTrue (call : Option (Handed Bool)) : ℕ :=
  match call with
  | some sent => if sent.returned = some true then 1 else 0
  | none => 0

structure Handling where
  payload : Dict
  calls : StepCalls

def Tally.next (settings : Settings) (s : Tally) (h : Handling) : Tally :=
  let db := (processSequenceStepEvent settings s.db h.payload h.calls).db
  match readStepJob s.db h.payload with
  | .execute work =>
    { db := db
      emails := Function.update s.emails work.tenantId
        (s.emails work.tenantId + returnedTrue (emailCall settings h.calls.send work))
      texts := Function.update s.texts work.tenantId
        (s.texts work.tenantId + returnedTrue (textCall settings h.calls.send work)) }
  | _ => { s with db := db }

def HandlingStep (settings : Settings) (s : Tally) (h : Handling) (s' : Tally) : Prop :=
  h.calls.Faultless s.db ∧ s' = s.next settings h

def Balanced (s : Tally) : Prop :=
  ∀ tenantId, (tenantUsage s.db tenantId).emailsSent = s.emails tenantId ∧
    (tenantUsage s.db tenantId).smsSent = s.texts tenantId

def emailConfigured (settings : Settings) : Bool := (configured settings.sesFromEmail).isSome

def smsConfigured (settings : Settings) : Bool :=
  (configured settings.twilioAccountSid).isSome && (configured settings.twilioAuthToken).isSome &&
    (configured settings.twilioFromPhone).isSome

def emailMissed (settings : Settings) (work : StepWork) : Bool :=
  work.step.type = "email" && (configured work.lead.email).isSome && !emailConfigured settings

def textMissed (settings : Settings) (work : StepWork) : Bool :=
  work.step.type = "sms" && (configured work.lead.phone).isSome && !smsConfigured settings

def Provided (settings : Settings) (s : Tally) (h : Handling) : Prop :=
  ∀ work, readStepJob s.db h.payload = .execute work → emailMissed settings work = false ∧
    textMissed settings work = false

def countedEmails (token : Option DeliveryToken) : ℕ := if token = some .email then 1 else 0

def countedTexts (token : Option DeliveryToken) : ℕ := if token = some .sms then 1 else 0

variable {settings : Settings} {work : StepWork} {token : Option DeliveryToken}

theorem sendEmail_returned (toEmail subject body : String) :
    (DeliveryService.sendEmail settings .returns toEmail subject body).returned =
      some (emailConfigured settings) := by
  unfold DeliveryService.sendEmail emailConfigured
  cases configured settings.sesFromEmail with
  | none => rfl
  | some source => rfl

theorem sendSms_returned (toPhone body : String) :
    (DeliveryService.sendSms settings .returns toPhone body).returned = some (smsConfigured settings) := by
  unfold DeliveryService.sendSms smsConfigured
  cases configured settings.twilioAccountSid with
  | none => simp
  | some sid =>
    cases configured settings.twilioAuthToken with
    | none => simp
    | some key =>
      cases configured settings.twilioFromPhone with
      | none => simp
      | some phone => simp [DeliveryService.handOver, CallOutcome.raises]

theorem token_of_deliver (h : (work.deliver settings .returns).returned = some token) :
    token =
      if work.step.type = "email" ∧ (configured work.lead.email).isSome then some .email
      else if work.step.type = "sms" ∧ (configured work.lead.phone).isSome then some .sms
      else none := by
  unfold StepWork.deliver executeStep at h
  by_cases hemail : work.step.type = "email"
  · have hsms : work.step.type ≠ "sms" := by simp [hemail]
    cases hto : configured work.lead.email with
    | none => simpa [hemail, hto, hsms] using h.symm
    | some toEmail => simpa [hemail, hto, sendEmail_returned] using h.symm
  · by_cases hsms : work.step.type = "sms"
    · cases hto : configured work.lead.phone with
      | none => simpa [hsms, hto] using h.symm
      | some toPhone => simpa [hsms, hto, sendSms_returned] using h.symm
    · simpa [hemail, hsms] using h.symm

theorem counted_emails (h : (work.deliver settings .returns).returned = some token) :
    countedEmails token =
      returnedTrue (emailCall settings .returns work) + if emailMissed settings work then 1 else 0 := by
  rw [token_of_deliver h]
  unfold emailCall emailMissed
  by_cases hemail : work.step.type = "email"
  · cases hto : configured work.lead.email with
    | none => simp [hemail, countedEmails, returnedTrue]
    | some toEmail =>
      by_cases hconfigured : emailConfigured settings
      · simp [hemail, countedEmails, returnedTrue, sendEmail_returned, hconfigured]
      · simp [hemail, countedEmails, returnedTrue, sendEmail_returned, hconfigured]
  · simp only [hemail, false_and, if_false, countedEmails, returnedTrue, decide_false, Bool.false_and,
      Bool.false_eq_true, Nat.add_zero]
    split
    · rfl
    · rfl

theorem counted_texts (h : (work.deliver settings .returns).returned = some token) :
    countedTexts token =
      returnedTrue (textCall settings .returns work) + if textMissed settings work then 1 else 0 := by
  rw [token_of_deliver h]
  unfold textCall textMissed
  by_cases hsms : work.step.type = "sms"
  · cases hto : configured work.lead.phone with
    | none => simp [hsms, countedTexts, returnedTrue]
    | some toPhone =>
      by_cases hconfigured : smsConfigured settings
      · simp [hsms, countedTexts, returnedTrue, sendSms_returned, hconfigured]
      · simp [hsms, countedTexts, returnedTrue, sendSms_returned, hconfigured]
  · simp only [hsms, false_and, if_false, countedTexts, returnedTrue, decide_false, Bool.false_and,
      Bool.false_eq_true, Nat.add_zero]
    split
    · rfl
    · rfl

theorem tenantUsage_commit {db : Db} {today : Day} {eventId other : Id} :
    tenantUsage (work.commit db (work.recordUsage db today token) eventId) other =
      tenantUsage db other +
        if other = work.tenantId then { emailsSent := countedEmails token, smsSent := countedTexts token }
        else 0 := by
  have hcounted : ∀ added : Usage, tenantUsage (work.commit db
      (some (UsageTrackingService.increment db work.tenantId today added)) eventId) other =
        tenantUsage db other + if other = work.tenantId then added else 0 :=
    fun added => UsageTotals.usage_increment db work.tenantId today added other
  cases token with
  | none =>
    have hzero : ({ emailsSent := countedEmails none, smsSent := countedTexts none } : Usage) = 0 := rfl
    rw [hzero, ite_self, add_zero]
    rfl
  | some token =>
    cases token with
    | email => exact hcounted { emailsSent := 1 }
    | sms => exact hcounted { smsSent := 1 }

def missedEmails (settings : Settings) (s : Tally) (h : Handling) (tenantId : Id) : ℕ :=
  match readStepJob s.db h.payload with
  | .execute work => if tenantId = work.tenantId ∧ emailMissed settings work = true then 1 else 0
  | _ => 0

def missedTexts (settings : Settings) (s : Tally) (h : Handling) (tenantId : Id) : ℕ :=
  match readStepJob s.db h.payload with
  | .execute work => if tenantId = work.tenantId ∧ textMissed settings work = true then 1 else 0
  | _ => 0

def Tally.excessEmails (s : Tally) (tenantId : Id) : ℤ := (tenantUsage s.db tenantId).emailsSent - s.emails tenantId

def Tally.excessTexts (s : Tally) (tenantId : Id) : ℤ := (tenantUsage s.db tenantId).smsSent - s.texts tenantId

section Step

variable {s s' : Tally} {h : Handling}

theorem balanced_iff : Balanced s ↔ ∀ tenantId, s.excessEmails tenantId = 0 ∧ s.excessTexts tenantId = 0 := by
  refine forall_congr' fun tenantId => ?_
  unfold Tally.excessEmails Tally.excessTexts
  constructor
  · rintro ⟨hemails, htexts⟩
    omega
  · rintro ⟨hemails, htexts⟩
    omega

theorem provided_iff : Provided settings s h ↔
    ∀ tenantId, missedEmails settings s h tenantId = 0 ∧ missedTexts settings s h tenantId = 0 := by
  unfold Provided missedEmails missedTexts
  cases hread : readStepJob s.db h.payload with
  | ignored => simp
  | finished enrollment => simp
  | execute work =>
    constructor
    · intro hprovided tenantId
      obtain ⟨hemail, htext⟩ := hprovided work rfl
      simp [hemail, htext]
    · intro hmissed found hfound
      cases hfound
      simpa using hmissed work.tenantId

theorem excess_of_unread (hread : ∀ work, readStepJob s.db h.payload ≠ .execute work)
    (husage : (s.next settings h).db.usage = s.db.usage) (tenantId : Id) :
    (s.next settings h).excessEmails tenantId = s.excessEmails tenantId + missedEmails settings s h tenantId ∧
      (s.next settings h).excessTexts tenantId = s.excessTexts tenantId + missedTexts settings s h tenantId := by
  have htotal : tenantUsage (s.next settings h).db tenantId = tenantUsage s.db tenantId := by
    simp only [tenantUsage, husage]
  have hcalls : (s.next settings h).emails = s.emails ∧ (s.next settings h).texts = s.texts := by
    unfold Tally.next
    cases hwork : readStepJob s.db h.payload with
    | ignored => exact ⟨rfl, rfl⟩
    | finished enrollment => exact ⟨rfl, rfl⟩
    | execute work => exact absurd hwork (hread work)
  have hmissed : missedEmails settings s h tenantId = 0 ∧ missedTexts settings s h tenantId = 0 :=
    provided_iff.mp (fun work hwork => absurd hwork (hread work)) tenantId
  simp only [Tally.excessEmails, Tally.excessTexts, htotal, hcalls, hmissed]
  omega

theorem excess_step (hstep : HandlingStep settings s h s') (tenantId : Id) :
    s'.excessEmails tenantId = s.excessEmails tenantId + missedEmails settings s h tenantId ∧
      s'.excessTexts tenantId = s.excessTexts tenantId + missedTexts settings s h tenantId := by
  obtain ⟨hcalls, rfl⟩ := hstep
  rcases readStepJob_cases s.db h.payload with hread | ⟨enrollment, hread, -⟩ | ⟨work, hread, -⟩
  · apply excess_of_unread
    · intro work hwork
      rw [hread] at hwork
      cases hwork
    · simp only [Tally.next, hread, process_ignored settings hread]
  · apply excess_of_unread
    · intro work hwork
      rw [hread] at hwork
      cases hwork
    · simp only [Tally.next, hread, process_finished settings hcalls hread, completeEnrollment]
  · obtain ⟨token, htoken, hprocess⟩ := process_executed settings hcalls hread
    have hemails := counted_emails htoken
    have htexts := counted_texts htoken
    have htotal : tenantUsage (s.next settings h).db tenantId = tenantUsage s.db tenantId +
        if tenantId = work.tenantId then { emailsSent := countedEmails token, smsSent := countedTexts token }
        else 0 := by
      simp only [Tally.next, hread, hprocess]
      exact tenantUsage_commit
    have htotals : (tenantUsage (s.next settings h).db tenantId).emailsSent =
          (tenantUsage s.db tenantId).emailsSent + (if tenantId = work.tenantId then countedEmails token else 0) ∧
        (tenantUsage (s.next settings h).db tenantId).smsSent =
          (tenantUsage s.db tenantId).smsSent + (if tenantId = work.tenantId then countedTexts token else 0) := by
      rw [htotal]
      split <;> exact ⟨rfl, rfl⟩
    have hcalled : (s.next settings h).emails tenantId = s.emails tenantId +
          (if tenantId = work.tenantId then returnedTrue (emailCall settings .returns work) else 0) ∧
        (s.next settings h).texts tenantId = s.texts tenantId +
          (if tenantId = work.tenantId then returnedTrue (textCall settings .returns work) else 0) := by
      simp only [Tally.next, hread, hcalls.send, Function.update_apply]
      split
      · rename_i htenant
        rw [htenant]
        exact ⟨rfl, rfl⟩
      · exact ⟨rfl, rfl⟩
    simp only [Tally.excessEmails, Tally.excessTexts, htotals, hcalled, missedEmails, missedTexts, hread]
    by_cases htenant : tenantId = work.tenantId
    · simp only [htenant, if_true, true_and, hemails, htexts]
      omega
    · simp only [htenant, if_false, false_and]
      omega

end Step

section Runs

variable {s s' : Tally} {handlings : List Handling}

def Covered (s : Tally) : Prop := ∀ tenantId, 0 ≤ s.excessEmails tenantId ∧ 0 ≤ s.excessTexts tenantId

theorem Balanced.covered (hbalanced : Balanced s) : Covered s := by
  intro tenantId
  obtain ⟨hemails, htexts⟩ := balanced_iff.mp hbalanced tenantId
  exact ⟨hemails.ge, htexts.ge⟩

theorem covered_step {h : Handling} (hstep : HandlingStep settings s h s') (hcovered : Covered s) : Covered s' := by
  intro tenantId
  obtain ⟨hemails, htexts⟩ := excess_step hstep tenantId
  obtain ⟨hemails', htexts'⟩ := hcovered tenantId
  omega

theorem balanced_step_iff {h : Handling} (hstep : HandlingStep settings s h s') (hcovered : Covered s) :
    Balanced s' ↔ Balanced s ∧ Provided settings s h := by
  rw [balanced_iff, balanced_iff, provided_iff, ← forall_and]
  refine forall_congr' fun tenantId => ?_
  obtain ⟨hemails, htexts⟩ := excess_step hstep tenantId
  obtain ⟨hemails', htexts'⟩ := hcovered tenantId
  omega

theorem balanced_run_iff (hrun : Run (HandlingStep settings) s handlings s') (hcovered : Covered s) :
    Balanced s' ↔ Balanced s ∧ GuardedRun (HandlingStep settings) (Provided settings) s handlings s' := by
  refine GuardedRun.invariant_iff Balanced Covered ?_ ?_ ?_ hrun hcovered
  · rintro s h t u ⟨_, rfl⟩ ⟨_, rfl⟩
    rfl
  · exact fun _ _ _ hcovered hstep => covered_step hstep hcovered
  · exact fun _ _ _ hcovered hstep => balanced_step_iff hstep hcovered

end Runs

end DeliveryUsage

open DeliveryUsage

theorem usage_matches_deliveries (settings : Settings) {s₀ s : Tally} {handlings : List Handling}
    (hbalanced : Balanced s₀) (hrun : Run (HandlingStep settings) s₀ handlings s) :
    Balanced s ↔ GuardedRun (HandlingStep settings) (Provided settings) s₀ handlings s := by
  rw [balanced_run_iff hrun hbalanced.covered]
  exact and_iff_right hbalanced

namespace DeliveryUsage

def enrolledByEmail : Tally where
  db :=
    { leads := Table.empty.insert (LeadRepository.create "lead-1" "tenant-1" { email := some "ada@example.com" })
      sequences := Table.empty.insert ⟨"sequence-1", "tenant-1", "Welcome", none, "lead_created", "active"⟩
      steps := Table.empty.insert ⟨"step-1", "sequence-1", 0, "email", 0, some "Hello"⟩
      enrollments := Table.empty.insert
        (SequenceEnrollmentRepository.newEnrollment "enrollment-1" "tenant-1" "lead-1" "sequence-1") }

def emailHandling : Handling where
  payload := (stepJob "tenant-1" "enrollment-1").payload
  calls := { send := .returns, publish := .returns, commit := .returns, today := 1, eventId := "event-1" }

theorem emailHandling_faultless : emailHandling.calls.Faultless enrolledByEmail.db :=
  ⟨rfl, rfl, rfl, fun m hm => absurd hm (Table.not_mem_empty m)⟩

theorem emailHandling_run (settings : Settings) : Run (HandlingStep settings) enrolledByEmail [emailHandling]
    (enrolledByEmail.next settings emailHandling) :=
  .cons trivial ⟨emailHandling_faultless, rfl⟩ (.nil _)

theorem enrolledByEmail_balanced : Balanced enrolledByEmail := fun _ => ⟨rfl, rfl⟩

end DeliveryUsage

theorem usage_matches_deliveries_sender :
    Balanced (enrolledByEmail.next { sesFromEmail := some "hello@example.com" } emailHandling) :=
  (usage_matches_deliveries { sesFromEmail := some "hello@example.com" } enrolledByEmail_balanced
    (emailHandling_run _)).mpr (.cons (by
      intro work hread
      cases hread
      exact ⟨by decide +kernel, by decide +kernel⟩) ⟨emailHandling_faultless, rfl⟩ (.nil _))

theorem unsent_email_counted :
    Run (HandlingStep {}) enrolledByEmail [emailHandling] (enrolledByEmail.next {} emailHandling) ∧
      (tenantUsage (enrolledByEmail.next {} emailHandling).db "tenant-1").emailsSent = 1 ∧
      (enrolledByEmail.next {} emailHandling).emails "tenant-1" = 0 :=
  ⟨emailHandling_run {}, by decide +kernel, by decide +kernel⟩

end Leadline
