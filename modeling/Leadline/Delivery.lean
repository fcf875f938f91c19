import Leadline.Publisher

namespace Leadline

inductive Delivery
  | email (source toEmail subject body : String)
  | sms (fromPhone toPhone body : String)

structure Handed (α : Type) where
  returned : Option α
  message : Option Delivery

namespace DeliveryService

def handOver (call : CallOutcome) (message : Delivery) : Handed Bool where
  returned := if call.raises then none else some true
  message := if call.takesEffect then some message else none

def sendEmail (settings : Settings) (call : CallOutcome) (toEmail subject body : String) : Handed Bool :=
  match configured settings.sesFromEmail with
  | none => ⟨some false, none⟩
  | some source => handOver call (.email source toEmail subject body)

def sendSms (settings : Settings) (call : CallOutcome) (toPhone body : String) : Handed Bool :=
  match configured settings.twilioAccountSid, configured settings.twilioAuthToken,
    configured settings.twilioFromPhone with
  | some _, some _, some fromPhone => handOver call (.sms fromPhone toPhone body)
  | _, _, _ => ⟨some false, none⟩

end DeliveryService

inductive DeliveryToken
  | email
  | sms
  deriving DecidableEq

/-- `_execute_step`: the token does not depend on what the provider call returned. -/
def executeStep (settings : Settings) (call : CallOutcome) (lead : Lead) (stepType : String)
    (template : Option String) : Handed (Option DeliveryToken) :=
  let content := template.getD ""
  if stepType = "email" then
    match configured lead.email with
    | none => ⟨some none, none⟩
    | some toEmail =>
      let sent := DeliveryService.sendEmail settings call toEmail "Lead Line follow-up" content
      ⟨sent.returned.map fun _ => some .email, sent.message⟩
  else if stepType = "sms" then
    match configured lead.phone with
    | none => ⟨some none, none⟩
    | some toPhone =>
      let sent := DeliveryService.sendSms settings call toPhone content
      ⟨sent.returned.map fun _ => some .sms, sent.message⟩
  else ⟨some none, none⟩

theorem executeStep_returns {settings : Settings} {lead : Lead} {stepType : String}
    {template : Option String} : ∃ token message,
      executeStep settings .returns lead stepType template = ⟨some token, message⟩ := by
  unfold executeStep DeliveryService.sendEmail DeliveryService.sendSms DeliveryService.handOver
  split
  · split
    · exact ⟨none, none, rfl⟩
    · split <;> exact ⟨some .email, _, rfl⟩
  · split
    · split
      · exact ⟨none, none, rfl⟩
      · split <;> exact ⟨some .sms, _, rfl⟩
    · exact ⟨none, none, rfl⟩

theorem executeStep_withoutEffect {settings : Settings} {lead : Lead} {stepType : String}
    {template : Option String} :
    (executeStep settings .raisesWithoutEffect lead stepType template).message = none := by
  unfold executeStep DeliveryService.sendEmail DeliveryService.sendSms DeliveryService.handOver
  split
  · split
    · rfl
    · split <;> rfl
  · split
    · split
      · rfl
      · split <;> rfl
    · rfl

end Leadline
