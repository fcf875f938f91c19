import Leadline.Provisioning

/-!
`scripts/rollout_design_partners.py`: the tool that provisions, enrolls and promotes the tenants of a CSV.
-/

namespace Leadline

open Library

/-- What `requests.post` gives the tool. -/
inductive PostReply (α : Type)
  | ok (body : α)
  | status (code : ℕ)
  | exception

inductive PostCall
  | answered (commit : CallOutcome)
  | lost (handled : Option CallOutcome)
  | failed (handled : Option CallOutcome) (code : ℕ) (error : code ≠ 200)

def Answer.reply {α : Type} : Answer α → PostReply α
  | .returned a => .ok a
  | .refused e => .status e.statusCode
  | .raised => .status 500

def AdminApi.validated {α β : Type} (body : Option α) (db : Accounts) (endpoint : α → Answer β × Accounts) :
    PostReply β × Accounts :=
  match body with
  | none => (.status 422, db)
  | some payload => ((endpoint payload).1.reply, (endpoint payload).2)

namespace PostCall

variable {α : Type} (db : Accounts) (endpoint : CallOutcome → PostReply α × Accounts)

def accounts : Option CallOutcome → Accounts
  | none => db
  | some commit => (endpoint commit).2

def post : PostCall → PostReply α × Accounts
  | answered commit => endpoint commit
  | lost handled => (.exception, accounts db endpoint handled)
  | failed handled code _ => (.status code, accounts db endpoint handled)

end PostCall

/-- A row of `csv.DictReader`: a short row has `None` in its last columns. -/
abbrev CsvRow := List (String × Option String)

def CsvRow.json : Option String → Json
  | none => .null
  | some cell => .str cell

structure RolloutRow where
  tenantSlug : Option String
  ownerEmail : Option String
  companyName : Option String
  cohort : Option String
  rolloutPercentage : ℤ

namespace RolloutRow

/-- `none` where a column is missing (KeyError) or the percentage is no integer (ValueError, TypeError). -/
def read (py : Python) (row : CsvRow) : Option RolloutRow := do
  let tenantSlug ← row.lookup "tenant_slug"
  let ownerEmail ← row.lookup "owner_email"
  let companyName ← row.lookup "company_name"
  let cohort ← row.lookup "cohort"
  let percentage ← row.lookup "rollout_percentage"
  let rolloutPercentage ← py.intOf (CsvRow.json percentage)
  pure { tenantSlug, ownerEmail, companyName, cohort, rolloutPercentage }

variable (row : RolloutRow)

def slugText : String := row.tenantSlug.getD "None"

/-- The bodies of the requests as the endpoints read them; `none` where a `null` or the percentage is refused. -/
def provisionRequest : Option ProvisionTenantRequest :=
  match row.companyName, row.tenantSlug, row.ownerEmail with
  | some name, some slug, some ownerEmail => some { name, slug, ownerEmail, plan := "starter" }
  | _, _, _ => none

def enrollmentRequest : Option DesignPartnerEnrollmentRequest :=
  row.cohort.map fun cohort => { cohort, launchNotes := some "automated rollout tool" }

def promotionRequest : Option RolloutPromotionRequest :=
  if h : 0 ≤ row.rolloutPercentage ∧ row.rolloutPercentage ≤ 100 then some ⟨row.rolloutPercentage, h.1, h.2⟩ else none

end RolloutRow

structure RowCalls where
  provision : PostCall
  enroll : PostCall
  promote : PostCall
  draws : ProvisionDraws

/-- How the work on a row ends: with the next row, `return 1` (each after a printed line), or an exception. -/
inductive RowEnd
  | next (line : String)
  | returns (line : String)
  | raises

namespace RolloutTool

section

variable (py : Python) (secrets : Secrets) (row : RolloutRow) (calls : RowCalls) (tenantId : Id) (db : Accounts)

def handleProvision (commit : CallOutcome) : PostReply ProvisionTenantResponse × Accounts :=
  AdminApi.validated row.provisionRequest db fun payload =>
    AdminApi.provisionTenant secrets db payload calls.draws commit

def postProvision : PostReply ProvisionTenantResponse × Accounts :=
  calls.provision.post db (handleProvision secrets row calls db)

def postEnroll : PostReply DesignPartnerEnrollmentResponse × Accounts :=
  calls.enroll.post db fun commit =>
    AdminApi.validated row.enrollmentRequest db fun payload =>
      AdminApi.enrollDesignPartner py db tenantId payload commit

def postPromote : PostReply RolloutPromotionResponse × Accounts :=
  calls.promote.post db fun commit =>
    AdminApi.validated row.promotionRequest db fun payload => AdminApi.promoteRollout py db tenantId payload commit

def promote : RowEnd × Accounts :=
  let promoted := postPromote py row calls tenantId db
  match promoted.1 with
  | .exception => (.raises, promoted.2)
  | .status code => (.returns ("Promote failed for " ++ row.slugText ++ ": " ++ toString code), promoted.2)
  | .ok _ =>
    (.next ("Processed " ++ row.slugText ++ " at " ++ toString row.rolloutPercentage ++ "% rollout"), promoted.2)

def enroll : RowEnd × Accounts :=
  let enrolled := postEnroll py row calls tenantId db
  match enrolled.1 with
  | .exception => (.raises, enrolled.2)
  | .status code => (.returns ("Enroll failed for " ++ row.slugText ++ ": " ++ toString code), enrolled.2)
  | .ok _ => promote py row calls tenantId enrolled.2

def skipLine : String := "Tenant likely exists for " ++ row.slugText ++ "; skipping rollout update"

def processRow : RowEnd × Accounts :=
  let provisioned := postProvision secrets row calls db
  match provisioned.1 with
  | .exception => (.raises, provisioned.2)
  | .status code =>
    if code = 400 then (.next (skipLine row), provisioned.2)
    else (.returns ("Provision failed for " ++ row.slugText ++ ": " ++ toString code), provisioned.2)
  | .ok response =>
    if response.tenantId = "" then (.next (skipLine row), provisioned.2)
    else enroll py row calls response.tenantId provisioned.2

end

/-- How a run ends: with `return 0`, or at a row, by `return 1` or an exception. -/
inductive RunEnd
  | finished
  | failed (i : ℕ)
  | raised (i : ℕ)
  deriving DecidableEq

namespace RunEnd

def exitCode : RunEnd → ℕ
  | finished => 0
  | failed _ => 1
  | raised _ => 1

def brokeOffAt : RunEnd → Option ℕ
  | finished => none
  | failed i => some i
  | raised i => some i

theorem finished_of_exitCode {e : RunEnd} (h : e.exitCode = 0) : e = finished := by
  cases e with
  | finished => rfl
  | failed i => cases h
  | raised i => cases h

end RunEnd

structure ToolRun where
  ended : RunEnd
  printed : List String
  accounts : Accounts

variable (py : Python) (secrets : Secrets)

def processRows (calls : ℕ → RowCalls) : ℕ → List CsvRow → Accounts → ToolRun
  | _, [], db => ⟨.finished, [], db⟩
  | i, row :: rows, db =>
    match RolloutRow.read py row with
    | none => ⟨.raised i, [], db⟩
    | some r =>
      let worked := processRow py secrets r (calls i) db
      match worked.1 with
      | .raises => ⟨.raised i, [], worked.2⟩
      | .returns line => ⟨.failed i, [line], worked.2⟩
      | .next line =>
        let rest := processRows calls (i + 1) rows worked.2
        ⟨rest.ended, line :: rest.printed, rest.accounts⟩

def main (rows : List CsvRow) (calls : ℕ → RowCalls) (db : Accounts) : ToolRun := processRows py secrets calls 0 rows db

def accountsAfter (rows : List CsvRow) (calls : ℕ → ℕ → RowCalls) (db : Accounts) : ℕ → Accounts
  | 0 => db
  | n + 1 => (main py secrets rows (calls n) (accountsAfter rows calls db n)).accounts

end RolloutTool

end Leadline
