import Leadline.Authentication
import Leadline.RolloutRows

namespace Leadline

open Library

namespace RolloutTool

variable {py : Python} {secrets : Secrets} {db : Accounts} {row : RolloutRow} {slug : String} {t : Tenant}

variable {calls : ℕ → RowCalls} {rows : List CsvRow} {i j n : ℕ}

theorem processRows_cons (py : Python) (secrets : Secrets) (calls : ℕ → RowCalls) (i : ℕ) (csvRow : CsvRow)
    (rows : List CsvRow) (db : Accounts) :
    let run := processRows py secrets calls i (csvRow :: rows) db
    (RolloutRow.read py csvRow = none ∧ run.ended.brokeOffAt = some i ∧ run.accounts = db) ∨
    ∃ row, RolloutRow.read py csvRow = some row ∧
      ((¬GoesOn (processRow py secrets row (calls i) db).1 ∧ run.ended.brokeOffAt = some i ∧
          run.accounts = (processRow py secrets row (calls i) db).2) ∨
        (GoesOn (processRow py secrets row (calls i) db).1 ∧
          run.ended = (processRows py secrets calls (i + 1) rows (processRow py secrets row (calls i) db).2).ended ∧
          run.accounts =
            (processRows py secrets calls (i + 1) rows (processRow py secrets row (calls i) db).2).accounts)) := by
  intro run
  cases hread : RolloutRow.read py csvRow with
  | none =>
    have hrun : run = ⟨.raised i, [], db⟩ := by simp [run, processRows, hread]
    exact .inl ⟨rfl, by rw [hrun]; rfl, by rw [hrun]⟩
  | some row =>
    refine .inr ⟨row, rfl, ?_⟩
    cases hworked : (processRow py secrets row (calls i) db).1 with
    | next line =>
      have hrun : run =
          ⟨(processRows py secrets calls (i + 1) rows (processRow py secrets row (calls i) db).2).ended,
            line :: (processRows py secrets calls (i + 1) rows (processRow py secrets row (calls i) db).2).printed,
            (processRows py secrets calls (i + 1) rows (processRow py secrets row (calls i) db).2).accounts⟩ := by
        simp [run, processRows, hread, hworked]
      exact .inr ⟨⟨line, rfl⟩, by rw [hrun], by rw [hrun]⟩
    | returns line =>
      have hrun : run = ⟨.failed i, [line], (processRow py secrets row (calls i) db).2⟩ := by
        simp [run, processRows, hread, hworked]
      exact .inl ⟨not_goesOn_returns line, by rw [hrun]; rfl, by rw [hrun]⟩
    | raises =>
      have hrun : run = ⟨.raised i, [], (processRow py secrets row (calls i) db).2⟩ := by
        simp [run, processRows, hread, hworked]
      exact .inl ⟨not_goesOn_raises, by rw [hrun]; rfl, by rw [hrun]⟩

theorem lookup_of_read {csvRow : CsvRow} {row : RolloutRow} (h : RolloutRow.read py csvRow = some row) :
    csvRow.lookup "tenant_slug" = some row.tenantSlug := by
  unfold RolloutRow.read at h
  obtain ⟨tenantSlug, hslug, h⟩ := Option.bind_eq_some_iff.mp h
  obtain ⟨ownerEmail, -, h⟩ := Option.bind_eq_some_iff.mp h
  obtain ⟨companyName, -, h⟩ := Option.bind_eq_some_iff.mp h
  obtain ⟨cohort, -, h⟩ := Option.bind_eq_some_iff.mp h
  obtain ⟨percentage, -, h⟩ := Option.bind_eq_some_iff.mp h
  obtain ⟨rolloutPercentage, -, h⟩ := Option.bind_eq_some_iff.mp h
  cases h
  exact hslug

structure NewDraws (calls : ℕ → RowCalls) (i n : ℕ) (db : Accounts) : Prop where
  new : ∀ j < n, NewIds db (calls (i + j)).draws
  apart : ∀ j < n, ∀ k < n, j ≠ k → Apart (calls (i + j)).draws (calls (i + k)).draws

theorem NewDraws.head (h : NewDraws calls i (n + 1) db) : NewIds db (calls i).draws :=
  h.new 0 (Nat.succ_pos n)

theorem NewDraws.tail (h : NewDraws calls i (n + 1) db) (py : Python) (secrets : Secrets) (row : RolloutRow) :
    NewDraws calls (i + 1) n (processRow py secrets row (calls i) db).2 where
  new j hj := by
    have hindex : i + 1 + j = i + (j + 1) := by omega
    rw [hindex]
    exact processRow_newIds py secrets h.head row (h.new (j + 1) (by omega))
      (h.apart 0 (Nat.succ_pos n) (j + 1) (by omega) (by omega))
  apart j hj k hk hne := by
    have hindex : ∀ j, i + 1 + j = i + (j + 1) := by
      intro j
      omega
    rw [hindex, hindex]
    exact h.apart (j + 1) (by omega) (k + 1) (by omega) (by omega)

theorem processRows_keeps (py : Python) (secrets : Secrets) (hnew : NewDraws calls i rows.length db) :
    Keeps db (processRows py secrets calls i rows db).accounts := by
  induction rows generalizing i db with
  | nil => exact Keeps.refl db
  | cons csvRow rows ih =>
    rcases processRows_cons py secrets calls i csvRow rows db with
      ⟨-, -, haccounts⟩ | ⟨row, -, ⟨-, -, haccounts⟩ | ⟨-, -, haccounts⟩⟩
    · rw [haccounts]
      exact Keeps.refl db
    · rw [haccounts]
      exact processRow_keeps py secrets hnew.head row
    · rw [haccounts]
      exact (processRow_keeps py secrets hnew.head row).trans (ih (hnew.tail py secrets row))

theorem processRows_absent (py : Python) (secrets : Secrets) (hnew : NewDraws calls i rows.length db)
    (hslug : some (some slug) ∉ rows.map fun csvRow => csvRow.lookup "tenant_slug")
    (hnone : TenantRepository.getBySlug db slug = none) :
    TenantRepository.getBySlug (processRows py secrets calls i rows db).accounts slug = none := by
  induction rows generalizing i db with
  | nil => exact hnone
  | cons csvRow rows ih =>
    rw [List.map_cons, List.mem_cons, not_or] at hslug
    obtain ⟨hhead, htail⟩ := hslug
    have hother : ∀ row, RolloutRow.read py csvRow = some row → row.tenantSlug ≠ some slug := by
      intro row hread hsame
      exact hhead (by rw [lookup_of_read hread, hsame])
    rcases processRows_cons py secrets calls i csvRow rows db with
      ⟨-, -, haccounts⟩ | ⟨row, hread, ⟨-, -, haccounts⟩ | ⟨-, -, haccounts⟩⟩
    · rw [haccounts, hnone]
    · rw [haccounts]
      exact processRow_absent py secrets hnew.head (hother row hread) hnone
    · rw [haccounts]
      exact ih (hnew.tail py secrets row) htail (processRow_absent py secrets hnew.head (hother row hread) hnone)

theorem not_finished {e : RunEnd} (h : e.brokeOffAt = some i) : e ≠ .finished := by
  rintro rfl
  cases h

theorem processRows_row (py : Python) (secrets : Secrets) {csvRow : CsvRow} (hnew : NewDraws calls i rows.length db)
    (hslugs : (rows.map fun csvRow => csvRow.lookup "tenant_slug").Nodup) (hrow : rows[j]? = some csvRow)
    (hread : RolloutRow.read py csvRow = some row) (hslug : row.tenantSlug = some slug)
    (hnone : TenantRepository.getBySlug db slug = none) :
    (TenantRepository.getBySlug (processRows py secrets calls i rows db).accounts slug = none ∧
      ((processRows py secrets calls i rows db).ended = .finished → Mistaken (calls (i + j)))) ∨
    ∃ t, Provisioned (processRows py secrets calls i rows db).accounts row t ∧
      ((processRows py secrets calls i rows db).ended.brokeOffAt = some (i + j) ∨ Mistaken (calls (i + j)) ∨
        RolledOut row t) := by
  induction rows generalizing i j db with
  | nil => cases hrow
  | cons first rows ih =>
    rw [List.map_cons, List.nodup_cons] at hslugs
    obtain ⟨hfirst, hrest⟩ := hslugs
    have hrun := processRows_cons py secrets calls i first rows db
    cases j with
    | zero =>
      -- The rows after it have other slugs: what this row leaves stays until the end of the run.
      cases hrow
      rw [lookup_of_read hread, hslug] at hfirst
      rcases hrun with ⟨hnot, -, -⟩ | ⟨row', hread', hrun⟩
      · rw [hread] at hnot
        cases hnot
      · rw [hread] at hread'
        cases hread'
        rcases hrun with ⟨-, hended, haccounts⟩ | ⟨hgoes, hended, haccounts⟩
        · rw [haccounts]
          rcases processRow_own py secrets hnew.head hslug hnone with ⟨habsent, -⟩ | ⟨t, ht, -⟩
          · exact .inl ⟨habsent, fun hfinished => absurd hfinished (not_finished hended)⟩
          · exact .inr ⟨t, ht, .inl hended⟩
        · rw [haccounts]
          have htail := hnew.tail py secrets row
          rcases processRow_own py secrets hnew.head hslug hnone with ⟨habsent, hmistaken⟩ | ⟨t, ht, hsettled⟩
          · exact .inl ⟨processRows_absent py secrets htail hfirst habsent, fun _ => hmistaken hgoes⟩
          · exact .inr ⟨t, ht.mono (processRows_keeps py secrets htail), .inr (hsettled hgoes)⟩
    | succ j =>
      rw [List.getElem?_cons_succ] at hrow
      have hindex : i + 1 + j = i + (j + 1) := by omega
      have hother : ∀ row', RolloutRow.read py first = some row' → row'.tenantSlug ≠ some slug := by
        intro row' hread' hsame
        have hmem : some (some slug) ∈ rows.map fun csvRow => csvRow.lookup "tenant_slug" :=
          List.mem_map.mpr ⟨csvRow, List.mem_of_getElem? hrow, by rw [lookup_of_read hread, hslug]⟩
        rw [lookup_of_read hread', hsame] at hfirst
        exact hfirst hmem
      rcases hrun with ⟨-, hended, haccounts⟩ | ⟨row', hread', ⟨-, hended, haccounts⟩ | ⟨-, hended, haccounts⟩⟩
      · exact .inl ⟨by rw [haccounts, hnone], fun hfinished => absurd hfinished (not_finished hended)⟩
      · rw [haccounts]
        exact .inl ⟨processRow_absent py secrets hnew.head (hother row' hread') hnone,
          fun hfinished => absurd hfinished (not_finished hended)⟩
      · rw [haccounts, hended, ← hindex]
        exact ih (hnew.tail py secrets row') hrest hrow
          (processRow_absent py secrets hnew.head (hother row' hread') hnone)

theorem processRows_finished (py : Python) (secrets : Secrets) {csvRow : CsvRow}
    (hnew : NewDraws calls i rows.length db) (hfinished : (processRows py secrets calls i rows db).ended = .finished)
    (hrow : rows[j]? = some csvRow) :
    ∃ row, RolloutRow.read py csvRow = some row ∧ (Mistaken (calls (i + j)) ∨ ∃ slug, row.tenantSlug = some slug) := by
  induction rows generalizing i j db with
  | nil => cases hrow
  | cons first rows ih =>
    rcases processRows_cons py secrets calls i first rows db with
      ⟨-, hended, -⟩ | ⟨row, hread, ⟨-, hended, -⟩ | ⟨hgoes, hended, -⟩⟩
    · exact absurd hfinished (not_finished hended)
    · exact absurd hfinished (not_finished hended)
    · cases j with
      | zero =>
        cases hrow
        refine ⟨row, hread, ?_⟩
        rcases processRow_cases py secrets row hnew.head with ⟨-, hnext⟩ | ⟨payload, -, hrequest, -, -⟩
        · rcases hnext hgoes with hmistaken | ⟨payload, -, hrequest, -⟩
          · exact .inl hmistaken
          · exact .inr ⟨payload.slug, (provisionRequest_eq_some hrequest).2.1⟩
        · exact .inr ⟨payload.slug, (provisionRequest_eq_some hrequest).2.1⟩
      | succ j =>
        rw [List.getElem?_cons_succ] at hrow
        have hindex : i + 1 + j = i + (j + 1) := by omega
        rw [← hindex]
        exact ih (hnew.tail py secrets row) (hended.symm.trans hfinished) hrow

section

variable {py : Python} {secrets : Secrets} {calls : ℕ → ℕ → RowCalls} {csvRow : CsvRow}

theorem accountsAfter_keeps
    (hnew : ∀ m < n, NewDraws (calls m) 0 rows.length (accountsAfter py secrets rows calls db m)) :
    Keeps db (accountsAfter py secrets rows calls db n) := by
  induction n with
  | zero => exact Keeps.refl db
  | succ n ih =>
    have hbefore := ih fun m hm => hnew m (by omega)
    exact hbefore.trans (processRows_keeps py secrets (hnew n (by omega)))

def CutShort (py : Python) (secrets : Secrets) (rows : List CsvRow) (calls : ℕ → ℕ → RowCalls) (db : Accounts)
    (j : ℕ) (row : RolloutRow) (t : Tenant) (m : ℕ) : Prop :=
  Absent (accountsAfter py secrets rows calls db m) row ∧
    Provisioned (accountsAfter py secrets rows calls db (m + 1)) row t ∧
    ((main py secrets rows (calls m) (accountsAfter py secrets rows calls db m)).ended.brokeOffAt = some j ∨
      Mistaken (calls m j))

theorem accountsAfter_row
    (hnew : ∀ m < n, NewDraws (calls m) 0 rows.length (accountsAfter py secrets rows calls db m))
    (hslugs : (rows.map fun csvRow => csvRow.lookup "tenant_slug").Nodup) (hrow : rows[j]? = some csvRow)
    (hread : RolloutRow.read py csvRow = some row) (hslug : row.tenantSlug = some slug)
    (hnone : TenantRepository.getBySlug db slug = none) :
    TenantRepository.getBySlug (accountsAfter py secrets rows calls db n) slug = none ∨
      ∃ t, Provisioned (accountsAfter py secrets rows calls db n) row t ∧
        (RolledOut row t ∨ ∃ m < n, CutShort py secrets rows calls db j row t m) := by
  induction n with
  | zero => exact .inl hnone
  | succ n ih =>
    have hlast := hnew n (by omega)
    rcases ih fun m hm => hnew m (by omega) with habsent | ⟨t, ht, hsettled⟩
    · rcases processRows_row py secrets hlast hslugs hrow hread hslug habsent with ⟨hstill, -⟩ | ⟨t, ht, hended⟩
      · exact .inl hstill
      · refine .inr ⟨t, ht, ?_⟩
        have hbefore := (absent_iff hslug).mpr habsent
        rw [Nat.zero_add] at hended
        rcases hended with hbroke | hmistaken | hrolled
        · exact .inr ⟨n, by omega, hbefore, ht, .inl hbroke⟩
        · exact .inr ⟨n, by omega, hbefore, ht, .inr hmistaken⟩
        · exact .inl hrolled
    · refine .inr ⟨t, ht.mono (processRows_keeps py secrets hlast), ?_⟩
      rcases hsettled with hrolled | ⟨m, hm, hcut⟩
      · exact .inl hrolled
      · exact .inr ⟨m, by omega, hcut⟩

theorem mistaken_of_absent (hlast : NewDraws (calls n) 0 rows.length (accountsAfter py secrets rows calls db n))
    (hslugs : (rows.map fun csvRow => csvRow.lookup "tenant_slug").Nodup)
    (hfinished : (main py secrets rows (calls n) (accountsAfter py secrets rows calls db n)).ended = .finished)
    (hrow : rows[j]? = some csvRow) (hread : RolloutRow.read py csvRow = some row) (hslug : row.tenantSlug = some slug)
    (habsent : TenantRepository.getBySlug (accountsAfter py secrets rows calls db (n + 1)) slug = none) :
    Mistaken (calls n j) := by
  have hbefore := (processRows_keeps py secrets hlast).absent habsent
  rcases processRows_row py secrets hlast hslugs hrow hread hslug hbefore with ⟨-, hmistaken⟩ | ⟨t, ht, -⟩
  · rw [Nat.zero_add] at hmistaken
    exact hmistaken hfinished
  · exact absurd ((absent_iff hslug).mpr habsent) ht.not_absent

def Converged (py : Python) (rows : List CsvRow) (db : Accounts) : Prop :=
  ∀ csvRow ∈ rows, ∃ row t, RolloutRow.read py csvRow = some row ∧ Provisioned db row t ∧ RolledOut row t

theorem converged_of_uncut (hslugs : (rows.map fun csvRow => csvRow.lookup "tenant_slug").Nodup)
    (hnew : ∀ m ≤ n, NewDraws (calls m) 0 rows.length (accountsAfter py secrets rows calls db m))
    (hfinished : (main py secrets rows (calls n) (accountsAfter py secrets rows calls db n)).ended = .finished)
    (hstart : ∀ csvRow ∈ rows, ∀ row, RolloutRow.read py csvRow = some row → Absent db row)
    (hcalls : ∀ m ≤ n, ∀ j, ¬Mistaken (calls m j))
    (huncut : ∀ m ≤ n, ∀ j csvRow row, rows[j]? = some csvRow → RolloutRow.read py csvRow = some row →
      (main py secrets rows (calls m) (accountsAfter py secrets rows calls db m)).ended.brokeOffAt = some j →
      Absent (accountsAfter py secrets rows calls db (m + 1)) row) :
    Converged py rows (accountsAfter py secrets rows calls db (n + 1)) := by
  intro csvRow hmem
  obtain ⟨j, hrow⟩ := List.getElem?_of_mem hmem
  have hlast := hnew n le_rfl
  obtain ⟨row, hread, hsent⟩ := processRows_finished py secrets hlast hfinished hrow
  rw [Nat.zero_add] at hsent
  rcases hsent with hmistaken | ⟨slug, hslug⟩
  · exact absurd hmistaken (hcalls n le_rfl j)
  · have hruns : ∀ m < n + 1, NewDraws (calls m) 0 rows.length (accountsAfter py secrets rows calls db m) := by
      intro m hm
      exact hnew m (by omega)
    have hnone := hstart csvRow hmem row hread slug hslug
    rcases accountsAfter_row hruns hslugs hrow hread hslug hnone with habsent | ⟨t, ht, hrolled | ⟨m, hm, hcut⟩⟩
    · exact absurd (mistaken_of_absent hlast hslugs hfinished hrow hread hslug habsent) (hcalls n le_rfl j)
    · exact ⟨row, t, hread, ht, hrolled⟩
    · obtain ⟨-, hcreated, hbroke | hmistaken⟩ := hcut
      · exact absurd (huncut m (by omega) j csvRow row hrow hread hbroke) hcreated.not_absent
      · exact absurd hmistaken (hcalls m (by omega) j)

end

end RolloutTool

open RolloutTool IssuedKeys

namespace RolloutTool

structure Settled (py : Python) (secrets : Secrets) (rows : List CsvRow) (calls : ℕ → ℕ → RowCalls) (db : Accounts)
    (n j : ℕ) (row : RolloutRow) : Prop where
  existing : ∀ slug t, row.tenantSlug = some slug → TenantRepository.getBySlug db slug = some t →
    TenantRepository.getBySlug (accountsAfter py secrets rows calls db (n + 1)) slug = some t
  others : Absent db row →
    (∃ t, Provisioned (accountsAfter py secrets rows calls db (n + 1)) row t ∧
      (RolledOut row t ∨ ∃ m ≤ n, CutShort py secrets rows calls db j row t m)) ∨
    Absent (accountsAfter py secrets rows calls db (n + 1)) row ∧ Mistaken (calls n j)

end RolloutTool

theorem rollout_reruns (py : Python) (secrets : Secrets) (rows : List CsvRow) (calls : ℕ → ℕ → RowCalls)
    (db : Accounts) (n : ℕ) (hslugs : (rows.map fun csvRow => csvRow.lookup "tenant_slug").Nodup)
    (hnew : ∀ m ≤ n, NewDraws (calls m) 0 rows.length (accountsAfter py secrets rows calls db m))
    (hexit : (main py secrets rows (calls n) (accountsAfter py secrets rows calls db n)).ended.exitCode = 0) :
    ∀ j csvRow, rows[j]? = some csvRow →
      ∃ row, RolloutRow.read py csvRow = some row ∧ Settled py secrets rows calls db n j row := by
  intro j csvRow hrow
  have hlast := hnew n le_rfl
  have hruns : ∀ m < n + 1, NewDraws (calls m) 0 rows.length (accountsAfter py secrets rows calls db m) := by
    intro m hm
    exact hnew m (by omega)
  have hfinished := RunEnd.finished_of_exitCode hexit
  obtain ⟨row, hread, hsent⟩ := processRows_finished py secrets hlast hfinished hrow
  rw [Nat.zero_add] at hsent
  refine ⟨row, hread, fun slug t _ hget => (accountsAfter_keeps hruns).tenants slug t hget, fun habsent => ?_⟩
  cases hslug : row.tenantSlug with
  | none =>
    have hmistaken : Mistaken (calls n j) := by
      rcases hsent with hmistaken | ⟨slug, hsome⟩
      · exact hmistaken
      · rw [hslug] at hsome
        cases hsome
    refine .inr ⟨?_, hmistaken⟩
    intro slug hsome
    rw [hslug] at hsome
    cases hsome
  | some slug =>
    have hnone := (absent_iff hslug).mp habsent
    rcases accountsAfter_row hruns hslugs hrow hread hslug hnone with hstill | ⟨t, ht, hsettled⟩
    · have hmistaken := mistaken_of_absent hlast hslugs hfinished hrow hread hslug hstill
      exact .inr ⟨(absent_iff hslug).mpr hstill, hmistaken⟩
    · refine .inl ⟨t, ht, ?_⟩
      rcases hsettled with hrolled | ⟨m, hm, hcut⟩
      · exact .inl hrolled
      · exact .inr ⟨m, by omega, hcut⟩

namespace RolloutTool

def partnerRow : CsvRow :=
  [("tenant_slug", some "partner-a"), ("company_name", some "Partner A"), ("owner_email", some "owner-a@example.com"),
    ("cohort", some "wave-1"), ("rollout_percentage", some "10"), ("status", some "pending")]

def python : Python :=
  { Python.ascii with
    int := fun
      | .str text => if text = "10" then some 10 else none
      | _ => none }

def firstDraws : ProvisionDraws := ⟨"tenant-1", "user-1", "key-1", "random-1", 0⟩

def secondDraws : ProvisionDraws := ⟨"tenant-2", "user-2", "key-2", "random-2", 0⟩

def fine (draws : ProvisionDraws) : RowCalls where
  provision := .answered .returns
  enroll := .answered .returns
  promote := .answered .returns
  draws := draws

def secondRow : CsvRow :=
  [("tenant_slug", some "partner-b"), ("company_name", some "Partner B"), ("owner_email", some "owner-b@example.com"),
    ("cohort", some "wave-1"), ("rollout_percentage", some "10"), ("status", some "pending")]

def twoRows : List CsvRow := [partnerRow, secondRow]

def numbered (k : String) : ProvisionDraws := ⟨"tenant-" ++ k, "user-" ++ k, "key-" ++ k, "random-" ++ k, 0⟩

def twoRuns : ℕ → ℕ → RowCalls
  | 0, 0 => fine (numbered "1")
  | 0, _ => { fine (numbered "2") with provision := .lost none }
  | _, 0 => fine (numbered "3")
  | _, _ => fine (numbered "4")

theorem newDraws_two {calls : ℕ → RowCalls} (h₀ : NewIds db (calls 0).draws) (h₁ : NewIds db (calls 1).draws)
    (hne : RolloutTool.Apart (calls 0).draws (calls 1).draws) : NewDraws calls 0 2 db where
  new j hj := by
    rw [Nat.zero_add]
    rcases (by omega : j = 0 ∨ j = 1) with rfl | rfl
    · exact h₀
    · exact h₁
  apart j hj k hk hjk := by
    rw [Nat.zero_add, Nat.zero_add]
    rcases (by omega : j = 0 ∧ k = 1 ∨ j = 1 ∧ k = 0) with ⟨rfl, rfl⟩ | ⟨rfl, rfl⟩
    · exact hne
    · exact ⟨hne.tenantId.symm, hne.userId.symm, hne.apiKeyId.symm⟩

end RolloutTool

theorem rollout_reruns_twice :
    (main python saltedSecrets twoRows (twoRuns 0) {}).ended.exitCode = 1 ∧
      ∃ row t, RolloutRow.read python secondRow = some row ∧
        Provisioned (accountsAfter python saltedSecrets twoRows twoRuns {} 2) row t ∧ RolledOut row t := by
  have hnew : ∀ m ≤ 1,
      NewDraws (twoRuns m) 0 twoRows.length (accountsAfter python saltedSecrets twoRows twoRuns {} m) := by
    intro m hm
    rcases (by omega : m = 0 ∨ m = 1) with rfl | rfl
    · exact newDraws_two ⟨by decide, by decide, by decide, by decide⟩ ⟨by decide, by decide, by decide, by decide⟩
        ⟨by decide, by decide, by decide⟩
    · exact newDraws_two ⟨by decide, by decide, by decide, by decide⟩ ⟨by decide, by decide, by decide, by decide⟩
        ⟨by decide, by decide, by decide⟩
  obtain ⟨row, hread, hsettled⟩ := rollout_reruns python saltedSecrets twoRows twoRuns {} 1 (by decide) hnew rfl 1
    secondRow rfl
  refine ⟨rfl, row, ?_⟩
  have hmistaken : ¬Mistaken (twoRuns 1 1) := by
    rintro ⟨handled, error, hfailed⟩
    cases hfailed
  have habsent : Absent ({} : Accounts) row := fun _ _ => rfl
  rcases hsettled.others habsent with ⟨t, ht, hrolled | ⟨m, hm, hcut⟩⟩ | ⟨-, hlast⟩
  · exact ⟨t, hread, ht, hrolled⟩
  · obtain ⟨-, hcreated, hended⟩ := hcut
    rcases (by omega : m = 0 ∨ m = 1) with rfl | rfl
    · -- The first run leaves the row without a tenant.
      have hslug : row.tenantSlug = some "partner-b" := Option.some.inj (lookup_of_read hread).symm
      exact absurd ((absent_iff hslug).mpr rfl) hcreated.not_absent
    · rcases hended with hbroke | hlast
      · cases hbroke
      · exact absurd hlast hmistaken
  · exact absurd hlast hmistaken

namespace RolloutTool

theorem not_converged (h : ∀ t ∈ TenantRepository.getBySlug db "partner-a", t.setting "design_partner_cohort" = none) :
    ¬Converged python [partnerRow] db := by
  intro hconverged
  obtain ⟨row, t, hread, hprovisioned, cohort, -, -, hcohort, -⟩ := hconverged partnerRow (List.mem_singleton_self _)
  have hslug : row.tenantSlug = some "partner-a" := Option.some.inj (lookup_of_read hread).symm
  obtain ⟨slug, hsame, hget⟩ := hprovisioned.tenant
  rw [hslug] at hsame
  cases hsame
  rw [h t hget] at hcohort
  cases hcohort

def LeftBehind (calls : RowCalls) (db : Accounts) : Prop :=
  (main python saltedSecrets [partnerRow] (fun _ => calls) db).ended.exitCode = 0 ∧
    ¬Converged python [partnerRow]
      (main python saltedSecrets [partnerRow] (fun _ => calls) db).accounts

theorem leftBehind {calls : RowCalls}
    (hexit : (main python saltedSecrets [partnerRow] (fun _ => calls) db).ended.exitCode = 0)
    (hget : ∀ t ∈ TenantRepository.getBySlug
      (main python saltedSecrets [partnerRow] (fun _ => calls) db).accounts "partner-a",
      t.setting "design_partner_cohort" = none) : LeftBehind calls db :=
  ⟨hexit, not_converged hget⟩

def earlier : Accounts where
  tenants := Table.empty.insert ⟨"tenant-0", "Partner A", "partner-a", "growth", "active", .obj []⟩

def enrollmentLost : RowCalls := { fine firstDraws with enroll := .lost none }

def misleading (handled : Option CallOutcome) : RowCalls :=
  { fine firstDraws with provision := .failed handled 400 (by decide) }

theorem partner_left_behind :
    LeftBehind (fine firstDraws) earlier ∧
      (main python saltedSecrets [partnerRow] (fun _ => enrollmentLost) {}).ended.exitCode = 1 ∧
      LeftBehind (fine secondDraws)
        (main python saltedSecrets [partnerRow] (fun _ => enrollmentLost) {}).accounts ∧
      LeftBehind (misleading none) {} ∧ LeftBehind (misleading (some .returns)) {} := by
  refine ⟨leftBehind rfl ?_, rfl, leftBehind rfl ?_, leftBehind rfl ?_, leftBehind rfl ?_⟩
  · rintro t ⟨⟩
    rfl
  · rintro t ⟨⟩
    rfl
  · rintro t ⟨⟩
  · rintro t ⟨⟩
    rfl

end RolloutTool

end Leadline
