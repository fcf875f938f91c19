import Leadline.Library.GuardedRun
import Leadline.Provisioning
import Mathlib.Data.Fintype.Basic

/-!
Enrollments and promotions that run at the same time, each in a transaction of its own (READ
COMMITTED). An update waits for the uncommitted one of the same tenant.
-/

namespace Leadline

open Library

inductive SettingsChange
  | enroll (payload : DesignPartnerEnrollmentRequest)
  | promote (payload : RolloutPromotionRequest)

namespace SettingsChange

def settings (tenant : Tenant) : SettingsChange → Dict
  | enroll payload => ProvisioningService.enrolledSettings tenant payload.cohort payload.launchNotes
  | promote payload => ProvisioningService.promotedSettings tenant payload.rolloutPercentage

def values : SettingsChange → List (String × Json)
  | enroll payload =>
    [("design_partner", .bool true), ("design_partner_cohort", .str payload.cohort),
      ("design_partner_notes", .str (payload.launchNotes.getD ""))]
  | promote payload => [("rollout_percentage", .int payload.rolloutPercentage)]

def keys : SettingsChange → List String
  | enroll _ => ["design_partner", "design_partner_cohort", "design_partner_notes"]
  | promote _ => ["rollout_percentage"]

def SameKind (c d : SettingsChange) : Prop := c.keys = d.keys

variable {c d : SettingsChange} {tenant : Tenant} {k : String} {v : Json} {py : Python}

theorem not_mem_keys (h : ¬c.SameKind d) (hk : k ∈ c.keys) : k ∉ d.keys := by
  cases c with
  | enroll payload =>
    cases d with
    | enroll payload' => exact absurd rfl h
    | promote payload' =>
      simp only [keys, List.mem_cons, List.not_mem_nil, or_false] at hk ⊢
      rcases hk with rfl | rfl | rfl <;> decide
  | promote payload =>
    cases d with
    | enroll payload' =>
      cases List.mem_singleton.mp hk
      simp [keys]
    | promote payload' => exact absurd rfl h

theorem keys_eq_values : c.keys = c.values.map Prod.fst := by
  cases c <;> rfl

theorem get_settings (h : (k, v) ∈ c.values) : Dict.get (c.settings tenant) k = some v := by
  cases c with
  | enroll payload =>
    simp only [values, List.mem_cons, List.not_mem_nil, or_false, Prod.mk.injEq] at h
    unfold settings ProvisioningService.enrolledSettings
    rcases h with ⟨rfl, rfl⟩ | ⟨rfl, rfl⟩ | ⟨rfl, rfl⟩
    · rw [Dict.get_set_of_ne _ _ (by decide), Dict.get_set_of_ne _ _ (by decide), Dict.get_set_self]
    · rw [Dict.get_set_of_ne _ _ (by decide), Dict.get_set_self]
    · rw [Dict.get_set_self]
  | promote payload =>
    simp only [values, List.mem_cons, List.not_mem_nil, or_false, Prod.mk.injEq] at h
    obtain ⟨rfl, rfl⟩ := h
    exact Dict.get_set_self _ _ _

theorem get_settings_of_not_mem (h : k ∉ c.keys) : Dict.get (c.settings tenant) k = tenant.setting k := by
  cases c with
  | enroll payload =>
    simp only [keys, List.mem_cons, List.not_mem_nil, or_false, not_or] at h
    obtain ⟨hpartner, hcohort, hnotes⟩ := h
    unfold settings ProvisioningService.enrolledSettings
    rw [Dict.get_set_of_ne _ _ hnotes, Dict.get_set_of_ne _ _ hcohort, Dict.get_set_of_ne _ _ hpartner]
    rfl
  | promote payload =>
    simp only [keys, List.mem_singleton] at h
    exact Dict.get_set_of_ne _ _ h

/-- The settings hold what the change sets, up to Python's `==`. -/
def HeldBy (py : Python) (c : SettingsChange) (tenant : Tenant) : Prop :=
  ∀ p ∈ c.values, ∃ v, tenant.setting p.1 = some v ∧ py.equal p.2 v = true

theorem HeldBy.congr {other : Tenant} (h : c.HeldBy py tenant)
    (hsame : ∀ k ∈ c.keys, other.setting k = tenant.setting k) : c.HeldBy py other := by
  intro p hp
  rw [hsame p.1 (by rw [keys_eq_values]; exact List.mem_map_of_mem hp)]
  exact h p hp

theorem equal_self (h : (k, v) ∈ c.values) : py.equal v v = true := by
  cases c with
  | enroll payload =>
    simp only [values, List.mem_cons, List.not_mem_nil, or_false, Prod.mk.injEq] at h
    rcases h with ⟨-, rfl⟩ | ⟨-, rfl⟩ | ⟨-, rfl⟩
    · rfl
    · simp [Python.equal]
    · simp [Python.equal]
  | promote payload =>
    simp only [values, List.mem_cons, List.not_mem_nil, or_false, Prod.mk.injEq] at h
    obtain ⟨-, rfl⟩ := h
    simp [Python.equal, Python.numeric, Double.equal]

theorem heldBy_withSettings (seen : Tenant) : c.HeldBy py (tenant.withSettings (c.settings seen)) := by
  intro p hp
  exact ⟨p.2, get_settings hp, equal_self hp⟩

theorem heldBy_of_unchanged (h : TenantRepository.changedSettings py tenant (c.settings tenant) = none) :
    c.HeldBy py tenant := by
  have hequal : py.equal (.obj (c.settings tenant)) tenant.settings = true := by
    simpa [TenantRepository.changedSettings] using h
  intro p hp
  obtain ⟨gs, w, hobj, hget, heq⟩ := Python.equal_obj_get hequal (get_settings hp)
  refine ⟨w, ?_, heq⟩
  rw [Tenant.setting, Tenant.settingsCopy, hobj]
  exact hget

end SettingsChange

structure SettingsRequest where
  tenantId : Id
  change : SettingsChange

namespace SettingsRaces

inductive Phase
  | started
  | read (tenant : Tenant)
  | written (settings : Option Dict)
  | committed
  | refused
  | aborted

inductive Action
  | read
  | write
  | commit
  | abort
  deriving DecidableEq

structure State (ι : Type) where
  tenants : Table Tenant.id
  requests : ι → Phase

variable {ι : Type}

def State.start (tenants : Table Tenant.id) : State ι := ⟨tenants, fun _ => .started⟩

def Phase.settings : Phase → Option Dict
  | written settings => settings
  | _ => none

section

variable [DecidableEq ι] [Fintype ι] (py : Python) (requests : ι → SettingsRequest)

def State.set (s : State ι) (i : ι) (p : Phase) : State ι := ⟨s.tenants, Function.update s.requests i p⟩

def changed (i : ι) (tenant : Tenant) : Option Dict :=
  TenantRepository.changedSettings py tenant ((requests i).change.settings tenant)

def Locked (s : State ι) (tenantId : Id) : Prop :=
  ∃ j, (requests j).tenantId = tenantId ∧ (s.requests j).settings.isSome

instance (s : State ι) (tenantId : Id) : Decidable (Locked requests s tenantId) :=
  inferInstanceAs (Decidable (∃ _, _ ∧ _))

def step (s : State ι) (label : ι × Action) : Option (State ι) :=
  let tenantId := (requests label.1).tenantId
  match s.requests label.1, label.2 with
  | .started, .read =>
    match TenantRepository.get s.tenants tenantId with
    | none => some (s.set label.1 .refused)
    | some tenant => some (s.set label.1 (.read tenant))
  | .read tenant, .write =>
    match changed py requests label.1 tenant with
    | none => some (s.set label.1 (.written none))
    | some settings =>
      if Locked requests s tenantId then none else some (s.set label.1 (.written (some settings)))
  | .written settings, .commit =>
    some ⟨TenantRepository.writeSettings s.tenants tenantId settings, Function.update s.requests label.1 .committed⟩
  | .committed, _ => none
  | .refused, _ => none
  | .aborted, _ => none
  | _, .abort => some (s.set label.1 .aborted)
  | _, _ => none

/-- Apart from the keys that the request sets itself, the settings it is about to write are those
that are stored. -/
def Admitted (s : State ι) (label : ι × Action) : Prop :=
  ∀ seen stored, s.requests label.1 = .read seen → label.2 = .write → (changed py requests label.1 seen).isSome →
    TenantRepository.get s.tenants (requests label.1).tenantId = some stored →
      ∀ k ∉ (requests label.1).change.keys, seen.setting k = stored.setting k

end

def Committed (requests : ι → SettingsRequest) (tenantId : Id) (s : State ι) (i : ι) : Prop :=
  s.requests i = .committed ∧ (requests i).tenantId = tenantId

structure Preserved (py : Python) (requests : ι → SettingsRequest) (initial : Tenant) (s : State ι)
    (stored : Tenant) : Prop where
  held : ∀ i, Committed requests initial.id s i →
    ∃ j, Committed requests initial.id s j ∧ (requests j).change.SameKind (requests i).change ∧
      (requests j).change.HeldBy py stored
  others : ∀ k, (∀ i, Committed requests initial.id s i → k ∉ (requests i).change.keys) →
    stored.setting k = initial.setting k

section

variable [DecidableEq ι] [Fintype ι] {py : Python} {requests : ι → SettingsRequest} {s s' : State ι} {i j : ι}
  {a : Action} {initial : Tenant}

inductive Quiet (py : Python) (requests : ι → SettingsRequest) (s : State ι) (i : ι) (a : Action) : Phase → Prop
  | refused : Quiet py requests s i a .refused
  | read (tenant : Tenant) (h : TenantRepository.get s.tenants (requests i).tenantId = some tenant) :
    Quiet py requests s i a (.read tenant)
  | unchanged (tenant : Tenant) (hseen : s.requests i = .read tenant) (h : changed py requests i tenant = none) :
    Quiet py requests s i a (.written none)
  | changed (tenant : Tenant) (settings : Dict) (hseen : s.requests i = .read tenant) (ha : a = .write)
    (h : changed py requests i tenant = some settings) (hfree : ¬Locked requests s (requests i).tenantId) :
    Quiet py requests s i a (.written (some settings))
  | aborted : Quiet py requests s i a .aborted

theorem step_cases (h : step py requests s (i, a) = some s') :
    (∃ p, s' = s.set i p ∧ s.requests i ≠ .committed ∧ Quiet py requests s i a p) ∨
      ∃ settings, s.requests i = .written settings ∧ s' =
        ⟨TenantRepository.writeSettings s.tenants (requests i).tenantId settings,
          Function.update s.requests i .committed⟩ := by
  unfold step at h
  dsimp only at h
  split at h
  case h_1 hphase =>
    have hopen : s.requests i ≠ .committed := by simp [hphase]
    split at h
    · cases h
      exact .inl ⟨_, rfl, hopen, .refused⟩
    · cases h
      exact .inl ⟨_, rfl, hopen, .read _ (by assumption)⟩
  case h_2 tenant hphase =>
    have hopen : s.requests i ≠ .committed := by simp [hphase]
    split at h
    · cases h
      exact .inl ⟨_, rfl, hopen, .unchanged tenant hphase (by assumption)⟩
    · split at h
      · cases h
      · cases h
        exact .inl ⟨_, rfl, hopen, .changed tenant _ hphase rfl (by assumption) (by assumption)⟩
  case h_3 settings hphase =>
    cases h
    exact .inr ⟨settings, hphase, rfl⟩
  case h_4 => cases h
  case h_5 => cases h
  case h_6 => cases h
  case h_7 hopen _ _ =>
    cases h
    exact .inl ⟨_, rfl, hopen, .aborted⟩
  case h_8 => cases h

omit [DecidableEq ι] [Fintype ι] in
theorem Quiet.ne_committed {p : Phase} (h : Quiet py requests s i a p) : p ≠ .committed := by
  cases h <;> exact Phase.noConfusion

omit [Fintype ι] in
theorem requests_set {p : Phase} : (s.set i p).requests j = if j = i then p else s.requests j :=
  Function.update_apply _ _ _ _

omit [Fintype ι] in
theorem committed_set {p : Phase} {tenantId : Id} (hopen : s.requests i ≠ .committed) (hp : p ≠ .committed) :
    Committed requests tenantId (s.set i p) j ↔ Committed requests tenantId s j := by
  unfold Committed
  rw [requests_set]
  split
  · rename_i hj
    rw [hj]
    simp [hopen, hp]
  · rfl

omit [Fintype ι] in
theorem committed_commit {tenants : Table Tenant.id} {tenantId : Id} :
    Committed requests tenantId ⟨tenants, Function.update s.requests i .committed⟩ j ↔
      Committed requests tenantId s j ∨ j = i ∧ (requests i).tenantId = tenantId := by
  unfold Committed
  dsimp only
  rw [Function.update_apply]
  split
  · rename_i hj
    rw [hj]
    simp
  · rename_i hj
    simp [hj]

omit [DecidableEq ι] [Fintype ι] in
theorem Preserved.congr {stored : Tenant} (h : Preserved py requests initial s stored)
    (hsame : ∀ j, Committed requests initial.id s' j ↔ Committed requests initial.id s j) :
    Preserved py requests initial s' stored := by
  constructor
  · intro i hi
    obtain ⟨j, hj, hheld⟩ := h.held i ((hsame i).mp hi)
    exact ⟨j, (hsame j).mpr hj, hheld⟩
  · intro k hk
    exact h.others k fun i hi => hk i ((hsame i).mpr hi)

def First (requests : ι → SettingsRequest) (tenantId : Id) (s : State ι) (i : ι) : Prop :=
  ∀ j, Committed requests tenantId s j → ¬(requests j).change.SameKind (requests i).change

omit [DecidableEq ι] [Fintype ι] in
theorem Preserved.setting_of_first {stored : Tenant} (h : Preserved py requests initial s stored)
    (hfirst : First requests initial.id s i) : ∀ k ∈ (requests i).change.keys, stored.setting k = initial.setting k := by
  intro k hk
  apply h.others
  intro j hj
  exact SettingsChange.not_mem_keys (fun hsame => hfirst j hj hsame.symm) hk

structure Sound (py : Python) (requests : ι → SettingsRequest) (initial : Tenant) (s : State ι) : Prop where
  stored : ∃ stored, TenantRepository.get s.tenants initial.id = some stored ∧
    Preserved py requests initial s stored
  read : ∀ i tenant, (requests i).tenantId = initial.id → s.requests i = .read tenant →
    First requests initial.id s i → ∀ k ∈ (requests i).change.keys, tenant.setting k = initial.setting k
  unchanged : ∀ i, (requests i).tenantId = initial.id → s.requests i = .written none →
    First requests initial.id s i → (requests i).change.HeldBy py initial
  changed : ∀ i settings, (requests i).tenantId = initial.id → s.requests i = .written (some settings) →
    (∃ seen, settings = (requests i).change.settings seen) ∧
      ∀ stored, TenantRepository.get s.tenants initial.id = some stored →
        ∀ k ∉ (requests i).change.keys, Dict.get settings k = stored.setting k
  alone : ∀ i j, (requests i).tenantId = initial.id → (requests j).tenantId = initial.id →
    (s.requests i).settings.isSome → (s.requests j).settings.isSome → i = j

namespace Sound

omit [DecidableEq ι] [Fintype ι] in
theorem start {tenants : Table Tenant.id} (h : tenants.find? initial.id = some initial) :
    Sound py requests initial (State.start tenants) := by
  have hnone : ∀ j, ¬Committed requests initial.id (State.start tenants) j := fun j hj => nomatch hj.1
  constructor
  · refine ⟨initial, h, ?_, fun k _ => rfl⟩
    intro i hi
    exact absurd hi (hnone i)
  · intro i tenant _ hphase
    cases hphase
  · intro i _ hphase
    cases hphase
  · intro i settings _ hphase
    cases hphase
  · intro i j _ _ hi
    cases hi

omit [Fintype ι] in
theorem set {p : Phase} (h : Sound py requests initial s) (hopen : s.requests i ≠ .committed) (hp : p ≠ .committed)
    (hread : ∀ tenant, (requests i).tenantId = initial.id → p = .read tenant → First requests initial.id s i →
      ∀ k ∈ (requests i).change.keys, tenant.setting k = initial.setting k)
    (hunchanged : (requests i).tenantId = initial.id → p = .written none → First requests initial.id s i →
      (requests i).change.HeldBy py initial)
    (hchanged : ∀ settings, (requests i).tenantId = initial.id → p = .written (some settings) →
      (∃ seen, settings = (requests i).change.settings seen) ∧
        ∀ stored, TenantRepository.get s.tenants initial.id = some stored →
          ∀ k ∉ (requests i).change.keys, Dict.get settings k = stored.setting k)
    (halone : p.settings.isSome → ¬Locked requests s (requests i).tenantId) :
    Sound py requests initial (s.set i p) := by
  have hcommitted : ∀ j, Committed requests initial.id (s.set i p) j ↔ Committed requests initial.id s j :=
    fun j => committed_set hopen hp
  have hfirst : ∀ j, First requests initial.id (s.set i p) j → First requests initial.id s j :=
    fun j hj k hk => hj k ((hcommitted k).mpr hk)
  constructor
  · obtain ⟨stored, hget, hpreserved⟩ := h.stored
    exact ⟨stored, hget, hpreserved.congr hcommitted⟩
  · intro j tenant htenant hphase hj
    rw [requests_set] at hphase
    split at hphase
    · rename_i hji
      rw [hji] at htenant hj ⊢
      exact hread tenant htenant hphase (hfirst i hj)
    · exact h.read j tenant htenant hphase (hfirst j hj)
  · intro j htenant hphase hj
    rw [requests_set] at hphase
    split at hphase
    · rename_i hji
      rw [hji] at htenant hj ⊢
      exact hunchanged htenant hphase (hfirst i hj)
    · exact h.unchanged j htenant hphase (hfirst j hj)
  · intro j settings htenant hphase
    rw [requests_set] at hphase
    split at hphase
    · rename_i hji
      rw [hji] at htenant ⊢
      exact hchanged settings htenant hphase
    · exact h.changed j settings htenant hphase
  · intro j k hj hk hjs hks
    rw [requests_set] at hjs hks
    split at hjs
    · rename_i hji
      split at hks
      · rename_i hki
        rw [hji, hki]
      · rw [hji] at hj
        exact absurd ⟨k, hk.trans hj.symm, hks⟩ (halone hjs)
    · split at hks
      · rename_i hki
        rw [hki] at hk
        exact absurd ⟨j, hj.trans hk.symm, hjs⟩ (halone hks)
      · exact h.alone j k hj hk hjs hks

omit [Fintype ι] in
theorem quiet {p : Phase} (h : Sound py requests initial s) (hok : Admitted py requests s (i, a))
    (hopen : s.requests i ≠ .committed) (hquiet : Quiet py requests s i a p) :
    Sound py requests initial (s.set i p) := by
  apply h.set hopen hquiet.ne_committed
  · rintro tenant htenant rfl hfirst k hk
    cases hquiet with
    | read _ hseen =>
      obtain ⟨stored, hget, hpreserved⟩ := h.stored
      rw [htenant, hget] at hseen
      cases hseen
      exact hpreserved.setting_of_first hfirst k hk
  · rintro htenant rfl hfirst
    cases hquiet with
    | unchanged seen hseen hsame =>
      have hheld : (requests i).change.HeldBy py seen := SettingsChange.heldBy_of_unchanged hsame
      apply hheld.congr
      intro k hk
      exact (h.read i seen htenant hseen hfirst k hk).symm
  · rintro settings htenant rfl
    cases hquiet with
    | changed seen _ hseen ha hsettings _ =>
      have hwritten : settings = (requests i).change.settings seen := by
        rw [SettingsRaces.changed, TenantRepository.changedSettings] at hsettings
        split at hsettings
        · cases hsettings
        · exact (Option.some.inj hsettings).symm
      refine ⟨⟨seen, hwritten⟩, ?_⟩
      intro stored hstored k hk
      rw [← htenant] at hstored
      rw [hwritten, SettingsChange.get_settings_of_not_mem hk]
      exact hok seen stored hseen ha (by rw [hsettings]; rfl) hstored k hk
  · intro hp
    cases hquiet with
    | changed _ _ _ _ _ hfree => exact hfree
    | _ => cases hp

theorem get_writeSettings_of_ne {tenants : Table Tenant.id} {tenantId tenantId' : Id} (settings : Option Dict)
    (hne : settings.isSome → tenantId' ≠ tenantId) :
    TenantRepository.get (TenantRepository.writeSettings tenants tenantId settings) tenantId' =
      TenantRepository.get tenants tenantId' := by
  cases settings with
  | none => rfl
  | some d =>
    exact Table.find?_modify_of_ne (Tenant.id_withSettings d) (hne rfl)

omit [Fintype ι] in
theorem committed_unchanged (h : Sound py requests initial s) (htenant : (requests i).tenantId = initial.id)
    (hphase : s.requests i = .written none) {stored : Tenant} (hpreserved : Preserved py requests initial s stored) :
    Preserved py requests initial ⟨s.tenants, Function.update s.requests i .committed⟩ stored := by
  constructor
  · intro j hj
    rcases committed_commit.mp hj with hold | ⟨rfl, -⟩
    · obtain ⟨k, hk, hheld⟩ := hpreserved.held j hold
      exact ⟨k, committed_commit.mpr (.inl hk), hheld⟩
    · by_cases hfirst : First requests initial.id s j
      · refine ⟨j, hj, rfl, ?_⟩
        apply (h.unchanged j htenant hphase hfirst).congr
        exact hpreserved.setting_of_first hfirst
      · simp only [First, not_forall, not_not] at hfirst
        obtain ⟨k, hk, hsame⟩ := hfirst
        obtain ⟨l, hl, hlk, hheld⟩ := hpreserved.held k hk
        exact ⟨l, committed_commit.mpr (.inl hl), hlk.trans hsame, hheld⟩
  · intro k hk
    apply hpreserved.others
    intro j hj
    exact hk j (committed_commit.mpr (.inl hj))

omit [Fintype ι] in
theorem committed_changed (h : Sound py requests initial s) (htenant : (requests i).tenantId = initial.id)
    {settings : Dict} (hphase : s.requests i = .written (some settings)) {stored : Tenant}
    (hget : TenantRepository.get s.tenants initial.id = some stored)
    (hpreserved : Preserved py requests initial s stored) (tenants : Table Tenant.id) :
    Preserved py requests initial ⟨tenants, Function.update s.requests i .committed⟩ (stored.withSettings settings) := by
  obtain ⟨⟨seen, hsettings⟩, hothers⟩ := h.changed i settings htenant hphase
  have hown : (requests i).change.HeldBy py (stored.withSettings settings) := by
    rw [hsettings]
    exact SettingsChange.heldBy_withSettings seen
  constructor
  · intro j hj
    by_cases hkind : (requests i).change.SameKind (requests j).change
    · exact ⟨i, committed_commit.mpr (.inr ⟨rfl, htenant⟩), hkind, hown⟩
    · rcases committed_commit.mp hj with hold | ⟨rfl, -⟩
      · obtain ⟨k, hk, hkj, hheld⟩ := hpreserved.held j hold
        refine ⟨k, committed_commit.mpr (.inl hk), hkj, ?_⟩
        apply hheld.congr
        intro l hl
        refine hothers stored hget l ?_
        apply SettingsChange.not_mem_keys _ hl
        exact fun hsame => hkind (hsame.symm.trans hkj)
      · exact absurd rfl hkind
  · intro k hk
    have hki := hk i (committed_commit.mpr (.inr ⟨rfl, htenant⟩))
    have hstored : stored.setting k = initial.setting k := by
      apply hpreserved.others
      intro j hj
      exact hk j (committed_commit.mpr (.inl hj))
    exact (hothers stored hget k hki).trans hstored

omit [Fintype ι] in
theorem committed_settings (h : Sound py requests initial s) {settings : Option Dict}
    (hphase : s.requests i = .written settings) :
    ∃ stored, TenantRepository.get (TenantRepository.writeSettings s.tenants (requests i).tenantId settings)
        initial.id = some stored ∧
      Preserved py requests initial ⟨TenantRepository.writeSettings s.tenants (requests i).tenantId settings,
        Function.update s.requests i .committed⟩ stored := by
  obtain ⟨stored, hget, hpreserved⟩ := h.stored
  by_cases htenant : (requests i).tenantId = initial.id
  · cases settings with
    | none => exact ⟨stored, hget, h.committed_unchanged htenant hphase hpreserved⟩
    | some settings =>
      refine ⟨stored.withSettings settings, ?_, h.committed_changed htenant hphase hget hpreserved _⟩
      rw [htenant]
      exact Table.find?_modify_self (Tenant.id_withSettings settings) hget
  · refine ⟨stored, ?_, ?_⟩
    · rw [get_writeSettings_of_ne settings fun _ => Ne.symm htenant]
      exact hget
    · apply hpreserved.congr
      intro j
      rw [committed_commit]
      simp [htenant]

omit [Fintype ι] in
theorem commit (h : Sound py requests initial s) {settings : Option Dict}
    (hphase : s.requests i = .written settings) :
    Sound py requests initial ⟨TenantRepository.writeSettings s.tenants (requests i).tenantId settings,
      Function.update s.requests i .committed⟩ := by
  have hold : ∀ j p, Function.update s.requests i .committed j = p → p ≠ .committed → j ≠ i ∧ s.requests j = p := by
    intro j p hp hne
    rw [Function.update_apply] at hp
    split at hp
    · exact absurd hp.symm hne
    · exact ⟨by assumption, hp⟩
  have hfirst : ∀ j, First requests initial.id ⟨TenantRepository.writeSettings s.tenants (requests i).tenantId settings,
      Function.update s.requests i .committed⟩ j → First requests initial.id s j :=
    fun j hj k hk => hj k (committed_commit.mpr (.inl hk))
  constructor
  · exact h.committed_settings hphase
  · intro j tenant htenant hj hfirstj
    exact h.read j tenant htenant (hold j _ hj Phase.noConfusion).2 (hfirst j hfirstj)
  · intro j htenant hj hfirstj
    exact h.unchanged j htenant (hold j _ hj Phase.noConfusion).2 (hfirst j hfirstj)
  · intro j d htenant hj
    obtain ⟨hne, hphasej⟩ := hold j _ hj Phase.noConfusion
    obtain ⟨hseen, hothers⟩ := h.changed j d htenant hphasej
    refine ⟨hseen, ?_⟩
    -- no other request of the tenant can have written while this one holds the row
    have hrow : settings.isSome → initial.id ≠ (requests i).tenantId := by
      intro hsome hi
      exact hne (h.alone j i htenant hi.symm (by rw [hphasej]; rfl) (by rw [hphase]; exact hsome))
    intro stored hstored
    rw [get_writeSettings_of_ne settings hrow] at hstored
    exact hothers stored hstored
  · intro j k hj hk hjs hks
    have hback : ∀ l, (Function.update s.requests i .committed l).settings.isSome → (s.requests l).settings.isSome := by
      intro l hl
      rw [Function.update_apply] at hl
      split at hl
      · cases hl
      · exact hl
    exact h.alone j k hj hk (hback j hjs) (hback k hks)

theorem step (h : Sound py requests initial s) (hok : Admitted py requests s (i, a))
    (hstep : SettingsRaces.step py requests s (i, a) = some s') : Sound py requests initial s' := by
  rcases step_cases hstep with ⟨p, rfl, hopen, hquiet⟩ | ⟨settings, hphase, rfl⟩
  · exact h.quiet hok hopen hquiet
  · exact h.commit hphase

end Sound

theorem changed_of_steps {tenants : Table Tenant.id} {tenant : Tenant} {request : SettingsRequest}
    (h : TenantRepository.get tenants request.tenantId = some tenant) :
    (runSteps (SettingsRaces.step py fun _ : Unit => request) (State.start tenants)
        [((), .read), ((), .write), ((), .commit)]).map State.tenants =
      some (TenantRepository.update py tenants tenant (request.change.settings tenant)) := by
  have hid : tenant.id = request.tenantId := (Table.find?_eq_some_iff.mp h).2
  have hfree : ¬Locked (fun _ : Unit => request)
      ⟨tenants, Function.update (fun _ => .started) () (.read tenant)⟩ request.tenantId := by
    rintro ⟨⟨⟩, -, hlocked⟩
    cases hlocked
  cases hchanged : TenantRepository.changedSettings py tenant (request.change.settings tenant) with
  | none =>
    simp [runSteps, SettingsRaces.step, State.start, State.set, h, changed, hchanged, TenantRepository.update, hid]
  | some settings =>
    simp [runSteps, SettingsRaces.step, State.start, State.set, h, changed, hchanged, TenantRepository.update, hid,
      hfree]

end

end SettingsRaces

open SettingsRaces

theorem settings_changes_preserved {ι : Type} [DecidableEq ι] [Fintype ι] (py : Python)
    (requests : ι → SettingsRequest) (tenants : Table Tenant.id) (initial : Tenant)
    (hinitial : TenantRepository.get tenants initial.id = some initial) (s : SettingsRaces.State ι)
    (labels : List (ι × SettingsRaces.Action))
    (hrun : GuardedRun (Enabled (SettingsRaces.step py requests)) (SettingsRaces.Admitted py requests)
      (SettingsRaces.State.start tenants) labels s) :
    ∃ stored, TenantRepository.get s.tenants initial.id = some stored ∧
      Preserved py requests initial s stored := by
  have hsound : Sound py requests initial s := by
    apply hrun.invariant (Sound py requests initial)
    · intro s label s' h hok hstep
      exact h.step hok hstep
    · exact Sound.start hinitial
  exact hsound.stored

namespace SettingsRaces

def acme : Tenant where
  id := "tenant-1"
  name := "Acme"
  slug := "acme"
  plan := "starter"
  status := "active"
  settings := .obj [("plan_limits", .obj []), ("design_partner", .bool false), ("rollout_percentage", .int 0)]

def enrollment : DesignPartnerEnrollmentRequest where
  launchNotes := some "first"

def promotion : RolloutPromotionRequest where
  rolloutPercentage := 25
  nonneg := by decide
  le_hundred := by decide

def two : Fin 2 → SettingsRequest
  | 0 => ⟨"tenant-1", .enroll enrollment⟩
  | 1 => ⟨"tenant-1", .promote promotion⟩

end SettingsRaces

theorem settings_changes_preserved_inTurn :
    ∃ (s : SettingsRaces.State (Fin 2)) (stored : Tenant),
      Preserved Python.ascii SettingsRaces.two SettingsRaces.acme s stored ∧
        stored.setting "design_partner_cohort" = some (.str "wave-1") ∧
        stored.setting "rollout_percentage" = some (.int 25) := by
  have hquiet : ∀ s label, label.2 ≠ .write → Admitted Python.ascii SettingsRaces.two s label :=
    fun _ _ hne _ _ _ hwrite => absurd hwrite hne
  have hrun : ∃ s stored, GuardedRun (Enabled (SettingsRaces.step Python.ascii SettingsRaces.two))
      (SettingsRaces.Admitted Python.ascii SettingsRaces.two)
      (SettingsRaces.State.start (Table.empty.insert SettingsRaces.acme))
      [(0, .read), (0, .write), (0, .commit), (1, .read), (1, .write), (1, .commit)] s ∧
        TenantRepository.get s.tenants SettingsRaces.acme.id = some stored ∧
        stored.setting "design_partner_cohort" = some (.str "wave-1") ∧
        stored.setting "rollout_percentage" = some (.int 25) := by
    refine ⟨_, _, .cons (hquiet _ _ (by decide)) rfl (.cons ?_ rfl (.cons (hquiet _ _ (by decide)) rfl
      (.cons (hquiet _ _ (by decide)) rfl (.cons ?_ rfl (.cons (hquiet _ _ (by decide)) rfl (.nil _)))))),
      rfl, rfl, rfl⟩
    · intro seen stored hseen _ _ hstored k _
      cases hseen
      cases hstored
      rfl
    · intro seen stored hseen _ _ hstored k _
      cases hseen
      cases hstored
      rfl
  obtain ⟨s, stored, hrun, hstored, hcohort, hpercentage⟩ := hrun
  obtain ⟨stored', hstored', hpreserved⟩ := settings_changes_preserved Python.ascii SettingsRaces.two _
    SettingsRaces.acme rfl s _ hrun
  cases hstored.symm.trans hstored'
  exact ⟨s, stored, hpreserved, hcohort, hpercentage⟩

theorem settings_enrollment_lost :
    ∃ (s : SettingsRaces.State (Fin 2)) (stored : Tenant),
      runSteps (SettingsRaces.step Python.ascii SettingsRaces.two)
          (SettingsRaces.State.start (Table.empty.insert SettingsRaces.acme))
          [(0, .read), (1, .read), (0, .write), (0, .commit), (1, .write), (1, .commit)] = some s ∧
        TenantRepository.get s.tenants "tenant-1" = some stored ∧
        Committed SettingsRaces.two "tenant-1" s 0 ∧ Committed SettingsRaces.two "tenant-1" s 1 ∧
        stored.setting "design_partner_cohort" = none ∧
        ¬Preserved Python.ascii SettingsRaces.two SettingsRaces.acme s stored := by
  refine ⟨_, _, rfl, rfl, ⟨rfl, rfl⟩, ⟨rfl, rfl⟩, rfl, ?_⟩
  intro hpreserved
  obtain ⟨j, -, hsame, hheld⟩ := hpreserved.held 0 ⟨rfl, rfl⟩
  match j with
  | 0 =>
    obtain ⟨v, hv, -⟩ := hheld ("design_partner_cohort", .str "wave-1") (by simp [two, enrollment, SettingsChange.values])
    cases hv
  | 1 => simp [SettingsChange.SameKind, SettingsChange.keys, two] at hsame

end Leadline
