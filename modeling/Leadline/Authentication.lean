import Leadline.Library.GuardedRun
import Leadline.Library.Python
import Leadline.Provisioning

namespace Leadline

open Library

structure AuthContext where
  authType : String
  tenantId : Id
  userId : Option Id := none
  apiKeyId : Option Id := none
  role : Option String := none
  scopes : Option (List Json) := none

/-- What the middleware runs with: `jwt.decode` with the options of the settings, `none` for a `JWTError`, Python's
truth values and `str`, and the order in which the database gives out rows. -/
structure AuthMiddleware where
  secrets : Secrets
  jwtDecode : String → Option Dict
  py : Python
  str : Json → String
  scan : List APIKey → List APIKey

namespace AuthMiddleware

variable (m : AuthMiddleware)

/-- `str(value) if value else None` -/
def claim (payload : Dict) (name : String) : Option String :=
  ((payload.get name).filter m.py.truthy).map m.str

def resolveJwtContext (token : String) : Option AuthContext :=
  (m.jwtDecode token).bind fun payload =>
    (m.claim payload "tenant_id").map fun tenantId =>
      { authType := "jwt"
        tenantId := tenantId
        userId := m.claim payload "user_id"
        role := m.claim payload "role"
        scopes := match payload.get "scopes" with
          | some (.arr items) => some items
          | _ => some [] }

def candidates (db : Accounts) (token : String) : List APIKey :=
  m.scan (db.apiKeys.rows.filter fun k => k.keyPrefix = lookupPrefix token ∧ k.status = "active")

def use (now : Timestamp) (k : APIKey) : APIKey := { k with lastUsedAt := some now }

theorem use_id (now : Timestamp) (k : APIKey) : (use now k).id = k.id := rfl

def keyContext (k : APIKey) : AuthContext where
  authType := "api_key"
  tenantId := k.tenantId
  apiKeyId := some k.id
  scopes := some (k.scopes.map .str)

def resolveApiKeyContext (db : Accounts) (token : String) (now : Timestamp) : Option AuthContext × Accounts :=
  match (m.candidates db token).find? fun k => m.secrets.verifySecret token k.keyHash with
  | none => (none, db)
  | some k => (some (keyContext k), { db with apiKeys := db.apiKeys.modify k.id (use now) (use_id now) })

def resolveContext (db : Accounts) (token : String) (now : Timestamp) : Option AuthContext × Accounts :=
  if token.toList.count '.' = 2 then
    match m.resolveJwtContext token with
    | some context => (some context, db)
    | none => m.resolveApiKeyContext db token now
  else m.resolveApiKeyContext db token now

def ValidJwt (token : String) : Prop := token.toList.count '.' = 2 ∧ (m.resolveJwtContext token).isSome

end AuthMiddleware

namespace IssuedKeys

structure IssuedKey where
  display : String
  tenantId : Id
  apiKeyId : Id

def IssuedKey.context (key : IssuedKey) : AuthContext where
  authType := "api_key"
  tenantId := key.tenantId
  apiKeyId := some key.apiKeyId
  scopes := some [.str "*"]

structure Vault where
  db : Accounts
  issued : List IssuedKey := []

/-- The status of a key is set in the database, by an operator. -/
inductive Label
  | provision (payload : ProvisionTenantRequest) (draws : ProvisionDraws) (commit : CallOutcome)
  | authenticate (token : String) (now : Timestamp)
  | setStatus (apiKeyId : Id) (status : String)

def setStatus (status : String) (k : APIKey) : APIKey := { k with status := status }

theorem setStatus_id (status : String) (k : APIKey) : (setStatus status k).id = k.id := rfl

variable (m : AuthMiddleware)

def issuedBy (s : Vault) (payload : ProvisionTenantRequest) (draws : ProvisionDraws) (commit : CallOutcome) :
    List IssuedKey :=
  match ProvisioningService.provisionTenant m.secrets s.db payload draws with
  | .ok (_, response) => if commit.takesEffect then [⟨response.apiKey, response.tenantId, draws.apiKeyId⟩] else []
  | .error _ => []

def Vault.next (s : Vault) : Label → Vault
  | .provision payload draws commit =>
    { db := (AdminApi.provisionTenant m.secrets s.db payload draws commit).2
      issued := s.issued ++ issuedBy m s payload draws commit }
  | .authenticate token now => { s with db := (m.resolveContext s.db token now).2 }
  | .setStatus apiKeyId status =>
    { s with db := { s.db with apiKeys := s.db.apiKeys.modify apiKeyId (setStatus status) (setStatus_id status) } }

def VaultStep (s : Vault) (label : Label) (s' : Vault) : Prop := s' = s.next m label

def NewDraws (s : Vault) : Label → Prop
  | .provision _ draws _ =>
    s.db.tenants.Fresh draws.tenantId ∧ s.db.apiKeys.Fresh draws.apiKeyId ∧
      (∀ key ∈ s.issued, key.display ≠ (ProvisioningService.rawKey draws).display) ∧
      '.' ∉ (ProvisioningService.rawKey draws).display.toList
  | _ => True

def Vault.Active (s : Vault) (key : IssuedKey) : Prop :=
  ∃ k ∈ s.db.apiKeys, k.id = key.apiKeyId ∧ k.status = "active"

structure Stores (key : IssuedKey) (k : APIKey) : Prop where
  id : k.id = key.apiKeyId
  tenantId : k.tenantId = key.tenantId
  scopes : k.scopes = ["*"]
  keyPrefix : k.keyPrefix = lookupPrefix key.display
  keyHash : ∃ salt, k.keyHash = m.secrets.hashSecret salt key.display

structure Sealed (s : Vault) : Prop where
  stores : ∀ k ∈ s.db.apiKeys, ∃ key ∈ s.issued, Stores m key k
  stored : ∀ key ∈ s.issued, ∃ k ∈ s.db.apiKeys, k.id = key.apiKeyId
  tenants : ∀ key ∈ s.issued, ∃ t ∈ s.db.tenants, t.id = key.tenantId
  display : (s.issued.map IssuedKey.display).Nodup
  apiKeyId : (s.issued.map IssuedKey.apiKeyId).Nodup
  tenantId : (s.issued.map IssuedKey.tenantId).Nodup
  undotted : ∀ key ∈ s.issued, '.' ∉ key.display.toList

variable {m} {s s' : Vault} {label : Label}

theorem nodup_map_snoc {α β : Type} {f : α → β} {l : List α} {a : α} (h : (l.map f).Nodup)
    (hnew : ∀ b ∈ l, f b ≠ f a) : ((l ++ [a]).map f).Nodup := by
  rw [List.map_append, List.nodup_append]
  refine ⟨h, List.nodup_singleton _, ?_⟩
  intro x hx y hy
  obtain ⟨b, hb, rfl⟩ := List.mem_map.mp hx
  rw [List.map_singleton, List.mem_singleton] at hy
  rw [hy]
  exact hnew b hb

theorem Sealed.start (hkeys : s.db.apiKeys = .empty) (hissued : s.issued = []) : Sealed m s where
  stores k hk := by
    rw [hkeys] at hk
    exact absurd hk (Table.not_mem_empty k)
  stored := by simp [hissued]
  tenants := by simp [hissued]
  display := by simp [hissued]
  apiKeyId := by simp [hissued]
  tenantId := by simp [hissued]
  undotted := by simp [hissued]

theorem Sealed.modify {id : Id} {f : APIKey → APIKey} {hf : ∀ k, (f k).id = k.id} (h : Sealed m s)
    (hstores : ∀ key k, Stores m key k → Stores m key (f k)) :
    Sealed m { s with db := { s.db with apiKeys := s.db.apiKeys.modify id f hf } } := by
  refine { h with stores := ?_, stored := ?_ }
  · intro k hk
    obtain ⟨old, hold, rfl⟩ := (Table.mem_modify hf).mp hk
    obtain ⟨key, hkey, hstored⟩ := h.stores old hold
    refine ⟨key, hkey, ?_⟩
    split
    · exact hstores key old hstored
    · exact hstored
  · intro key hkey
    obtain ⟨k, hk, hid⟩ := h.stored key hkey
    by_cases hmodified : k.id = id
    · exact ⟨f k, Table.mem_modify_self hf hk hmodified, (hf k).trans hid⟩
    · exact ⟨k, (Table.mem_modify_of_ne hf hmodified).mpr hk, hid⟩

theorem Sealed.authenticate {token : String} {now : Timestamp} (h : Sealed m s) :
    Sealed m { s with db := (m.resolveContext s.db token now).2 } := by
  have hkey : Sealed m { s with db := (m.resolveApiKeyContext s.db token now).2 } := by
    unfold AuthMiddleware.resolveApiKeyContext
    split
    · exact h
    · exact h.modify fun key k hk => ⟨hk.id, hk.tenantId, hk.scopes, hk.keyPrefix, hk.keyHash⟩
  unfold AuthMiddleware.resolveContext
  split
  · split
    · exact h
    · exact hkey
  · exact hkey

theorem Sealed.provision {payload : ProvisionTenantRequest} {draws : ProvisionDraws} {commit : CallOutcome}
    (h : Sealed m s) (hok : NewDraws s (.provision payload draws commit)) :
    Sealed m (s.next m (.provision payload draws commit)) := by
  obtain ⟨htenant, hid, hdisplay, hundotted⟩ := hok
  simp only [Vault.next, issuedBy, AdminApi.provisionTenant]
  unfold ProvisioningService.provisionTenant
  cases TenantRepository.getBySlug s.db payload.slug with
  | some tenant => simpa using h
  | none =>
    cases commit.takesEffect with
    | false => simpa using h
    | true =>
      simp only [if_true]
      have hnewTenant : s.db.tenants.Fresh (ProvisioningService.newTenant payload draws).id := htenant
      have hnewKey : s.db.apiKeys.Fresh (ProvisioningService.newKey m.secrets draws).id := hid
      refine ⟨?_, ?_, ?_, ?_, ?_, ?_, ?_⟩
      · intro k hk
        rcases (Table.mem_insert hnewKey).mp hk with hk | rfl
        · obtain ⟨key, hkey, hstored⟩ := h.stores k hk
          exact ⟨key, List.mem_append_left _ hkey, hstored⟩
        · exact ⟨_, List.mem_append_right _ (List.mem_singleton_self _), rfl, rfl, rfl, rfl, draws.salt, rfl⟩
      · intro key hkey
        rcases List.mem_append.mp hkey with hkey | hkey
        · obtain ⟨k, hk, hkid⟩ := h.stored key hkey
          exact ⟨k, Table.mem_insert_of_mem hk, hkid⟩
        · rw [List.mem_singleton.mp hkey]
          exact ⟨_, (Table.mem_insert hnewKey).mpr (.inr rfl), rfl⟩
      · intro key hkey
        rcases List.mem_append.mp hkey with hkey | hkey
        · obtain ⟨t, ht, htid⟩ := h.tenants key hkey
          exact ⟨t, Table.mem_insert_of_mem ht, htid⟩
        · rw [List.mem_singleton.mp hkey]
          exact ⟨_, (Table.mem_insert hnewTenant).mpr (.inr rfl), rfl⟩
      · refine nodup_map_snoc h.display ?_
        exact hdisplay
      · refine nodup_map_snoc h.apiKeyId ?_
        intro key hkey hsame
        obtain ⟨k, hk, hkid⟩ := h.stored key hkey
        exact hid k hk (hkid.trans hsame)
      · refine nodup_map_snoc h.tenantId ?_
        intro key hkey hsame
        obtain ⟨t, ht, htid⟩ := h.tenants key hkey
        exact htenant t ht (htid.trans hsame)
      · intro key hkey
        rcases List.mem_append.mp hkey with hkey | hkey
        · exact h.undotted key hkey
        · rw [List.mem_singleton.mp hkey]
          exact hundotted

theorem Sealed.step (h : Sealed m s) (hok : NewDraws s label) (hstep : VaultStep m s label s') : Sealed m s' := by
  cases hstep
  cases label with
  | provision payload draws commit => exact h.provision hok
  | authenticate token now => exact h.authenticate
  | setStatus apiKeyId status =>
    exact h.modify fun key k hk => ⟨hk.id, hk.tenantId, hk.scopes, hk.keyPrefix, hk.keyHash⟩

section Resolving

variable {token : String} {now : Timestamp} {context : AuthContext}

theorem resolveApiKeyContext_iff (hsound : m.secrets.Sound) (hscan : ∀ rows, (m.scan rows).Perm rows)
    (h : Sealed m s) : (m.resolveApiKeyContext s.db token now).1 = some context ↔
      ∃ key ∈ s.issued, key.display = token ∧ s.Active key ∧ context = key.context := by
  have hcandidate : ∀ k, k ∈ m.candidates s.db token ↔
      k ∈ s.db.apiKeys ∧ k.keyPrefix = lookupPrefix token ∧ k.status = "active" := by
    intro k
    rw [AuthMiddleware.candidates, (hscan _).mem_iff, List.mem_filter, decide_eq_true_eq]
    rfl
  have hverified : ∀ k ∈ m.candidates s.db token, m.secrets.verifySecret token k.keyHash = true →
      ∃ key ∈ s.issued, key.display = token ∧ s.Active key ∧ AuthMiddleware.keyContext k = key.context := by
    intro k hk hverify
    obtain ⟨hmem, -, hactive⟩ := (hcandidate k).mp hk
    obtain ⟨key, hkey, hstored⟩ := h.stores k hmem
    obtain ⟨salt, hhash⟩ := hstored.keyHash
    rw [hhash] at hverify
    refine ⟨key, hkey, ((hsound salt token key.display).mp hverify).symm, ⟨k, hmem, hstored.id, hactive⟩, ?_⟩
    simp [AuthMiddleware.keyContext, IssuedKey.context, hstored.id, hstored.tenantId, hstored.scopes]
  unfold AuthMiddleware.resolveApiKeyContext
  cases hfind : (m.candidates s.db token).find? fun k => m.secrets.verifySecret token k.keyHash with
  | some k =>
    obtain ⟨key, hkey, hdisplay, hactive, hcontext⟩ :=
      hverified k (List.mem_of_find?_eq_some hfind) (by simpa using List.find?_some hfind)
    constructor
    · intro hsome
      refine ⟨key, hkey, hdisplay, hactive, ?_⟩
      rw [← hcontext]
      exact (Option.some.inj hsome).symm
    · rintro ⟨other, hother, hsame, -, rfl⟩
      rw [List.inj_on_of_nodup_map h.display hother hkey (hsame.trans hdisplay.symm), ← hcontext]
  | none =>
    constructor
    · intro hsome
      cases hsome
    · rintro ⟨key, hkey, rfl, ⟨k, hk, hid, hactive⟩, -⟩
      obtain ⟨other, hother, hstored⟩ := h.stores k hk
      have hsame : other = key := List.inj_on_of_nodup_map h.apiKeyId hother hkey (hstored.id.symm.trans hid)
      subst hsame
      obtain ⟨salt, hhash⟩ := hstored.keyHash
      have hmissed := List.find?_eq_none.mp hfind k ((hcandidate k).mpr ⟨hk, hstored.keyPrefix, hactive⟩)
      rw [hhash] at hmissed
      exact absurd ((hsound salt _ _).mpr rfl) hmissed

end Resolving

end IssuedKeys

open IssuedKeys

theorem issued_keys_authenticate (m : AuthMiddleware) (hsound : m.secrets.Sound)
    (hscan : ∀ rows, (m.scan rows).Perm rows) {s₀ s : Vault} {labels : List IssuedKeys.Label}
    (hkeys : s₀.db.apiKeys = .empty) (hissued : s₀.issued = [])
    (hrun : GuardedRun (VaultStep m) NewDraws s₀ labels s) :
    (∀ key ∈ s.issued, s.Active key → ∀ now, (m.resolveContext s.db key.display now).1 = some key.context) ∧
      (∀ token now, ¬m.ValidJwt token → (∀ key ∈ s.issued, s.Active key → key.display ≠ token) →
        (m.resolveContext s.db token now).1 = none) ∧
      (s.issued.map IssuedKey.tenantId).Nodup := by
  have h : Sealed m s := hrun.invariant (Sealed m) (fun _ _ _ hs hok hstep => hs.step hok hstep)
    (.start hkeys hissued)
  refine ⟨?_, ?_, h.tenantId⟩
  · intro key hkey hactive now
    have hdots : key.display.toList.count '.' ≠ 2 := by
      rw [List.count_eq_zero.mpr (h.undotted key hkey)]
      decide
    rw [AuthMiddleware.resolveContext, if_neg hdots]
    exact (resolveApiKeyContext_iff hsound hscan h).mpr ⟨key, hkey, rfl, hactive, rfl⟩
  · intro token now hjwt hother
    have hnone : (m.resolveApiKeyContext s.db token now).1 = none := by
      rw [Option.eq_none_iff_forall_ne_some]
      intro context hsome
      obtain ⟨key, hkey, hdisplay, hactive, -⟩ := (resolveApiKeyContext_iff hsound hscan h).mp hsome
      exact hother key hkey hactive hdisplay
    unfold AuthMiddleware.resolveContext
    split
    · rename_i hdots
      split
      · rename_i context hcontext
        exact absurd ⟨hdots, by simp [hcontext]⟩ hjwt
      · exact hnone
    · exact hnone

namespace IssuedKeys

def saltedSecrets : Secrets where
  hashSecret salt secret := String.ofList (List.replicate salt '.' ++ '$' :: secret.toList)
  verifySecret raw hashed := hashed.toList.dropWhile (· = '.') = '$' :: raw.toList

theorem saltedSecrets_sound : saltedSecrets.Sound := by
  intro salt raw secret
  have hdrop : (List.replicate salt '.' ++ '$' :: secret.toList).dropWhile (fun c => c = '.') = '$' :: secret.toList := by
    induction salt with
    | zero => simp
    | succ salt ih => simp [List.replicate_succ]
  simp only [saltedSecrets, String.toList_ofList, hdrop, decide_eq_true_eq, List.cons.injEq, true_and]
  rw [String.toList_inj]
  exact eq_comm

def plainMiddleware : AuthMiddleware where
  secrets := saltedSecrets
  jwtDecode _ := none
  py := .ascii
  str _ := ""
  scan rows := rows

def acme : Label :=
  .provision { name := "Acme", slug := "acme", ownerEmail := "ada@acme.com" }
    ⟨"tenant-1", "user-1", "key-1", "AAAAAAAA1", 1⟩ .returns

def globex : Label :=
  .provision { name := "Globex", slug := "globex", ownerEmail := "bob@globex.com" }
    ⟨"tenant-2", "user-2", "key-2", "AAAAAAAA2", 2⟩ .returns

def bothIssued : Vault := (Vault.next plainMiddleware ⟨{}, []⟩ acme).next plainMiddleware globex

theorem bothIssued_run : GuardedRun (VaultStep plainMiddleware) NewDraws ⟨{}, []⟩ [acme, globex] bothIssued :=
  .cons ⟨by decide +kernel, by decide +kernel, by decide +kernel, by decide +kernel⟩ rfl
    (.cons ⟨by decide +kernel, by decide +kernel, by decide +kernel, by decide +kernel⟩ rfl (.nil _))

end IssuedKeys

theorem issued_keys_authenticate_globex :
    (plainMiddleware.resolveContext bothIssued.db "ll_live_AAAAAAAA2" 0).1 =
      some { authType := "api_key", tenantId := "tenant-2", apiKeyId := some "key-2", scopes := some [.str "*"] } :=
  (issued_keys_authenticate plainMiddleware saltedSecrets_sound (fun _ => .refl _) rfl rfl bothIssued_run).1
    ⟨"ll_live_AAAAAAAA2", "tenant-2", "key-2"⟩ (.tail _ (.head _)) ⟨_, .tail _ (.head _), rfl, rfl⟩ 0

end Leadline
