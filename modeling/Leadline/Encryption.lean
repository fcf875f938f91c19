import Leadline.Integrations

namespace Leadline

open Library

/-- Fernet with one key: a token depends on the time and on random bytes as well, and a token of another key or
a text that is none is refused. -/
structure Fernet where
  encrypt : String → String → String
  decrypt : String → Option String

def Fernet.Authentic (f : Fernet) : Prop :=
  ∀ token raw, f.decrypt token = some raw ↔ ∃ random, f.encrypt random raw = token

namespace EncryptionService

/-- The Fernet of `APP_DATA_ENCRYPTION_KEY`, whose key is the hash of the setting. -/
def service (fernet : String → Fernet) (appDataEncryptionKey : Option String) : Option Fernet :=
  (configured appDataEncryptionKey).map fernet

def encryptJson (f : Option Fernet) (random : String) (payload : Dict) : Dict :=
  match f with
  | none => payload
  | some f => [("encrypted", .str (f.encrypt random (Json.dumps (.obj payload))))]

/-- `none` where the token is refused or its text is no JSON. -/
def decryptJson (f : Option Fernet) (payload : Dict) : Option Dict :=
  match f, payload.get "encrypted" with
  | some f, some token =>
    (f.decrypt token.pyStr).bind fun raw =>
      (Json.loads raw).map fun
        | .obj decoded => decoded
        | _ => []
  | _, _ => some payload

variable {f : Fernet} {payload : Dict} {random : String}

theorem decryptJson_encryptJson (hauthentic : f.Authentic)
    (hjson : Json.loads (Json.dumps (.obj payload)) = some (.obj payload)) :
    decryptJson (some f) (encryptJson (some f) random payload) = some payload := by
  have hdecrypt : f.decrypt (f.encrypt random (Json.dumps (.obj payload))) = some (Json.dumps (.obj payload)) :=
    (hauthentic _ _).mpr ⟨random, rfl⟩
  have hget : Dict.get (encryptJson (some f) random payload) "encrypted" =
      some (.str (f.encrypt random (Json.dumps (.obj payload)))) := rfl
  have htext : Json.pyStr (.str (f.encrypt random (Json.dumps (.obj payload)))) =
      f.encrypt random (Json.dumps (.obj payload)) := by rw [Json.pyStr]
  unfold decryptJson
  rw [hget]
  dsimp only
  rw [htext, hdecrypt, Option.bind_some, hjson]
  rfl

theorem decryptJson_plain (f : Option Fernet) (h : payload.get "encrypted" = none) :
    decryptJson f payload = some payload := by
  unfold decryptJson
  rw [h]
  cases f <;> rfl

theorem decryptJson_refused {v : Json} (hauthentic : f.Authentic) (h : payload.get "encrypted" = some v)
    (hother : ∀ random raw, f.encrypt random raw ≠ v.pyStr) : decryptJson (some f) payload = none := by
  have hdecrypt : f.decrypt v.pyStr = none := by
    rw [Option.eq_none_iff_forall_ne_some]
    intro raw hraw
    obtain ⟨random, htoken⟩ := (hauthentic _ _).mp hraw
    exact hother random raw htoken
  unfold decryptJson
  rw [h]
  dsimp only
  rw [hdecrypt, Option.bind_none]

end EncryptionService

open EncryptionService

theorem credentials_read_back (fernet : String → Fernet) (hauthentic : ∀ key, (fernet key).Authentic) (payload : Dict)
    (hjson : Json.loads (Json.dumps (.obj payload)) = some (.obj payload)) (key : Option String) (random : String) :
    decryptJson (service fernet key) (encryptJson (service fernet key) random payload) = some payload ∧
      (payload.get "encrypted" = none →
        decryptJson (service fernet key) (encryptJson none random payload) = some payload) ∧
      ∀ f v, service fernet key = some f → payload.get "encrypted" = some v →
        (∀ random raw, f.encrypt random raw ≠ v.pyStr) →
        decryptJson (service fernet key) (encryptJson none random payload) = none := by
  refine ⟨?_, ?_, ?_⟩
  · cases hservice : service fernet key with
    | none => rfl
    | some f =>
      obtain ⟨material, -, rfl⟩ := Option.map_eq_some_iff.mp hservice
      exact decryptJson_encryptJson (hauthentic material) hjson
  · intro hplain
    exact decryptJson_plain _ hplain
  · intro f v hservice hmember hother
    obtain ⟨material, -, rfl⟩ := Option.map_eq_some_iff.mp hservice
    rw [hservice]
    exact decryptJson_refused (hauthentic material) hmember hother

namespace EncryptionService

def mark (key : String) : List Char := "gAAAAA".toList ++ key.toList ++ ['.']

def marked (key : String) : Fernet where
  encrypt _ raw := String.ofList (mark key ++ raw.toList)
  decrypt token :=
    if mark key <+: token.toList then some (String.ofList (token.toList.drop (mark key).length)) else none

theorem marked_authentic (key : String) : (marked key).Authentic := by
  intro token raw
  constructor
  · intro h
    obtain ⟨⟨rest, hrest⟩, hraw⟩ := Option.ite_none_right_eq_some.mp h
    refine ⟨"", ?_⟩
    have htext : raw = String.ofList rest := by
      rw [← Option.some.inj hraw, ← hrest, List.drop_left]
    rw [htext, ← String.toList_inj, ← hrest]
    simp [marked]
  · rintro ⟨random, rfl⟩
    simp [marked]

theorem eq_member {key value : String} {read : Option Json}
    (h : (match read with
      | some (.obj [(k, .str v)]) => k = key && v = value
      | _ => false) = true) : read = some (.obj [(key, .str value)]) := by
  split at h
  · simp only [Bool.and_eq_true, decide_eq_true_eq] at h
    rw [h.1, h.2]
  · cases h

end EncryptionService

theorem credentials_read_back_hubspot :
    decryptJson (service marked (some "material")) (encryptJson none "" [("provider", .str "hubspot")]) =
      some [("provider", .str "hubspot")] := by
  have hjson : Json.loads (Json.dumps (.obj [("provider", .str "hubspot")])) =
      some (.obj [("provider", .str "hubspot")]) := by
    apply eq_member
    decide +kernel
  exact (credentials_read_back marked marked_authentic _ hjson (some "material") "").2.1 rfl

theorem credentials_unreadable :
    (∀ key, (marked key).Authentic) ∧
      Json.loads (Json.dumps (.obj [("encrypted", .str "no")])) = some (.obj [("encrypted", .str "no")]) ∧
      decryptJson (service marked (some "material")) (encryptJson (service marked none) "" [("encrypted", .str "no")]) =
        none := by
  refine ⟨marked_authentic, ?_, ?_⟩
  · apply eq_member
    decide +kernel
  · apply Option.isNone_iff_eq_none.mp
    decide +kernel

namespace EncryptionService

theorem sync_credentials {f : Option Fernet} {random : String} {connections stored : Table IntegrationConnection.id}
    {tenantId id : Id} {type provider : String} {now : Timestamp} (hauthentic : ∀ g ∈ f, g.Authentic)
    (hjson : Json.loads (Json.dumps (.obj [("provider", .str provider)])) = some (.obj [("provider", .str provider)]))
    (hfresh : connections.Fresh id)
    (h : IntegrationService.sync (encryptJson f random) connections tenantId type provider .accepted id now =
      some (true, stored)) :
    ∃ c ∈ stored, c.tenantId = tenantId ∧ c.type = type ∧
      decryptJson f c.authData = some [("provider", .str provider)] := by
  have hread : decryptJson f (encryptJson f random [("provider", .str provider)]) = some [("provider", .str provider)] := by
    cases f with
    | none => rfl
    | some g => exact decryptJson_encryptJson (hauthentic g rfl) hjson
  obtain ⟨written, hwritten, hstored⟩ := Option.map_eq_some_iff.mp h
  obtain rfl := (Prod.mk.inj hstored).2
  obtain ⟨found, hfound, rfl⟩ := Option.map_eq_some_iff.mp hwritten
  cases found with
  | none =>
    refine ⟨_, (Table.mem_insert ?_).mpr (.inr rfl), rfl, rfl, hread⟩
    exact hfresh
  | some existing =>
    have hmem : existing ∈ connections.rows.filter fun c => c.tenantId = tenantId ∧ c.type = type := by
      rw [scalarOneOrNone_eq_some.mp hfound]
      exact List.mem_singleton_self existing
    obtain ⟨hrow, hkey⟩ := List.mem_filter.mp hmem
    obtain ⟨htenant, htype⟩ := of_decide_eq_true hkey
    exact ⟨_, Table.mem_modify_self _ hrow rfl, htenant, htype, hread⟩

end EncryptionService

end Leadline
