import Leadline.RequestLogs

namespace Leadline

open Library RequestLogs

mutual

inductive SameOutside (py : Python) : Json → Json → Prop
  | same (v : Json) : SameOutside py v v
  | arr {items items' : List Json} (h : SameItems py items items') : SameOutside py (.arr items) (.arr items')
  | obj {fields fields' : Dict} (h : SameFields py fields fields') : SameOutside py (.obj fields) (.obj fields')

inductive SameItems (py : Python) : List Json → List Json → Prop
  | nil : SameItems py [] []
  | cons {v w : Json} {items items' : List Json} (h : SameOutside py v w) (hrest : SameItems py items items') :
    SameItems py (v :: items) (w :: items')

inductive SameFields (py : Python) : Dict → Dict → Prop
  | nil : SameFields py [] []
  | secret {key : String} {fields fields' : Dict} (hkey : isSecretKey py key = true) (v w : Json)
    (hrest : SameFields py fields fields') : SameFields py ((key, v) :: fields) ((key, w) :: fields')
  | shown {key : String} {v w : Json} {fields fields' : Dict} (h : SameOutside py v w)
    (hrest : SameFields py fields fields') : SameFields py ((key, v) :: fields) ((key, w) :: fields')

end

namespace Redaction

mutual

theorem maskPii_congr {py : Python} {v w : Json} : SameOutside py v w → maskPii py v = maskPii py w
  | .same v => rfl
  | .arr h => by rw [maskPii, maskPii, maskItems_congr h]
  | .obj h => by rw [maskPii, maskPii, maskFields_congr h]

theorem maskItems_congr {py : Python} {items items' : List Json} :
    SameItems py items items' → maskItems py items = maskItems py items'
  | .nil => rfl
  | .cons h hrest => by rw [maskItems, maskItems, maskPii_congr h, maskItems_congr hrest]

theorem maskFields_congr {py : Python} {fields fields' : Dict} :
    SameFields py fields fields' → maskFields py fields = maskFields py fields'
  | .nil => rfl
  | .secret hkey v w hrest => by
    rw [maskFields, maskFields, hkey, maskFields_congr hrest]
    rfl
  | .shown h hrest => by rw [maskFields, maskFields, maskPii_congr h, maskFields_congr hrest]

end

variable {py : Python} {path : List Json.Step}

def Outside (py : Python) (path : List Json.Step) : Prop := ∀ k, .key k ∈ path → isSecretKey py k = false

def Shown (py : Python) : Option Json → Option Json → Prop
  | none, out => out = none
  | some (.str s), out => out = some (.str (maskText py s))
  | some (.arr items), out => ∃ masked, out = some (.arr masked) ∧ masked.length = items.length
  | some (.obj fields), out => ∃ masked, out = some (.obj masked) ∧ masked.map Prod.fst = fields.map Prod.fst ∧
      ∀ k v, isSecretKey py k = true → Dict.get masked k = some v → v = .str "***REDACTED***"
  | some v, out => out = some v

theorem maskItems_eq (items : List Json) : maskItems py items = items.map (maskPii py) := by
  induction items with
  | nil => rfl
  | cons v items ih => rw [maskItems, ih, List.map_cons]

theorem follow_maskPii (h : Outside py path) (v : Json) :
    (maskPii py v).follow path = (v.follow path).map (maskPii py) := by
  induction path generalizing v with
  | nil => rfl
  | cons step path ih =>
    have hlater : Outside py path := fun k hk => h k (List.mem_cons_of_mem step hk)
    have hbind : ∀ found : Option Json, (found.map (maskPii py)).bind (Json.follow path) =
        (found.bind (Json.follow path)).map (maskPii py) := by
      intro found
      cases found with
      | none => rfl
      | some u => exact ih hlater u
    cases step with
    | index i =>
      cases v with
      | arr items =>
        rw [maskPii, Json.follow, Json.follow, maskItems_eq, List.getElem?_map, hbind]
      | _ => rfl
    | key k =>
      cases v with
      | obj fields =>
        have hshown : maskItem py k = maskPii py := by
          funext u
          rw [maskItem, h k List.mem_cons_self]
          rfl
        rw [maskPii_obj, Json.follow, Json.follow, Dict.get_mapItems, hshown, hbind]
      | _ => rfl

theorem shown_maskPii (v : Json) : Shown py (some v) (some (maskPii py v)) := by
  cases v with
  | str s =>
    have hmask : maskPii py (.str s) = .str (maskText py s) := by rw [maskPii]
    exact congrArg some hmask
  | arr items =>
    have hmask : maskPii py (.arr items) = .arr (items.map (maskPii py)) := by rw [maskPii, maskItems_eq]
    exact ⟨_, congrArg some hmask, List.length_map _⟩
  | obj fields =>
    refine ⟨_, congrArg some (maskPii_obj fields), ?_, ?_⟩
    · rw [Dict.mapItems, List.map_map]
      rfl
    · intro k v hsecret hget
      rw [Dict.get_mapItems] at hget
      obtain ⟨u, -, rfl⟩ := Option.map_eq_some_iff.mp hget
      exact if_pos hsecret
  | null => rfl
  | bool b => rfl
  | int n => rfl
  | float literal => rfl

end Redaction

open Redaction

theorem redaction_barrier (py : Python) :
    (∀ v w, SameOutside py v w → maskPii py v = maskPii py w ∧
      ∀ settings : AuditSettings, settings.piiMaskingEnabled = true →
        ∀ tenantId action resourceType statusCode actorUserId actorApiKeyId resourceId,
          AuditService.buildEntry py settings tenantId action resourceType statusCode actorUserId actorApiKeyId
              resourceId v =
            AuditService.buildEntry py settings tenantId action resourceType statusCode actorUserId actorApiKeyId
              resourceId w) ∧
    ∀ v path, Outside py path → Shown py (v.follow path) ((maskPii py v).follow path) := by
  constructor
  · intro v w h
    have hsame := maskPii_congr h
    refine ⟨hsame, ?_⟩
    intro settings hmasking tenantId action resourceType statusCode actorUserId actorApiKeyId resourceId
    simp only [AuditService.buildEntry, hmasking, hsame, if_true]
  · intro v path h
    rw [follow_maskPii h]
    cases v.follow path with
    | none => rfl
    | some u => exact shown_maskPii u

namespace Redaction

def login (password : Json) : Json :=
  .obj [("attempts", .arr [.obj [("email", .str "ada@example.com"), ("Password", password)]])]

theorem login_sameOutside (v w : Json) : SameOutside Python.ascii (login v) (login w) :=
  .obj (.shown (.arr (.cons (.obj (.shown (.same _) (.secret rfl v w .nil))) .nil)) .nil)

end Redaction

theorem redaction_barrier_login :
    maskPii Python.ascii (login (.str "hunter2")) = maskPii Python.ascii (login (.arr [.int 1, .obj []])) :=
  ((redaction_barrier Python.ascii).1 _ _ (login_sameOutside _ _)).1

end Leadline
