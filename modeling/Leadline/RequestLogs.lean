import Leadline.Authentication
import Leadline.Masking
import Mathlib.Data.Rat.Defs

namespace Leadline

open Library

structure AuditSettings where
  auditLogEnabled : Bool := true
  piiMaskingEnabled : Bool := true

structure HttpRequest where
  method : String
  path : String
  queryParams : List (String × String) := []
  xRequestId : Option String := none
  userAgent : Option String := none
  authorization : Option String := none

structure Served where
  uuid : String
  context : Option AuthContext
  statusCode : ℤ
  latencyMs : ℚ

structure RequestRecord where
  requestId : String
  tenantId : Option Id
  userId : Option Id
  path : String
  method : String
  statusCode : ℤ
  latencyMs : ℚ

structure AuditLog where
  tenantId : Id
  actorUserId : Option Id
  actorApiKeyId : Option Id
  action : String
  resourceType : String
  resourceId : Option Id
  statusCode : ℤ
  metadataJson : Json

section Middleware

variable (py : Python) (settings : AuditSettings)

def AuditService.buildEntry (tenantId : Id) (action resourceType : String) (statusCode : ℤ)
    (actorUserId actorApiKeyId resourceId : Option Id) (metadata : Json) : Option AuditLog :=
  if settings.auditLogEnabled then
    some
      { tenantId := tenantId
        actorUserId := actorUserId
        actorApiKeyId := actorApiKeyId
        action := action
        resourceType := resourceType
        resourceId := resourceId
        statusCode := statusCode
        metadataJson := if settings.piiMaskingEnabled then maskPii py metadata else metadata }
  else none

/-- `path.strip("/").split("/")[0] or "root"` -/
def resourceTypeOf (path : String) : String :=
  let stripped := ((path.toList.dropWhile (· = '/')).reverse.dropWhile (· = '/')).reverse
  (configured (some (String.ofList (stripped.takeWhile (· ≠ '/'))))).getD "root"

/-- `dict(request.query_params)` -/
def queryDict (params : List (String × String)) : Dict := Dict.setAll [] (params.map fun p => (p.1, .str p.2))

def auditMetadata (r : HttpRequest) : Json :=
  .obj [("query", .obj (queryDict r.queryParams)),
    ("headers", .obj [("x-request-id", .str (r.xRequestId.getD "")), ("user-agent", .str (r.userAgent.getD "")),
      ("authorization", .str (r.authorization.getD ""))])]

def isAudited (path : String) : Bool := settings.auditLogEnabled && path ∉ ["/healthz", "/readyz", "/metrics"]

def requestLoggingMiddleware (r : HttpRequest) (served : Served) : RequestRecord × Option AuditLog :=
  ({  requestId := r.xRequestId.getD served.uuid
      tenantId := served.context.map AuthContext.tenantId
      userId := served.context.bind AuthContext.userId
      path := if settings.piiMaskingEnabled then maskText py r.path else r.path
      method := r.method
      statusCode := served.statusCode
      latencyMs := served.latencyMs },
    if isAudited settings r.path then
      AuditService.buildEntry py settings ((configured (served.context.map AuthContext.tenantId)).getD "anonymous")
        (r.method ++ ":" ++ r.path) (resourceTypeOf r.path) served.statusCode
        (served.context.bind AuthContext.userId) (served.context.bind AuthContext.apiKeyId) none (auditMetadata r)
    else none)

end Middleware

inductive Place
  | path
  | queryValue (before : List (String × String)) (key : String) (after : List (String × String))
  | userAgent

def HttpRequest.put (r : HttpRequest) (text : String) : Place → HttpRequest
  | .path => { r with path := text }
  | .queryValue before key after => { r with queryParams := before ++ (key, text) :: after }
  | .userAgent => { r with userAgent := some text }

def Shows (py : Python) (settings : AuditSettings) (r : HttpRequest) : Place → Prop
  | .path => True
  | .queryValue _ key after =>
    isAudited settings r.path = true ∧ isSecretKey py key = false ∧ key ∉ after.map Prod.fst
  | .userAgent => isAudited settings r.path = true

namespace RequestLogs

variable {py : Python} {settings : AuditSettings}

def maskItem (py : Python) (key : String) (item : Json) : Json :=
  if isSecretKey py key then .str "***REDACTED***" else maskPii py item

theorem maskFields_eq (fields : Dict) : maskFields py fields = Dict.mapItems (maskItem py) fields := by
  induction fields with
  | nil => rfl
  | cons p fields ih =>
    obtain ⟨key, item⟩ := p
    exact congrArg _ ih

theorem maskPii_obj (fields : Dict) : maskPii py (.obj fields) = .obj (Dict.mapItems (maskItem py) fields) := by
  rw [maskPii, maskFields_eq]

theorem maskItem_of_small (hsmall : KeepsSmallLetters py.lower) {key : String}
    (hkey : key.toList.all isSmallLetter = true ∧
      key ∉ ["authorization", "api_key", "token", "secret", "password"]) (item : Json) :
    maskItem py key item = maskPii py item := by
  have hshown : isSecretKey py key = false := by
    rw [isSecretKey, hsmall key hkey.1]
    exact decide_eq_false hkey.2
  rw [maskItem, hshown]
  rfl

theorem metadata_eq_iff (hsmall : KeepsSmallLetters py.lower) (r s : HttpRequest) (hid : r.xRequestId = s.xRequestId)
    (hauthorization : r.authorization = s.authorization) :
    maskPii py (auditMetadata r) = maskPii py (auditMetadata s) ↔
      Dict.mapItems (maskItem py) (queryDict r.queryParams) = Dict.mapItems (maskItem py) (queryDict s.queryParams) ∧
        maskText py (r.userAgent.getD "") = maskText py (s.userAgent.getD "") := by
  have hmetadata : ∀ r : HttpRequest, maskPii py (auditMetadata r) =
      .obj [("query", .obj (Dict.mapItems (maskItem py) (queryDict r.queryParams))),
        ("headers", .obj [("x-request-id", .str (maskText py (r.xRequestId.getD ""))),
          ("user-agent", .str (maskText py (r.userAgent.getD ""))),
          ("authorization", maskItem py "authorization" (.str (r.authorization.getD "")))])] := by
    intro r
    rw [auditMetadata, maskPii_obj]
    simp only [Dict.mapItems, List.map_cons, List.map_nil]
    rw [maskItem_of_small hsmall (by decide), maskItem_of_small hsmall (by decide), maskPii_obj, maskPii_obj]
    simp only [Dict.mapItems, List.map_cons, List.map_nil]
    rw [maskItem_of_small hsmall (by decide), maskItem_of_small hsmall (by decide), maskPii, maskPii]
  rw [hmetadata, hmetadata, hid, hauthorization]
  simp

theorem maskItem_str_eq_iff {key s t : String} :
    maskItem py key (.str s) = maskItem py key (.str t) ↔ (isSecretKey py key = false → maskText py s = maskText py t) := by
  cases hkey : isSecretKey py key with
  | true => simp [maskItem, hkey]
  | false => simp [maskItem, hkey, maskPii]

theorem query_eq_iff (before : List (String × String)) (key : String) (after : List (String × String)) (s t : String) :
    Dict.mapItems (maskItem py) (queryDict (before ++ (key, s) :: after)) =
        Dict.mapItems (maskItem py) (queryDict (before ++ (key, t) :: after)) ↔
      (isSecretKey py key = false → key ∉ after.map Prod.fst → maskText py s = maskText py t) := by
  let items : List (String × String) → Dict := fun params => params.map fun p => (p.1, .str p.2)
  let start : Dict := Dict.mapItems (maskItem py) (Dict.setAll [] (items before))
  have hmasked : ∀ text, Dict.mapItems (maskItem py) (queryDict (before ++ (key, text) :: after)) =
      (start.set key (maskItem py key (.str text))).setAll (Dict.mapItems (maskItem py) (items after)) := by
    intro text
    have hsplit : queryDict (before ++ (key, text) :: after) =
        ((Dict.setAll [] (items before)).set key (.str text)).setAll (items after) := by
      simp [queryDict, Dict.setAll, items]
    rw [hsplit, Dict.mapItems_setAll, Dict.mapItems_set]
  have hkeys : (Dict.mapItems (maskItem py) (items after)).map Prod.fst = after.map Prod.fst := by
    simp [Dict.mapItems, items]
  rw [hmasked, hmasked]
  constructor
  · intro h hshown hlast
    rw [← hkeys] at hlast
    have hget := congrArg (fun d => Dict.get d key) h
    simp only [Dict.get_setAll_of_not_mem hlast, Dict.get_set_self, Option.some.injEq] at hget
    exact maskItem_str_eq_iff.mp hget hshown
  · intro h
    by_cases hlast : key ∈ after.map Prod.fst
    · exact (Dict.alike_set start key _ _).setAll (hkeys ▸ hlast)
    · rw [maskItem_str_eq_iff.mpr fun hshown => h hshown hlast]

theorem withLocal_inj {a : Address} {l m : LocalPart} : a.withLocal l = a.withLocal m ↔ l = m := by
  constructor
  · intro h
    rw [Address.withLocal, Address.withLocal, String.ofList_inj, List.append_assoc, List.append_assoc] at h
    have htext := List.append_cancel_right (List.append_cancel_left h)
    cases l
    cases m
    cases htext
    rfl
  · rintro rfl
    rfl

theorem isAudited_withLocal (a : Address) (l : LocalPart) :
    isAudited settings (a.withLocal l) = settings.auditLogEnabled := by
  have hat : '@' ∈ (a.withLocal l).toList := by simp [Address.withLocal, Address.rest]
  have hlisted : a.withLocal l ∉ ["/healthz", "/readyz", "/metrics"] := by
    intro hmem
    simp only [List.mem_cons, List.not_mem_nil, or_false] at hmem
    rcases hmem with h | h | h
    all_goals
      rw [h] at hat
      revert hat
      decide
  rw [isAudited, decide_eq_true hlisted, Bool.and_true]

theorem traces_eq_iff (hsmall : KeepsSmallLetters py.lower) (hmasking : settings.piiMaskingEnabled = true)
    (r s : HttpRequest) (served : Served) (hmethod : r.method = s.method) (hid : r.xRequestId = s.xRequestId)
    (hauthorization : r.authorization = s.authorization)
    (haudited : isAudited settings r.path = isAudited settings s.path) :
    requestLoggingMiddleware py settings r served = requestLoggingMiddleware py settings s served ↔
      maskText py r.path = maskText py s.path ∧
        (isAudited settings r.path = true → r.path = s.path ∧
          Dict.mapItems (maskItem py) (queryDict r.queryParams) = Dict.mapItems (maskItem py) (queryDict s.queryParams) ∧
          maskText py (r.userAgent.getD "") = maskText py (s.userAgent.getD "")) := by
  have hmetadata := metadata_eq_iff hsmall r s hid hauthorization
  have haction : r.method ++ ":" ++ r.path = s.method ++ ":" ++ s.path ↔ r.path = s.path := by
    rw [hmethod, String.append_right_inj]
  rw [← hmetadata]
  unfold requestLoggingMiddleware
  rw [← haudited, hid, hmethod, hmasking]
  cases haudit : isAudited settings r.path with
  | false => simp
  | true =>
    have henabled : settings.auditLogEnabled = true := (Bool.and_eq_true _ _ ▸ haudit).1
    simp only [AuditService.buildEntry, henabled, hmasking, if_true, Prod.mk.injEq, RequestRecord.mk.injEq, true_and,
      and_true, Option.some.injEq, AuditLog.mk.injEq, forall_const, hmethod ▸ haction]
    constructor
    · rintro ⟨hpath, hsame, -, hmeta⟩
      exact ⟨hpath, hsame, hmeta⟩
    · rintro ⟨hpath, hsame, hmeta⟩
      exact ⟨hpath, hsame, by rw [hsame], hmeta⟩

end RequestLogs

open RequestLogs

theorem requests_look_alike_iff (py : Python) (hdigits : Masking.AsciiDigits py) (hsmall : KeepsSmallLetters py.lower)
    (settings : AuditSettings) (hmasking : settings.piiMaskingEnabled = true) (r : HttpRequest) (served : Served)
    (place : Place) (a : Address) (l m : LocalPart) :
    requestLoggingMiddleware py settings (r.put (a.withLocal l) place) served =
        requestLoggingMiddleware py settings (r.put (a.withLocal m) place) served ↔
      (place = .path → settings.auditLogEnabled = true → l = m) ∧
        (Shows py settings r place → OpenEnd a.before → l.revealed py = m.revealed py) := by
  have htext := maskText_withLocal_iff hdigits a l m
  cases place with
  | path =>
    have haudited : isAudited settings (a.withLocal l) = isAudited settings (a.withLocal m) := by
      rw [isAudited_withLocal, isAudited_withLocal]
    rw [traces_eq_iff hsmall hmasking (r.put (a.withLocal l) .path) (r.put (a.withLocal m) .path) served rfl rfl rfl
      haudited]
    simp only [HttpRequest.put, isAudited_withLocal, htext, withLocal_inj, and_self, and_true, Shows, true_imp_iff]
    exact and_comm
  | queryValue before key after =>
    let place := Place.queryValue before key after
    rw [traces_eq_iff hsmall hmasking (r.put (a.withLocal l) place) (r.put (a.withLocal m) place) served rfl rfl rfl rfl]
    simp only [place, HttpRequest.put, query_eq_iff, htext, and_true, true_and, Shows, and_imp, reduceCtorEq, false_imp_iff]
  | userAgent =>
    rw [traces_eq_iff hsmall hmasking (r.put (a.withLocal l) .userAgent) (r.put (a.withLocal m) .userAgent) served rfl
      rfl rfl rfl]
    simp only [HttpRequest.put, Option.getD_some, htext, true_and, Shows, reduceCtorEq, false_imp_iff]

namespace RequestLogs

def adaPart : LocalPart := ⟨"ada".toList, by decide, by decide⟩

def bobPart : LocalPart := ⟨"bob".toList, by decide, by decide⟩

def inLeadPath : Address where
  before := "/api/v1/leads/".toList
  host := "example".toList
  tld := "com".toList
  after := []
  delimited := by decide
  hostNonempty := by decide
  hostAllowed := by decide
  tldLong := by decide
  tldAllowed := by decide
  ends := by decide

def inAgent : Address := { inLeadPath with before := "Mozilla (".toList, delimited := by decide }

def afterSign : Address := { inLeadPath with before := "z@".toList, delimited := by decide }

def listed : HttpRequest := { method := "GET", path := "/api/v1/leads" }

def answered : Served := { uuid := "request-1", context := none, statusCode := 401, latencyMs := 1 }

def dottedA : LocalPart := ⟨"a.bc".toList, by decide, by decide⟩

def dottedB : LocalPart := ⟨"b.bc".toList, by decide, by decide⟩

end RequestLogs

theorem requests_look_alike_iff_agent :
    requestLoggingMiddleware Python.ascii {} (listed.put (inAgent.withLocal adaPart) .userAgent) answered =
      requestLoggingMiddleware Python.ascii {} (listed.put (inAgent.withLocal bobPart) .userAgent) answered := by
  have hclosed : ¬OpenEnd inAgent.before := by decide +kernel
  exact (requests_look_alike_iff Python.ascii Masking.ascii_digits asciiLower_keepsSmallLetters {} rfl listed answered .userAgent
    inAgent adaPart bobPart).mpr ⟨nofun, fun _ hopen => absurd hopen hclosed⟩

theorem requests_told_apart :
    requestLoggingMiddleware Python.ascii {} (listed.put (inLeadPath.withLocal adaPart) .path) answered ≠
        requestLoggingMiddleware Python.ascii {} (listed.put (inLeadPath.withLocal bobPart) .path) answered ∧
      requestLoggingMiddleware Python.ascii {} (listed.put (afterSign.withLocal dottedA) .userAgent) answered ≠
        requestLoggingMiddleware Python.ascii {} (listed.put (afterSign.withLocal dottedB) .userAgent)
          answered := by
  constructor
  · intro h
    have haction := congrArg (fun traces => traces.2.map AuditLog.action) h
    revert haction
    decide +kernel
  · intro h
    have hsmall : KeepsSmallLetters Python.ascii.lower := asciiLower_keepsSmallLetters
    have htraces := (traces_eq_iff hsmall rfl (listed.put (afterSign.withLocal dottedA) .userAgent)
      (listed.put (afterSign.withLocal dottedB) .userAgent) answered rfl rfl rfl rfl).mp h
    have hagent := (htraces.2 (by decide +kernel)).2.2
    revert hagent
    decide +kernel

end Leadline
