import Leadline.CompanySizes
import Leadline.Library.JsonTexts
import Leadline.MessageAnalysis

namespace Leadline

open Library Json

/-- A text of Redis with the time, in milliseconds, at which it expires. -/
structure RedisEntry where
  text : String
  expiresAt : ℤ

abbrev Redis := String → Option RedisEntry

namespace AIResultCache

/-- `GET` -/
def read (redis : Redis) (now : ℤ) (key : String) : Option String :=
  ((redis key).filter fun entry => now < entry.expiresAt).map RedisEntry.text

def get (redis : Redis) (now : ℤ) (call : CallOutcome) (key : String) : Option Dict :=
  if call.raises then none
  else
    match (configured (read redis now key)).bind loads with
    | some (.obj parsed) => some parsed
    | _ => none

/-- `SET` with `EX`, which Redis refuses for a time that is not positive. -/
def set (ttlSeconds : ℤ) (redis : Redis) (now : ℤ) (call : CallOutcome) (key : String) (value : Dict) : Redis :=
  if call.takesEffect ∧ 0 < ttlSeconds then
    Function.update redis key (some ⟨dumps (.obj value), now + 1000 * ttlSeconds⟩)
  else redis

end AIResultCache

/-- `_cache_key` -/
def CacheKey.text (key : CacheKey) : String :=
  "ai:message:" ++ key.tenantId ++ ":" ++ key.messageId ++ ":" ++ key.promptVersion ++ ":" ++ key.model

structure AnalysisRequest where
  tenantId : Id
  messageId : Id
  content : String
  readAt : ℤ
  writtenAt : ℤ
  read : CallOutcome := .returns
  write : CallOutcome := .returns
  model : ModelCall := .raises

namespace AIOrchestrator

variable (py : Python) (settings : Settings)

def rawAnalysis (content : String) (model : ModelCall) : Dict :=
  match configured settings.openaiApiKey with
  | some _ => analyzeWithOpenai py content model
  | none => fallbackAnalysis py content

def analyzeWithRedis (ttlSeconds : ℤ) (redis : Redis) (r : AnalysisRequest) : Option MessageUnderstanding × Redis :=
  let key := cacheKey settings r.tenantId r.messageId r.content
  let sanitize raw := sanitizeUnderstanding py raw key.model key.promptVersion
  match (AIResultCache.get redis r.readAt r.read key.text).filter fun cached => !cached.isEmpty with
  | some cached => (sanitize cached, redis)
  | none =>
    let raw := rawAnalysis py settings r.content r.model
    (sanitize raw, AIResultCache.set ttlSeconds redis r.writtenAt r.write key.text raw)

end AIOrchestrator

namespace ResultCache

open AIOrchestrator

theorem toList_text (key : CacheKey) : key.text.toList = "ai:message:".toList ++
    (key.tenantId.toList ++ ':' :: (key.messageId.toList ++
      ':' :: (key.promptVersion.toList ++ ':' :: key.model.toList))) := by
  simp [CacheKey.text]

theorem append_separator_inj {α : Type} {a : α} {xs ys rest rest' : List α} (hxs : a ∉ xs) (hys : a ∉ ys)
    (h : xs ++ a :: rest = ys ++ a :: rest') : xs = ys ∧ rest = rest' := by
  induction xs generalizing ys with
  | nil =>
    cases ys with
    | nil => exact ⟨rfl, (List.cons.inj h).2⟩
    | cons y ys => exact absurd (List.mem_cons.mpr (.inl (List.cons.inj h).1)) hys
  | cons x xs ih =>
    cases ys with
    | nil => exact absurd (List.mem_cons.mpr (.inl (List.cons.inj h).1.symm)) hxs
    | cons y ys =>
      obtain ⟨hhead, htail⟩ := List.cons.inj h
      obtain ⟨heq, hrest⟩ := ih (fun hmem => hxs (List.mem_cons_of_mem x hmem))
        (fun hmem => hys (List.mem_cons_of_mem y hmem)) htail
      exact ⟨by rw [hhead, heq], hrest⟩

def Plain (key : CacheKey) : Prop := ':' ∉ key.tenantId.toList ∧ ':' ∉ key.messageId.toList

theorem text_inj {key key' : CacheKey} (h : Plain key) (h' : Plain key')
    (hversion : key.promptVersion = key'.promptVersion) (htext : key.text = key'.text) : key = key' := by
  have hlist := congrArg String.toList htext
  rw [toList_text, toList_text, List.append_cancel_left_eq] at hlist
  obtain ⟨htenant, hrest⟩ := append_separator_inj h.1 h'.1 hlist
  obtain ⟨hmessage, hlast⟩ := append_separator_inj h.2 h'.2 hrest
  rw [hversion, List.append_cancel_left_eq, List.cons.injEq] at hlast
  obtain ⟨tenantId, messageId, promptVersion, model⟩ := key
  obtain ⟨tenantId', messageId', promptVersion', model'⟩ := key'
  rw [String.toList_inj] at htenant hmessage
  rw [CacheKey.mk.injEq]
  exact ⟨htenant, hmessage, hversion, String.toList_inj.mp hlast.2⟩

theorem sizeAt_lt {py : Python} (hdigits : DecimalDigits py) {cs : List Char} {size : ℕ}
    (h : sizeAt py cs = some size) : size < 10 ^ 4 := by
  unfold sizeAt at h
  dsimp only at h
  split at h
  · cases h
    apply Nat.lt_of_lt_of_le (CompanySizes.digitsValue_lt hdigits _)
    exact Nat.pow_le_pow_right (by decide) (List.length_take_le _ _)
  · cases h

theorem search_mem {α : Type} {matchAt : List Char → Option α} {cs : List Char} {a : α}
    (h : search matchAt cs = some a) : ∃ ds, matchAt ds = some a := by
  induction cs with
  | nil => exact ⟨[], h⟩
  | cons c cs ih =>
    rw [search] at h
    cases hfirst : matchAt (c :: cs) with
    | some b =>
      rw [hfirst] at h
      exact ⟨c :: cs, hfirst.trans h⟩
    | none =>
      rw [hfirst] at h
      exact ih h

theorem wellFormed_fallbackEntities {py : Python} (hdigits : DecimalDigits py) (lowered : String) :
    WellFormed (.obj (fallbackEntities py lowered)) := by
  have hsize : ∀ size, search (sizeAt py) lowered.toList = some size → WellFormed (.int size) := by
    intro size h
    obtain ⟨ds, hds⟩ := search_mem h
    constructor
    apply Nat.lt_of_lt_of_le (sizeAt_lt hdigits hds)
    exact Nat.pow_le_pow_right (by decide) (by decide)
  unfold fallbackEntities
  cases hfound : search (sizeAt py) lowered.toList with
  | none =>
    cases search (moneyAt py) lowered.toList with
    | none => exact .obj (by simp) (by simp)
    | some budget => exact .obj (by simp) (by simp [WellFormed.str])
  | some size =>
    have hwell := hsize size hfound
    cases search (moneyAt py) lowered.toList with
    | none => exact .obj (by simp) (by simpa using hwell)
    | some budget => exact .obj (by simp) (by simpa [WellFormed.str] using hwell)

theorem wellFormed_fallbackAnalysis {py : Python} (hdigits : DecimalDigits py) (content : String) :
    WellFormed (.obj (fallbackAnalysis py content)) := by
  apply WellFormed.obj
  · simp [fallbackAnalysis]
  · have hentities := wellFormed_fallbackEntities hdigits (py.lower content)
    have htopics : WellFormed (.arr ((fallbackTopics (py.lower content)).map .str)) := by
      constructor
      intro j hj
      obtain ⟨topic, -, rfl⟩ := List.mem_map.mp hj
      exact .str topic
    simp only [fallbackAnalysis, List.mem_cons, List.not_mem_nil, or_false]
    rintro p (rfl | rfl | rfl | rfl | rfl)
    · exact .str _
    · exact hentities
    · exact .str _
    · exact .str _
    · exact htopics

def Countable : ModelCall → Prop
  | .responds _ (some totalTokens) => totalTokens < 10 ^ maxStrDigits
  | _ => True

theorem wellFormed_rawAnalysis {py : Python} (hdigits : DecimalDigits py) (settings : Settings) (content : String)
    {model : ModelCall} (hmodel : Countable model) : WellFormed (.obj (rawAnalysis py settings content model)) := by
  have hfallback := wellFormed_fallbackAnalysis hdigits content
  unfold rawAnalysis
  split
  · unfold analyzeWithOpenai
    split
    · exact hfallback
    · exact hfallback
    · rename_i text texts totalTokens
      split
      · rename_i parsed hloads
        apply wellFormed_set (wellFormed_of_loads hloads)
        constructor
        cases totalTokens with
        | none => simp
        | some n =>
          have hn : n < 10 ^ maxStrDigits := hmodel
          simpa using hn
      · exact hfallback
  · exact hfallback

variable {py : Python} {settings : Settings} {ttlSeconds : ℤ} {redis : Redis} {cache : AICache} {key : CacheKey}
  {now : ℤ} {call : CallOutcome} {value : Dict} {promptVersion : String}

def Holds (promptVersion : String) (redis : Redis) (cache : AICache) : Prop :=
  ∀ key entry, Plain key → key.promptVersion = promptVersion → redis key.text = some entry →
    ∃ value, cache key = some value ∧ WellFormed (.obj value) ∧ entry.text = dumps (.obj value)

theorem get_eq_some {text : String} {parsed : Dict} (h : AIResultCache.get redis now call text = some parsed) :
    ∃ entry, redis text = some entry ∧ now < entry.expiresAt ∧ loads entry.text = some (.obj parsed) := by
  unfold AIResultCache.get at h
  split at h
  · cases h
  · split at h
    · rename_i other hother
      cases h
      obtain ⟨found, hfound, hloads⟩ := Option.bind_eq_some_iff.mp hother
      obtain ⟨entry, hentry, rfl⟩ := Option.map_eq_some_iff.mp (configured_eq_some.mp hfound).1
      obtain ⟨hredis, hfresh⟩ := Option.filter_eq_some_iff.mp hentry
      exact ⟨entry, hredis, of_decide_eq_true hfresh, hloads⟩
    · cases h

theorem Holds.get (h : Holds promptVersion redis cache) (hplain : Plain key)
    (hversion : key.promptVersion = promptVersion) (now : ℤ) (call : CallOutcome) :
    AIResultCache.get redis now call key.text = none ∨ AIResultCache.get redis now call key.text = cache key := by
  cases hget : AIResultCache.get redis now call key.text with
  | none => exact .inl rfl
  | some parsed =>
    obtain ⟨entry, hentry, -, hloads⟩ := get_eq_some hget
    obtain ⟨value, hvalue, hwell, htext⟩ := h key entry hplain hversion hentry
    rw [htext, loads_dumps hwell] at hloads
    cases hloads
    exact .inr hvalue.symm

theorem Holds.set (h : Holds promptVersion redis cache) (hplain : Plain key)
    (hversion : key.promptVersion = promptVersion) (hvalue : WellFormed (.obj value)) (ttlSeconds now : ℤ)
    (call : CallOutcome) : ∃ writes : Bool,
      Holds promptVersion (AIResultCache.set ttlSeconds redis now call key.text value)
        (if writes then Function.update cache key (some value) else cache) := by
  unfold AIResultCache.set
  split
  · refine ⟨true, ?_⟩
    intro other entry hother hsame hentry
    rw [if_pos rfl]
    by_cases hkey : other = key
    · subst hkey
      rw [Function.update_self] at hentry ⊢
      cases hentry
      exact ⟨value, rfl, hvalue, rfl⟩
    · have htext : other.text ≠ key.text := fun htext =>
        hkey (text_inj hother hplain (hsame.trans hversion.symm) htext)
      rw [Function.update_of_ne htext] at hentry
      rw [Function.update_of_ne hkey]
      exact h other entry hother hsame hentry
  · exact ⟨false, h⟩

theorem get_set (hvalue : WellFormed (.obj value)) (httl : 0 < ttlSeconds) {later : ℤ}
    (hlater : later < now + 1000 * ttlSeconds) (text : String) :
    AIResultCache.get (AIResultCache.set ttlSeconds redis now .returns text value) later .returns text =
      some value := by
  have hset : AIResultCache.set ttlSeconds redis now .returns text value text =
      some ⟨dumps (.obj value), now + 1000 * ttlSeconds⟩ := by
    rw [AIResultCache.set, if_pos ⟨rfl, httl⟩, Function.update_self]
  have hread : AIResultCache.read (AIResultCache.set ttlSeconds redis now .returns text value) later text =
      some (dumps (.obj value)) := by
    rw [AIResultCache.read, hset]
    simp [hlater]
  have htext : dumps (.obj value) ≠ "" := by
    intro hempty
    have hloads := loads_dumps hvalue
    rw [hempty] at hloads
    cases hloads
  rw [AIResultCache.get, if_neg (by simp [CallOutcome.raises]), hread, configured_eq_some.mpr ⟨rfl, htext⟩]
  simp [loads_dumps hvalue]

theorem Holds.evict (h : Holds promptVersion redis cache) (text : String) :
    Holds promptVersion (Function.update redis text none) cache := by
  intro key entry hplain hversion hentry
  by_cases htext : key.text = text
  · rw [htext, Function.update_self] at hentry
    cases hentry
  · rw [Function.update_of_ne htext] at hentry
    exact h key entry hplain hversion hentry

def Storable (settings : Settings) (r : AnalysisRequest) : Prop :=
  Plain (cacheKey settings r.tenantId r.messageId r.content) ∧ Countable r.model

theorem analyzeWithRedis_refines (hdigits : DecimalDigits py) (ttlSeconds : ℤ) {r : AnalysisRequest}
    (h : Holds settings.aiPromptVersion redis cache) (hr : Storable settings r) : ∃ calls : AnalysisCalls,
      calls.model = r.model ∧
        (analyzeWithRedis py settings ttlSeconds redis r).1 =
          (analyzeMessage py settings cache calls r.tenantId r.messageId r.content).understanding ∧
        Holds settings.aiPromptVersion (analyzeWithRedis py settings ttlSeconds redis r).2
          (analyzeMessage py settings cache calls r.tenantId r.messageId r.content).cache := by
  let key := cacheKey settings r.tenantId r.messageId r.content
  have hplain : Plain key := hr.1
  have hget := h.get hplain rfl r.readAt r.read
  cases hfound : (AIResultCache.get redis r.readAt r.read key.text).filter fun cached => !cached.isEmpty with
  | some found =>
    have hcached : (cache key).filter (fun cached => !cached.isEmpty) = some found := by
      rcases hget with hnone | hsame
      · rw [hnone] at hfound
        cases hfound
      · rwa [← hsame]
    refine ⟨{ model := r.model }, rfl, ?_, ?_⟩
    · simp [analyzeWithRedis, analyzeMessage, cached, key, hfound, hcached]
    · simp only [analyzeWithRedis, analyzeMessage, cached, key, hfound, hcached, if_true]
      exact h
  | none =>
    have hwell := wellFormed_rawAnalysis hdigits settings r.content hr.2
    obtain ⟨writes, hset⟩ := h.set hplain rfl hwell ttlSeconds r.writtenAt r.write
    refine ⟨{ model := r.model, cacheReads := false, cacheWrites := writes }, rfl, ?_, ?_⟩
    · simp only [analyzeWithRedis, analyzeMessage, cached, key, hfound]
      rfl
    · simp only [analyzeWithRedis, analyzeMessage, cached, key, hfound]
      exact hset

inductive Event
  | analyze (r : AnalysisRequest)
  | evict (text : String)

def Event.request : Event → Option AnalysisRequest
  | analyze r => some r
  | evict _ => none

def serve (py : Python) (settings : Settings) (ttlSeconds : ℤ) :
    Redis → List Event → List (Option MessageUnderstanding) × Redis
  | redis, [] => ([], redis)
  | redis, .analyze r :: events =>
    let (understanding, redis') := analyzeWithRedis py settings ttlSeconds redis r
    let (later, last) := serve py settings ttlSeconds redis' events
    (understanding :: later, last)
  | redis, .evict text :: events => serve py settings ttlSeconds (Function.update redis text none) events

def ideal (py : Python) (settings : Settings) :
    AICache → List (AnalysisRequest × AnalysisCalls) → List (Option MessageUnderstanding)
  | _, [] => []
  | cache, (r, calls) :: rest =>
    let analysis := analyzeMessage py settings cache calls r.tenantId r.messageId r.content
    analysis.understanding :: ideal py settings analysis.cache rest

theorem serve_refines (hdigits : DecimalDigits py) {events : List Event}
    (hevents : ∀ r ∈ events.filterMap Event.request, Storable settings r)
    (h : Holds settings.aiPromptVersion redis cache) : ∃ calls : List (AnalysisRequest × AnalysisCalls),
      calls.map Prod.fst = events.filterMap Event.request ∧ (∀ c ∈ calls, c.2.model = c.1.model) ∧
        (serve py settings ttlSeconds redis events).1 = ideal py settings cache calls := by
  induction events generalizing redis cache with
  | nil => exact ⟨[], rfl, by simp, rfl⟩
  | cons event events ih =>
    cases event with
    | analyze r =>
      have hr : Storable settings r := hevents r List.mem_cons_self
      have hrest : ∀ x ∈ events.filterMap Event.request, Storable settings x :=
        fun x hx => hevents x (List.mem_cons_of_mem r hx)
      obtain ⟨calls, hmodel, hanswer, hnext⟩ :=
        analyzeWithRedis_refines hdigits ttlSeconds h hr
      obtain ⟨later, hrequests, hmodels, hlater⟩ := ih hrest hnext
      refine ⟨(r, calls) :: later, ?_, ?_, ?_⟩
      · rw [List.map_cons, hrequests]
        rfl
      · intro c hc
        rcases List.mem_cons.mp hc with rfl | hc
        · exact hmodel
        · exact hmodels c hc
      · rw [ideal, ← hlater, ← hanswer]
        rfl
    | evict text => exact ih hevents (h.evict text)

theorem serve_append (redis : Redis) (events later : List Event) :
    (serve py settings ttlSeconds redis (events ++ later)).2 =
      (serve py settings ttlSeconds (serve py settings ttlSeconds redis events).2 later).2 := by
  induction events generalizing redis with
  | nil => rfl
  | cons event events ih =>
    cases event with
    | analyze r => exact ih _
    | evict text => exact ih _

def Missed (settings : Settings) (redis : Redis) (r : AnalysisRequest) : Prop :=
  (AIResultCache.get redis r.readAt r.read (cacheKey settings r.tenantId r.messageId r.content).text).filter
    (fun cached => !cached.isEmpty) = none

def Wrote (py : Python) (settings : Settings) (ttlSeconds : ℤ) (events : List Event) (r : AnalysisRequest) : Prop :=
  ∃ before after, events = before ++ .analyze r :: after ∧
    Missed settings (serve py settings ttlSeconds (fun _ => none) before).2 r ∧ r.write.takesEffect = true

theorem Wrote.append {events : List Event} {r : AnalysisRequest} (h : Wrote py settings ttlSeconds events r)
    (later : List Event) : Wrote py settings ttlSeconds (events ++ later) r := by
  obtain ⟨before, after, rfl, hrest⟩ := h
  exact ⟨before, after ++ later, by rw [List.append_assoc, List.cons_append], hrest⟩

def FromRequests (py : Python) (settings : Settings) (ttlSeconds : ℤ) (wrote : AnalysisRequest → Prop)
    (redis : Redis) : Prop :=
  ∀ key entry, Plain key → key.promptVersion = settings.aiPromptVersion → redis key.text = some entry →
    ∃ r, wrote r ∧ Storable settings r ∧ cacheKey settings r.tenantId r.messageId r.content = key ∧
      entry = ⟨dumps (.obj (rawAnalysis py settings r.content r.model)), r.writtenAt + 1000 * ttlSeconds⟩

theorem FromRequests.mono {wrote wrote' : AnalysisRequest → Prop}
    (h : FromRequests py settings ttlSeconds wrote redis) (hwrote : ∀ r, wrote r → wrote' r) :
    FromRequests py settings ttlSeconds wrote' redis := by
  intro key entry hplain hversion hentry
  obtain ⟨r, hr, hrest⟩ := h key entry hplain hversion hentry
  exact ⟨r, hwrote r hr, hrest⟩

theorem FromRequests.analyze {wrote : AnalysisRequest → Prop} {r : AnalysisRequest}
    (h : FromRequests py settings ttlSeconds wrote redis) (hr : Storable settings r)
    (hwrote : Missed settings redis r → r.write.takesEffect = true → wrote r) :
    FromRequests py settings ttlSeconds wrote (analyzeWithRedis py settings ttlSeconds redis r).2 := by
  unfold analyzeWithRedis
  dsimp only
  split
  · exact h
  · rename_i hmissed
    dsimp only
    unfold AIResultCache.set
    split
    · rename_i heffect
      intro key entry hplain hversion hentry
      by_cases hkey : key = cacheKey settings r.tenantId r.messageId r.content
      · subst hkey
        rw [Function.update_self] at hentry
        exact ⟨r, hwrote hmissed heffect.1, hr, rfl, (Option.some.inj hentry).symm⟩
      · have htext : key.text ≠ (cacheKey settings r.tenantId r.messageId r.content).text := fun htext =>
          hkey (text_inj hplain hr.1 hversion htext)
        rw [Function.update_of_ne htext] at hentry
        exact h key entry hplain hversion hentry
    · exact h

theorem FromRequests.evict {wrote : AnalysisRequest → Prop} (h : FromRequests py settings ttlSeconds wrote redis)
    (text : String) : FromRequests py settings ttlSeconds wrote (Function.update redis text none) := by
  intro key entry hplain hversion hentry
  by_cases htext : key.text = text
  · rw [htext, Function.update_self] at hentry
    cases hentry
  · rw [Function.update_of_ne htext] at hentry
    exact h key entry hplain hversion hentry

theorem fromRequests_serve {events : List Event}
    (hevents : ∀ r ∈ events.filterMap Event.request, Storable settings r) :
    FromRequests py settings ttlSeconds (Wrote py settings ttlSeconds events)
      (serve py settings ttlSeconds (fun _ => none) events).2 := by
  induction events using List.reverseRecOn with
  | nil =>
    intro key entry _ _ hentry
    cases hentry
  | append_singleton events event ih =>
    rw [List.filterMap_append] at hevents
    have hold := (ih fun r hr => hevents r (List.mem_append_left _ hr)).mono fun r hr => hr.append [event]
    rw [serve_append]
    cases event with
    | analyze r =>
      have hr : Storable settings r := hevents r (List.mem_append_right _ List.mem_cons_self)
      exact hold.analyze hr fun hmissed heffect => ⟨events, [], rfl, hmissed, heffect⟩
    | evict text => exact hold.evict text

end ResultCache

open ResultCache

theorem redis_refines_cache (py : Python) (hdigits : DecimalDigits py) (settings : Settings) (ttlSeconds : ℤ)
    (events : List ResultCache.Event) (hevents : ∀ r ∈ events.filterMap Event.request, Storable settings r) :
    ∃ calls : List (AnalysisRequest × AnalysisCalls), calls.map Prod.fst = events.filterMap Event.request ∧
      (∀ c ∈ calls, c.2.model = c.1.model) ∧
        (serve py settings ttlSeconds (fun _ => none) events).1 = ideal py settings (fun _ => none) calls := by
  apply serve_refines hdigits hevents
  intro key entry _ _ hentry
  cases hentry

namespace ResultCache

open AIOrchestrator

def pricing : AnalysisRequest where
  tenantId := "tenant-1"
  messageId := "message-1"
  content := "Price for 50 people?"
  readAt := 0
  writtenAt := 5

def pricingAgain : AnalysisRequest := { pricing with readAt := 60000, writtenAt := 60005 }

theorem pricing_storable : Storable {} pricing := ⟨⟨by decide, by decide⟩, trivial⟩

theorem pricingAgain_storable : Storable {} pricingAgain := pricing_storable

theorem pricing_found : AIResultCache.get (serve Python.ascii {} 3600 (fun _ => none) [.analyze pricing]).2
    60000 .returns (cacheKey {} "tenant-1" "message-1" "Price for 50 people?").text =
      some (fallbackAnalysis Python.ascii "Price for 50 people?") := by
  have hstored : (serve Python.ascii {} 3600 (fun _ => none) [.analyze pricing]).2 =
      AIResultCache.set 3600 (fun _ => none) 5 .returns
        (cacheKey {} "tenant-1" "message-1" "Price for 50 people?").text
        (fallbackAnalysis Python.ascii "Price for 50 people?") := by
    rfl
  rw [hstored]
  exact get_set (wellFormed_fallbackAnalysis CompanySizes.ascii_decimalDigits _) (by decide) (by decide) _

end ResultCache

theorem redis_refines_cache_pricing : ∃ calls : List (AnalysisRequest × AnalysisCalls),
    calls.map Prod.fst = [pricing, pricingAgain] ∧ (∀ c ∈ calls, c.2.model = c.1.model) ∧
      (serve Python.ascii {} 3600 (fun _ => none) [.analyze pricing, .evict "other", .analyze pricingAgain]).1 =
        ideal Python.ascii {} (fun _ => none) calls := by
  apply redis_refines_cache Python.ascii CompanySizes.ascii_decimalDigits {} 3600
    [.analyze pricing, .evict "other", .analyze pricingAgain]
  intro r hr
  have hmem : r ∈ [pricing, pricingAgain] := hr
  simp only [List.mem_cons, List.not_mem_nil, or_false] at hmem
  cases hmem with
  | inl h => exact h ▸ pricing_storable
  | inr h => exact h ▸ pricingAgain_storable

theorem cached_analyses_fresh (py : Python) (hdigits : DecimalDigits py) (settings : Settings) (ttlSeconds : ℤ)
    (events : List ResultCache.Event) (hevents : ∀ r ∈ events.filterMap Event.request, Storable settings r)
    (r : AnalysisRequest) (hr : Storable settings r) (found : Dict)
    (hfound : AIResultCache.get (serve py settings ttlSeconds (fun _ => none) events).2 r.readAt r.read
      (AIOrchestrator.cacheKey settings r.tenantId r.messageId r.content).text = some found) :
    ∃ earlier, Wrote py settings ttlSeconds events earlier ∧
      AIOrchestrator.cacheKey settings earlier.tenantId earlier.messageId earlier.content =
          AIOrchestrator.cacheKey settings r.tenantId r.messageId r.content ∧
        found = AIOrchestrator.rawAnalysis py settings earlier.content earlier.model ∧
        r.readAt < earlier.writtenAt + 1000 * ttlSeconds := by
  obtain ⟨entry, hentry, hfresh, hloads⟩ := get_eq_some hfound
  obtain ⟨earlier, hwrote, hstorable, hkey, rfl⟩ := fromRequests_serve hevents _ entry hr.1 rfl hentry
  have hwell := wellFormed_rawAnalysis hdigits settings earlier.content hstorable.2
  rw [loads_dumps hwell] at hloads
  cases hloads
  exact ⟨earlier, hwrote, hkey, rfl, hfresh⟩

theorem cached_analyses_fresh_pricing : ∃ earlier, Wrote Python.ascii {} 3600 [.analyze pricing] earlier ∧
    AIOrchestrator.cacheKey {} earlier.tenantId earlier.messageId earlier.content =
        AIOrchestrator.cacheKey {} "tenant-1" "message-1" "Price for 50 people?" ∧
      AIOrchestrator.fallbackAnalysis Python.ascii "Price for 50 people?" =
        AIOrchestrator.rawAnalysis Python.ascii {} earlier.content earlier.model ∧
      60000 < earlier.writtenAt + 1000 * 3600 := by
  apply cached_analyses_fresh Python.ascii CompanySizes.ascii_decimalDigits {} 3600 [.analyze pricing] ?_ pricingAgain
    pricingAgain_storable _ pricing_found
  intro r hr
  obtain rfl := List.mem_singleton.mp hr
  exact pricing_storable

end Leadline
