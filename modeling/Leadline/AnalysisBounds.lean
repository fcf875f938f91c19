import Leadline.AiUsage
import Leadline.ContactData

namespace Leadline

open Library AiUsage

structure Message.FitsColumns (m : Message) : Prop where
  intent : ∀ text, m.intent = some text → text.length ≤ 120
  sentiment : ∀ text, m.sentiment = some text → text.length ≤ 80
  urgency : ∀ text, m.urgency = some text → text.length ≤ 80

structure WellFormed (py : Python) (u : MessageUnderstanding) : Prop where
  sentiment : u.sentiment ∈ ["positive", "neutral", "negative"]
  urgency : u.urgency ∈ ["low", "medium", "high"]
  topics : ∀ topic ∈ u.topics, topic ≠ "" ∧ strip topic = topic
  intentNonempty : u.intent ≠ ""
  intentTrimmed : strip u.intent = u.intent
  intentLower : py.lower u.intent = u.intent

namespace AnalysisBounds

def intentText (py : Python) (raw : Dict) : String := py.lower (strip (rawText raw "intent" "unknown"))

variable {py : Python} {settings : Settings} {cache : AICache} {raw : Dict} {u : MessageUnderstanding}
  {model promptVersion content : String}

theorem oneOf_mem {values : List String} {default : String} (h : default ∈ values) (value : String) :
    oneOf values default value ∈ values := by
  unfold oneOf
  split
  · assumption
  · exact h

theorem strip_intentText (hlower : LowersCase py.lower) : strip (intentText py raw) = intentText py raw :=
  hlower.strip_lower _ (strip_strip _)

theorem sanitize_eq_some (h : sanitizeUnderstanding py raw model promptVersion = some u) :
    u.intent = (if intentText py raw = "" then "unknown" else intentText py raw) ∧
      u.sentiment = oneOf ["positive", "neutral", "negative"] "neutral" (py.lower (rawText raw "sentiment" "neutral")) ∧
      u.urgency = oneOf ["low", "medium", "high"] "low" (py.lower (rawText raw "urgency" "low")) ∧
      ∀ topic ∈ u.topics, topic ≠ "" ∧ ∃ item : Json, topic = strip item.pyStr := by
  obtain ⟨tokens, -, rfl⟩ := Option.map_eq_some_iff.mp h
  refine ⟨rfl, rfl, rfl, ?_⟩
  intro topic htopic
  dsimp only at htopic
  split at htopic
  · rw [List.mem_filter, List.mem_map] at htopic
    obtain ⟨⟨item, -, rfl⟩, hne⟩ := htopic
    exact ⟨of_decide_eq_true hne, item, rfl⟩
  · cases htopic

theorem sanitize_wellFormed (hlower : LowersCase py.lower) (hsmall : KeepsSmallLetters py.lower)
    (h : sanitizeUnderstanding py raw model promptVersion = some u) : WellFormed py u := by
  obtain ⟨hintent, hsentiment, hurgency, htopics⟩ := sanitize_eq_some h
  refine ⟨?_, ?_, ?_, ?_, ?_, ?_⟩
  · rw [hsentiment]
    exact oneOf_mem (by decide) _
  · rw [hurgency]
    exact oneOf_mem (by decide) _
  · intro topic htopic
    obtain ⟨hne, item, rfl⟩ := htopics topic htopic
    exact ⟨hne, strip_strip _⟩
  all_goals
    rw [hintent]
    split
  · decide
  · assumption
  · decide
  · exact strip_intentText hlower
  · exact hsmall _ (by decide)
  · exact hlower.lower_lower _

theorem sanitize_fits (h : sanitizeUnderstanding py raw model promptVersion = some u) (message : Message) :
    (MessageEvents.annotate u message).FitsColumns ↔ (intentText py raw).length ≤ 120 := by
  obtain ⟨hintent, hsentiment, hurgency, -⟩ := sanitize_eq_some h
  have hlength : u.intent.length ≤ 120 ↔ (intentText py raw).length ≤ 120 := by
    rw [hintent]
    split
    · rename_i hempty
      rw [hempty]
      decide
    · rfl
  constructor
  · exact fun hfits => hlength.mp (hfits.intent _ rfl)
  · intro hshort
    refine ⟨?_, ?_, ?_⟩
    · rintro _ ⟨⟩
      exact hlength.mpr hshort
    · have hall : ∀ s ∈ ["positive", "neutral", "negative"], s.length ≤ 80 := by decide
      rintro _ ⟨⟩
      rw [hsentiment]
      exact hall _ (oneOf_mem (by decide) _)
    · have hall : ∀ s ∈ ["low", "medium", "high"], s.length ≤ 80 := by decide
      rintro _ ⟨⟩
      rw [hurgency]
      exact hall _ (oneOf_mem (by decide) _)

theorem fallbackIntent_mem (lowered : String) :
    AIOrchestrator.fallbackIntent lowered ∈ ["pricing", "demo_request", "support", "general"] := by
  unfold AIOrchestrator.fallbackIntent
  split_ifs <;> simp

theorem fallback_short (hsmall : KeepsSmallLetters py.lower) :
    (intentText py (AIOrchestrator.fallbackAnalysis py content)).length ≤ 120 := by
  have hraw : rawText (AIOrchestrator.fallbackAnalysis py content) "intent" "unknown" =
      AIOrchestrator.fallbackIntent (py.lower content) := rfl
  have hall : ∀ s ∈ ["pricing", "demo_request", "support", "general"],
      (strip s).toList.all isSmallLetter = true ∧ (strip s).length ≤ 120 := by
    decide
  obtain ⟨hletters, hshort⟩ := hall _ (fallbackIntent_mem (py.lower content))
  rw [intentText, hraw, hsmall _ hletters]
  exact hshort

end AnalysisBounds

def ModelCall.object : ModelCall → Option Dict
  | responds (text :: _) _ =>
    match Json.loads ((configured text).getD "\x7b\x7d") with
    | some (.obj parsed) => some parsed
    | _ => none
  | _ => none

namespace AnalysisBounds

variable {py : Python} {cache : AICache} {raw : Dict}

theorem openai_cases (py : Python) (content : String) (call : ModelCall) :
    (call.object = none ∧
        AIOrchestrator.analyzeWithOpenai py content call = AIOrchestrator.fallbackAnalysis py content) ∨
      ∃ parsed tokens, call.object = some parsed ∧
        AIOrchestrator.analyzeWithOpenai py content call = Dict.set parsed "tokens_used" tokens := by
  cases call with
  | raises => exact .inl ⟨rfl, rfl⟩
  | responds choices totalTokens =>
    cases choices with
    | nil => exact .inl ⟨rfl, rfl⟩
    | cons text rest =>
      cases hloads : Json.loads ((configured text).getD "\x7b\x7d") with
      | none =>
        simp only [ModelCall.object, AIOrchestrator.analyzeWithOpenai, hloads]
        exact .inl ⟨trivial, trivial⟩
      | some value =>
        cases value with
        | obj parsed =>
          simp only [ModelCall.object, AIOrchestrator.analyzeWithOpenai, hloads]
          exact .inr ⟨parsed, .int (totalTokens.getD 0), rfl, rfl⟩
        | _ =>
          simp only [ModelCall.object, AIOrchestrator.analyzeWithOpenai, hloads]
          exact .inl ⟨trivial, trivial⟩

theorem intentText_set (parsed : Dict) (tokens : Json) :
    intentText py (Dict.set parsed "tokens_used" tokens) = intentText py parsed := by
  have hget : (Dict.set parsed "tokens_used" tokens).get "intent" = parsed.get "intent" :=
    Dict.get_set_of_ne parsed tokens (by decide)
  rw [intentText, intentText, rawText, rawText, hget]

inductive Written (py : Python) : AICache → Prop
  | empty : Written py fun _ => none
  | analyzed (settings : Settings) {cache : AICache} (calls : AnalysisCalls) (tenantId messageId : Id)
      (content : String) : Written py cache →
        Written py (AIOrchestrator.analyzeMessage py settings cache calls tenantId messageId content).cache
  | expired {cache : AICache} (key : CacheKey) : Written py cache → Written py (Function.update cache key none)

theorem Written.metered (h : Written py cache) : CacheMetered cache := by
  induction h with
  | empty => exact fun _ _ h => nomatch h
  | analyzed settings calls tenantId messageId content _ ih =>
    unfold AIOrchestrator.analyzeMessage
    dsimp only
    split
    · exact ih
    · split
      · exact update_metered ih (openai_metered py content calls.model).1 _
      · exact update_metered ih (.inl (fallback_metered py content)) _
  | expired key _ ih =>
    intro k raw hraw
    rw [Function.update_apply] at hraw
    split at hraw
    · cases hraw
    · exact ih k raw hraw

def received (settings : Settings) (cache : AICache) (calls : AnalysisCalls) (tenantId messageId : Id)
    (content : String) : Option Dict :=
  match AIOrchestrator.cached cache calls (AIOrchestrator.cacheKey settings tenantId messageId content) with
  | some raw => some raw
  | none => (configured settings.openaiApiKey).bind fun _ => calls.model.object

theorem cached_eq_some {calls : AnalysisCalls} {key : CacheKey} (h : AIOrchestrator.cached cache calls key = some raw) :
    cache key = some raw := by
  unfold AIOrchestrator.cached at h
  split at h
  · exact (Option.filter_eq_some_iff.mp h).1
  · cases h

theorem analyze_cases (settings : Settings) (hsmall : KeepsSmallLetters py.lower) (hcache : CacheMetered cache)
    (calls : AnalysisCalls) (tenantId messageId : Id) (content : String) :
    ∃ raw model promptVersion, Metered raw ∧
      (AIOrchestrator.analyzeMessage py settings cache calls tenantId messageId content).understanding =
        sanitizeUnderstanding py raw model promptVersion ∧
      ((intentText py raw).length ≤ 120 ↔ ∀ r, received settings cache calls tenantId messageId content = some r →
        (intentText py r).length ≤ 120) := by
  unfold AIOrchestrator.analyzeMessage received
  cases hcached : AIOrchestrator.cached cache calls
      (AIOrchestrator.cacheKey settings tenantId messageId content) with
  | some raw =>
    simp only [hcached]
    exact ⟨raw, _, _, hcache _ _ (cached_eq_some hcached), rfl, by simp⟩
  | none =>
    simp only [hcached]
    have hfallback : (intentText py (AIOrchestrator.fallbackAnalysis py content)).length ≤ 120 := fallback_short hsmall
    cases configured settings.openaiApiKey with
    | none => exact ⟨_, _, _, .inl (fallback_metered py content), rfl, by simp [hfallback]⟩
    | some key =>
      refine ⟨_, _, _, (openai_metered py content calls.model).1, rfl, ?_⟩
      rw [Option.bind_some]
      rcases openai_cases py content calls.model with ⟨hnone, hraw⟩ | ⟨parsed, tokens, hobject, hraw⟩
      · rw [hraw, hnone]
        simp [hfallback]
      · rw [hraw, hobject, intentText_set]
        simp

end AnalysisBounds

open AnalysisBounds

theorem analysis_fits_iff (py : Python) (hlower : LowersCase py.lower) (hsmall : KeepsSmallLetters py.lower)
    (settings : Settings) (cache : AICache) (hcache : Written py cache) (calls : AnalysisCalls) (tenantId : Id)
    (message : Message) :
    ∃ u, (AIOrchestrator.analyzeMessage py settings cache calls tenantId message.id message.content).understanding =
        some u ∧
      WellFormed py u ∧
      ((MessageEvents.annotate u message).FitsColumns ↔
        ∀ raw, received settings cache calls tenantId message.id message.content = some raw →
          (intentText py raw).length ≤ 120) := by
  obtain ⟨raw, model, promptVersion, hmetered, hanalysis, hshort⟩ :=
    analyze_cases settings hsmall hcache.metered calls tenantId message.id message.content
  obtain ⟨u, hsanitize, -⟩ := sanitize_metered hmetered py model promptVersion
  exact ⟨u, hanalysis.trans hsanitize, sanitize_wellFormed hlower hsmall hsanitize,
    (sanitize_fits hsanitize message).trans hshort⟩

namespace AnalysisBounds

def hello : Message := MessageRepository.create "message-1" "tenant-1" "session-1"
  { senderType := "visitor", content := "hello" }

def connected : Settings := { openaiApiKey := some "key" }

def responding (text : String) : AnalysisCalls := { model := .responds [some text] none }

def intentOf (letters : ℕ) : String :=
  String.ofList ("\x7b\"intent\": \"".toList ++ List.replicate letters 'a' ++ "\"\x7d".toList)

end AnalysisBounds

theorem analysis_fits_iff_demo :
    ∃ u, (AIOrchestrator.analyzeMessage Python.ascii connected (fun _ => none)
        (responding "\x7b\"intent\": \" Demo\", \"topics\": [\" \", 3]\x7d") "tenant-1" hello.id
        hello.content).understanding = some u ∧
      WellFormed Python.ascii u ∧ (MessageEvents.annotate u hello).FitsColumns := by
  obtain ⟨u, hu, hwellFormed, hfits⟩ := analysis_fits_iff Python.ascii asciiLower_lowersCase asciiLower_keepsSmallLetters
    connected _ .empty (responding "\x7b\"intent\": \" Demo\", \"topics\": [\" \", 3]\x7d") "tenant-1" hello
  refine ⟨u, hu, hwellFormed, hfits.mpr ?_⟩
  decide +kernel

theorem analysis_overflows :
    ∃ u, (AIOrchestrator.analyzeMessage Python.ascii connected (fun _ => none) (responding (intentOf 121)) "tenant-1"
        hello.id hello.content).understanding = some u ∧ u.intent.length = 121 ∧
      ¬(MessageEvents.annotate u hello).FitsColumns := by
  have hlong : ((AIOrchestrator.analyzeMessage Python.ascii connected (fun _ => none) (responding (intentOf 121))
      "tenant-1" hello.id hello.content).understanding).any (fun u => u.intent.length = 121) = true := by
    decide +kernel
  obtain ⟨u, hu, hlength⟩ := (Option.any_eq_true _ _).mp hlong
  refine ⟨u, hu, of_decide_eq_true hlength, fun hfits => ?_⟩
  have hshort := hfits.intent u.intent rfl
  rw [of_decide_eq_true hlength] at hshort
  omega

end Leadline
