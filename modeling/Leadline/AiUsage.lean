import Leadline.Library.GuardedRun
import Leadline.UsageTotals
import Mathlib.Data.Finset.Card
import Mathlib.Data.Finset.Filter

namespace Leadline

open Library Table

namespace AiUsage

open UsageTotals

def SameCounters (u v : Usage) : Prop := u.aiTokensUsed = v.aiTokensUsed ∧ u.messagesSent = v.messagesSent

def Quiet : Write → Prop
  | .usage change => SameCounters change.added 0 ∧ (change.inserted = true → change.seen = 0)
  | _ => True

variable {db : Db} {tenantId other : Id} {w : Write}

theorem quiet_iff : Quiet w ↔ Counter.aiTokensUsed.Leaves w ∧ Counter.messagesSent.Leaves w := by
  cases w with
  | usage change =>
    constructor
    · rintro ⟨⟨htokens, hmessages⟩, hseen⟩
      exact ⟨⟨htokens, hseen⟩, hmessages, hseen⟩
    · rintro ⟨⟨htokens, hseen⟩, hmessages, -⟩
      exact ⟨⟨htokens, hmessages⟩, hseen⟩
  | _ => exact iff_of_true trivial ⟨trivial, trivial⟩

theorem usage_quiet_all {writes : List Write} (hw : ∀ w ∈ writes, Quiet w) :
    SameCounters (tenantUsage (db.writeAll writes) other) (tenantUsage db other) :=
  ⟨Counter.total_writeAll fun w hmem => (quiet_iff.mp (hw w hmem)).1,
    Counter.total_writeAll fun w hmem => (quiet_iff.mp (hw w hmem)).2⟩

theorem request_quiet (lower : String → String) (db : Db) (tenantId : Id) (inputs : Inputs) (r : Request) :
    (r.work lower db tenantId inputs).Each Quiet := by
  have htokens : (r.work lower db tenantId inputs).Each Counter.aiTokensUsed.Leaves :=
    Counter.leaves_request lower db tenantId inputs r rfl rfl
  have hmessages : (r.work lower db tenantId inputs).Each Counter.messagesSent.Leaves :=
    Counter.leaves_request lower db tenantId inputs r rfl rfl
  exact htokens.and hmessages fun _ htoken hmessage => quiet_iff.mpr ⟨htoken, hmessage⟩

theorem job_quiet (d : Deployment) (db : Db) (cache : AICache) (payload : Dict) (inputs : JobInputs) {event : JobEvent}
    (hne : event ≠ .messageCreated) : (event.handle d db cache payload inputs).1.Each Quiet := by
  refine (job_counts d db cache payload inputs hne).imp fun w hw => quiet_iff.mpr ?_
  exact ⟨Counter.leaves_delivery rfl rfl hw, Counter.leaves_delivery rfl rfl hw⟩

end AiUsage

def ModelCall.tokens : ModelCall → ℕ
  | raises => 0
  | responds _ totalTokens => totalTokens.getD 0

def ModelCall.Usable : ModelCall → Prop
  | responds (text :: _) _ =>
    match Json.loads ((configured text).getD "\x7b\x7d") with
    | some (.obj _) => True
    | _ => False
  | _ => False

namespace AiUsage

open UsageTotals

variable {db : Db} {tenantId other : Id}

def entryTokens (raw : Dict) : ℕ :=
  match raw.get "tokens_used" with
  | some (.int n) => n.toNat
  | _ => 0

def Metered (raw : Dict) : Prop := raw.get "tokens_used" = none ∨ ∃ n : ℕ, raw.get "tokens_used" = some (.int n)

theorem sanitize_metered {raw : Dict} (h : Metered raw) (py : Python) (model promptVersion : String) :
    ∃ understanding, sanitizeUnderstanding py raw model promptVersion = some understanding ∧
      MessageEvents.analysisUsage understanding = { aiTokensUsed := entryTokens raw, messagesSent := 1 } := by
  have hint : py.intOf ((raw.get "tokens_used").getD (.int 0)) = some (entryTokens raw : ℤ) := by
    unfold entryTokens
    rcases h with h | ⟨n, h⟩
    · rw [h]
      rfl
    · rw [h]
      rfl
  refine ⟨_, congrArg (Option.map _) hint, ?_⟩
  rfl

theorem fallback_metered (py : Python) (content : String) :
    (AIOrchestrator.fallbackAnalysis py content).get "tokens_used" = none := rfl

theorem openai_metered (py : Python) (content : String) (call : ModelCall) :
    Metered (AIOrchestrator.analyzeWithOpenai py content call) ∧
      (call.Usable → entryTokens (AIOrchestrator.analyzeWithOpenai py content call) = call.tokens) ∧
      (¬call.Usable → entryTokens (AIOrchestrator.analyzeWithOpenai py content call) = 0) := by
  have hfallback : Metered (AIOrchestrator.fallbackAnalysis py content) ∧
      entryTokens (AIOrchestrator.fallbackAnalysis py content) = 0 := by
    have hget := fallback_metered py content
    refine ⟨.inl hget, ?_⟩
    unfold entryTokens
    rw [hget]
  cases call with
  | raises => exact ⟨hfallback.1, fun h => False.elim h, fun _ => hfallback.2⟩
  | responds choices totalTokens =>
    cases choices with
    | nil => exact ⟨hfallback.1, fun h => False.elim h, fun _ => hfallback.2⟩
    | cons text rest =>
      cases hloads : Json.loads ((configured text).getD "\x7b\x7d") with
      | none =>
        simp only [ModelCall.Usable, AIOrchestrator.analyzeWithOpenai, hloads]
        exact ⟨hfallback.1, fun h => False.elim h, fun _ => hfallback.2⟩
      | some value =>
        cases value with
        | obj parsed =>
          have hget := Dict.get_set_self parsed "tokens_used" (.int (totalTokens.getD 0))
          simp only [ModelCall.Usable, AIOrchestrator.analyzeWithOpenai, hloads]
          refine ⟨.inr ⟨totalTokens.getD 0, hget⟩, fun _ => ?_, fun h => absurd trivial h⟩
          unfold entryTokens
          rw [hget]
          rfl
        | _ =>
          simp only [ModelCall.Usable, AIOrchestrator.analyzeWithOpenai, hloads]
          exact ⟨hfallback.1, fun h => False.elim h, fun _ => hfallback.2⟩

def CacheMetered (cache : AICache) : Prop := ∀ key raw, cache key = some raw → Metered raw

def entryOf (settings : Settings) (cache : AICache) (calls : AnalysisCalls) (found : AnalysisJob) : Option Dict :=
  AIOrchestrator.cached cache calls
    (AIOrchestrator.cacheKey settings found.tenantId found.message.id found.message.content)

def receivedTokens (settings : Settings) (cache : AICache) (calls : AnalysisCalls) (found : AnalysisJob) : ℕ :=
  match entryOf settings cache calls found with
  | some _ => 0
  | none =>
    match configured settings.openaiApiKey with
    | none => 0
    | some _ => calls.model.tokens

theorem update_metered {cache : AICache} {key : CacheKey} {raw : Dict} (h : CacheMetered cache) (hraw : Metered raw)
    (writes : Bool) : CacheMetered (if writes then Function.update cache key (some raw) else cache) := by
  cases writes with
  | false => exact h
  | true =>
    intro k r hr
    rw [if_pos rfl, Function.update_apply] at hr
    split at hr
    · rw [← Option.some.inj hr]
      exact hraw
    · exact h k r hr

theorem analysis_counts {cache : AICache} (py : Python) (settings : Settings) (calls : AnalysisCalls)
    (found : AnalysisJob) (h : CacheMetered cache) :
    ∃ raw understanding,
      (AIOrchestrator.analyzeMessage py settings cache calls found.tenantId found.message.id
          found.message.content).understanding = some understanding ∧
        CacheMetered (AIOrchestrator.analyzeMessage py settings cache calls found.tenantId found.message.id
          found.message.content).cache ∧
        MessageEvents.analysisUsage understanding = { aiTokensUsed := entryTokens raw, messagesSent := 1 } ∧
        (entryOf settings cache calls found = some raw ∨
          entryOf settings cache calls found = none ∧
            (entryTokens raw = receivedTokens settings cache calls found ↔
              calls.model.Usable ∨ receivedTokens settings cache calls found = 0)) := by
  unfold AIOrchestrator.analyzeMessage receivedTokens
  cases hentry : entryOf settings cache calls found with
  | some raw =>
    have hmetered : Metered raw := by
      unfold entryOf AIOrchestrator.cached at hentry
      split at hentry
      · exact h _ raw (Option.filter_eq_some_iff.mp hentry).1
      · cases hentry
    unfold entryOf at hentry
    simp only [hentry]
    obtain ⟨understanding, hsanitize, husage⟩ := sanitize_metered hmetered py
      (AIOrchestrator.cacheKey settings found.tenantId found.message.id found.message.content).model
      (AIOrchestrator.cacheKey settings found.tenantId found.message.id found.message.content).promptVersion
    exact ⟨raw, understanding, hsanitize, h, husage, .inl rfl⟩
  | none =>
    unfold entryOf at hentry
    simp only [hentry]
    cases configured settings.openaiApiKey with
    | none =>
      have hmetered := fallback_metered py found.message.content
      obtain ⟨understanding, hsanitize, husage⟩ := sanitize_metered (.inl hmetered) py
        (AIOrchestrator.cacheKey settings found.tenantId found.message.id found.message.content).model
        (AIOrchestrator.cacheKey settings found.tenantId found.message.id found.message.content).promptVersion
      have htokens : entryTokens (AIOrchestrator.fallbackAnalysis py found.message.content) = 0 := by
        unfold entryTokens
        rw [hmetered]
      refine ⟨_, understanding, hsanitize, update_metered h (.inl hmetered) _, husage, .inr ⟨trivial, ?_⟩⟩
      rw [htokens]
      simp
    | some key =>
      obtain ⟨hmetered, husable, hlost⟩ := openai_metered py found.message.content calls.model
      obtain ⟨understanding, hsanitize, husage⟩ := sanitize_metered hmetered py
        (AIOrchestrator.cacheKey settings found.tenantId found.message.id found.message.content).model
        (AIOrchestrator.cacheKey settings found.tenantId found.message.id found.message.content).promptVersion
      refine ⟨_, understanding, hsanitize, update_metered h hmetered _, husage, .inr ⟨trivial, ?_⟩⟩
      by_cases hu : calls.model.Usable
      · exact iff_of_true (husable hu) (.inl hu)
      · rw [hlost hu]
        exact ⟨fun h => .inr h.symm, fun h => (h.resolve_left hu).symm⟩

theorem usage_writeAll_of_routine {writes : List Write} (h : ∀ w ∈ writes, Routine w) :
    (db.writeAll writes).usage = db.usage := by
  induction writes generalizing db with
  | nil => rfl
  | cons w writes ih =>
    have hrest := @ih (db.write w) fun x hx => h x (List.mem_cons_of_mem w hx)
    rw [Db.writeAll_cons, hrest, usage_write_of_ne]
    rintro change rfl
    exact h _ List.mem_cons_self

theorem usage_storeAnalysis {sessionId eventId : Id} {message : Message} {understanding : MessageUnderstanding}
    {today : Day} :
    tenantUsage (db.writeAll
        (MessageEvents.storeAnalysis db tenantId sessionId message understanding today eventId).writes) other =
      tenantUsage db other + if other = tenantId then MessageEvents.analysisUsage understanding else 0 := by
  have hwrites : (db.writeAll
      (MessageEvents.storeAnalysis db tenantId sessionId message understanding today eventId).writes).usage =
        (db.write (.usage (UsageTrackingService.increment db tenantId today
          (MessageEvents.analysisUsage understanding)))).usage := by
    simp only [MessageEvents.storeAnalysis, Db.writeAll, List.foldl_append]
    exact usage_writeAll_of_routine scoreWrites_routine
  rw [← usage_increment db tenantId today]
  unfold tenantUsage
  rw [hwrites]

end AiUsage

end Leadline
