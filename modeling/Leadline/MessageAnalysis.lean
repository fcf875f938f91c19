import Leadline.Library.Python
import Leadline.LeadService
import Mathlib.Logic.Function.Basic

namespace Leadline

open Library

structure MessageUnderstanding where
  intent : String
  entities : Dict
  sentiment : String
  urgency : String
  topics : List String
  model : String
  promptVersion : String
  tokensUsed : ℤ := 0

/-- `str(raw.get(key, default))` -/
def rawText (raw : Dict) (key default : String) : String := (raw.get key).elim default Json.pyStr

def oneOf (values : List String) (default value : String) : String := if value ∈ values then value else default

/-- `none` where `int` raises. -/
def sanitizeUnderstanding (py : Python) (raw : Dict) (model promptVersion : String) :
    Option MessageUnderstanding :=
  let sentiment := py.lower (rawText raw "sentiment" "neutral")
  let urgency := py.lower (rawText raw "urgency" "low")
  let topics :=
    match raw.get "topics" with
    | some (.arr items) => (items.map fun item => strip item.pyStr).filter (· ≠ "")
    | _ => []
  let entities :=
    match raw.get "entities" with
    | some (.obj entities) => entities
    | _ => []
  let intent := py.lower (strip (rawText raw "intent" "unknown"))
  (py.intOf ((raw.get "tokens_used").getD (.int 0))).map fun tokensUsed =>
    { intent := if intent = "" then "unknown" else intent
      entities := entities
      sentiment := oneOf ["positive", "neutral", "negative"] "neutral" sentiment
      urgency := oneOf ["low", "medium", "high"] "low" urgency
      topics := topics
      model := model
      promptVersion := promptVersion
      tokensUsed := tokensUsed }

namespace AIOrchestrator

variable (py : Python)

def mentions (lowered : String) (tokens : List String) : Bool :=
  tokens.any fun token => token.toList <:+: lowered.toList

def fallbackIntent (lowered : String) : String :=
  if mentions lowered ["price", "pricing", "cost"] then "pricing"
  else if mentions lowered ["demo", "book call", "meeting"] then "demo_request"
  else if mentions lowered ["help", "issue", "problem", "support"] then "support"
  else "general"

def fallbackUrgency (lowered : String) : String :=
  if mentions lowered ["today", "urgent", "asap", "this week"] then "high"
  else if mentions lowered ["soon", "this month", "next week"] then "medium"
  else "low"

def fallbackSentiment (lowered : String) : String :=
  if mentions lowered ["great", "love", "excellent", "interested"] then "positive"
  else if mentions lowered ["bad", "frustrated", "angry", "terrible"] then "negative"
  else "neutral"

def search {α : Type} (matchAt : List Char → Option α) : List Char → Option α
  | [] => matchAt []
  | c :: cs => (matchAt (c :: cs)).orElse fun _ => search matchAt cs

def isDigit (c : Char) : Bool := (py.digit c).isSome

def digitsValue (ds : List Char) : ℕ := ds.foldl (fun n d => n * 10 + (py.digit d).getD 0) 0

def sizeWords : List String := ["person", "people", "employees", "seats", "users"]

/-- `(\d{1,4})\s*(person|people|employees|seats|users)`: fewer digits or blanks never match more. -/
def sizeAt (cs : List Char) : Option ℕ :=
  let ds := (cs.takeWhile (isDigit py)).take 4
  let rest := (cs.drop ds.length).dropWhile isSpace
  if ds ≠ [] ∧ sizeWords.any (fun word => word.toList.isPrefixOf rest) then some (digitsValue py ds) else none

/-- `\$\s*(\d+[\d,]*)`, without the commas. -/
def moneyAt (cs : List Char) : Option String :=
  let rest := cs.tail.dropWhile isSpace
  if cs.head? = some '$' ∧ rest.head?.any (isDigit py) then
    some (String.ofList ((rest.takeWhile fun c => isDigit py c || c = ',').filter (· ≠ ',')))
  else none

def fallbackEntities (lowered : String) : Dict :=
  ((search (sizeAt py) lowered.toList).elim [] fun size => [("company_size", .int size)]) ++
    (search (moneyAt py) lowered.toList).elim [] fun budget => [("budget", .str budget)]

def fallbackTopics (lowered : String) : List String :=
  let intent := fallbackIntent lowered
  (if intent ≠ "general" then [intent] else []) ++
    (if mentions lowered ["integration"] then ["integration"] else []) ++
    if mentions lowered ["team"] then ["team"] else []

def fallbackAnalysis (content : String) : Dict :=
  let lowered := py.lower content
  [("intent", .str (fallbackIntent lowered)), ("entities", .obj (fallbackEntities py lowered)),
    ("sentiment", .str (fallbackSentiment lowered)), ("urgency", .str (fallbackUrgency lowered)),
    ("topics", .arr ((fallbackTopics lowered).map .str))]

end AIOrchestrator

/-- How a call of the model ends: with an exception, or the contents of its choices and its usage. -/
inductive ModelCall
  | raises
  | responds (choices : List (Option String)) (totalTokens : Option ℕ)

structure CacheKey where
  tenantId : Id
  messageId : Id
  promptVersion : String
  model : String
  deriving DecidableEq

/-- What `json.loads` gives back of what `json.dumps` wrote. -/
abbrev AICache := CacheKey → Option Dict

/-- Whether the cache can be read, with an entry that has not expired, and written. -/
structure AnalysisCalls where
  cacheReads : Bool := true
  cacheWrites : Bool := true
  model : ModelCall := .raises

structure Analysis where
  understanding : Option MessageUnderstanding
  cache : AICache

namespace AIOrchestrator

variable (py : Python) (settings : Settings)

def selectModel (content : String) : String :=
  if content.length > 350 then settings.openaiModelFull else settings.openaiModelMini

def cacheKey (tenantId messageId : Id) (content : String) : CacheKey where
  tenantId := tenantId
  messageId := messageId
  promptVersion := settings.aiPromptVersion
  model := selectModel settings content

def analyzeWithOpenai (content : String) : ModelCall → Dict
  | .raises => fallbackAnalysis py content
  | .responds [] _ => fallbackAnalysis py content
  | .responds (text :: _) totalTokens =>
    match Json.loads ((configured text).getD "\x7b\x7d") with
    | some (.obj parsed) => Dict.set parsed "tokens_used" (.int (totalTokens.getD 0))
    | _ => fallbackAnalysis py content

def cached (cache : AICache) (calls : AnalysisCalls) (key : CacheKey) : Option Dict :=
  if calls.cacheReads then (cache key).filter fun raw => !raw.isEmpty else none

def analyzeMessage (cache : AICache) (calls : AnalysisCalls) (tenantId messageId : Id) (content : String) :
    Analysis :=
  let key := cacheKey settings tenantId messageId content
  let sanitize raw := sanitizeUnderstanding py raw key.model key.promptVersion
  match cached cache calls key with
  | some raw => ⟨sanitize raw, cache⟩
  | none =>
    let raw :=
      match configured settings.openaiApiKey with
      | some _ => analyzeWithOpenai py content calls.model
      | none => fallbackAnalysis py content
    ⟨sanitize raw, if calls.cacheWrites then Function.update cache key (some raw) else cache⟩

end AIOrchestrator

structure LeadScoreResult where
  fitScore : ℤ
  engagementScore : ℤ
  leadScore : ℤ

def bound (value : ℤ) : ℤ := max 0 (min 100 value)

def companyFit (entities : Dict) : ℤ :=
  match PlanLimitService.intValue (entities.get "company_size") with
  | none => 0
  | some size => if size ≥ 200 then 25 else if size ≥ 50 then 20 else if size ≥ 10 then 10 else 0

def intentScore (intent : String) : ℤ :=
  if intent ∈ ["demo_request", "pricing"] then 80
  else if intent ∈ ["comparison", "evaluation"] then 70
  else if intent = "support" then 25
  else 20

def urgencyEngagement (urgency : String) : ℤ := if urgency = "high" then 20 else if urgency = "medium" then 10 else 0

def sentimentEngagement (sentiment : String) : ℤ :=
  if sentiment = "positive" then 8 else if sentiment = "negative" then -5 else 0

/-- The weights 0.4, 0.3 and 0.3 in tenths: on the values that occur the sum of doubles has the same
integer part. -/
def computeInitialScores (understanding : MessageUnderstanding) (messageCount : ℤ) : LeadScoreResult :=
  let fitScore := bound (40 + companyFit understanding.entities)
  let engagementScore := bound (25 + min 35 (messageCount * 7) + urgencyEngagement understanding.urgency +
    sentimentEngagement understanding.sentiment)
  let weighted := (4 * fitScore + 3 * engagementScore + 3 * intentScore understanding.intent) / 10
  ⟨fitScore, engagementScore, bound weighted⟩

end Leadline
