import Leadline.Library.GuardedRun
import Leadline.Publisher

/-!
`app/workers/main.py`: one pass over the messages of a queue, and the queues as the workers see
them. A receipt handle names its message.
-/

namespace Leadline.WorkerLoop

open Library

/-- The keys of `_event_handlers`. -/
def eventHandlers : List String :=
  ["message.created", "lead.created", "lead.updated", "lead.score_updated", "sequence.trigger",
    "sequence.step.execute", "integration.lead.created", "integration.lead.updated",
    "integration.lead.score_updated", "integration.timeline.created"]

def maxRetries : ℕ := 3

/-- `queue_url.split("/")[-1]` -/
def lastSegment (queueUrl : String) : String :=
  String.ofList ((queueUrl.toList.splitOn '/').getLast?.getD [])

/-- `str(payload.get("event", ""))` -/
def eventOf (payload : Dict) : String :=
  match payload.get "event" with
  | none => ""
  | some j => j.pyStr

/-- The payload of a message: `none` where `json.loads` raises, and where its result has no `get`. -/
def payloadOf (body : Option String) : Option Dict :=
  match Json.loads (body.getD "\x7b\x7d") with
  | some (.obj payload) => some payload
  | _ => none

structure ReceivedMessage where
  receiptHandle : String
  body : Option String
  approximateReceiveCount : Option ℕ

/-- A received message and how the calls made for it would end: the handler (with the text of
the exception it raises), the `failed_jobs` write under a fresh id, and the deletion. -/
structure Attempt where
  message : ReceivedMessage
  handler : Option String
  save : CallOutcome
  delete : CallOutcome
  jobId : Id

inductive Effect
  | received (queueUrl handle : String)
  | handled (queueUrl handle : String) (returned : Bool)
  | unhandled (queueUrl handle : String)
  | stored (queueUrl handle : String) (job : FailedJob)
  | deleted (queueUrl handle : String)

def failedJob (id : Id) (queueName eventType : String) (payload : Dict) (error : String)
    (attempts : ℕ) : FailedJob where
  id := id
  queueName := queueName
  eventType := eventType
  payload := payload
  error := String.ofList (error.toList.take 4000)
  attempts := attempts
  status := .pending
  tenantId := match payload.get "tenant_id" with
    | some (.str s) => some s
    | _ => none
  replayedAt := none

abbrev Outcome := List Effect × Bool

def call (outcome : CallOutcome) (effect : Effect) : Outcome :=
  (if outcome.takesEffect then [effect] else [], outcome.raises)

def Outcome.andThen (p q : Outcome) : Outcome :=
  if p.2 then p else (p.1 ++ q.1, q.2)

variable (queueUrl : String) (handlers : List String)

/-- One turn of the loop of `poll_queue`. -/
def pollMessage (a : Attempt) : Outcome :=
  let handle := a.message.receiptHandle
  let delete := call a.delete (.deleted queueUrl handle)
  match payloadOf a.message.body with
  | none => ([], true)
  | some payload =>
    let event := eventOf payload
    let receiveCount := a.message.approximateReceiveCount.getD 1
    if event ∈ handlers then
      match a.handler with
      | none => Outcome.andThen ([.handled queueUrl handle true], false) delete
      | some error =>
        Outcome.andThen ([.handled queueUrl handle false], false) <|
          if receiveCount ≥ maxRetries then
            let job := failedJob a.jobId (lastSegment queueUrl) event payload error receiveCount
            Outcome.andThen (call a.save (.stored queueUrl handle job)) delete
          else ([], false)
    else Outcome.andThen ([.unhandled queueUrl handle], false) delete

/-- The loop of `poll_queue` over a batch; an exception skips the messages that are left. -/
def pollQueue : List Attempt → Outcome
  | [] => ([], false)
  | a :: rest => Outcome.andThen (pollMessage queueUrl handlers a) (pollQueue rest)

structure QueueMessage where
  id : String
  body : String
  receives : ℕ

/-- The physical queues, the `failed_jobs` table, everything that ever arrived and everything
the workers did, oldest first. -/
structure World where
  queues : String → List QueueMessage
  failedJobs : List FailedJob
  arrived : List (String × String × String)
  log : List Effect

def World.empty : World := ⟨fun _ => [], [], [], []⟩

structure Pick where
  id : String
  handler : Option String
  save : CallOutcome
  delete : CallOutcome
  jobId : Id

inductive Event
  | arrive (queueUrl id body : String)
  /-- A poll that receives the picked messages; a worker that dies carries out only the first
  `cut` effects of it. -/
  | poll (queueUrl : String) (picks : List Pick) (cut : Option ℕ)

namespace World

variable (w : World)

def updateQueue (queueUrl : String) (f : List QueueMessage → List QueueMessage) : World :=
  { w with queues := Function.update w.queues queueUrl (f (w.queues queueUrl)) }

def receive (queueUrl handle : String) : World :=
  w.updateQueue queueUrl (·.map fun m => if m.id = handle then { m with receives := m.receives + 1 } else m)

def apply (e : Effect) : World :=
  let w' := match e with
    | .received queueUrl handle => w.receive queueUrl handle
    | .handled _ _ _ => w
    | .unhandled _ _ => w
    | .stored _ _ job => { w with failedJobs := w.failedJobs ++ [job] }
    | .deleted queueUrl handle => w.updateQueue queueUrl (·.filter fun m => m.id ≠ handle)
  { w' with log := w.log ++ [e] }

def applyAll (es : List Effect) : World := es.foldl apply w

def attempts (queueUrl : String) (picks : List Pick) : List Attempt :=
  picks.filterMap fun p =>
    ((w.queues queueUrl).find? (fun m => m.id = p.id)).map fun m =>
      ⟨⟨m.id, some m.body, some (m.receives + 1)⟩, p.handler, p.save, p.delete, p.jobId⟩

def pollEffects (queueUrl : String) (picks : List Pick) : List Effect :=
  let batch := w.attempts queueUrl picks
  batch.map (fun a => .received queueUrl a.message.receiptHandle) ++ (pollQueue queueUrl handlers batch).1

def arrive (queueUrl id body : String) : World :=
  { w.updateQueue queueUrl (· ++ [⟨id, body, 0⟩]) with arrived := w.arrived ++ [(queueUrl, id, body)] }

def step : Event → Option World
  | .arrive queueUrl id body =>
    if ∀ a ∈ w.arrived, (a.1, a.2.1) ≠ (queueUrl, id) then some (w.arrive queueUrl id body) else none
  | .poll queueUrl picks cut =>
    if (picks.map Pick.id).Nodup then
      let effects := w.pollEffects handlers queueUrl picks
      some (w.applyAll (match cut with
        | none => effects
        | some n => effects.take n))
    else none

end World

end Leadline.WorkerLoop
