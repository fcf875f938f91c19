import Leadline.DeadLetterCycle

namespace Leadline.WorkerLoop

open Library

/-- `queue_urls` -/
def queueUrls (settings : Settings) : List String := LogicalQueue.all.filterMap fun q => configured (q.url settings)

/-- One pass of the loop over `queue_urls`, with what each poll receives; an exception ends its poll only. -/
def pollAll (handlers : List String) (w : World) (polls : List (String × List Pick)) : World :=
  polls.foldl (fun w poll => w.applyAll (w.pollEffects handlers poll.1 poll.2)) w

namespace WorkerQueues

def effectQueue : Effect → String
  | .received queueUrl _ => queueUrl
  | .handled queueUrl _ _ => queueUrl
  | .unhandled queueUrl _ => queueUrl
  | .stored queueUrl _ _ => queueUrl
  | .deleted queueUrl _ => queueUrl

def eventQueue : Event → String
  | .arrive queueUrl _ _ => queueUrl
  | .poll queueUrl _ _ => queueUrl

variable {handlers : List String} {u v : String} {w w' : World} {es : List Effect} {e : Effect} {picks : List Pick}

theorem pollEffects_queue (h : e ∈ w.pollEffects handlers u picks) : effectQueue e = u := by
  rcases List.mem_append.mp h with hreceived | hpolled
  · obtain ⟨a, -, rfl⟩ := List.mem_map.mp hreceived
    rfl
  · obtain ⟨a, -, ha⟩ := mem_pollQueue hpolled
    obtain ⟨payload, -, hcase⟩ := mem_pollMessage ha
    rcases hcase with ⟨-, rfl⟩ | ⟨-, r, rfl⟩ | ⟨-, error, attempts, rfl⟩ | rfl <;> rfl

theorem pollEffects_congr (h : w.queues u = w'.queues u) (picks : List Pick) :
    w.pollEffects handlers u picks = w'.pollEffects handlers u picks := by
  unfold World.pollEffects World.attempts
  rw [h]

theorem apply_queues (h : effectQueue e ≠ u) : (w.apply e).queues u = w.queues u := by
  cases e with
  | received v handle => exact Function.update_of_ne (Ne.symm h) _ _
  | deleted v handle => exact Function.update_of_ne (Ne.symm h) _ _
  | handled v handle returned => rfl
  | unhandled v handle => rfl
  | stored v handle job => rfl

theorem applyAll_queues (h : ∀ e ∈ es, effectQueue e ≠ u) : (w.applyAll es).queues u = w.queues u := by
  induction es generalizing w with
  | nil => rfl
  | cons e es ih =>
    change ((w.apply e).applyAll es).queues u = _
    rw [ih fun f hf => h f (List.mem_cons_of_mem e hf), apply_queues (h e List.mem_cons_self)]

theorem apply_congr (h : w.queues u = w'.queues u) (he : effectQueue e = u) :
    (w.apply e).queues u = (w'.apply e).queues u := by
  subst he
  cases e with
  | received v handle =>
    change Function.update w.queues v _ v = Function.update w'.queues v _ v
    rw [Function.update_self, Function.update_self]
    exact congrArg (List.map _) h
  | deleted v handle =>
    change Function.update w.queues v _ v = Function.update w'.queues v _ v
    rw [Function.update_self, Function.update_self]
    exact congrArg (List.filter _) h
  | handled v handle returned => exact h
  | unhandled v handle => exact h
  | stored v handle job => exact h

theorem applyAll_congr (h : w.queues u = w'.queues u) (hes : ∀ e ∈ es, effectQueue e = u) :
    (w.applyAll es).queues u = (w'.applyAll es).queues u := by
  induction es generalizing w w' with
  | nil => exact h
  | cons e es ih =>
    change ((w.apply e).applyAll es).queues u = ((w'.apply e).applyAll es).queues u
    exact ih (apply_congr h (hes e List.mem_cons_self)) fun f hf => hes f (List.mem_cons_of_mem e hf)

structure Restricted (u : String) (w w' : World) : Prop where
  queue : w'.queues u = w.queues u
  arrived : w'.arrived = w.arrived.filter fun a => a.1 = u
  log : w'.log = w.log.filter fun e => effectQueue e = u
  rows : w'.failedJobs = w'.log.filterMap DeadLetterCycle.storedJob

theorem Restricted.skip (h : Restricted u w w') (hes : ∀ e ∈ es, effectQueue e ≠ u) :
    Restricted u (w.applyAll es) w' where
  queue := by rw [applyAll_queues hes, h.queue]
  arrived := by rw [DeadLetterCycle.applyAll_arrived, h.arrived]
  log := by
    have hnone : es.filter (fun e => effectQueue e = u) = [] := by
      rw [List.filter_eq_nil_iff]
      intro e he
      simpa using hes e he
    rw [World.applyAll_log, List.filter_append, hnone, List.append_nil, h.log]
  rows := h.rows

theorem Restricted.applyAll (h : Restricted u w w') (hes : ∀ e ∈ es, effectQueue e = u) :
    Restricted u (w.applyAll es) (w'.applyAll es) where
  queue := applyAll_congr h.queue hes
  arrived := by rw [DeadLetterCycle.applyAll_arrived, DeadLetterCycle.applyAll_arrived, h.arrived]
  log := by
    have hall : es.filter (fun e => effectQueue e = u) = es := by
      rw [List.filter_eq_self]
      intro e he
      exact decide_eq_true (hes e he)
    rw [World.applyAll_log, World.applyAll_log, List.filter_append, hall, h.log]
  rows := by
    rw [DeadLetterCycle.applyAll_failedJobs, World.applyAll_log, List.filterMap_append, h.rows]

theorem Restricted.arrive {id body : String} (h : Restricted u w w') :
    Restricted u (w.arrive u id body) (w'.arrive u id body) where
  queue := by
    change Function.update w'.queues u _ u = Function.update w.queues u _ u
    rw [Function.update_self, Function.update_self, h.queue]
  arrived := by
    change w'.arrived ++ _ = (w.arrived ++ _).filter _
    rw [List.filter_append, h.arrived]
    simp
  log := h.log
  rows := h.rows

theorem Restricted.arrive_other {id body : String} (h : Restricted u w w') (hne : v ≠ u) :
    Restricted u (w.arrive v id body) w' where
  queue := by
    rw [h.queue]
    exact (Function.update_of_ne (Ne.symm hne) _ _).symm
  arrived := by
    change w'.arrived = (w.arrived ++ _).filter _
    rw [List.filter_append, h.arrived]
    simp [hne]
  log := h.log
  rows := h.rows

theorem Restricted.step {event : Event} {w₂ : World} (h : Restricted u w w')
    (hstep : w.step handlers event = some w₂) (hevent : eventQueue event = u) :
    ∃ w₂', w'.step handlers event = some w₂' ∧ Restricted u w₂ w₂' := by
  subst hevent
  cases event with
  | arrive v id body =>
    simp only [World.step] at hstep ⊢
    split at hstep
    · rename_i hfresh
      cases hstep
      refine ⟨w'.arrive v id body, if_pos ?_, h.arrive⟩
      intro a ha
      rw [h.arrived] at ha
      exact hfresh a (List.mem_filter.mp ha).1
    · cases hstep
  | poll v picks cut =>
    simp only [World.step] at hstep ⊢
    split at hstep
    · rename_i hnodup
      cases hstep
      have hqueue : w'.queues v = w.queues v := h.queue
      refine ⟨_, if_pos hnodup, ?_⟩
      rw [pollEffects_congr hqueue]
      apply h.applyAll
      intro e he
      cases cut with
      | none => exact pollEffects_queue he
      | some n => exact pollEffects_queue (List.mem_of_mem_take he)
    · cases hstep

theorem Restricted.step_other {event : Event} {w₂ : World} (h : Restricted u w w')
    (hstep : w.step handlers event = some w₂) (hevent : eventQueue event ≠ u) : Restricted u w₂ w' := by
  cases event with
  | arrive v id body =>
    simp only [World.step] at hstep
    split at hstep
    · cases hstep
      exact h.arrive_other hevent
    · cases hstep
  | poll v picks cut =>
    simp only [World.step] at hstep
    split at hstep
    · cases hstep
      apply h.skip
      intro e he
      have hqueue : effectQueue e = v := by
        cases cut with
        | none => exact pollEffects_queue he
        | some n => exact pollEffects_queue (List.mem_of_mem_take he)
      rw [hqueue]
      exact hevent
    · cases hstep

theorem Restricted.run {events : List Event} {w₂ : World} (h : Restricted u w w')
    (hrun : Run (Enabled (World.step handlers)) w events w₂) :
    ∃ w₂', Run (Enabled (World.step handlers)) w' (events.filter fun event => eventQueue event = u) w₂' ∧
      Restricted u w₂ w₂' := by
  induction hrun generalizing w' with
  | nil w => exact ⟨w', .nil w', h⟩
  | @cons s t last event events _ hstep _ ih =>
    by_cases hevent : eventQueue event = u
    · obtain ⟨t', hstep', hnext⟩ := h.step hstep hevent
      obtain ⟨last', hrest, hlast⟩ := ih hnext
      refine ⟨last', ?_, hlast⟩
      rw [List.filter_cons_of_pos (by simpa using hevent)]
      exact .cons trivial hstep' hrest
    · obtain ⟨last', hrest, hlast⟩ := ih (h.step_other hstep hevent)
      refine ⟨last', ?_, hlast⟩
      rwa [List.filter_cons_of_neg (by simpa using hevent)]

theorem pollAll_log {polls : List (String × List Pick)} (hurls : (polls.map Prod.fst).Nodup) (w : World) :
    (pollAll handlers w polls).log = w.log ++ polls.flatMap fun poll => w.pollEffects handlers poll.1 poll.2 := by
  induction polls generalizing w with
  | nil => exact (List.append_nil _).symm
  | cons poll polls ih =>
    obtain ⟨hnew, hrest⟩ := List.nodup_cons.mp hurls
    have hsame : ∀ other ∈ polls,
        (w.applyAll (w.pollEffects handlers poll.1 poll.2)).pollEffects handlers other.1 other.2 =
          w.pollEffects handlers other.1 other.2 := by
      intro other hother
      apply pollEffects_congr
      apply applyAll_queues
      intro e he
      rw [pollEffects_queue he]
      intro heq
      rw [heq] at hnew
      exact hnew (List.mem_map_of_mem hother)
    change (pollAll handlers (w.applyAll (w.pollEffects handlers poll.1 poll.2)) polls).log = _
    rw [ih hrest, World.applyAll_log, List.flatMap_cons, List.append_assoc]
    congr 2
    exact List.flatMap_congr hsame

end WorkerQueues

open WorkerQueues

theorem queues_are_independent (handlers : List String) (events : List Event) (w : World)
    (hrun : Run (Enabled (World.step handlers)) World.empty events w) :
    (∀ u, ∃ w', Run (Enabled (World.step handlers)) World.empty
        (events.filter fun event => eventQueue event = u) w' ∧ Restricted u w w') ∧
      ∀ settings polls, polls.map Prod.fst = queueUrls settings → (queueUrls settings).Nodup →
        (pollAll handlers w polls).log = w.log ++ polls.flatMap fun poll => w.pollEffects handlers poll.1 poll.2 := by
  constructor
  · intro u
    have hempty : Restricted u World.empty World.empty := ⟨rfl, rfl, rfl, rfl⟩
    exact hempty.run hrun
  · intro settings polls hpolls hurls
    apply pollAll_log
    rwa [hpolls]

namespace WorkerQueues

def unreadableThenRouting : List Event :=
  [.arrive "https://sqs/ai_jobs" "m-1" "lead", .arrive "https://sqs/routing_jobs" "m-2" failingBody,
    .poll "https://sqs/ai_jobs" [⟨"m-1", none, .returns, .returns, "job-1"⟩] none,
    .poll "https://sqs/routing_jobs" [⟨"m-2", none, .returns, .returns, "job-2"⟩] none]

end WorkerQueues

theorem queues_are_independent_routing : ∃ w w',
    runSteps (World.step eventHandlers) World.empty unreadableThenRouting = some w ∧
      Run (Enabled (World.step eventHandlers)) World.empty
        [.arrive "https://sqs/routing_jobs" "m-2" failingBody,
          .poll "https://sqs/routing_jobs" [⟨"m-2", none, .returns, .returns, "job-2"⟩] none] w' ∧
      Restricted "https://sqs/routing_jobs" w w' := by
  have hreached : (runSteps (World.step eventHandlers) World.empty unreadableThenRouting).isSome = true := by
    decide +kernel
  obtain ⟨w, hw⟩ := Option.isSome_iff_exists.mp hreached
  obtain ⟨w', hrun, hrestricted⟩ :=
    (queues_are_independent eventHandlers unreadableThenRouting w (run_of_runSteps hw)).1 "https://sqs/routing_jobs"
  exact ⟨w, w', hw, hrun, hrestricted⟩

end Leadline.WorkerLoop
