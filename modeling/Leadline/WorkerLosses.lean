import Leadline.WorkerLoop

namespace Leadline.WorkerLoop

open Library

variable {handlers : List String} {u id : String} {es fs : List Effect}

def Settles (u id : String) : Effect → Prop
  | .handled u' id' returned => u' = u ∧ id' = id ∧ returned = true
  | .unhandled u' id' => u' = u ∧ id' = id
  | .stored u' id' _ => u' = u ∧ id' = id
  | .received _ _ => False
  | .deleted _ _ => False

def Justified (es : List Effect) : Prop :=
  ∀ pre u id post, es = pre ++ .deleted u id :: post → ∃ e ∈ pre, Settles u id e

theorem justified_of_no_deletion (h : ∀ u id, .deleted u id ∉ es) : Justified es := by
  rintro pre u id post rfl
  exact absurd (List.mem_append_right pre List.mem_cons_self) (h u id)

theorem Justified.append (he : Justified es) (hf : Justified fs) : Justified (es ++ fs) := by
  intro pre u id post h
  rcases List.append_eq_append_iff.mp h with ⟨as, rfl, hfs⟩ | ⟨as, rfl, hds⟩
  · obtain ⟨e, hm, hs⟩ := hf as u id post hfs
    exact ⟨e, List.mem_append_right _ hm, hs⟩
  · cases as with
    | nil =>
      obtain ⟨e, hm, hs⟩ := hf [] u id post (by simpa using hds.symm)
      exact absurd hm List.not_mem_nil
    | cons d as =>
      obtain ⟨rfl, -⟩ := List.cons.inj hds
      exact he pre u id as rfl

theorem Justified.of_prefix (h : Justified (es ++ fs)) : Justified es := by
  rintro pre u id post rfl
  exact h pre u id (post ++ fs) (by simp)

theorem Justified.delete (h : Justified es) (hs : ∃ e ∈ es, Settles u id e) (outcome : CallOutcome) :
    Justified (es ++ (call outcome (.deleted u id)).1) := by
  intro pre v j post heq
  by_cases ht : outcome.takesEffect
  · simp only [call, ht, ↓reduceIte] at heq
    rcases List.append_eq_append_iff.mp heq with ⟨as, rfl, hds⟩ | ⟨as, rfl, hds⟩
    · cases as with
      | nil =>
        obtain ⟨hd, -⟩ := List.cons.inj hds
        cases hd
        simpa using hs
      | cons a as => simp at hds
    · cases as with
      | nil =>
        obtain ⟨hd, -⟩ := List.cons.inj hds
        cases hd
        simpa using hs
      | cons a as =>
        obtain ⟨rfl, -⟩ := List.cons.inj hds
        exact h pre v j as rfl
  · simp only [call, ht, Bool.false_eq_true, ↓reduceIte, List.append_nil] at heq
    exact h pre v j post heq

theorem andThen_effects (p q : Outcome) :
    (p.andThen q).1 = p.1 ∨ (p.andThen q).1 = p.1 ++ q.1 := by
  unfold Outcome.andThen
  split <;> simp

theorem pollMessage_justified (a : Attempt) : Justified (pollMessage u handlers a).1 := by
  unfold pollMessage
  cases payloadOf a.message.body with
  | none => exact justified_of_no_deletion (by simp)
  | some payload =>
    dsimp only
    split
    · cases a.handler with
      | none =>
        refine Justified.delete (justified_of_no_deletion (by simp)) ?_ _
        exact ⟨_, List.mem_singleton_self _, rfl, rfl, rfl⟩
      | some error =>
        dsimp only
        split
        · -- the deletion runs only after the row was written
          simp only [Outcome.andThen, call]
          cases a.save
          case returns =>
            have hj : ∀ job, Justified [.handled u a.message.receiptHandle false,
                .stored u a.message.receiptHandle job] :=
              fun job => justified_of_no_deletion (by simp)
            apply (hj _).delete _ a.delete
            exact ⟨_, List.mem_cons_of_mem _ (List.mem_singleton_self _), rfl, rfl⟩
          all_goals
            exact justified_of_no_deletion
              (by simp [CallOutcome.takesEffect, CallOutcome.raises])
        · exact justified_of_no_deletion (by simp [Outcome.andThen])
    · refine Justified.delete (justified_of_no_deletion (by simp)) ?_ _
      exact ⟨_, List.mem_singleton_self _, rfl, rfl⟩

theorem pollQueue_justified (batch : List Attempt) : Justified (pollQueue u handlers batch).1 := by
  induction batch with
  | nil => exact justified_of_no_deletion (by simp [pollQueue])
  | cons a rest ih =>
    rw [pollQueue]
    rcases andThen_effects (pollMessage u handlers a) (pollQueue u handlers rest) with h | h <;> rw [h]
    · exact pollMessage_justified a
    · exact (pollMessage_justified a).append ih

def Carries (u : String) (payload : Dict) (job : FailedJob) : Prop :=
  job.queueName = lastSegment u ∧ job.eventType = eventOf payload ∧ job.payload = payload

def Backed (handlers : List String) (known : String → String → String → Prop) : Effect → Prop
  | .unhandled u id => ∃ body, known u id body ∧
      ∀ payload, payloadOf (some body) = some payload → eventOf payload ∉ handlers
  | .stored u id job => ∃ body payload, known u id body ∧ payloadOf (some body) = some payload ∧
      eventOf payload ∈ handlers ∧ Carries u payload job
  | .handled u id _ => ∃ body payload, known u id body ∧ payloadOf (some body) = some payload ∧
      eventOf payload ∈ handlers
  | .received u id => ∃ body, known u id body
  | .deleted u id => ∃ body, known u id body

theorem Backed.mono {known known' : String → String → String → Prop}
    (hsub : ∀ u id body, known u id body → known' u id body) {e : Effect}
    (h : Backed handlers known e) : Backed handlers known' e := by
  cases e with
  | unhandled u id => obtain ⟨body, hk, hp⟩ := h; exact ⟨body, hsub _ _ _ hk, hp⟩
  | stored u id job => obtain ⟨body, payload, hk, hp⟩ := h; exact ⟨body, payload, hsub _ _ _ hk, hp⟩
  | handled u id r => obtain ⟨body, payload, hk, hp⟩ := h; exact ⟨body, payload, hsub _ _ _ hk, hp⟩
  | received u id => obtain ⟨body, hk⟩ := h; exact ⟨body, hsub _ _ _ hk⟩
  | deleted u id => obtain ⟨body, hk⟩ := h; exact ⟨body, hsub _ _ _ hk⟩

theorem mem_call {outcome : CallOutcome} {d e : Effect} (h : e ∈ (call outcome d).1) : e = d := by
  unfold call at h
  cases ht : outcome.takesEffect <;> simp_all

theorem mem_andThen {p q : Outcome} {e : Effect} (h : e ∈ (p.andThen q).1) : e ∈ p.1 ∨ e ∈ q.1 := by
  rcases andThen_effects p q with hpq | hpq <;> rw [hpq] at h
  · exact .inl h
  · exact List.mem_append.mp h

theorem mem_pollMessage {a : Attempt} {e : Effect} (he : e ∈ (pollMessage u handlers a).1) :
    ∃ payload, payloadOf a.message.body = some payload ∧
      (eventOf payload ∉ handlers ∧ e = .unhandled u a.message.receiptHandle ∨
        eventOf payload ∈ handlers ∧ (∃ r, e = .handled u a.message.receiptHandle r) ∨
        eventOf payload ∈ handlers ∧ (∃ error attempts, e = .stored u a.message.receiptHandle
          (failedJob a.jobId (lastSegment u) (eventOf payload) payload error attempts)) ∨
        e = .deleted u a.message.receiptHandle) := by
  unfold pollMessage at he
  cases hp : payloadOf a.message.body with
  | none => simp [hp] at he
  | some payload =>
    refine ⟨payload, rfl, ?_⟩
    simp only [hp] at he
    by_cases hev : eventOf payload ∈ handlers
    · simp only [hev, ↓reduceIte] at he
      cases hh : a.handler with
      | none =>
        rw [hh] at he
        rcases mem_andThen he with he | he
        · exact .inr (.inl ⟨hev, true, List.mem_singleton.mp he⟩)
        · exact .inr (.inr (.inr (mem_call he)))
      | some error =>
        rw [hh] at he
        rcases mem_andThen he with he | he
        · exact .inr (.inl ⟨hev, false, List.mem_singleton.mp he⟩)
        · split at he
          · rcases mem_andThen he with he | he
            · exact .inr (.inr (.inl ⟨hev, error, _, mem_call he⟩))
            · exact .inr (.inr (.inr (mem_call he)))
          · simp at he
    · simp only [hev, ↓reduceIte] at he
      rcases mem_andThen he with he | he
      · exact .inl ⟨hev, List.mem_singleton.mp he⟩
      · exact .inr (.inr (.inr (mem_call he)))

theorem pollMessage_backed {known : String → String → String → Prop} {a : Attempt} {body : String}
    (hb : a.message.body = some body) (hk : known u a.message.receiptHandle body) {e : Effect}
    (he : e ∈ (pollMessage u handlers a).1) : Backed handlers known e := by
  obtain ⟨payload, hp, hcase⟩ := mem_pollMessage he
  rw [hb] at hp
  rcases hcase with ⟨hev, rfl⟩ | ⟨hev, r, rfl⟩ | ⟨hev, error, attempts, rfl⟩ | rfl
  · have hother : ∀ payload', payloadOf (some body) = some payload' → eventOf payload' ∉ handlers := by
      intro payload' hp'
      rwa [Option.some.inj (hp'.symm.trans hp)]
    exact ⟨body, hk, hother⟩
  · exact ⟨body, payload, hk, hp, hev⟩
  · exact ⟨body, payload, hk, hp, hev, rfl, rfl, rfl⟩
  · exact ⟨body, hk⟩

theorem mem_pollQueue {batch : List Attempt} {e : Effect} (he : e ∈ (pollQueue u handlers batch).1) :
    ∃ a ∈ batch, e ∈ (pollMessage u handlers a).1 := by
  induction batch with
  | nil => simp [pollQueue] at he
  | cons a rest ih =>
    rcases mem_andThen he with he | he
    · exact ⟨a, List.mem_cons_self, he⟩
    · obtain ⟨b, hb, hm⟩ := ih he
      exact ⟨b, List.mem_cons_of_mem a hb, hm⟩

def Receives (u id : String) : Effect → Bool
  | .received u' id' => u' = u ∧ id' = id
  | _ => false

def receivesOf (u id : String) (es : List Effect) : ℕ := es.countP (Receives u id)

theorem receivesOf_append : receivesOf u id (es ++ fs) = receivesOf u id es + receivesOf u id fs :=
  List.countP_append

def Deletes (u id : String) : Effect → Prop
  | .deleted u' id' => u' = u ∧ id' = id
  | _ => False

namespace World

variable {w : World} {e : Effect}

theorem apply_log : (w.apply e).log = w.log ++ [e] := by cases e <;> rfl

theorem apply_arrived : (w.apply e).arrived = w.arrived := by cases e <;> rfl

theorem applyAll_log : (w.applyAll es).log = w.log ++ es := by
  induction es generalizing w with
  | nil => simp [applyAll]
  | cons e es ih =>
    change ((w.apply e).applyAll es).log = _
    rw [ih, apply_log, List.append_assoc, List.singleton_append]

def Known (w : World) (u id body : String) : Prop := (u, id, body) ∈ w.arrived

theorem mem_updateQueue {f : List QueueMessage → List QueueMessage} {v : String} {m : QueueMessage} :
    m ∈ (w.updateQueue u f).queues v ↔ if v = u then m ∈ f (w.queues u) else m ∈ w.queues v := by
  unfold updateQueue
  by_cases h : v = u
  · subst h; simp
  · simp [h]

theorem origin_of_apply {m : QueueMessage} (h : m ∈ (w.apply e).queues u) :
    ∃ m' ∈ w.queues u, m'.id = m.id ∧ m'.body = m.body ∧
      m.receives = m'.receives + receivesOf u m.id [e] ∧ ¬ Deletes u m.id e := by
  cases e with
  | received v handle =>
    have h := mem_updateQueue.mp h
    split at h
    · rename_i hv
      subst hv
      obtain ⟨m', hm', rfl⟩ := List.mem_map.mp h
      refine ⟨m', hm', ?_⟩
      by_cases hid : m'.id = handle
      · simp [hid, receivesOf, Receives, Deletes]
      · simp [hid, receivesOf, Receives, Deletes, Ne.symm hid]
    · exact ⟨m, h, rfl, rfl, by simp [receivesOf, Receives, Ne.symm ‹u ≠ v›], id⟩
  | deleted v handle =>
    have h := mem_updateQueue.mp h
    split at h
    · rename_i hv
      subst hv
      obtain ⟨hm, hid⟩ := List.mem_filter.mp h
      refine ⟨m, hm, rfl, rfl, by simp [receivesOf, Receives], ?_⟩
      rintro ⟨-, rfl⟩
      simp at hid
    · exact ⟨m, h, rfl, rfl, by simp [receivesOf, Receives], fun hd => absurd hd.1.symm ‹u ≠ v›⟩
  | handled _ _ _ => exact ⟨m, h, rfl, rfl, by simp [receivesOf, Receives], id⟩
  | unhandled _ _ => exact ⟨m, h, rfl, rfl, by simp [receivesOf, Receives], id⟩
  | stored _ _ _ => exact ⟨m, h, rfl, rfl, by simp [receivesOf, Receives], id⟩

theorem kept_by_apply {body : String} (h : ∃ m ∈ w.queues u, m.id = id ∧ m.body = body) :
    (∃ m ∈ (w.apply e).queues u, m.id = id ∧ m.body = body) ∨ e = .deleted u id := by
  obtain ⟨m, hm, rfl, rfl⟩ := h
  cases e with
  | received v handle =>
    by_cases hv : u = v
    · subst hv
      let m' := if m.id = handle then { m with receives := m.receives + 1 } else m
      refine .inl ⟨m', mem_updateQueue.mpr ?_, ?_⟩
      · rw [if_pos rfl]
        exact List.mem_map_of_mem hm
      · dsimp only [m']
        split <;> exact ⟨rfl, rfl⟩
    · exact .inl ⟨m, mem_updateQueue.mpr (by rwa [if_neg hv]), rfl, rfl⟩
  | deleted v handle =>
    by_cases hv : u = v
    · subst hv
      by_cases hid : m.id = handle
      · exact .inr (by rw [hid])
      · refine .inl ⟨m, mem_updateQueue.mpr ?_, rfl, rfl⟩
        rw [if_pos rfl]
        exact List.mem_filter.mpr ⟨hm, by simpa using hid⟩
    · exact .inl ⟨m, mem_updateQueue.mpr (by rwa [if_neg hv]), rfl, rfl⟩
  | handled _ _ _ => exact .inl ⟨m, hm, rfl, rfl⟩
  | unhandled _ _ => exact .inl ⟨m, hm, rfl, rfl⟩
  | stored _ _ _ => exact .inl ⟨m, hm, rfl, rfl⟩

theorem attempts_origin {picks : List Pick} {a : Attempt} (h : a ∈ w.attempts u picks) :
    ∃ m ∈ w.queues u, a.message = ⟨m.id, some m.body, some (m.receives + 1)⟩ ∧
      ∃ p ∈ picks, p.id = m.id ∧ a.handler = p.handler ∧ a.save = p.save ∧ a.delete = p.delete := by
  obtain ⟨p, hp, ha⟩ := List.mem_filterMap.mp h
  obtain ⟨m, hm, rfl⟩ := Option.map_eq_some_iff.mp ha
  refine ⟨m, List.mem_of_find?_eq_some hm, rfl, p, hp, ?_, rfl, rfl, rfl⟩
  have := List.find?_some hm
  exact (of_decide_eq_true this).symm

structure Accounted (handlers : List String) (w : World) : Prop where
  unique : ∀ u id body body', w.Known u id body → w.Known u id body' → body = body'
  origin : ∀ u, ∀ m ∈ w.queues u, w.Known u m.id m.body
  kept : ∀ u id body, w.Known u id body →
    (∃ m ∈ w.queues u, m.id = id ∧ m.body = body) ∨ .deleted u id ∈ w.log
  backed : ∀ e ∈ w.log, Backed handlers w.Known e
  rows : ∀ u id job, .stored u id job ∈ w.log → job ∈ w.failedJobs
  justified : Justified w.log

theorem accounted_empty : Accounted handlers empty where
  unique _ _ _ _ h := absurd h List.not_mem_nil
  origin _ _ h := absurd h List.not_mem_nil
  kept _ _ _ h := absurd h List.not_mem_nil
  backed _ h := absurd h List.not_mem_nil
  rows _ _ _ h := absurd h List.not_mem_nil
  justified := justified_of_no_deletion fun _ _ => List.not_mem_nil

theorem Accounted.apply (h : Accounted handlers w) (hb : Backed handlers w.Known e)
    (hj : Justified (w.log ++ [e])) : Accounted handlers (w.apply e) where
  unique := by unfold Known; rw [apply_arrived]; exact h.unique
  origin u m hm := by
    obtain ⟨m', hm', hid, hbody, -⟩ := origin_of_apply hm
    have hk := h.origin u m' hm'
    unfold Known at hk ⊢
    rwa [apply_arrived, ← hid, ← hbody]
  kept u id body hk := by
    unfold Known at hk
    rw [apply_arrived] at hk
    rw [apply_log]
    rcases h.kept u id body hk with hq | hd
    · rcases kept_by_apply (e := e) hq with hq | rfl
      · exact .inl hq
      · exact .inr (by simp)
    · exact .inr (List.mem_append_left _ hd)
  backed := by
    unfold Known
    rw [apply_log, apply_arrived]
    intro f hf
    rcases List.mem_append.mp hf with hf | hf
    · exact h.backed f hf
    · rw [List.mem_singleton.mp hf]; exact hb
  rows u id job hs := by
    rw [apply_log] at hs
    rcases List.mem_append.mp hs with hs | hs
    · have := h.rows u id job hs
      cases e <;> first | exact this | exact List.mem_append_left _ this
    · cases List.mem_singleton.mp hs
      exact List.mem_append_right _ (List.mem_singleton_self _)
  justified := by rw [apply_log]; exact hj

theorem Accounted.applyAll (h : Accounted handlers w) (hb : ∀ e ∈ es, Backed handlers w.Known e)
    (hj : Justified (w.log ++ es)) : Accounted handlers (w.applyAll es) := by
  induction es generalizing w with
  | nil => exact h
  | cons e es ih =>
    rw [← List.singleton_append, ← List.append_assoc] at hj
    refine ih (h.apply (hb e List.mem_cons_self) hj.of_prefix) (fun f hf => ?_) ?_
    · unfold Known
      rw [apply_arrived]
      exact hb f (List.mem_cons_of_mem e hf)
    · rwa [apply_log]

theorem mem_queue_arrive {v body : String} {m : QueueMessage} :
    m ∈ (w.arrive u id body).queues v ↔ m ∈ w.queues v ∨ (v = u ∧ m = ⟨id, body, 0⟩) := by
  change m ∈ (w.updateQueue u (· ++ [⟨id, body, 0⟩])).queues v ↔ _
  rw [mem_updateQueue]
  by_cases hv : v = u
  · subst hv; simp
  · simp [hv]

theorem known_arrive {v j b body : String} :
    (w.arrive u id body).Known v j b ↔ w.Known v j b ∨ (v = u ∧ j = id ∧ b = body) := by
  simp [Known, arrive]

theorem Accounted.arrive {body : String} (h : Accounted handlers w)
    (hfresh : ∀ b, ¬ w.Known u id b) : Accounted handlers (w.arrive u id body) where
  unique v j b b' hb hb' := by
    rcases known_arrive.mp hb with hk | ⟨rfl, rfl, rfl⟩ <;>
      rcases known_arrive.mp hb' with hk' | ⟨hv, hj, rfl⟩
    · exact h.unique v j b b' hk hk'
    · rw [hv, hj] at hk; exact absurd hk (hfresh b)
    · exact absurd hk' (hfresh b')
    · rfl
  origin v m hm := by
    rw [known_arrive]
    rcases mem_queue_arrive.mp hm with hm | ⟨rfl, rfl⟩
    · exact .inl (h.origin v m hm)
    · exact .inr ⟨rfl, rfl, rfl⟩
  kept v j b hk := by
    rcases known_arrive.mp hk with hk | ⟨rfl, rfl, rfl⟩
    · rcases h.kept v j b hk with ⟨m, hm, he⟩ | hd
      · exact .inl ⟨m, mem_queue_arrive.mpr (.inl hm), he⟩
      · exact .inr hd
    · exact .inl ⟨_, mem_queue_arrive.mpr (.inr ⟨rfl, rfl⟩), rfl, rfl⟩
  backed e he := Backed.mono (fun _ _ _ hk => known_arrive.mpr (.inl hk)) (h.backed e he)
  rows := h.rows
  justified := h.justified

theorem Accounted.poll (h : Accounted handlers w) (picks : List Pick) :
    (∀ e ∈ w.pollEffects handlers u picks, Backed handlers w.Known e) ∧
      Justified (w.pollEffects handlers u picks) := by
  constructor
  · intro e he
    rcases List.mem_append.mp he with he | he
    · obtain ⟨a, ha, rfl⟩ := List.mem_map.mp he
      obtain ⟨m, hm, hmsg, -⟩ := attempts_origin ha
      exact ⟨m.body, by rw [hmsg]; exact h.origin u m hm⟩
    · obtain ⟨a, ha, he⟩ := mem_pollQueue he
      obtain ⟨m, hm, hmsg, -⟩ := attempts_origin ha
      have hbody : a.message.body = some m.body := by rw [hmsg]
      apply pollMessage_backed hbody _ he
      rw [hmsg]
      exact h.origin u m hm
  · refine Justified.append (justified_of_no_deletion (by simp)) (pollQueue_justified _)

theorem Accounted.step {ev : Event} {w' : World} (h : Accounted handlers w)
    (hs : w.step handlers ev = some w') : Accounted handlers w' := by
  cases ev with
  | arrive u id body =>
    simp only [World.step] at hs
    split at hs
    · rename_i hfresh
      cases hs
      exact h.arrive fun b hm => hfresh _ hm rfl
    · cases hs
  | poll u picks cut =>
    simp only [World.step] at hs
    split at hs
    · cases hs
      obtain ⟨hb, hj⟩ := h.poll (u := u) picks
      cases cut with
      | none => exact h.applyAll hb (h.justified.append hj)
      | some n =>
        refine h.applyAll (fun e he => hb e (List.mem_of_mem_take he)) ?_
        have hall := h.justified.append hj
        rw [← List.take_append_drop n (w.pollEffects handlers u picks), ← List.append_assoc] at hall
        exact hall.of_prefix
    · cases hs

theorem accounted_of_run {events : List Event}
    (h : Run (Enabled (World.step handlers)) empty events w) : Accounted handlers w :=
  h.invariant (Accounted handlers) (fun _ _ _ hw _ hs => hw.step hs) accounted_empty

theorem Accounted.deletion {body : String} {payload : Dict} (h : Accounted handlers w)
    (hk : w.Known u id body) (hp : payloadOf (some body) = some payload)
    (hev : eventOf payload ∈ handlers) {pre post : List Effect}
    (hlog : w.log = pre ++ .deleted u id :: post) :
    .handled u id true ∈ pre ∨
      ∃ job, .stored u id job ∈ pre ∧ job ∈ w.failedJobs ∧ Carries u payload job := by
  obtain ⟨e, he, hs⟩ := h.justified pre u id post hlog
  have hmem : e ∈ w.log := by rw [hlog]; exact List.mem_append_left _ he
  have hback := h.backed e hmem
  cases e with
  | handled v j r =>
    obtain ⟨rfl, rfl, rfl⟩ := hs
    exact .inl he
  | unhandled v j =>
    obtain ⟨rfl, rfl⟩ := hs
    obtain ⟨body', hk', hun⟩ := hback
    rw [h.unique _ _ _ _ hk' hk] at hun
    exact absurd hev (hun payload hp)
  | stored v j job =>
    obtain ⟨rfl, rfl⟩ := hs
    obtain ⟨body', payload', hk', hp', -, hc⟩ := hback
    rw [h.unique _ _ _ _ hk' hk] at hp'
    cases hp.symm.trans hp'
    exact .inr ⟨job, he, h.rows _ _ _ hmem, hc⟩
  | received v j => exact hs.elim
  | deleted v j => exact hs.elim

theorem Accounted.settled {body : String} {payload : Dict} (h : Accounted handlers w)
    (hk : w.Known u id body) (hp : payloadOf (some body) = some payload)
    (hev : eventOf payload ∈ handlers) :
    (∃ m ∈ w.queues u, m.id = id ∧ m.body = body) ∨ .handled u id true ∈ w.log ∨
      ∃ job ∈ w.failedJobs, Carries u payload job := by
  rcases h.kept u id body hk with hq | hd
  · exact .inl hq
  · obtain ⟨pre, post, hlog⟩ := List.append_of_mem hd
    rcases h.deletion hk hp hev hlog with hh | ⟨job, -, hj, hc⟩
    · exact .inr (.inl (by rw [hlog]; exact List.mem_append_left _ hh))
    · exact .inr (.inr ⟨job, hj, hc⟩)

end World

theorem jobs_never_lost (handlers : List String) (events : List Event) (w : World)
    (h : Run (Enabled (World.step handlers)) World.empty events w) (u id body : String)
    (payload : Dict) (hk : w.Known u id body) (hp : payloadOf (some body) = some payload)
    (hev : eventOf payload ∈ handlers) :
    (∀ pre post, w.log = pre ++ .deleted u id :: post → .handled u id true ∈ pre ∨
        ∃ job, .stored u id job ∈ pre ∧ job ∈ w.failedJobs ∧ Carries u payload job) ∧
      ((∃ m ∈ w.queues u, m.id = id ∧ m.body = body) ∨ .handled u id true ∈ w.log ∨
        ∃ job ∈ w.failedJobs, Carries u payload job) :=
  have hw := World.accounted_of_run h
  ⟨fun _ _ hlog => hw.deletion hk hp hev hlog, hw.settled hk hp hev⟩

def failingBody : String := "\x7b\"event\": \"lead.created\", \"lead_id\": \"l-1\"\x7d"

def failingEvents : List Event :=
  let pick : Pick := ⟨"m-1", some "provider timeout", .returns, .returns, "j-1"⟩
  [.arrive "https://sqs/routing" "m-1" failingBody, .poll "https://sqs/routing" [pick] none,
    .poll "https://sqs/routing" [pick] none, .poll "https://sqs/routing" [pick] (some 3)]

theorem jobs_never_lost_failing :
    ∃ w payload, runSteps (World.step eventHandlers) World.empty failingEvents = some w ∧
      payloadOf (some failingBody) = some payload ∧
      ((∃ m ∈ w.queues "https://sqs/routing", m.id = "m-1" ∧ m.body = failingBody) ∨
        .handled "https://sqs/routing" "m-1" true ∈ w.log ∨
        ∃ job ∈ w.failedJobs, Carries "https://sqs/routing" payload job) := by
  have hrun : (runSteps (World.step eventHandlers) World.empty failingEvents).any (fun w =>
      ("https://sqs/routing", "m-1", failingBody) ∈ w.arrived) = true := by decide +kernel
  have hbody : (payloadOf (some failingBody)).any (fun p => eventOf p ∈ eventHandlers) = true := by
    decide +kernel
  obtain ⟨w, hw, hk⟩ := (Option.any_eq_true _ _).mp hrun
  obtain ⟨payload, hp, hev⟩ := (Option.any_eq_true _ _).mp hbody
  have hk := of_decide_eq_true hk
  exact ⟨w, payload, hw, hp, (jobs_never_lost eventHandlers failingEvents w (run_of_runSteps hw)
    _ _ _ _ hk hp (of_decide_eq_true hev)).2⟩

end Leadline.WorkerLoop
