import Leadline.WorkerLosses
import Mathlib.Data.List.TakeWhile

namespace Leadline.WorkerLoop

open Library

variable {handlers : List String} {u id : String} {es fs : List Effect} {a : Attempt}
  {batch : List Attempt}

def dispatched (es : List Effect) : List String :=
  es.filterMap fun e => match e with
    | .handled _ handle _ => some handle
    | .unhandled _ handle => some handle
    | _ => none

def Reliable (a : Attempt) : Prop := a.save = .returns ∧ a.delete = .returns

instance : DecidablePred Reliable := fun _ => inferInstanceAs (Decidable (_ ∧ _))

def Readable (a : Attempt) : Prop := (payloadOf a.message.body).isSome

instance : DecidablePred Readable := fun _ => inferInstanceAs (Decidable (_ = true))

def Fails (handlers : List String) (a : Attempt) : Prop :=
  ∀ payload, payloadOf a.message.body = some payload →
    eventOf payload ∈ handlers ∧ a.handler.isSome

def Exhausted (a : Attempt) : Prop := maxRetries ≤ a.message.approximateReceiveCount.getD 1

def BatchHandled (u : String) (handlers : List String) (batch : List Attempt) : Prop :=
  let es := (pollQueue u handlers batch).1
  (dispatched es).Perm (batch.map (·.message.receiptHandle)) ∧
    ∀ a ∈ batch, Fails handlers a → Exhausted a →
      (∃ job, .stored u a.message.receiptHandle job ∈ es) ∧ .deleted u a.message.receiptHandle ∈ es

theorem dispatched_append : dispatched (es ++ fs) = dispatched es ++ dispatched fs :=
  List.filterMap_append

theorem pollMessage_unreadable (h : ¬ Readable a) : pollMessage u handlers a = ([], true) := by
  unfold pollMessage
  cases hp : payloadOf a.message.body with
  | none => rfl
  | some payload => exact absurd (by simp [Readable, hp]) h

theorem pollMessage_readable (u : String) (handlers : List String) (hr : Readable a) (hs : Reliable a) :
    let es := (pollMessage u handlers a).1
    (pollMessage u handlers a).2 = false ∧ dispatched es = [a.message.receiptHandle] ∧
      (.deleted u a.message.receiptHandle ∈ es ∧
          (Fails handlers a → ∃ job, .stored u a.message.receiptHandle job ∈ es) ∨
        Fails handlers a ∧ ¬ Exhausted a) := by
  obtain ⟨payload, hp⟩ := Option.isSome_iff_exists.mp hr
  obtain ⟨hsave, hdelete⟩ := hs
  have hfails : Fails handlers a ↔ eventOf payload ∈ handlers ∧ a.handler.isSome :=
    ⟨fun h => h payload hp, fun h p hp' => by rwa [Option.some.inj (hp'.symm.trans hp)]⟩
  rw [hfails]
  unfold pollMessage
  rw [hp, hsave, hdelete]
  by_cases hev : eventOf payload ∈ handlers
  · cases a.handler with
    | none =>
      simp [hev, Outcome.andThen, call, CallOutcome.takesEffect, CallOutcome.raises, dispatched]
    | some error =>
      by_cases hc : Exhausted a
      · have hc' : a.message.approximateReceiveCount.getD 1 ≥ maxRetries := hc
        simp [hev, hc', Outcome.andThen, call, CallOutcome.takesEffect, CallOutcome.raises, dispatched]
      · have hc' : ¬ a.message.approximateReceiveCount.getD 1 ≥ maxRetries := hc
        simp [hev, hc, hc', Outcome.andThen, dispatched]
  · simp [hev, Outcome.andThen, call, CallOutcome.takesEffect, CallOutcome.raises, dispatched]

theorem pollQueue_cons (ha : (pollMessage u handlers a).2 = false) :
    pollQueue u handlers (a :: batch) =
      ((pollMessage u handlers a).1 ++ (pollQueue u handlers batch).1, (pollQueue u handlers batch).2) := by
  simp [pollQueue, Outcome.andThen, ha]

theorem dispatched_pollQueue (hs : ∀ a ∈ batch, Reliable a) :
    dispatched (pollQueue u handlers batch).1 =
      (batch.takeWhile (fun a => Readable a)).map (·.message.receiptHandle) := by
  induction batch with
  | nil => rfl
  | cons a rest ih =>
    by_cases hr : Readable a
    · obtain ⟨hraise, hd, -⟩ := pollMessage_readable u handlers hr
        (hs a List.mem_cons_self)
      rw [pollQueue_cons hraise, dispatched_append, hd, ih fun b hb => hs b (List.mem_cons_of_mem a hb)]
      simp [hr]
    · rw [pollQueue, pollMessage_unreadable hr]
      simp [Outcome.andThen, dispatched, hr]

theorem mem_pollQueue_of_mem (hs : ∀ a ∈ batch, Reliable a) (hr : ∀ a ∈ batch, Readable a)
    (ha : a ∈ batch) {e : Effect} (he : e ∈ (pollMessage u handlers a).1) :
    e ∈ (pollQueue u handlers batch).1 := by
  induction batch with
  | nil => exact absurd ha List.not_mem_nil
  | cons b rest ih =>
    rw [pollQueue_cons (pollMessage_readable u handlers (hr b List.mem_cons_self)
      (hs b List.mem_cons_self)).1]
    rcases List.mem_cons.mp ha with rfl | ha
    · exact List.mem_append_left _ he
    · exact List.mem_append_right _ (ih (fun b hb => hs b (List.mem_cons_of_mem _ hb))
        (fun b hb => hr b (List.mem_cons_of_mem _ hb)) ha)

theorem batchHandled_iff (hs : ∀ a ∈ batch, Reliable a) :
    BatchHandled u handlers batch ↔ ∀ a ∈ batch, Readable a := by
  constructor
  · rintro ⟨hperm, -⟩
    rw [dispatched_pollQueue hs] at hperm
    have hlen := hperm.length_eq
    rw [List.length_map, List.length_map] at hlen
    have hall := (List.takeWhile_prefix _).eq_of_length hlen
    simpa using List.takeWhile_eq_self_iff.mp hall
  · intro hr
    constructor
    · have hall : batch.takeWhile (fun a => Readable a) = batch :=
        List.takeWhile_eq_self_iff.mpr (by simpa using hr)
      rw [dispatched_pollQueue hs, hall]
    · intro a ha hf hx
      obtain ⟨-, -, ⟨hd, hst⟩ | ⟨-, hnx⟩⟩ := pollMessage_readable u handlers
        (hr a ha) (hs a ha)
      · obtain ⟨job, hj⟩ := hst hf
        exact ⟨⟨job, mem_pollQueue_of_mem hs hr ha hj⟩, mem_pollQueue_of_mem hs hr ha hd⟩
      · exact absurd hx hnx

theorem pollMessage_receives {v : String} {e : Effect} (he : e ∈ (pollMessage u handlers a).1) :
    Receives v id e = false := by
  obtain ⟨payload, -, hcase⟩ := mem_pollMessage he
  rcases hcase with ⟨-, rfl⟩ | ⟨-, r, rfl⟩ | ⟨-, error, attempts, rfl⟩ | rfl <;> rfl

namespace World

variable {w w' : World} {picks : List Pick}

def Tame (w : World) : Event → Prop
  | .arrive _ _ _ => True
  | .poll u picks cut => cut = none ∧ ∀ a ∈ w.attempts u picks, Reliable a ∧ Readable a

instance : ∀ w ev, Decidable (Tame w ev)
  | _, .arrive _ _ _ => isTrue trivial
  | w, .poll u picks cut =>
    inferInstanceAs (Decidable (cut = none ∧ ∀ a ∈ w.attempts u picks, Reliable a ∧ Readable a))

theorem attempts_handles :
    ((w.attempts u picks).map (·.message.receiptHandle)).Sublist (picks.map Pick.id) := by
  induction picks with
  | nil => exact List.Sublist.slnil
  | cons p ps ih =>
    unfold attempts at ih ⊢
    cases hf : (w.queues u).find? (fun m => m.id = p.id) with
    | none => simpa [hf] using ih.cons p.id
    | some m =>
      have hid := List.find?_some hf
      have hid : m.id = p.id := of_decide_eq_true hid
      simpa [hf, hid] using ih.cons_cons p.id

theorem receivesOf_pollEffects {v : String} :
    receivesOf v id (w.pollEffects handlers u picks) =
      if v = u then ((w.attempts u picks).map (·.message.receiptHandle)).count id else 0 := by
  have hzero : receivesOf v id (pollQueue u handlers (w.attempts u picks)).1 = 0 := by
    refine List.countP_eq_zero.mpr fun e he => ?_
    obtain ⟨a, -, he⟩ := mem_pollQueue he
    simp [pollMessage_receives he]
  change receivesOf v id (_ ++ _) = _
  rw [receivesOf_append, hzero, Nat.add_zero, receivesOf, List.countP_map, List.count, List.countP_map]
  by_cases hv : v = u
  · rw [if_pos hv]
    exact List.countP_congr fun a _ => by simp [Receives, hv]
  · rw [if_neg hv]
    exact List.countP_eq_zero.mpr fun a _ => by simp [Receives, Ne.symm hv]

theorem origin_of_applyAll {m : QueueMessage} (h : m ∈ (w.applyAll es).queues u) :
    ∃ m' ∈ w.queues u, m'.id = m.id ∧ m.receives = m'.receives + receivesOf u m.id es ∧
      ∀ e ∈ es, ¬ Deletes u m.id e := by
  induction es generalizing w with
  | nil => exact ⟨m, h, rfl, rfl, fun _ he => absurd he List.not_mem_nil⟩
  | cons e es ih =>
    obtain ⟨m₁, hm₁, hid₁, hr₁, hd₁⟩ := ih h
    obtain ⟨m₂, hm₂, hid₂, -, hr₂, hd₂⟩ := origin_of_apply hm₁
    rw [hid₁] at hr₂ hd₂ hid₂
    refine ⟨m₂, hm₂, hid₂, ?_, fun f hf => ?_⟩
    · rw [hr₁, hr₂, Nat.add_assoc, ← receivesOf_append, List.singleton_append]
    · rcases List.mem_cons.mp hf with rfl | hf
      · exact hd₂
      · exact hd₁ f hf

structure Bounded (w : World) : Prop where
  counted : ∀ u, ∀ m ∈ w.queues u, m.receives = receivesOf u m.id w.log
  bounded : ∀ u, ∀ m ∈ w.queues u, m.receives < maxRetries

theorem Bounded.poll (h : Bounded w) (hn : (picks.map Pick.id).Nodup)
    (ht : ∀ a ∈ w.attempts u picks, Reliable a ∧ Readable a) :
    Bounded (w.applyAll (w.pollEffects handlers u picks)) := by
  have hnodup := hn.sublist (w.attempts_handles (u := u))
  constructor <;> intro v m hm <;> obtain ⟨m', hm', hid, hr, hd⟩ := origin_of_applyAll hm
  · rw [applyAll_log, receivesOf_append, hr, h.counted v m' hm', hid]
  · have hb := h.bounded v m' hm'
    rw [receivesOf_pollEffects] at hr
    split at hr
    · rename_i hv
      subst hv
      by_cases hmem : m.id ∈ (w.attempts v picks).map (·.message.receiptHandle)
      · obtain ⟨a, ha, hhandle⟩ := List.mem_map.mp hmem
        obtain ⟨m'', hm'', hmsg, -⟩ := attempts_origin ha
        have hsame : m''.receives = m'.receives := by
          rw [h.counted v m'' hm'', h.counted v m' hm', hid, ← hhandle, hmsg]
        rw [List.count_eq_one_of_mem hnodup hmem] at hr
        have hall : ∀ b ∈ w.attempts v picks, Reliable b := fun b hb => (ht b hb).1
        have hread : ∀ b ∈ w.attempts v picks, Readable b := fun b hb => (ht b hb).2
        obtain ⟨-, -, ⟨hdel, -⟩ | ⟨-, hx⟩⟩ := pollMessage_readable v handlers
          (hread a ha) (hall a ha)
        · have he := List.mem_append_right ((w.attempts v picks).map
            (fun a => Effect.received v a.message.receiptHandle)) (mem_pollQueue_of_mem hall hread ha hdel)
          exact absurd ⟨rfl, hhandle⟩ (hd _ he)
        · simp only [Exhausted, hmsg, Option.getD_some, hsame] at hx
          omega
      · rw [List.count_eq_zero_of_not_mem hmem] at hr
        omega
    · omega

theorem Bounded.step {ev : Event} (h : Bounded w) (ha : Accounted handlers w) (ht : Tame w ev)
    (hs : w.step handlers ev = some w') : Bounded w' := by
  cases ev with
  | arrive u id body =>
    simp only [World.step] at hs
    split at hs
    · rename_i hfresh
      cases hs
      have hzero : receivesOf u id w.log = 0 := by
        refine List.countP_eq_zero.mpr fun e he => ?_
        have hb := ha.backed e he
        cases e with
        | received v j =>
          obtain ⟨b, hk⟩ := hb
          intro hrec
          obtain ⟨rfl, rfl⟩ := of_decide_eq_true hrec
          exact hfresh _ hk rfl
        | _ => exact Bool.false_ne_true
      constructor <;> intro v m hm <;> rcases mem_queue_arrive.mp hm with hm | ⟨rfl, rfl⟩
      · exact h.counted v m hm
      · exact hzero.symm
      · exact h.bounded v m hm
      · exact Nat.zero_lt_succ 2
    · cases hs
  | poll u picks cut =>
    obtain ⟨rfl, ht⟩ := ht
    simp only [World.step] at hs
    split at hs
    · cases hs
      exact h.poll ‹_› ht
    · cases hs

theorem bounded_empty : Bounded empty :=
  ⟨fun _ _ h => absurd h List.not_mem_nil, fun _ _ h => absurd h List.not_mem_nil⟩

theorem bounded_of_run {events : List Event}
    (h : GuardedRun (Enabled (World.step handlers)) Tame empty events w) :
    Accounted handlers w ∧ Bounded w := by
  apply h.invariant (fun w => Accounted handlers w ∧ Bounded w)
  · intro w ev w' hw ht hs
    exact ⟨hw.1.step hs, hw.2.step hw.1 ht hs⟩
  · exact ⟨accounted_empty, bounded_empty⟩

theorem put_away {events : List Event}
    (h : GuardedRun (Enabled (World.step handlers)) Tame empty events w)
    (hr : maxRetries ≤ receivesOf u id w.log) (hh : .handled u id true ∉ w.log)
    (hu : .unhandled u id ∉ w.log) :
    (∃ job ∈ w.failedJobs, .stored u id job ∈ w.log) ∧ ∀ m ∈ w.queues u, m.id ≠ id := by
  obtain ⟨ha, hb⟩ := bounded_of_run h
  have hgone : ∀ m ∈ w.queues u, m.id ≠ id := by
    rintro m hm rfl
    have := hb.bounded u m hm
    rw [hb.counted u m hm] at this
    omega
  refine ⟨?_, hgone⟩
  obtain ⟨e, he, hrec⟩ := List.countP_pos_iff.mp (Nat.lt_of_lt_of_le (by decide) hr)
  have hback := ha.backed e he
  cases e with
  | received v j =>
    obtain ⟨rfl, rfl⟩ := of_decide_eq_true hrec
    obtain ⟨body, hk⟩ := hback
    rcases ha.kept v j body hk with ⟨m, hm, hid, -⟩ | hd
    · exact absurd hid (hgone m hm)
    · obtain ⟨pre, post, hlog⟩ := List.append_of_mem hd
      obtain ⟨f, hf, hset⟩ := ha.justified pre v j post hlog
      have hmem : f ∈ w.log := by rw [hlog]; exact List.mem_append_left _ hf
      cases f with
      | handled _ _ _ => obtain ⟨rfl, rfl, rfl⟩ := hset; exact absurd hmem hh
      | unhandled _ _ => obtain ⟨rfl, rfl⟩ := hset; exact absurd hmem hu
      | stored _ _ job => obtain ⟨rfl, rfl⟩ := hset; exact ⟨job, ha.rows _ _ _ hmem, hmem⟩
      | received _ _ => exact hset.elim
      | deleted _ _ => exact hset.elim
  | _ => exact absurd hrec Bool.false_ne_true

end World

def Returns (u id : String) : Effect → Bool
  | .handled u' id' returned => u' = u ∧ id' = id ∧ returned
  | .unhandled u' id' => u' = u ∧ id' = id
  | _ => false

theorem batches_isolated_and_bounded (handlers : List String) (u : String) :
    (∀ batch, (∀ a ∈ batch, Reliable a) →
        (BatchHandled u handlers batch ↔ ∀ a ∈ batch, Readable a)) ∧
      ∀ events w, GuardedRun (Enabled (World.step handlers)) World.Tame World.empty events w →
        ∀ id, maxRetries ≤ receivesOf u id w.log → .handled u id true ∉ w.log →
          .unhandled u id ∉ w.log →
          (∃ job ∈ w.failedJobs, .stored u id job ∈ w.log) ∧ ∀ m ∈ w.queues u, m.id ≠ id := by
  constructor
  · intro batch hs
    exact batchHandled_iff hs
  · intro events w h id hr hh hu
    exact World.put_away h hr hh hu

def mixedBatch : List Attempt :=
  [⟨⟨"r-1", some "oops", some 3⟩, none, .returns, .returns, "j-1"⟩,
    ⟨⟨"r-2", some failingBody, some 1⟩, none, .returns, .returns, "j-2"⟩]

theorem mixed_batch_stops :
    (∀ a ∈ mixedBatch, Reliable a) ∧ ¬ BatchHandled "https://sqs/routing" eventHandlers mixedBatch ∧
      (pollQueue "https://sqs/routing" eventHandlers mixedBatch).1.length = 0 := by
  have hs : ∀ a ∈ mixedBatch, Reliable a := by
    intro a ha
    rcases List.mem_pair.mp ha with rfl | rfl <;> exact ⟨rfl, rfl⟩
  have hread : ¬ ∀ a ∈ mixedBatch, Readable a := by decide +kernel
  have hnone : (pollQueue "https://sqs/routing" eventHandlers mixedBatch).1.length = 0 := by
    decide +kernel
  exact ⟨hs, fun h => hread ((batchHandled_iff hs).mp h), hnone⟩

def failingPolls : List Event :=
  let pick : Pick := ⟨"m-1", some "provider timeout", .returns, .returns, "j-1"⟩
  [.arrive "https://sqs/routing" "m-1" failingBody, .poll "https://sqs/routing" [pick] none,
    .poll "https://sqs/routing" [pick] none, .poll "https://sqs/routing" [pick] none]

theorem batches_isolated_and_bounded_failing :
    ∃ w : World, runChecked (World.step eventHandlers) World.Tame World.empty failingPolls = some w ∧
      (∃ job ∈ w.failedJobs, .stored "https://sqs/routing" "m-1" job ∈ w.log) ∧
        ∀ m ∈ w.queues "https://sqs/routing", m.id ≠ "m-1" := by
  have hrun : (runChecked (World.step eventHandlers) World.Tame World.empty failingPolls).any
      (fun w => maxRetries ≤ receivesOf "https://sqs/routing" "m-1" w.log ∧
        w.log.all (fun e => ! Returns "https://sqs/routing" "m-1" e)) = true := by
    decide +kernel
  obtain ⟨w, hw, hk⟩ := (Option.any_eq_true _ _).mp hrun
  obtain ⟨hr, hall⟩ := of_decide_eq_true hk
  have hnone := List.all_eq_true.mp hall
  refine ⟨w, hw, (batches_isolated_and_bounded eventHandlers "https://sqs/routing").2 _ w
    (guarded_of_runChecked hw) "m-1" hr (fun h => ?_) fun h => ?_⟩
  · exact absurd (hnone _ h) (by decide)
  · exact absurd (hnone _ h) (by decide)

end Leadline.WorkerLoop
