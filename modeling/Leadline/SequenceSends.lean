import Leadline.SequenceExecution
import Leadline.SequenceWorkers

namespace Leadline.SequenceWorkers

open Library SequenceStepRepository

def Phase.work : Phase → Option (StepWork × Bool)
  | executing h => some (h.work, false)
  | delivered h _ handed => some (h.work, handed)
  | recorded h _ handed => some (h.work, handed)
  | published h _ handed => some (h.work, handed)
  | _ => none

def Phase.handles : Phase → Option Id
  | completing _ enrollment => some enrollment.id
  | p => p.work.map fun w => w.1.enrollment.id

theorem Phase.handles_of_work {p : Phase} {work : StepWork} {handed : Bool}
    (h : p.work = some (work, handed)) : p.handles = some work.enrollment.id := by
  cases p with
  | completing job enrollment => cases h
  | _ => exact congrArg (Option.map fun w => w.1.enrollment.id) h

def Sent.key (p : Sent) : Id × Id := (p.enrollmentId, p.stepId)

structure Current (db : Db) (work : StepWork) : Prop where
  row : db.enrollments.find? work.enrollment.id = some work.enrollment
  step : (listForSequence db work.enrollment.sequenceId)[work.enrollment.currentStepIndex]? = some work.step

theorem Current.not_mem_stepsBefore {db : Db} {work : StepWork} (h : Current db work) :
    work.step.id ∉ stepsBefore db work.enrollment := by
  obtain ⟨hlt, hget⟩ := List.getElem?_eq_some_iff.mp h.step
  intro hmem
  have hnodup : ((listForSequence db work.enrollment.sequenceId).map SequenceStep.id).Nodup :=
    nodup_listForSequence
  rw [← List.take_append_drop work.enrollment.currentStepIndex
    (listForSequence db work.enrollment.sequenceId), List.map_append] at hnodup
  have hdrop : work.step.id ∈ ((listForSequence db work.enrollment.sequenceId).drop
      work.enrollment.currentStepIndex).map SequenceStep.id := by
    rw [List.drop_eq_getElem_cons hlt, hget]
    exact List.mem_map_of_mem List.mem_cons_self
  exact (List.disjoint_of_nodup_append hnodup) hmem hdrop

theorem mem_stepsBefore_advance {db : Db} {work : StepWork} (h : Current db work) :
    work.step.id ∈ stepsBefore db (work.advance work.enrollment) := by
  have htake : stepsBefore db (work.advance work.enrollment) =
      ((listForSequence db work.enrollment.sequenceId).take (work.enrollment.currentStepIndex + 1)).map
        SequenceStep.id := rfl
  rw [htake, List.take_add_one, h.step]
  simp

namespace State

variable {n : ℕ} {s : State n}

structure OneHandling (s : State n) : Prop where
  alone : ∀ i j id, (s.phase i).handles = some id → (s.phase j).handles = some id → i = j
  current : ∀ i work handed, (s.phase i).work = some (work, handed) → Current s.db work
  nodup : (s.sent.map Sent.key).Nodup
  below : ∀ p ∈ s.sent, ∃ row, s.db.enrollments.find? p.enrollmentId = some row ∧
    (p.stepId ∈ stepsBefore s.db row ∨ ∃ i work, (s.phase i).work = some (work, true) ∧
      work.enrollment.id = p.enrollmentId ∧ work.step.id = p.stepId)

theorem oneHandling_start (db : Db) : OneHandling (start n db) where
  alone _ _ _ h := by cases h
  current _ _ _ h := by cases h
  nodup := List.nodup_nil
  below _ h := absurd h List.not_mem_nil

structure Harmless (s : State n) (i : Fin n) (t : Turn) : Prop where
  sent : t.sent = []
  steps : t.db.steps = s.db.steps
  rows : ∀ id row, s.db.enrollments.find? id = some row → ∃ row', t.db.enrollments.find? id = some row' ∧
    stepsBefore s.db row ⊆ stepsBefore t.db row' ∧
    ∀ j, j ≠ i → (s.phase j).handles = some id → row' = row
  handles : ∀ id, t.phase.handles = some id →
    (s.phase i).handles = some id ∨ ∀ j, (s.phase j).handles ≠ some id
  current : ∀ work handed, t.phase.work = some (work, handed) → Current t.db work
  kept : ∀ work, (s.phase i).work = some (work, true) → t.phase.work = some (work, true) ∨
    ∃ row, t.db.enrollments.find? work.enrollment.id = some row ∧ work.step.id ∈ stepsBefore t.db row

theorem OneHandling.apply {i : Fin n} {t : Turn} (h : OneHandling s) (ht : Harmless s i t) :
    OneHandling (s.apply i t) := by
  have hdb : (s.apply i t).db = t.db := rfl
  have hsent : (s.apply i t).sent = s.sent := by simp [State.apply, enqueue, ht.sent]
  have hlist : ∀ q, listForSequence t.db q = listForSequence s.db q := by
    intro q
    simp only [listForSequence, ht.steps]
  have hhandles : ∀ j id, ((s.apply i t).phase j).handles = some id →
      (s.phase j).handles = some id ∨ j = i ∧ ∀ k, (s.phase k).handles ≠ some id := by
    intro j id hj
    by_cases hji : j = i
    · subst hji
      rw [phase_apply_self] at hj
      rcases ht.handles id hj with hold | hnone
      · exact .inl hold
      · exact .inr ⟨rfl, hnone⟩
    · rw [phase_apply_of_ne hji] at hj
      exact .inl hj
  constructor
  · intro j k id hj hk
    rcases hhandles j id hj with hj' | ⟨hji, hnone⟩ <;> rcases hhandles k id hk with hk' | ⟨hki, hnone'⟩
    · exact h.alone j k id hj' hk'
    · exact absurd hj' (hnone' j)
    · exact absurd hk' (hnone k)
    · rw [hji, hki]
  · intro j work handed hj
    rw [hdb]
    by_cases hji : j = i
    · subst hji
      rw [phase_apply_self] at hj
      exact ht.current work handed hj
    · rw [phase_apply_of_ne hji] at hj
      have hcur := h.current j work handed hj
      obtain ⟨row', hrow', -, hsame⟩ := ht.rows _ _ hcur.row
      rw [hsame j hji (Phase.handles_of_work hj)] at hrow'
      exact ⟨hrow', by rw [hlist]; exact hcur.step⟩
  · rw [hsent]
    exact h.nodup
  · rw [hsent, hdb]
    intro p hp
    obtain ⟨row, hrow, hcase⟩ := h.below p hp
    obtain ⟨row', hrow', hsub, -⟩ := ht.rows _ _ hrow
    refine ⟨row', hrow', ?_⟩
    rcases hcase with hmem | ⟨j, work, hj, hid, hstep⟩
    · exact .inl (hsub hmem)
    · by_cases hji : j = i
      · subst hji
        rcases ht.kept work hj with hkept | ⟨row'', hrow'', hmem⟩
        · exact .inr ⟨j, work, by rwa [phase_apply_self], hid, hstep⟩
        · rw [hid, hrow'] at hrow''
          rw [← Option.some.inj hrow'', hstep] at hmem
          exact .inl hmem
      · exact .inr ⟨j, work, by rwa [phase_apply_of_ne hji], hid, hstep⟩

theorem stepsBefore_congr {db db' : Db} (h : db'.steps = db.steps) (row : SequenceEnrollment) :
    stepsBefore db' row = stepsBefore db row := by
  simp only [stepsBefore, listForSequence, h]

theorem OneHandling.quiet {i : Fin n} {t : Turn} (h : OneHandling s) (hsent : t.sent = [])
    (hsteps : t.db.steps = s.db.steps)
    (hrows : ∀ id row, s.db.enrollments.find? id = some row → t.db.enrollments.find? id = some row)
    (hwork : t.phase.work = (s.phase i).work ∨
      t.phase.work = none ∧ ∀ work, (s.phase i).work ≠ some (work, true))
    (hhandles : t.phase.handles = (s.phase i).handles ∨ t.phase.handles = none) :
    OneHandling (s.apply i t) := by
  apply h.apply
  refine ⟨hsent, hsteps, ?_, ?_, ?_, ?_⟩
  · intro id row hrow
    refine ⟨row, hrows id row hrow, ?_, fun _ _ _ => rfl⟩
    rw [stepsBefore_congr hsteps]
    exact List.Subset.refl _
  · intro id hid
    rcases hhandles with heq | heq
    · exact .inl (by rw [← heq, hid])
    · rw [heq] at hid
      cases hid
  · intro work handed hw
    rcases hwork with heq | ⟨heq, -⟩
    · rw [heq] at hw
      have hcur := h.current i work handed hw
      refine ⟨hrows _ _ hcur.row, ?_⟩
      simp only [listForSequence, hsteps]
      exact hcur.step
    · rw [heq] at hw
      cases hw
  · intro work hw
    rcases hwork with heq | ⟨-, hnone⟩
    · exact .inl (by rw [heq, hw])
    · exact absurd hw (hnone work)

theorem OneHandling.begin {i : Fin n} {t : Turn} {id : Id} (h : OneHandling s) (hsent : t.sent = [])
    (hdb : t.db = s.db) (hidle : (s.phase i).work = none) (hhandles : t.phase.handles = some id)
    (halone : ∀ j, (s.phase j).handles ≠ some id)
    (hcurrent : ∀ work handed, t.phase.work = some (work, handed) → Current s.db work) :
    OneHandling (s.apply i t) := by
  apply h.apply
  refine ⟨hsent, by rw [hdb], ?_, ?_, by rwa [hdb], ?_⟩
  · intro id' row hrow
    rw [hdb]
    exact ⟨row, hrow, List.Subset.refl _, fun _ _ _ => rfl⟩
  · intro id' hid
    rw [hhandles] at hid
    rw [← Option.some.inj hid]
    exact .inr halone
  · intro work hw
    rw [hidle] at hw
    cases hw

theorem OneHandling.hand {i : Fin n} {t : Turn} {work : StepWork} {message : Delivery}
    (h : OneHandling s) (hbefore : (s.phase i).work = some (work, false))
    (hafter : t.phase.work = some (work, true)) (hdb : t.db = s.db)
    (hsent : t.sent = [⟨work.enrollment.id, work.step.id, message⟩]) :
    OneHandling (s.apply i t) := by
  have hlog : (s.apply i t).sent = s.sent ++ [⟨work.enrollment.id, work.step.id, message⟩] := by
    simp [State.apply, enqueue, hsent]
  have hdb' : (s.apply i t).db = s.db := hdb
  have hcur := h.current i work false hbefore
  have hhandles : ∀ j, ((s.apply i t).phase j).handles = (s.phase j).handles := by
    intro j
    by_cases hji : j = i
    · rw [hji, phase_apply_self, Phase.handles_of_work hafter, Phase.handles_of_work hbefore]
    · rw [phase_apply_of_ne hji]
  constructor
  · intro j k id hj hk
    rw [hhandles] at hj hk
    exact h.alone j k id hj hk
  · intro j work' handed hj
    rw [hdb']
    by_cases hji : j = i
    · rw [hji, phase_apply_self, hafter] at hj
      obtain ⟨rfl, -⟩ := Prod.mk.inj (Option.some.inj hj)
      exact hcur
    · rw [phase_apply_of_ne hji] at hj
      exact h.current j work' handed hj
  · -- the step was not sent before: neither in front of the position nor by another worker
    rw [hlog, List.map_append]
    refine h.nodup.append (List.nodup_singleton _) ?_
    intro k hk hnew
    obtain rfl := List.mem_singleton.mp hnew
    obtain ⟨p, hp, hkey⟩ := List.mem_map.mp hk
    obtain ⟨hpe, hps⟩ := Prod.mk.inj hkey
    obtain ⟨row, hrow, hcase⟩ := h.below p hp
    rcases hcase with hmem | ⟨j, work', hj, hid, -⟩
    · rw [hpe, hcur.row] at hrow
      rw [← Option.some.inj hrow, hps] at hmem
      exact hcur.not_mem_stepsBefore hmem
    · have hji : j = i := by
        apply h.alone j i work.enrollment.id
        · rw [Phase.handles_of_work hj, hid, hpe]
        · exact Phase.handles_of_work hbefore
      rw [hji, hbefore] at hj
      cases hj
  · rw [hlog, hdb']
    intro p hp
    rcases List.mem_append.mp hp with hp | hp
    · obtain ⟨row, hrow, hcase⟩ := h.below p hp
      refine ⟨row, hrow, ?_⟩
      rcases hcase with hmem | ⟨j, work', hj, hid, hstep⟩
      · exact .inl hmem
      · have hji : j ≠ i := by
          rintro rfl
          rw [hbefore] at hj
          cases hj
        exact .inr ⟨j, work', by rwa [phase_apply_of_ne hji], hid, hstep⟩
    · rw [List.mem_singleton.mp hp]
      exact ⟨work.enrollment, hcur.row, .inr ⟨i, work, by rw [phase_apply_self, hafter], rfl, rfl⟩⟩

theorem OneHandling.commit {i : Fin n} {t : Turn} {work : StepWork} {handed : Bool} {eventId : Id}
    {usage : Option UsageChange} (h : OneHandling s) (hbefore : (s.phase i).work = some (work, handed))
    (hdb : t.db = work.commit s.db usage eventId) (hsent : t.sent = [])
    (hwork : t.phase.work = none) (hhandles : t.phase.handles = none) :
    OneHandling (s.apply i t) := by
  have hcur := h.current i work handed hbefore
  have hfound : t.db.enrollments.find? work.enrollment.id = some (work.advance work.enrollment) := by
    rw [hdb]
    exact StepWork.find?_commit hcur.row
  have hsteps : t.db.steps = s.db.steps := by rw [hdb]; rfl
  apply h.apply
  refine ⟨hsent, hsteps, ?_, ?_, ?_, ?_⟩
  · intro id row hrow
    by_cases hid : id = work.enrollment.id
    · subst hid
      rw [hcur.row] at hrow
      obtain rfl := Option.some.inj hrow
      refine ⟨_, hfound, ?_, fun j hj hhandled => ?_⟩
      · rw [stepsBefore_congr hsteps]
        apply List.map_subset
        exact (List.take_prefix_take_left (Nat.le_succ _)).subset
      · exact absurd (h.alone j i _ hhandled (Phase.handles_of_work hbefore)) hj
    · refine ⟨row, ?_, ?_, fun _ _ _ => rfl⟩
      · rw [hdb, StepWork.find?_commit_of_ne hid, hrow]
      · rw [stepsBefore_congr hsteps]
        exact List.Subset.refl _
  · intro id hid
    rw [hhandles] at hid
    cases hid
  · intro work' handed' hw
    rw [hwork] at hw
    cases hw
  · intro work' hw
    rw [hbefore] at hw
    obtain ⟨rfl, -⟩ := Prod.mk.inj (Option.some.inj hw)
    refine .inr ⟨_, hfound, ?_⟩
    rw [stepsBefore_congr hsteps]
    exact mem_stepsBefore_advance hcur

theorem OneHandling.complete {i : Fin n} {t : Turn} {enrollment : SequenceEnrollment} (h : OneHandling s)
    (hbefore : (s.phase i).handles = some enrollment.id) (hnowork : (s.phase i).work = none)
    (hdb : t.db = completeEnrollment s.db enrollment) (hsent : t.sent = [])
    (hwork : t.phase.work = none) (hhandles : t.phase.handles = none) :
    OneHandling (s.apply i t) := by
  have hsteps : t.db.steps = s.db.steps := by rw [hdb]; rfl
  apply h.apply
  refine ⟨hsent, hsteps, ?_, ?_, ?_, ?_⟩
  · intro id row hrow
    by_cases hid : id = enrollment.id
    · subst hid
      refine ⟨_, by rw [hdb]; exact find?_completeEnrollment hrow, ?_, fun j hj hhandled => ?_⟩
      · rw [stepsBefore_congr hsteps]
        exact List.Subset.refl _
      · exact absurd (h.alone j i _ hhandled hbefore) hj
    · refine ⟨row, ?_, ?_, fun _ _ _ => rfl⟩
      · rw [hdb, find?_completeEnrollment_of_ne hid, hrow]
      · rw [stepsBefore_congr hsteps]
        exact List.Subset.refl _
  · intro id hid
    rw [hhandles] at hid
    cases hid
  · intro work' handed' hw
    rw [hwork] at hw
    cases hw
  · intro work' hw
    rw [hnowork] at hw
    cases hw

def ReadAlone (s : State n) : Phase → Action → Prop
  | .received job, .read =>
    match job.payload.text "enrollment_id" with
    | none => True
    | some id => ∀ j, (s.phase j).handles ≠ some id
  | _, _ => True

def handedOver (p : Phase) : Prop := ∃ work, p.work = some (work, true)

/-- Once the provider has got the message, the handling does not fail before its commit took effect. -/
def KeepsHanded (p : Phase) : Action → Prop
  | .send call => call ≠ .raisesAfterEffect
  | .record _ raises => handedOver p → raises = false
  | .publish call => handedOver p → call.raises = false
  | .commit call _ => handedOver p → call.takesEffect = true
  | .crash => ¬ handedOver p
  | _ => True

def Careful (s : State n) : Label n → Prop
  | .worker i action => ReadAlone s (s.phase i) action ∧ KeepsHanded (s.phase i) action
  | _ => True

instance : DecidablePred handedOver := fun p =>
  decidable_of_iff (p.work.any Prod.snd = true) (by
    unfold handedOver
    rcases p.work with _ | ⟨work, handed⟩
    · simp
    · cases handed <;> simp)

instance (s : State n) (p : Phase) (action : Action) : Decidable (ReadAlone s p action) := by
  unfold ReadAlone
  split
  · split <;> infer_instance
  · infer_instance

instance (p : Phase) (action : Action) : Decidable (KeepsHanded p action) := by
  unfold KeepsHanded
  split <;> infer_instance

instance (s : State n) (label : Label n) : Decidable (Careful s label) := by
  unfold Careful
  split <;> infer_instance

theorem OneHandling.readJob {i : Fin n} {t : Turn} {job : Received} (h : OneHandling s)
    (hphase : s.phase i = .received job) (halone : ReadAlone s (s.phase i) .read)
    (hread : readJob s.db job = some t) : OneHandling (s.apply i t) := by
  have hwork : (s.phase i).work = none := by rw [hphase]; rfl
  have hquiet : ∀ p, Phase.work p = none → Phase.handles p = none →
      OneHandling (s.apply i { phase := p, db := s.db }) := by
    intro p hw hh
    refine h.quiet rfl rfl (fun _ _ hrow => hrow) (.inl ?_) (.inr hh)
    rw [hwork, hw]
  rw [hphase] at halone
  unfold SequenceWorkers.readJob at hread
  split at hread
  · rcases readStepJob_cases s.db job.payload with hr | ⟨e, hr, he, -⟩ | ⟨work, hr, hw⟩
    · rw [hr] at hread
      cases hread
      exact hquiet _ rfl rfl
    · rw [hr] at hread
      cases hread
      simp only [ReadAlone, he] at halone
      exact h.begin rfl rfl hwork rfl halone fun _ _ hw => by cases hw
    · rw [hr] at hread
      cases hread
      simp only [ReadAlone, hw.enrollment] at halone
      refine h.begin rfl rfl hwork rfl halone fun work' handed hw' => ?_
      obtain ⟨rfl, -⟩ := Prod.mk.inj (Option.some.inj hw')
      exact ⟨hw.row, hw.step⟩
  · split at hread
    · split at hread
      · cases hread
        exact hquiet _ rfl rfl
      · cases hread
        exact hquiet _ rfl rfl
    · cases hread

theorem OneHandling.send {i : Fin n} {settings : Settings} {h₀ : Handling} {call : CallOutcome}
    (h : OneHandling s) (hphase : s.phase i = .executing h₀) (hkeep : call ≠ .raisesAfterEffect) :
    OneHandling (s.apply i (sendStep settings s.db h₀ call)) := by
  have hbefore : (s.phase i).work = some (h₀.work, false) := by rw [hphase]; rfl
  have hhandles := Phase.handles_of_work hbefore
  cases call with
  | raisesAfterEffect => exact absurd rfl hkeep
  | raisesWithoutEffect =>
    have hnone : (h₀.work.deliver settings .raisesWithoutEffect).message = none := executeStep_withoutEffect
    refine h.quiet (by simp [sendStep, hnone]) rfl (fun _ _ hrow => hrow) ?_ ?_
    · simp only [sendStep, hbefore, hnone]
      cases (h₀.work.deliver settings .raisesWithoutEffect).returned with
      | none => exact .inr ⟨rfl, fun _ hw => by cases hw⟩
      | some token => exact .inl rfl
    · rw [hhandles]
      simp only [sendStep, hnone]
      cases (h₀.work.deliver settings .raisesWithoutEffect).returned with
      | none => exact .inr rfl
      | some token => exact .inl rfl
  | returns =>
    obtain ⟨token, message, hexec⟩ : ∃ token message,
      h₀.work.deliver settings .returns = ⟨some token, message⟩ := executeStep_returns
    cases message with
    | none =>
      refine h.quiet (by simp [sendStep, hexec]) rfl (fun _ _ hrow => hrow) (.inl ?_) (.inl ?_)
      · rw [hbefore]
        simp [sendStep, hexec, Phase.work]
      · rw [hhandles]
        simp [sendStep, hexec, Phase.work, Phase.handles]
    | some message =>
      have hsent : (sendStep settings s.db h₀ .returns).sent =
          [⟨h₀.work.enrollment.id, h₀.work.step.id, message⟩] := by simp [sendStep, hexec]
      refine h.hand hbefore ?_ rfl hsent
      simp [sendStep, hexec, Phase.work]

theorem raises_of_publishJob {settings : Settings} {call : CallOutcome} {job : QueueJob}
    (h : (publishJob settings call job).2 = true) : call.raises = true := by
  have hraised : (SQSPublisher.publish settings call job).1 = .raised := of_decide_eq_true h
  unfold SQSPublisher.publish at hraised
  split at hraised
  · cases hraised
  · by_contra hr
    simp [hr] at hraised

theorem OneHandling.quit {i : Fin n} {t : Turn} (h : OneHandling s) (hnot : ¬ handedOver (s.phase i))
    (hsent : t.sent = []) (hsteps : t.db.steps = s.db.steps)
    (hrows : ∀ id row, s.db.enrollments.find? id = some row → t.db.enrollments.find? id = some row)
    (hwork : t.phase.work = none) (hhandles : t.phase.handles = none) : OneHandling (s.apply i t) :=
  h.quiet hsent hsteps hrows (.inr ⟨hwork, fun work hw => hnot ⟨work, hw⟩⟩) (.inr hhandles)

theorem OneHandling.commitStep {i : Fin n} {t : Turn} {h₀ : Handling} {usage : Option UsageChange}
    {handed : Bool} {call : CallOutcome} {eventId : Id} (h : OneHandling s)
    (hbefore : (s.phase i).work = some (h₀.work, handed))
    (hkeep : handedOver (s.phase i) → call.takesEffect = true)
    (hcommit : commitStep s.db h₀ usage call eventId = some t) : OneHandling (s.apply i t) := by
  unfold SequenceWorkers.commitStep at hcommit
  split at hcommit
  · cases hcommit
    cases call with
    | returns => exact h.commit hbefore rfl rfl rfl rfl
    | raisesAfterEffect => exact h.commit hbefore rfl rfl rfl rfl
    | raisesWithoutEffect =>
      have hnot : ¬ handedOver (s.phase i) := fun hh => absurd (hkeep hh) Bool.false_ne_true
      exact h.quit hnot rfl rfl (fun _ _ hrow => hrow) rfl rfl
  · cases hcommit

theorem find?_commitEnrollments_of_some {db : Db} {made : List Made} {id : Id} {row : SequenceEnrollment}
    (h : db.enrollments.find? id = some row) :
    (commitEnrollments db made).enrollments.find? id = some row := by
  have hfold : ∀ t : Table SequenceEnrollment.id, t.find? id = some row →
      (made.foldl (fun t m => t.insert m.enrollment) t).find? id = some row := by
    induction made with
    | nil => exact fun t ht => ht
    | cons m made ih => exact fun t ht => ih _ (Table.find?_insert_of_some ht)
  exact hfold _ h

theorem OneHandling.worker {i : Fin n} {action : Action} {t : Turn} {settings : Settings}
    (h : OneHandling s) (hc : Careful s (.worker i action))
    (hact : Acted settings s.db s.minted (s.phase i) action t) : OneHandling (s.apply i t) := by
  obtain ⟨halone, hkeep⟩ := hc
  have hrefl : ∀ id row, s.db.enrollments.find? id = some row → s.db.enrollments.find? id = some row :=
    fun _ _ hrow => hrow
  generalize hphase : s.phase i = p at hact
  have hnone : p.work = none → ¬ handedOver (s.phase i) := by
    rintro hwork ⟨work, hw⟩
    rw [hphase, hwork] at hw
    cases hw
  cases hact with
  | read hread => exact h.readJob hphase halone hread
  | send h₀ call => exact h.send hphase hkeep
  | recordFailed h₀ token handed today =>
    have hnot : ¬ handedOver (s.phase i) := fun hh => Bool.noConfusion (hkeep hh)
    exact h.quit hnot rfl rfl hrefl rfl rfl
  | record h₀ token handed today =>
    have hbefore : (s.phase i).work = some (h₀.work, handed) := by rw [hphase]; rfl
    refine h.quiet rfl rfl hrefl (.inl ?_) (.inl ?_)
    · rw [hbefore]
      rfl
    · rw [Phase.handles_of_work hbefore]
      rfl
  | publish h₀ usage handed call =>
    have hbefore : (s.phase i).work = some (h₀.work, handed) := by rw [hphase]; rfl
    cases hr : (publishJob settings call h₀.work.followUp).2 with
    | true =>
      have hnot : ¬ handedOver (s.phase i) := by
        intro hh
        have hraise := raises_of_publishJob hr
        rw [hkeep hh] at hraise
        cases hraise
      refine h.quit hnot rfl rfl hrefl ?_ ?_
      · simp [publishStep, hr, Phase.work]
      · simp [publishStep, hr, Phase.work, Phase.handles]
    | false =>
      refine h.quiet rfl rfl hrefl (.inl ?_) (.inl ?_)
      · rw [hbefore]
        simp [publishStep, hr, Phase.work]
      · rw [Phase.handles_of_work hbefore]
        simp [publishStep, hr, Phase.work, Phase.handles]
  | commitLast _ hcommit => exact h.commitStep (by rw [hphase]; rfl) hkeep hcommit
  | commit hcommit => exact h.commitStep (by rw [hphase]; rfl) hkeep hcommit
  | complete job enrollment call eventId =>
    have hwork : (s.phase i).work = none := by rw [hphase]; rfl
    have hhandles : (s.phase i).handles = some enrollment.id := by rw [hphase]; rfl
    cases call with
    | returns => exact h.complete hhandles hwork rfl rfl rfl rfl
    | raisesAfterEffect => exact h.complete hhandles hwork rfl rfl rfl rfl
    | raisesWithoutEffect => exact h.quit (hnone rfl) rfl rfl hrefl rfl rfl
  | enroll hnext =>
    unfold enrollNext at hnext
    split at hnext
    · cases hnext
    · cases hnext
      refine h.quit (hnone rfl) rfl rfl hrefl ?_ ?_
      · dsimp only
        split <;> rfl
      · dsimp only
        split <;> rfl
  | commitEnrollments job tenantId leadId made call eventId =>
    have hmade : ∀ id row, s.db.enrollments.find? id = some row →
        (commitEnrollments s.db made).enrollments.find? id = some row :=
      fun _ _ hrow => find?_commitEnrollments_of_some hrow
    cases call with
    | returns => exact h.quit (hnone rfl) rfl rfl hmade rfl rfl
    | raisesAfterEffect => exact h.quit (hnone rfl) rfl rfl hmade rfl rfl
    | raisesWithoutEffect => exact h.quit (hnone rfl) rfl rfl hrefl rfl rfl
  | save job call jobId error =>
    refine h.quit (hnone rfl) rfl rfl hrefl ?_ ?_
    · simp only [saveJob]
      split <;> rfl
    · simp only [saveJob]
      split <;> rfl
  | skip job => exact h.quit (hnone rfl) rfl rfl hrefl rfl rfl
  | deleteReturned job call => exact h.quit (hnone rfl) rfl rfl hrefl rfl rfl
  | deleteSaved job call => exact h.quit (hnone rfl) rfl rfl hrefl rfl rfl
  | crash => exact h.quit hkeep rfl rfl hrefl rfl rfl

theorem OneHandling.frame {s' : State n} (h : OneHandling s) (hpolled : Polled s s')
    (hsent : s'.sent = s.sent) (hsteps : s'.db.steps = s.db.steps)
    (hrows : ∀ id row, s.db.enrollments.find? id = some row → s'.db.enrollments.find? id = some row) :
    OneHandling s' := by
  have hview : ∀ i, (s'.phase i).work = (s.phase i).work ∧ (s'.phase i).handles = (s.phase i).handles := by
    intro i
    rcases hpolled i with heq | ⟨hidle, job, hjob⟩
    · rw [heq]
      exact ⟨rfl, rfl⟩
    · rw [hidle, hjob]
      exact ⟨rfl, rfl⟩
  constructor
  · intro i j id hi hj
    rw [(hview i).2] at hi
    rw [(hview j).2] at hj
    exact h.alone i j id hi hj
  · intro i work handed hw
    rw [(hview i).1] at hw
    have hcur := h.current i work handed hw
    refine ⟨hrows _ _ hcur.row, ?_⟩
    simp only [listForSequence, hsteps]
    exact hcur.step
  · rw [hsent]
    exact h.nodup
  · rw [hsent]
    intro p hp
    obtain ⟨row, hrow, hcase⟩ := h.below p hp
    refine ⟨row, hrows _ _ hrow, ?_⟩
    rcases hcase with hmem | ⟨i, work, hw, hid, hstep⟩
    · exact .inl (by rwa [stepsBefore_congr hsteps])
    · exact .inr ⟨i, work, by rwa [(hview i).1], hid, hstep⟩

theorem OneHandling.step {s' : State n} {label : Label n} {settings : Settings} (h : OneHandling s)
    (hc : Careful s label) (hstep : Stepped settings s label s') : OneHandling s' := by
  have hrefl : ∀ id row, s.db.enrollments.find? id = some row → s.db.enrollments.find? id = some row :=
    fun _ _ hrow => hrow
  cases hstep with
  | receive hworker => exact h.frame (polled_receive hworker) rfl rfl hrefl
  | next hworker => exact h.frame (polled_next hworker) rfl rfl hrefl
  | worker hact => exact h.worker hc hact
  | enroll _ _ _ _ => exact h.frame (polled_of_workers rfl) rfl rfl hrefl
  | commit call _ =>
    exact h.frame (polled_of_workers rfl) rfl rfl fun _ _ hrow => Table.find?_insert_of_some hrow
  | commitFailed call _ => exact h.frame (polled_of_workers rfl) rfl rfl hrefl
  | publish call _ => exact h.frame (polled_of_workers rfl) rfl rfl hrefl
  | trigger _ _ => exact h.frame (polled_of_workers rfl) rfl rfl hrefl
  | replay _ _ => exact h.frame (polled_of_workers rfl) rfl rfl hrefl
  | other _ _ _ => exact h.frame (polled_of_workers rfl) rfl rfl hrefl

theorem oneHandling_of_run {settings : Settings} {db : Db} {labels : List (Label n)}
    (hrun : GuardedRun (Enabled (State.step settings)) Careful (start n db) labels s) : OneHandling s :=
  hrun.invariant OneHandling (fun _ _ _ h hc hstep => h.step hc (stepped_of_step hstep))
    (oneHandling_start db)

end State

theorem step_sent_at_most_once (n : ℕ) (settings : Settings) (db : Db) (labels : List (Label n))
    (s : State n) (hrun : GuardedRun (Enabled (State.step settings)) State.Careful
      (State.start n db) labels s)
    (enrollmentId stepId : Id) :
    s.sent.countP (fun p => p.enrollmentId = enrollmentId ∧ p.stepId = stepId) ≤ 1 := by
  have hnodup := (State.oneHandling_of_run hrun).nodup
  have hcount := List.nodup_iff_count_le_one.mp hnodup (enrollmentId, stepId)
  rw [List.count, List.countP_map] at hcount
  refine le_trans (List.countP_mono_left fun p _ hp => ?_) hcount
  obtain ⟨rfl, rfl⟩ := of_decide_eq_true hp
  simp [Sent.key]

def workerSettings : Settings where
  sqsSequenceJobsQueueUrl := some "https://sqs/sequence_jobs"
  sesFromEmail := some "sequences@example.com"

def enrollLabels (n : ℕ) : List (Label n) :=
  [.enroll 0 "tenant-seq" "seq-1" "lead-1" "enr-1", .commit 0 .returns, .publish 0 .returns]

def takeUp {n : ℕ} (i : Fin n) (id : ℕ) : List (Label n) :=
  [.receive i [id], .next i, .worker i .read]

def deliverStep {n : ℕ} (i : Fin n) : List (Label n) :=
  [.worker i (.send .returns), .worker i (.record 0 false)]

def cleanLabels : List (Label 1) :=
  enrollLabels 1 ++ takeUp 0 0 ++ deliverStep 0 ++
    [.worker 0 (.publish .returns), .worker 0 (.commit .returns "ev-1"), .worker 0 (.delete .returns)] ++
    takeUp 0 1 ++ deliverStep 0 ++ [.worker 0 (.commit .returns "ev-2"), .worker 0 (.delete .returns)]

theorem step_sent_at_most_once_clean :
    ∃ s, runChecked (State.step workerSettings) State.Careful (State.start 1 welcomeDb)
        cleanLabels = some s ∧
      s.sent.map Sent.key = [("enr-1", "step-a"), ("enr-1", "step-b")] ∧
      s.sent.countP (fun p => p.enrollmentId = "enr-1" ∧ p.stepId = "step-a") ≤ 1 := by
  have hrun : (runChecked (State.step workerSettings) State.Careful (State.start 1 welcomeDb)
      cleanLabels).any
        (fun s => s.sent.map Sent.key = [("enr-1", "step-a"), ("enr-1", "step-b")]) = true := by
    decide +kernel
  obtain ⟨s, hs, hkeys⟩ := (Option.any_eq_true _ _).mp hrun
  exact ⟨s, hs, of_decide_eq_true hkeys, step_sent_at_most_once 1 workerSettings welcomeDb cleanLabels s
    (guarded_of_runChecked hs) "enr-1" "step-a"⟩

def resendLabels : List (Label 1) :=
  enrollLabels 1 ++ takeUp 0 0 ++ deliverStep 0 ++
    [.worker 0 (.publish .returns), .worker 0 (.commit .raisesWithoutEffect "ev-1"), .worker 0 .skip] ++
    takeUp 0 0 ++ deliverStep 0

def overlapLabels {n : ℕ} (i j : Fin n) : List (Label n) :=
  enrollLabels n ++ [.receive i [0], .receive j [0], .next i, .next j, .worker i .read, .worker j .read] ++
    deliverStep i ++ deliverStep j

theorem step_sent_twice :
    (∃ s, runSteps (State.step workerSettings) (State.start 1 welcomeDb) resendLabels = some s ∧
        s.sent.map Sent.key = [("enr-1", "step-a"), ("enr-1", "step-a")]) ∧
      ∃ s, runSteps (State.step workerSettings) (State.start 2 welcomeDb) (overlapLabels 0 1) = some s ∧
        s.sent.map Sent.key = [("enr-1", "step-a"), ("enr-1", "step-a")] := by
  have hresend : (runSteps (State.step workerSettings) (State.start 1 welcomeDb) resendLabels).any
      (fun s => s.sent.map Sent.key = [("enr-1", "step-a"), ("enr-1", "step-a")]) = true := by
    decide +kernel
  have hoverlap : (runSteps (State.step workerSettings) (State.start 2 welcomeDb) (overlapLabels 0 1)).any
      (fun s => s.sent.map Sent.key = [("enr-1", "step-a"), ("enr-1", "step-a")]) = true := by
    decide +kernel
  obtain ⟨s, hs, hkeys⟩ := (Option.any_eq_true _ _).mp hresend
  obtain ⟨s', hs', hkeys'⟩ := (Option.any_eq_true _ _).mp hoverlap
  exact ⟨⟨s, hs, of_decide_eq_true hkeys⟩, s', hs', of_decide_eq_true hkeys'⟩

end Leadline.SequenceWorkers
