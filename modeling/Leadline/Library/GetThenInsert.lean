import Leadline.Library.GuardedRun
import Mathlib.Data.List.Count
import Mathlib.Data.List.Nodup
import Mathlib.Logic.Function.Basic

/-!
Transactions that look a key up, insert it when it is missing and commit at the end, over a store
without a unique constraint. A lookup sees the committed keys and those the transaction has
inserted itself, and fails on a key it sees twice.
-/

namespace Leadline.Library.GetThenInsert

variable {κ : Type*}

inductive Phase (κ : Type*)
  | ready (todo pending : List κ)
  | absent (key : κ) (todo pending : List κ)
  | inserted (key : κ) (todo pending : List κ)
  | committed
  | failed
  | aborted
  deriving DecidableEq

inductive Action
  | lookup
  | insert
  | mark (again : Bool)
  | commit
  | abort

def Phase.pending : Phase κ → List κ
  | ready _ pending => pending
  | absent _ _ pending => pending
  | inserted _ _ pending => pending
  | _ => []

section

variable [DecidableEq κ] (marked : κ → Bool)

def act (store : List κ) : Phase κ → Action → Option (Phase κ × List κ)
  | .ready (key :: todo) pending, .lookup =>
    if (store ++ pending).count key = 0 then some (.absent key todo pending, store)
    else if (store ++ pending).count key = 1 then some (.ready todo pending, store)
    else some (.failed, store)
  | .absent key todo pending, .insert =>
    if marked key then some (.inserted key todo (pending ++ [key]), store)
    else some (.ready todo (pending ++ [key]), store)
  | .inserted key todo pending, .mark again =>
    if (store ++ pending).count key ≤ 1 then
      some (if again then .inserted key todo pending else .ready todo pending, store)
    else some (.failed, store)
  | .ready [] pending, .commit => some (.committed, store ++ pending)
  | .committed, _ => none
  | .failed, _ => none
  | .aborted, _ => none
  | _, .abort => some (.aborted, store)
  | _, _ => none

def touched : Phase κ → Action → List κ
  | .ready (key :: _) _, .lookup => [key]
  | .inserted key _ _, .mark _ => [key]
  | .ready [] pending, .commit => pending
  | _, _ => []

def note (seen : κ → List κ) (store : List κ) : Phase κ → Action → κ → List κ
  | .ready (key :: _) _, .lookup => Function.update seen key store
  | _, _ => seen

end

/-- `seen` is for the conditions: no step reads it. -/
structure State (ι κ : Type*) where
  store : List κ
  actors : ι → Phase κ
  seen : ι → κ → List κ

variable {ι : Type*}

def State.start (store : List κ) (todo : ι → List κ) : State ι κ :=
  ⟨store, fun i => .ready (todo i) [], fun _ _ => []⟩

variable [DecidableEq ι] [DecidableEq κ] (marked : κ → Bool)

def step (s : State ι κ) (label : ι × Action) : Option (State ι κ) :=
  (act marked s.store (s.actors label.1) label.2).map fun r =>
    ⟨r.2, Function.update s.actors label.1 r.1,
      Function.update s.seen label.1 (note (s.seen label.1) s.store (s.actors label.1) label.2)⟩

/-- No one else has committed a key that the step touches and the transaction has inserted, since it looked the key
up itself. -/
def Admitted (s : State ι κ) (label : ι × Action) : Prop :=
  ∀ key ∈ touched (s.actors label.1) label.2, key ∈ (s.actors label.1).pending → key ∈ s.store →
    key ∈ s.seen label.1 key

instance (s : State ι κ) (label : ι × Action) : Decidable (Admitted s label) :=
  inferInstanceAs (Decidable (∀ key ∈ touched _ _, _ → _ → _ ∈ _))

structure Unique (s : State ι κ) : Prop where
  nodup : s.store.Nodup
  unfailed : ∀ i, s.actors i ≠ .failed

def Phase.Sound : Phase κ → Prop
  | ready _ pending => pending.Nodup
  | absent key _ pending => pending.Nodup ∧ key ∉ pending
  | inserted key _ pending => pending.Nodup ∧ key ∈ pending
  | _ => True

def Phase.claimed : Phase κ → List κ
  | absent key _ pending => key :: pending
  | p => p.pending

def Phase.Looked (p : Phase κ) (seen : κ → List κ) : Prop := ∀ key ∈ p.claimed, key ∉ seen key

variable {marked} {store : List κ} {p : Phase κ} {a : Action} {r : Phase κ × List κ}

section

variable {key : κ} {todo pending : List κ}

theorem act_lookup_absent (h : (store ++ pending).count key = 0) :
    act marked store (.ready (key :: todo) pending) .lookup = some (.absent key todo pending, store) := by
  rw [act, if_pos h]

theorem runSteps_found (h : (store ++ pending).count key = 1) :
    runSteps (fun r a => act marked r.2 r.1 a) (.ready (key :: todo) pending, store) [.lookup] =
      some (.ready todo pending, store) := by
  have hlookup : act marked store (.ready (key :: todo) pending) .lookup = some (.ready todo pending, store) := by
    rw [act, if_neg (by omega), if_pos h]
  simp only [runSteps, hlookup, Option.bind_some]

theorem runSteps_failed (h : 2 ≤ (store ++ pending).count key) :
    runSteps (fun r a => act marked r.2 r.1 a) (.ready (key :: todo) pending, store) [.lookup] = some (.failed, store) := by
  have hlookup : act marked store (.ready (key :: todo) pending) .lookup = some (.failed, store) := by
    rw [act, if_neg (by omega), if_neg (by omega)]
  simp only [runSteps, hlookup, Option.bind_some]

theorem runSteps_absent (h : (store ++ pending).count key = 0) : ∃ actions,
    runSteps (fun r a => act marked r.2 r.1 a) (.ready (key :: todo) pending, store) actions =
      some (.ready todo (pending ++ [key]), store) := by
  have hone : (store ++ (pending ++ [key])).count key ≤ 1 := by
    rw [← List.append_assoc, List.count_append, h]
    simp
  cases hmarked : marked key with
  | true =>
    refine ⟨[.lookup, .insert, .mark false], ?_⟩
    simp only [runSteps, act_lookup_absent h, Option.bind_some]
    simp only [act, hmarked, if_true, Option.bind_some, hone, Bool.false_eq_true, if_false]
  | false =>
    refine ⟨[.lookup, .insert], ?_⟩
    simp only [runSteps, act_lookup_absent h, Option.bind_some]
    simp only [act, hmarked, Bool.false_eq_true, if_false, Option.bind_some]

end

omit [DecidableEq κ] in
theorem count_le_one [BEq κ] [LawfulBEq κ] {pending : List κ} {key : κ} (hstore : store.Nodup)
    (hpending : pending.Nodup) (h : key ∈ pending → key ∉ store) : (store ++ pending).count key ≤ 1 := by
  have hs := List.nodup_iff_count_le_one.mp hstore key
  have hp := List.nodup_iff_count_le_one.mp hpending key
  rw [List.count_append]
  by_cases hkey : key ∈ pending
  · have hzero := List.count_eq_zero_of_not_mem (h hkey)
    omega
  · have hzero := List.count_eq_zero_of_not_mem hkey
    omega

theorem act_sound (hstore : store.Nodup) (hp : p.Sound) (hfailed : p ≠ .failed)
    (hok : ∀ key ∈ touched p a, key ∈ p.pending → key ∉ store) (h : act marked store p a = some r) :
    r.1.Sound ∧ r.1 ≠ .failed ∧ r.2.Nodup := by
  unfold act at h
  split at h
  case h_1 key todo pending =>
    have hone := count_le_one hstore hp (hok key (by simp [touched]))
    split at h
    · rename_i hzero
      cases h
      refine ⟨⟨hp, ?_⟩, by simp, hstore⟩
      intro hm
      have hpos := List.count_pos_iff.mpr (List.mem_append_right store hm)
      omega
    · split at h
      · cases h
        exact ⟨hp, by simp, hstore⟩
      · omega
  case h_2 key todo pending =>
    have hnodup : (pending ++ [key]).Nodup := by
      apply hp.1.append (by simp)
      simpa using hp.2
    split at h
    · cases h
      exact ⟨⟨hnodup, by simp⟩, by simp, hstore⟩
    · cases h
      exact ⟨hnodup, by simp, hstore⟩
  case h_3 key todo pending again =>
    have hone := count_le_one hstore hp.1 (hok key (by simp [touched]))
    rw [if_pos hone] at h
    cases h
    cases again with
    | true => exact ⟨hp, by simp, hstore⟩
    | false => exact ⟨hp.1, by simp, hstore⟩
  case h_4 pending =>
    cases h
    refine ⟨trivial, by simp, hstore.append hp ?_⟩
    intro key hs hk
    exact hok key hk hk hs
  case h_5 => cases h
  case h_6 => cases h
  case h_7 => cases h
  case h_8 =>
    cases h
    exact ⟨trivial, by simp, hstore⟩
  case h_9 => cases h

theorem act_looked {seen : κ → List κ} (hp : p.Looked seen) (hok : ∀ key ∈ touched p a, key ∈ p.pending → key ∉ store)
    (h : act marked store p a = some r) : r.1.Looked (note seen store p a) := by
  unfold act at h
  split at h
  case h_1 key todo pending =>
    have hothers : ∀ k ∈ pending, k ≠ key → k ∉ note seen store (.ready (key :: todo) pending) .lookup k := by
      intro k hk hne
      rw [note, Function.update_of_ne hne]
      exact hp k hk
    split at h
    · rename_i hzero
      cases h
      have hfree := List.count_eq_zero.mp hzero
      intro k hk
      rcases List.mem_cons.mp hk with rfl | hk
      · rw [note, Function.update_self]
        exact fun hm => hfree (List.mem_append_left _ hm)
      · exact hothers k hk fun heq => hfree (List.mem_append_right _ (heq ▸ hk))
    · split at h
      · cases h
        intro k hk
        by_cases heq : k = key
        · subst heq
          rw [note, Function.update_self]
          exact hok k (by simp [touched]) hk
        · exact hothers k hk heq
      · cases h
        exact fun k hk => absurd hk List.not_mem_nil
  case h_2 key todo pending =>
    have hmem : ∀ k ∈ pending ++ [key], k ∉ seen k := by
      intro k hk
      rcases List.mem_append.mp hk with hk | hk
      · exact hp k (List.mem_cons_of_mem key hk)
      · rw [List.mem_singleton.mp hk]
        exact hp key List.mem_cons_self
    split at h
    · cases h
      exact hmem
    · cases h
      exact hmem
  case h_3 key todo pending again =>
    split at h
    · cases h
      cases again with
      | true => exact hp
      | false => exact hp
    · cases h
      exact fun k hk => absurd hk List.not_mem_nil
  case h_4 pending =>
    cases h
    exact fun k hk => absurd hk List.not_mem_nil
  case h_5 => cases h
  case h_6 => cases h
  case h_7 => cases h
  case h_8 =>
    cases h
    exact fun k hk => absurd hk List.not_mem_nil
  case h_9 => cases h

theorem admitted_of_act (hp : p.Sound) (h : act marked store p a = some r) (hfailed : r.1 ≠ .failed)
    (hnodup : r.2.Nodup) : ∀ key ∈ touched p a, key ∈ p.pending → key ∉ store := by
  intro key hkey hpending hstore
  have htwo : ∀ pending, key ∈ pending → 2 ≤ (store ++ pending).count key := by
    intro pending hm
    have hs := List.count_pos_iff.mpr hstore
    have hp := List.count_pos_iff.mpr hm
    rw [List.count_append]
    omega
  unfold touched at hkey
  split at hkey
  case h_1 k todo pending =>
    rw [List.mem_singleton] at hkey
    subst hkey
    have hcount := htwo pending hpending
    simp only [act] at h
    split at h
    · omega
    · split at h
      · omega
      · cases h
        exact hfailed rfl
  case h_2 k todo pending again =>
    rw [List.mem_singleton] at hkey
    subst hkey
    have hcount := htwo pending hpending
    rw [act, if_neg (by omega)] at h
    cases h
    exact hfailed rfl
  case h_3 pending =>
    cases h
    exact (List.nodup_append.mp hnodup).2.2 key hstore key hkey rfl
  case h_4 => cases hkey

variable {s s' : State ι κ} {label : ι × Action}

structure Sound (s : State ι κ) : Prop extends Unique s where
  phases : ∀ i, (s.actors i).Sound
  looked : ∀ i, (s.actors i).Looked (s.seen i)

omit [DecidableEq ι] [DecidableEq κ] in
theorem mem_claimed {key : κ} (h : key ∈ p.pending) : key ∈ p.claimed := by
  cases p with
  | absent k todo pending => exact List.mem_cons_of_mem k h
  | ready todo pending => exact h
  | inserted k todo pending => exact h
  | committed => exact h
  | failed => exact h
  | aborted => exact h

omit [DecidableEq ι] [DecidableEq κ] in
theorem Sound.not_mem_store {label : ι × Action} (h : Sound s) (hok : Admitted s label) :
    ∀ key ∈ touched (s.actors label.1) label.2, key ∈ (s.actors label.1).pending → key ∉ s.store := by
  intro key hkey hpending hstore
  exact h.looked label.1 key (mem_claimed hpending) (hok key hkey hpending hstore)

theorem Sound.step (h : Sound s) (hok : Admitted s label)
    (hstep : GetThenInsert.step marked s label = some s') : Sound s' := by
  obtain ⟨r, hact, rfl⟩ := Option.map_eq_some_iff.mp hstep
  have hmissing := h.not_mem_store hok
  obtain ⟨hsound, hfailed, hnodup⟩ := act_sound h.nodup (h.phases label.1) (h.unfailed label.1) hmissing hact
  have hlooked := act_looked (h.looked label.1) hmissing hact
  constructor
  · constructor
    · exact hnodup
    · intro i
      dsimp only
      rw [Function.update_apply]
      split
      · exact hfailed
      · exact h.unfailed i
  · intro i
    dsimp only
    rw [Function.update_apply]
    split
    · exact hsound
    · exact h.phases i
  · intro i
    dsimp only
    by_cases hi : i = label.1
    · rw [hi, Function.update_self, Function.update_self]
      exact hlooked
    · rw [Function.update_of_ne hi, Function.update_of_ne hi]
      exact h.looked i

omit [DecidableEq ι] [DecidableEq κ] in
theorem Sound.start {todo : ι → List κ} (h : store.Nodup) : Sound (State.start store todo) := by
  constructor
  · exact ⟨h, by simp [State.start]⟩
  · exact fun _ => List.nodup_nil
  · exact fun _ key hkey => absurd hkey List.not_mem_nil

theorem admitted_of_unique (h : Sound s) (hstep : step marked s label = some s') (hs' : Unique s') :
    Admitted s label := by
  obtain ⟨r, hact, rfl⟩ := Option.map_eq_some_iff.mp hstep
  have hmissing := admitted_of_act (h.phases label.1) hact ?_ hs'.nodup
  · intro key hkey hpending hstore
    exact absurd hstore (hmissing key hkey hpending)
  · have hself := hs'.unfailed label.1
    dsimp only at hself
    rwa [Function.update_self] at hself

theorem unique_of_run {todo : ι → List κ} {labels : List (ι × Action)} (h : store.Nodup)
    (hrun : GuardedRun (Enabled (step marked)) Admitted (State.start store todo) labels s) :
    Unique s ∧ ∀ label s', step marked s label = some s' → (Unique s' ↔ Admitted s label) := by
  have hsound : Sound s := by
    apply hrun.invariant Sound
    · intro s label s' h hok hstep
      exact h.step hok hstep
    · exact Sound.start h
  refine ⟨hsound.toUnique, ?_⟩
  intro label s' hstep
  constructor
  · exact admitted_of_unique hsound hstep
  · intro hok
    exact (hsound.step hok hstep).toUnique

end Leadline.Library.GetThenInsert
