import Mathlib.Data.Int.Notation
import Mathlib.Data.List.Basic
import Mathlib.Tactic.Linarith

/-!
A counter that admits a number of calls in each window of time. A window begins with the first call
that comes a `width` or more after the one before.
-/

namespace Leadline.Library.FixedWindow

structure Window where
  start : ℤ
  count : ℕ

variable (limit width : ℤ)

def answer : Option Window → ℤ → Bool × Option Window
  | none, now => (true, some ⟨now, 1⟩)
  | some w, now =>
    if width ≤ now - w.start then (true, some ⟨now, 1⟩)
    else if limit ≤ w.count then (false, some w)
    else (true, some ⟨w.start, w.count + 1⟩)

def windowAfter : Option Window → List ℤ → Option Window
  | w, [] => w
  | w, now :: times => windowAfter (answer limit width w now).2 times

def decisions : Option Window → List ℤ → List (ℤ × Bool)
  | _, [] => []
  | w, now :: times => (now, (answer limit width w now).1) :: decisions (answer limit width w now).2 times

def admitted (log : List (ℤ × Bool)) (p : ℤ → Bool) : ℕ := log.countP fun e => e.2 && p e.1

variable {limit width} {log : List (ℤ × Bool)} {w : Option Window} {now : ℤ}

theorem admitted_append (ok : Bool) (p : ℤ → Bool) :
    admitted (log ++ [(now, ok)]) p = admitted log p + if ok && p now then 1 else 0 := by
  simp [admitted, List.countP_append, List.countP_cons]

theorem admitted_mono (log : List (ℤ × Bool)) {p q : ℤ → Bool} (h : ∀ t, p t = true → q t = true) : admitted log p ≤ admitted log q := by
  apply List.countP_mono_left
  intro e _ he
  rw [Bool.and_eq_true] at he ⊢
  exact ⟨he.1, h e.1 he.2⟩

theorem admitted_le_add (log : List (ℤ × Bool)) {p q r : ℤ → Bool} (h : ∀ t, p t = true → q t = true ∨ r t = true) :
    admitted log p ≤ admitted log q + admitted log r := by
  induction log with
  | nil => simp [admitted]
  | cons e log ih =>
    have he := h e.1
    simp only [admitted, List.countP_cons] at ih ⊢
    cases e.2 <;> cases hp : p e.1 <;> cases hq : q e.1 <;> cases hr : r e.1 <;> simp_all <;> omega

structure Sound (limit width : ℤ) (log : List (ℤ × Bool)) (w : Option Window) : Prop where
  fresh : w = none → log = []
  logged : ∀ v, w = some v → ∃ e ∈ log, e.1 = v.start
  within : ∀ v, w = some v → ∀ e ∈ log, e.1 < v.start + width
  count : ∀ v, w = some v → admitted log (fun t => v.start ≤ t) = v.count
  later : ∀ v, w = some v → admitted log (fun t => v.start < t) + 1 ≤ v.count
  limited : ∀ v, w = some v → v.count ≤ limit
  earlier : ∀ v, w = some v → ∀ a, v.start < a + width →
    admitted log (fun t => a ≤ t && t < v.start) ≤ limit - 1
  burst : ∀ a, admitted log (fun t => a ≤ t && t < a + width) ≤ 2 * limit - 1

namespace Sound

theorem nil (hlimit : 1 ≤ limit) : Sound limit width [] none where
  fresh _ := rfl
  logged v hv := by cases hv
  within v hv := by cases hv
  count v hv := by cases hv
  later v hv := by cases hv
  limited v hv := by cases hv
  earlier v hv := by cases hv
  burst a := by
    simp only [admitted, List.countP_nil]
    omega

theorem restart (h : Sound limit width log w) (hlimit : 1 ≤ limit) (hwidth : 0 < width)
    (hpast : ∀ e ∈ log, e.1 < now) (hbefore : ∀ a, now < a + width → admitted log (fun t => a ≤ t) ≤ limit - 1) :
    Sound limit width (log ++ [(now, true)]) (some ⟨now, 1⟩) := by
  have hnone : ∀ p : ℤ → Bool, (∀ t, p t = true → now ≤ t) → admitted log p = 0 := by
    intro p hp
    rw [admitted, List.countP_eq_zero]
    intro e he htrue
    rw [Bool.and_eq_true] at htrue
    exact absurd (hp e.1 htrue.2) (by have := hpast e he; omega)
  constructor
  · intro hw
    cases hw
  · intro v hv
    cases hv
    exact ⟨(now, true), by simp, rfl⟩
  · intro v hv e he
    cases hv
    rcases List.mem_append.mp he with he | he
    · have := hpast e he
      dsimp only
      omega
    · cases List.mem_singleton.mp he
      dsimp only
      omega
  · intro v hv
    cases hv
    rw [admitted_append, hnone _ (by simp)]
    simp
  · intro v hv
    cases hv
    rw [admitted_append, hnone _ (by simp; omega)]
    simp
  · intro v hv
    cases hv
    simpa using hlimit
  · intro v hv a ha
    cases hv
    rw [admitted_append]
    have hmono := admitted_mono log (p := fun t => a ≤ t && t < now) (q := fun t => a ≤ t)
      (by simp +contextual)
    have hbound := hbefore a ha
    simp only [Int.lt_irrefl, decide_false, Bool.and_false, Bool.false_eq_true, if_false, Nat.add_zero]
    omega
  · intro a
    rw [admitted_append]
    have hburst := h.burst a
    have hmono := admitted_mono log (p := fun t => a ≤ t && t < a + width) (q := fun t => a ≤ t)
      (by simp +contextual)
    split
    · rename_i hin
      simp only [Bool.true_and, Bool.and_eq_true, decide_eq_true_eq] at hin
      have hbound := hbefore a hin.2
      omega
    · omega

theorem logged_append {v : Window} {ok : Bool} (h : Sound limit width log (some v)) :
    ∃ e ∈ log ++ [(now, ok)], e.1 = v.start := by
  obtain ⟨first, hfirst, hstart⟩ := h.logged v rfl
  exact ⟨first, List.mem_append_left _ hfirst, hstart⟩

theorem within_append {v : Window} {ok : Bool} (h : Sound limit width log (some v)) (hnow : now < v.start + width) :
    ∀ e ∈ log ++ [(now, ok)], e.1 < v.start + width := by
  intro e he
  rcases List.mem_append.mp he with he | he
  · exact h.within v rfl e he
  · cases List.mem_singleton.mp he
    exact hnow

theorem extend {v : Window} (h : Sound limit width log (some v)) (hpast : ∀ e ∈ log, e.1 ≤ now)
    (hnow : now < v.start + width) (hcount : (v.count : ℤ) < limit) :
    Sound limit width (log ++ [(now, true)]) (some ⟨v.start, v.count + 1⟩) := by
  obtain ⟨first, hfirst, hstart⟩ := h.logged v rfl
  have hbegun : v.start ≤ now := by
    rw [← hstart]
    exact hpast first hfirst
  constructor
  · intro hw
    cases hw
  · intro u hu
    cases hu
    exact h.logged_append
  · intro u hu
    cases hu
    exact h.within_append hnow
  · intro u hu
    cases hu
    rw [admitted_append, h.count v rfl]
    simp [hbegun]
  · intro u hu
    cases hu
    rw [admitted_append]
    have hlater := h.later v rfl
    dsimp only
    split <;> omega
  · intro u hu
    cases hu
    push_cast
    omega
  · intro u hu a ha
    cases hu
    rw [admitted_append]
    have hearlier := h.earlier v rfl a ha
    have hout : ¬now < v.start := by omega
    simpa [hout] using hearlier
  · intro a
    rw [admitted_append]
    have hburst := h.burst a
    split
    · rename_i hin
      simp only [Bool.true_and, Bool.and_eq_true, decide_eq_true_eq] at hin
      have hearlier := h.earlier v rfl a (by omega)
      have hsplit := admitted_le_add log (p := fun t => a ≤ t && t < a + width)
        (q := fun t => a ≤ t && t < v.start) (r := fun t => v.start ≤ t)
        (by intro t; simp only [Bool.and_eq_true, decide_eq_true_eq]; omega)
      rw [h.count v rfl] at hsplit
      omega
    · omega

theorem refuse {v : Window} (h : Sound limit width log (some v)) (hnow : now < v.start + width) :
    Sound limit width (log ++ [(now, false)]) (some v) := by
  have hsame : ∀ p, admitted (log ++ [(now, false)]) p = admitted log p := by
    intro p
    simp [admitted_append]
  constructor
  · intro hw
    cases hw
  · intro u hu
    cases hu
    exact h.logged_append
  · intro u hu
    cases hu
    exact h.within_append hnow
  · intro u hu
    rw [hsame]
    exact h.count u hu
  · intro u hu
    rw [hsame]
    exact h.later u hu
  · exact h.limited
  · intro u hu a ha
    rw [hsame]
    exact h.earlier u hu a ha
  · intro a
    rw [hsame]
    exact h.burst a

theorem answer (h : Sound limit width log w) (hlimit : 1 ≤ limit) (hwidth : 0 < width) (hpast : ∀ e ∈ log, e.1 ≤ now) :
    Sound limit width (log ++ [(now, (answer limit width w now).1)]) (answer limit width w now).2 := by
  cases w with
  | none =>
    rw [h.fresh rfl]
    refine restart (.nil hlimit) hlimit hwidth (by simp) ?_
    intro a _
    simp only [admitted, List.countP_nil]
    omega
  | some v =>
    simp only [FixedWindow.answer]
    split
    · rename_i hexpired
      apply h.restart hlimit hwidth
      · intro e he
        have := h.within v rfl e he
        omega
      · intro a ha
        have hlater := h.later v rfl
        have hlimited := h.limited v rfl
        have hmono := admitted_mono log (p := fun t => a ≤ t) (q := fun t => v.start < t)
          (by intro t; simp only [decide_eq_true_eq]; omega)
        omega
    · rename_i hcurrent
      split
      · exact h.refuse (by omega)
      · exact h.extend hpast (by omega) (by omega)

theorem run {times : List ℤ} (hlimit : 1 ≤ limit) (hwidth : 0 < width) (h : Sound limit width log w)
    (hsorted : times.Pairwise (· ≤ ·)) (hpast : ∀ e ∈ log, ∀ t ∈ times, e.1 ≤ t) :
    Sound limit width (log ++ decisions limit width w times) (windowAfter limit width w times) := by
  induction times generalizing log w with
  | nil => simpa [decisions, windowAfter] using h
  | cons now times ih =>
    obtain ⟨hnow, hrest⟩ := List.pairwise_cons.mp hsorted
    have hnext := h.answer hlimit hwidth fun e he => hpast e he now List.mem_cons_self
    have hlater : ∀ e ∈ log ++ [(now, (FixedWindow.answer limit width w now).1)], ∀ t ∈ times, e.1 ≤ t := by
      intro e he t ht
      rcases List.mem_append.mp he with he | he
      · exact hpast e he t (List.mem_cons_of_mem now ht)
      · cases List.mem_singleton.mp he
        exact hnow t ht
    have hrun := ih hnext hrest hlater
    rwa [List.append_assoc] at hrun

theorem of_refused (h : Sound limit width log w) (hrefused : (FixedWindow.answer limit width w now).1 = false) :
    ∃ v, w = some v ∧ now < v.start + width ∧ admitted log (fun t => v.start ≤ t) = limit := by
  cases w with
  | none => cases hrefused
  | some v =>
    simp only [FixedWindow.answer] at hrefused
    split at hrefused
    · cases hrefused
    · split at hrefused
      · rename_i hcurrent hfull
        refine ⟨v, rfl, by omega, ?_⟩
        rw [h.count v rfl]
        exact le_antisymm (h.limited v rfl) hfull
      · cases hrefused

end Sound

end Leadline.Library.FixedWindow
