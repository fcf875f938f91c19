import Mathlib.Data.Nat.Notation
import Mathlib.Logic.Basic

namespace Leadline.Library

variable {σ ℓ : Type*}

/-- Runs of a labelled step relation in which `ok` holds of every step, judged on the state
the step starts from and on its label. -/
inductive GuardedRun (step : σ → ℓ → σ → Prop) (ok : σ → ℓ → Prop) : σ → List ℓ → σ → Prop
  | nil (s : σ) : GuardedRun step ok s [] s
  | cons {s t u : σ} {l : ℓ} {ls : List ℓ} (hok : ok s l) (hstep : step s l t)
      (hrun : GuardedRun step ok t ls u) : GuardedRun step ok s (l :: ls) u

abbrev Run (step : σ → ℓ → σ → Prop) : σ → List ℓ → σ → Prop :=
  GuardedRun step (fun _ _ => True)

namespace GuardedRun

variable {step : σ → ℓ → σ → Prop} {ok : σ → ℓ → Prop} {s t : σ} {ls : List ℓ}

theorem invariant (I : σ → Prop) (hstep : ∀ s l t, I s → ok s l → step s l t → I t)
    (hrun : GuardedRun step ok s ls t) (hs : I s) : I t := by
  induction hrun with
  | nil s => exact hs
  | cons hok hst _ ih => exact ih (hstep _ _ _ hs hok hst)

theorem trace_invariant (I : List ℓ → σ → Prop)
    (hstep : ∀ ls s l t, I ls s → ok s l → step s l t → I (ls ++ [l]) t)
    (hrun : GuardedRun step ok s ls t) (hs : I [] s) : I ls t := by
  have hgen : ∀ ms, I ms s → I (ms ++ ls) t := by
    clear hs
    induction hrun with
    | nil s =>
      intro ms hms
      rwa [List.append_nil]
    | cons hok hst _ ih =>
      intro ms hms
      have hnext := ih (ms ++ [_]) (hstep _ _ _ _ hms hok hst)
      rwa [List.append_assoc] at hnext
  exact hgen [] hs

theorem invariant_measure (I : σ → Prop) (μ : σ → ℕ)
    (hstep : ∀ s l t, I s → ok s l → step s l t → I t ∧ μ t < μ s)
    (hrun : GuardedRun step ok s ls t) (hs : I s) : I t ∧ ls.length + μ t ≤ μ s := by
  induction hrun with
  | nil s => exact ⟨hs, by simp⟩
  | cons hok hst _ ih =>
    obtain ⟨hnext, hlt⟩ := hstep _ _ _ hs hok hst
    obtain ⟨hlast, hle⟩ := ih hnext
    refine ⟨hlast, ?_⟩
    rw [List.length_cons]
    omega

theorem invariant_iff (I C : σ → Prop) (hdet : ∀ s l t u, step s l t → step s l u → t = u)
    (hkeep : ∀ s l t, C s → step s l t → C t) (hiff : ∀ s l t, C s → step s l t → (I t ↔ I s ∧ ok s l))
    (hrun : Run step s ls t) (hs : C s) : I t ↔ I s ∧ GuardedRun step ok s ls t := by
  induction hrun with
  | nil s =>
    constructor
    · intro hI
      exact ⟨hI, .nil s⟩
    · intro h
      exact h.1
  | cons _ hst _ ih =>
    rw [ih (hkeep _ _ _ hs hst), hiff _ _ _ hs hst, and_assoc]
    refine and_congr_right fun _ => ?_
    constructor
    · rintro ⟨hok, hrest⟩
      exact .cons hok hst hrest
    · intro hguarded
      cases hguarded with
      | cons hok hfirst hrest =>
        rw [hdet _ _ _ _ hst hfirst]
        exact ⟨hok, hrest⟩

theorem toRun (hrun : GuardedRun step ok s ls t) : Run step s ls t := by
  induction hrun with
  | nil s => exact .nil s
  | cons _ hst _ ih => exact .cons trivial hst ih

theorem snoc {u : σ} {l : ℓ} (hrun : GuardedRun step ok s ls t) (hok : ok t l) (hstep : step t l u) :
    GuardedRun step ok s (ls ++ [l]) u := by
  induction hrun with
  | nil s => exact .cons hok hstep (.nil u)
  | cons hok' hst _ ih => exact .cons hok' hst (ih hok hstep)

end GuardedRun

def runSteps (f : σ → ℓ → Option σ) : σ → List ℓ → Option σ
  | s, [] => some s
  | s, l :: ls => (f s l).bind (runSteps f · ls)

theorem runSteps_append {f : σ → ℓ → Option σ} {s t : σ} {ls ms : List ℓ} (h : runSteps f s ls = some t) :
    runSteps f s (ls ++ ms) = runSteps f t ms := by
  induction ls generalizing s with
  | nil =>
    cases h
    rfl
  | cons l ls ih =>
    obtain ⟨u, hu, hrest⟩ := Option.bind_eq_some_iff.mp h
    rw [List.cons_append, runSteps, hu, Option.bind_some]
    exact ih hrest

def Enabled (f : σ → ℓ → Option σ) (s : σ) (l : ℓ) (t : σ) : Prop := f s l = some t

theorem run_of_runSteps {f : σ → ℓ → Option σ} {s t : σ} {ls : List ℓ}
    (h : runSteps f s ls = some t) : Run (Enabled f) s ls t := by
  induction ls generalizing s with
  | nil => rw [← Option.some.inj h]; exact .nil s
  | cons l ls ih =>
    obtain ⟨u, hu, hrest⟩ := Option.bind_eq_some_iff.mp h
    exact .cons trivial hu (ih hrest)

def runChecked (f : σ → ℓ → Option σ) (ok : σ → ℓ → Prop) [∀ s l, Decidable (ok s l)] :
    σ → List ℓ → Option σ
  | s, [] => some s
  | s, l :: ls => if ok s l then (f s l).bind (runChecked f ok · ls) else none

theorem guarded_of_runChecked {f : σ → ℓ → Option σ} {ok : σ → ℓ → Prop}
    [∀ s l, Decidable (ok s l)] {s t : σ} {ls : List ℓ} (h : runChecked f ok s ls = some t) :
    GuardedRun (Enabled f) ok s ls t := by
  induction ls generalizing s with
  | nil => rw [← Option.some.inj h]; exact .nil s
  | cons l ls ih =>
    simp only [runChecked] at h
    split at h
    · rename_i hok
      obtain ⟨u, hu, hrest⟩ := Option.bind_eq_some_iff.mp h
      exact .cons hok hu (ih hrest)
    · cases h

end Leadline.Library
