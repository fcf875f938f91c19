import Mathlib.Logic.Function.Iterate
import Mathlib.Order.Defs.LinearOrder

namespace Leadline.Library

structure Cursor where
  position : ℕ
  finished : Bool

namespace Cursor

def start : Cursor := ⟨0, false⟩

def advance (n : ℕ) (c : Cursor) : Cursor :=
  if c.finished then c
  else if c.position < n then ⟨c.position + 1, decide (n ≤ c.position + 1)⟩
  else ⟨c.position, true⟩

theorem advance_iterate (n k : ℕ) :
    (advance n)^[k] start = ⟨min k n, decide (0 < k ∧ n ≤ k)⟩ := by
  induction k with
  | zero => simp [start]
  | succ k ih =>
    rw [Function.iterate_succ_apply', ih]
    by_cases hf : 0 < k ∧ n ≤ k
    · have hk : min k n = min (k + 1) n := by omega
      have hf' : 0 < k + 1 ∧ n ≤ k + 1 := by omega
      simp only [advance, decide_eq_true hf, decide_eq_true hf', ↓reduceIte, hk]
    · simp only [advance, hf, decide_false, Bool.false_eq_true, ↓reduceIte]
      by_cases hn : k < n
      · have hp : min k n < n := by omega
        simp only [hp, ↓reduceIte, Cursor.mk.injEq, decide_eq_decide]
        omega
      · have hp : ¬ min k n < n := by omega
        simp only [hp, ↓reduceIte, Cursor.mk.injEq, true_eq_decide_iff]
        omega

end Cursor

end Leadline.Library
