import Mathlib.Data.List.Basic
import Mathlib.Data.List.Count

namespace Leadline.Library.KeepFirst

variable {α κ : Type*} [DecidableEq κ] (key : α → κ)

def add (kept : List α) (a : α) : List α := if key a ∈ kept.map key then kept else kept ++ [a]

def addAll (kept items : List α) : List α := items.foldl (add key) kept

def count (kept : List α) (k : κ) : ℕ := kept.countP fun a => key a = k

variable {key} {kept items : List α} {a b : α} {k : κ}

theorem addAll_append (more : List α) : addAll key kept (items ++ more) = addAll key (addAll key kept items) more :=
  List.foldl_append

theorem mem_add_of_mem (h : b ∈ kept) : b ∈ add key kept a := by
  unfold add
  split_ifs
  · exact h
  · exact List.mem_append_left _ h

theorem mem_of_mem_add (h : b ∈ add key kept a) : b ∈ kept ∨ b = a := by
  unfold add at h
  split_ifs at h
  · exact .inl h
  · simpa using h

theorem key_mem_add : key a ∈ (add key kept a).map key := by
  unfold add
  split_ifs with h
  · exact h
  · simp

theorem mem_addAll_of_mem (h : b ∈ kept) : b ∈ addAll key kept items := by
  induction items generalizing kept with
  | nil => exact h
  | cons a items ih => exact ih (mem_add_of_mem h)

theorem mem_of_mem_addAll (h : b ∈ addAll key kept items) : b ∈ kept ∨ b ∈ items := by
  induction items generalizing kept with
  | nil => exact .inl h
  | cons a items ih =>
    obtain h | h := ih h
    · obtain h | rfl := mem_of_mem_add h
      · exact .inl h
      · exact .inr List.mem_cons_self
    · exact .inr (List.mem_cons_of_mem a h)

theorem key_mem_addAll (h : a ∈ items) : key a ∈ (addAll key kept items).map key := by
  induction items generalizing kept with
  | nil => cases h
  | cons b items ih =>
    obtain rfl | h := List.mem_cons.mp h
    · have hadded : key a ∈ (add key kept a).map key := key_mem_add
      obtain ⟨c, hc, hkey⟩ := List.mem_map.mp hadded
      have hkept : c ∈ addAll key (add key kept a) items := mem_addAll_of_mem hc
      exact List.mem_map.mpr ⟨c, hkept, hkey⟩
    · exact ih h

theorem count_le_add : count key kept k ≤ count key (add key kept a) k := by
  unfold add
  split_ifs
  · exact Nat.le_refl _
  · rw [count, count, List.countP_append]
    omega

theorem count_add (h : count key kept k ≤ 1) : count key (add key kept a) k ≤ 1 := by
  unfold add
  split_ifs with hseen
  · exact h
  · rw [count, List.countP_append, List.countP_singleton]
    by_cases hk : key a = k
    · have hnone : kept.countP (fun a => key a = k) = 0 := by
        rw [List.countP_eq_zero]
        intro b hb
        simp only [decide_eq_true_eq]
        intro hkey
        exact hseen (hk.trans hkey.symm ▸ List.mem_map_of_mem hb)
      simp [hnone, hk]
    · rw [count] at h
      simpa [hk] using h

theorem count_addAll (h : count key kept k ≤ 1) : count key (addAll key kept items) k ≤ 1 := by
  induction items generalizing kept with
  | nil => exact h
  | cons a items ih => exact ih (count_add h)

end Leadline.Library.KeepFirst
