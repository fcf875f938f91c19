import Leadline.Library.GuardedRun
import Mathlib.Algebra.BigOperators.Group.Multiset.Basic

namespace Leadline.Library.WorkQueue

structure State (σ J : Type*) where
  store : σ
  queue : Multiset J

variable {σ J ι : Type*}

inductive Step (handle : σ → J → ι → σ × Multiset J) : State σ J → J × ι → State σ J → Prop
  | take {s : σ} {queue rest : Multiset J} {job : J} {input : ι} (hqueue : queue = job ::ₘ rest) :
    Step handle ⟨s, queue⟩ (job, input) ⟨(handle s job input).1, rest + (handle s job input).2⟩

variable {handle : σ → J → ι → σ × Multiset J} {c c' : State σ J} {job : J} {input : ι}

theorem Step.mem (h : Step handle c (job, input) c') : job ∈ c.queue := by
  cases h with
  | take hqueue =>
    rw [hqueue]
    exact Multiset.mem_cons_self job _

theorem exists_step (h : job ∈ c.queue) (input : ι) : ∃ c', Step handle c (job, input) c' := by
  obtain ⟨rest, hqueue⟩ := Multiset.exists_cons_of_mem h
  exact ⟨_, .take hqueue⟩

def total (cost : J → ℕ) (potential : σ → ℕ) (c : State σ J) : ℕ := (c.queue.map cost).sum + potential c.store

theorem Step.total_lt {cost : J → ℕ} {potential : σ → ℕ} (h : Step handle c (job, input) c')
    (hpaid : ((handle c.store job input).2.map cost).sum + potential (handle c.store job input).1 <
      cost job + potential c.store) :
    total cost potential c' < total cost potential c := by
  cases h with
  | @take s queue rest _ _ hqueue =>
    have hbefore : (queue.map cost).sum = cost job + (rest.map cost).sum := by
      rw [hqueue, Multiset.map_cons, Multiset.sum_cons]
    have hafter : ((rest + (handle s job input).2).map cost).sum =
        (rest.map cost).sum + ((handle s job input).2.map cost).sum := by
      rw [Multiset.map_add, Multiset.sum_add]
    dsimp only [total] at hpaid ⊢
    omega

def Covered {ω : Type*} (owes : σ → ω → Prop) (pays : J → ω → Prop) (c : State σ J) : Prop :=
  ∀ o, owes c.store o → ∃ job ∈ c.queue, pays job o

theorem Covered.step {ω : Type*} {owes : σ → ω → Prop} {pays : J → ω → Prop} (hc : Covered owes pays c)
    (h : Step handle c (job, input) c')
    (hkept : ∀ o, owes (handle c.store job input).1 o →
      (∃ made ∈ (handle c.store job input).2, pays made o) ∨ owes c.store o ∧ ¬pays job o) :
    Covered owes pays c' := by
  cases h with
  | take hqueue =>
    intro o ho
    rcases hkept o ho with ⟨made, hmade, hpays⟩ | ⟨hold, hother⟩
    · exact ⟨made, Multiset.mem_add.mpr (.inr hmade), hpays⟩
    · obtain ⟨j, hj, hpays⟩ := hc o hold
      have hmem : j ∈ job ::ₘ _ := hqueue ▸ hj
      rcases Multiset.mem_cons.mp hmem with rfl | hrest
      · exact absurd hpays hother
      · exact ⟨j, Multiset.mem_add.mpr (.inl hrest), hpays⟩

theorem Step.queue_forall {p : J → Prop} (h : Step handle c (job, input) c') (hold : ∀ j ∈ c.queue, p j)
    (hmade : ∀ j ∈ (handle c.store job input).2, p j) : ∀ j ∈ c'.queue, p j := by
  cases h with
  | take hqueue =>
    intro j hj
    rcases Multiset.mem_add.mp hj with hrest | hnew
    · apply hold
      rw [hqueue]
      exact Multiset.mem_cons_of_mem hrest
    · exact hmade j hnew

theorem Step.store (h : Step handle c (job, input) c') : c'.store = (handle c.store job input).1 := by
  cases h with
  | take => rfl

end Leadline.Library.WorkQueue
