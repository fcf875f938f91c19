import Mathlib.Data.List.Sort

namespace Leadline.Library

variable {α : Type*} {r : α → α → Prop} {p : α → Option Bool} {l : List α} {a : α}

def firstHit (p : α → Option Bool) : List α → Option (Option α)
  | [] => some none
  | a :: l => (p a).bind fun hit => if hit then some (some a) else firstHit p l

theorem firstHit_eq_some_none : firstHit p l = some none ↔ ∀ a ∈ l, p a = some false := by
  induction l with
  | nil => simp [firstHit]
  | cons a l ih =>
    rw [List.forall_mem_cons, ← ih, firstHit]
    cases h : p a with
    | none => simp
    | some hit => cases hit <;> simp

def Untied (r : α → α → Prop) (l : List α) : Prop := ∀ a ∈ l, ∀ b ∈ l, r a b → r b a → a = b

theorem Untied.tail (h : Untied r (a :: l)) : Untied r l :=
  fun b hb c hc => h b (List.mem_cons_of_mem a hb) c (List.mem_cons_of_mem a hc)

theorem firstHit_of_first (hsorted : l.Pairwise r) (ha : a ∈ l) (hpa : p a = some true)
    (hfirst : ∀ b ∈ l, b ≠ a → r b a → p b = some false) : firstHit p l = some (some a) := by
  induction l with
  | nil => exact absurd ha List.not_mem_nil
  | cons c l ih =>
    obtain ⟨hc, hrest⟩ := List.pairwise_cons.mp hsorted
    rw [firstHit]
    by_cases hca : c = a
    · rw [hca, hpa]
      rfl
    · have hal : a ∈ l := List.mem_of_ne_of_mem (Ne.symm hca) ha
      rw [hfirst c List.mem_cons_self hca (hc a hal)]
      exact ih hrest hal fun b hb => hfirst b (List.mem_cons_of_mem c hb)

theorem first_of_firstHit (hsorted : l.Pairwise r) (huntied : Untied r l) (h : firstHit p l = some (some a)) :
    a ∈ l ∧ p a = some true ∧ ∀ b ∈ l, b ≠ a → r b a → p b = some false := by
  induction l with
  | nil => cases h
  | cons c l ih =>
    obtain ⟨hc, hrest⟩ := List.pairwise_cons.mp hsorted
    obtain ⟨hit, hpc, hscan⟩ := Option.bind_eq_some_iff.mp h
    cases hit with
    | true =>
      cases hscan
      refine ⟨List.mem_cons_self, hpc, ?_⟩
      intro b hb hne hrb
      rcases List.mem_cons.mp hb with rfl | hbl
      · exact absurd rfl hne
      · exact absurd (huntied b hb a List.mem_cons_self hrb (hc b hbl)) hne
    | false =>
      obtain ⟨ha, hpa, hfirst⟩ := ih hrest huntied.tail hscan
      refine ⟨List.mem_cons_of_mem c ha, hpa, ?_⟩
      intro b hb hne hrb
      rcases List.mem_cons.mp hb with rfl | hbl
      · exact hpc
      · exact hfirst b hbl hne hrb

theorem isSome_firstHit (hsorted : l.Pairwise r) (huntied : Untied r l) :
    (firstHit p l).isSome ↔ ∀ a ∈ l, (∀ b ∈ l, b ≠ a → r b a → p b ≠ some true) → (p a).isSome := by
  induction l with
  | nil => simp [firstHit]
  | cons c l ih =>
    obtain ⟨hc, hrest⟩ := List.pairwise_cons.mp hsorted
    rw [firstHit]
    cases hpc : p c with
    | none =>
      simp only [Option.bind_none, Option.isSome_none, Bool.false_eq_true, false_iff]
      intro hall
      have hsome := hall c List.mem_cons_self fun b hb hne hrb => by
        rcases List.mem_cons.mp hb with rfl | hbl
        · exact absurd rfl hne
        · exact absurd (huntied b hb c List.mem_cons_self hrb (hc b hbl)) hne
      rw [hpc] at hsome
      cases hsome
    | some hit =>
      cases hit with
      | true =>
        simp only [Option.bind_some, if_true, Option.isSome_some, true_iff]
        intro a ha hfirst
        by_cases hca : c = a
        · rw [← hca, hpc]
          rfl
        · have hal : a ∈ l := List.mem_of_ne_of_mem (Ne.symm hca) ha
          exact absurd hpc (hfirst c List.mem_cons_self hca (hc a hal))
      | false =>
        simp only [Option.bind_some, Bool.false_eq_true, if_false]
        rw [ih hrest huntied.tail, List.forall_mem_cons]
        constructor
        · intro hall
          refine ⟨fun _ => by rw [hpc]; rfl, ?_⟩
          intro a ha hfirst
          exact hall a ha fun b hb => hfirst b (List.mem_cons_of_mem c hb)
        · rintro ⟨-, hall⟩ a ha hfirst
          refine hall a ha ?_
          intro b hb hne hrb
          rcases List.mem_cons.mp hb with rfl | hbl
          · rw [hpc]
            simp
          · exact hfirst b hbl hne hrb

theorem Untied.mono {l' : List α} (h : Untied r l) (hsub : ∀ a ∈ l', a ∈ l) : Untied r l' :=
  fun a ha b hb => h a (hsub a ha) b (hsub b hb)

theorem firstHit_congr {l' : List α} (hsorted : l.Pairwise r) (hsorted' : l'.Pairwise r) (huntied : Untied r l)
    (hsub : ∀ a ∈ l', a ∈ l) (hkept : ∀ a ∈ l, p a ≠ some false → a ∈ l') : firstHit p l' = firstHit p l := by
  have hall : (∀ a ∈ l', p a = some false) ↔ ∀ a ∈ l, p a = some false := by
    constructor
    · intro h a ha
      by_contra hne
      exact hne (h a (hkept a ha hne))
    · exact fun h a ha => h a (hsub a ha)
  have hhit : ∀ a, firstHit p l' = some (some a) ↔ firstHit p l = some (some a) := by
    intro a
    constructor
    · intro h
      obtain ⟨ha, hpa, hfirst⟩ := first_of_firstHit hsorted' (huntied.mono hsub) h
      apply firstHit_of_first hsorted (hsub a ha) hpa
      intro b hb hne hrb
      by_contra hpb
      exact hpb (hfirst b (hkept b hb hpb) hne hrb)
    · intro h
      obtain ⟨ha, hpa, hfirst⟩ := first_of_firstHit hsorted huntied h
      have ha' : a ∈ l' := hkept a ha (by simp [hpa])
      exact firstHit_of_first hsorted' ha' hpa fun b hb => hfirst b (hsub b hb)
  apply Option.ext
  intro result
  cases result with
  | none => rw [firstHit_eq_some_none, firstHit_eq_some_none, hall]
  | some a => exact hhit a

end Leadline.Library
