import Mathlib.Data.List.Forall2
import Mathlib.Data.List.Perm.Basic

namespace Leadline.Library

inductive Segment (σ : Type*)
  | text (s : σ)
  | parameter
  deriving DecidableEq

namespace Segment

variable {σ : Type*} (admissible : σ → Prop)

def Takes : Segment σ → σ → Prop
  | text t, s => s = t
  | parameter, s => admissible s

def Fits (format : List (Segment σ)) (path : List σ) : Prop := List.Forall₂ (Takes admissible) format path

variable [DecidableEq σ] [DecidablePred admissible]

instance : DecidableRel (Takes admissible)
  | text t, s => inferInstanceAs (Decidable (s = t))
  | parameter, s => inferInstanceAs (Decidable (admissible s))

instance (format : List (Segment σ)) (path : List σ) : Decidable (Fits admissible format path) :=
  inferInstanceAs (Decidable (List.Forall₂ _ _ _))

def meets : Segment σ → Segment σ → Bool
  | text s, text t => s = t
  | text s, parameter => admissible s
  | parameter, text t => admissible t
  | parameter, parameter => true

def overlap : List (Segment σ) → List (Segment σ) → Bool
  | [], [] => true
  | a :: as, b :: bs => meets admissible a b && overlap as bs
  | _, _ => false

variable {admissible} {a b : Segment σ} {as bs cs ds : List (Segment σ)} {path : List σ}

theorem meets_of_takes {s : σ} (ha : a.Takes admissible s) (hb : b.Takes admissible s) : meets admissible a b := by
  cases a with
  | text t =>
    cases ha
    cases b with
    | text u => exact decide_eq_true hb
    | parameter => exact decide_eq_true hb
  | parameter =>
    cases b with
    | text u =>
      cases hb
      exact decide_eq_true ha
    | parameter => rfl

theorem overlap_of_fits (ha : Fits admissible as path) (hb : Fits admissible bs path) : overlap admissible as bs := by
  induction ha generalizing bs with
  | nil =>
    cases hb
    rfl
  | cons hhead _ ih =>
    cases hb with
    | cons hhead' htail' =>
      rw [overlap, meets_of_takes hhead hhead', ih htail']
      rfl

theorem length_of_overlap (h : overlap admissible as bs) : as.length = bs.length := by
  induction as generalizing bs with
  | nil =>
    cases bs with
    | nil => rfl
    | cons b bs => simp [overlap] at h
  | cons a as ih =>
    cases bs with
    | nil => simp [overlap] at h
    | cons b bs =>
      rw [overlap, Bool.and_eq_true] at h
      rw [List.length_cons, List.length_cons, ih h.2]

theorem overlap_cons_text (t : σ) : overlap admissible (.text t :: as) (.text t :: bs) = overlap admissible as bs := by
  simp [overlap, meets]

theorem overlap_append (hlength : cs.length = ds.length) (h : overlap admissible (cs ++ as) (ds ++ bs)) :
    overlap admissible as bs := by
  induction cs generalizing ds with
  | nil =>
    rw [List.length_eq_zero_iff.mp hlength.symm] at h
    exact h
  | cons c cs ih =>
    cases ds with
    | nil => simp at hlength
    | cons d ds =>
      rw [List.cons_append, List.cons_append, overlap, Bool.and_eq_true] at h
      exact ih (Nat.succ.inj hlength) h.2

omit [DecidableEq σ] [DecidablePred admissible] in
theorem fits_texts_append {texts : List σ} :
    Fits admissible (texts.map text ++ as) path ↔ ∃ rest, path = texts ++ rest ∧ Fits admissible as rest := by
  induction texts generalizing path with
  | nil => simp
  | cons t texts ih =>
    rw [List.map_cons, List.cons_append]
    constructor
    · intro h
      cases h with
      | cons hhead htail =>
        obtain ⟨rest, rfl, hrest⟩ := ih.mp htail
        cases hhead
        exact ⟨rest, rfl, hrest⟩
    · rintro ⟨rest, rfl, hrest⟩
      exact .cons rfl (ih.mpr ⟨rest, rfl, hrest⟩)

end Segment

theorem intercalate_append {α : Type*} {c : α} {xs ys : List (List α)} (hxs : xs ≠ []) (hys : ys ≠ []) :
    [c].intercalate (xs ++ ys) = [c].intercalate xs ++ c :: [c].intercalate ys := by
  induction xs with
  | nil => exact absurd rfl hxs
  | cons x xs ih =>
    cases xs with
    | nil =>
      rw [List.cons_append, List.nil_append, List.intercalate_cons_of_ne_nil hys]
      simp
    | cons x' xs =>
      rw [List.cons_append, List.intercalate_cons_of_ne_nil (by simp), ih (by simp),
        List.intercalate_cons_of_ne_nil (List.cons_ne_nil x' xs)]
      simp

theorem mem_intercalate {α : Type*} {s part : List α} {parts : List (List α)} {a : α} (ha : a ∈ part)
    (hpart : part ∈ parts) : a ∈ s.intercalate parts := by
  induction parts with
  | nil => exact absurd hpart List.not_mem_nil
  | cons first rest ih =>
    cases rest with
    | nil =>
      rw [List.mem_singleton.mp hpart] at ha
      simpa using ha
    | cons next rest =>
      rw [List.intercalate_cons_cons]
      rcases List.mem_cons.mp hpart with rfl | hrest
      · exact List.mem_append_left _ (List.mem_append_left _ ha)
      · exact List.mem_append_right _ (ih hrest)

theorem mem_of_mem_splitOn {α : Type*} [DecidableEq α] {c a : α} {xs part : List α} (ha : a ∈ part)
    (hpart : part ∈ xs.splitOn c) : a ∈ xs := by
  have hmem := mem_intercalate ha hpart (s := [c])
  rwa [List.intercalate_splitOn] at hmem

theorem eq_of_splitOn_eq {α : Type*} [DecidableEq α] {c : α} {xs ys : List α} (h : xs.splitOn c = ys.splitOn c) :
    xs = ys := by
  have hjoin := congrArg (List.intercalate [c]) h
  rwa [List.intercalate_splitOn, List.intercalate_splitOn] at hjoin

theorem splitOn_eq_append {α : Type*} [DecidableEq α] {c : α} {whole left : List α} {parts : List (List α)}
    (h : whole.splitOn c = left.splitOn c ++ parts) (hparts : parts ≠ []) :
    ∃ right, whole = left ++ c :: right ∧ right.splitOn c = parts := by
  have hwhole : whole = left ++ c :: [c].intercalate parts := by
    have hjoin := congrArg (List.intercalate [c]) h
    rwa [List.intercalate_splitOn, intercalate_append (List.splitOn_ne_nil c left) hparts,
      List.intercalate_splitOn] at hjoin
  refine ⟨_, hwhole, ?_⟩
  rw [hwhole, List.splitOn_append_cons_self] at h
  exact List.append_cancel_left h

theorem find?_perm {α : Type*} {p : α → Bool} {l l' : List α} (hperm : l'.Perm l)
    (hone : ∀ a ∈ l, ∀ b ∈ l, p a → p b → a = b) : l'.find? p = l.find? p := by
  cases hfound : l.find? p with
  | none =>
    rw [List.find?_eq_none] at hfound ⊢
    exact fun a ha => hfound a (hperm.mem_iff.mp ha)
  | some a =>
    have ha := List.mem_of_find?_eq_some hfound
    have hpa := List.find?_some hfound
    cases hfound' : l'.find? p with
    | none => exact absurd hpa (List.find?_eq_none.mp hfound' a (hperm.mem_iff.mpr ha))
    | some b =>
      have hb := hperm.mem_iff.mp (List.mem_of_find?_eq_some hfound')
      rw [hone b hb a ha (List.find?_some hfound') hpa]

end Leadline.Library
