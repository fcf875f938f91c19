import Leadline.Library.Table

/-!
Tables whose rows have owners: the rows of one owner, what a change of the table does to them, and
references that stay with one owner.
-/

namespace Leadline.Library.Table

section

variable {α κ ω : Type*} {key : α → κ} (owner : α → ω)

def Owns (t : Table key) (o : ω) (k : κ) : Prop := ∃ a ∈ t, key a = k ∧ owner a = o

def view [DecidableEq ω] (t : Table key) (o : ω) : List α := t.rows.filter fun a => owner a = o

variable {owner} {t t' : Table key} {o o' : ω} {k : κ} {a b : α}

theorem Owns.owner_eq (h : t.Owns owner o k) (ha : a ∈ t) (hk : key a = k) : owner a = o := by
  obtain ⟨b, hb, hbk, hbo⟩ := h
  rw [eq_of_key_eq ha hb (hk.trans hbk.symm), hbo]

theorem Owns.unique (h : t.Owns owner o k) (h' : t.Owns owner o' k) : o = o' := by
  obtain ⟨b, hb, hbk, hbo⟩ := h'
  rw [← hbo, h.owner_eq hb hbk]

theorem Owns.filter {p : α → Bool} (h : t.Owns owner o k) (hp : ∀ a ∈ t, key a = k → p a = true) :
    (t.filter p).Owns owner o k := by
  obtain ⟨a, ha, hk, ho⟩ := h
  exact ⟨a, mem_filter.mpr ⟨ha, hp a ha hk⟩, hk, ho⟩

theorem Owns.mapRows {f : α → α} {hf : ∀ a, key (f a) = key a} (howner : ∀ a, owner (f a) = owner a)
    (h : t.Owns owner o k) : (t.mapRows f hf).Owns owner o k := by
  obtain ⟨a, ha, hk, ho⟩ := h
  exact ⟨f a, mem_mapRows.mpr ⟨a, ha, rfl⟩, (hf a).trans hk, (howner a).trans ho⟩

section

variable [DecidableEq κ]

theorem Owns.insert (h : t.Owns owner o k) : (t.insert a).Owns owner o k := by
  obtain ⟨b, hb, hk, ho⟩ := h
  exact ⟨b, mem_insert_of_mem hb, hk, ho⟩

theorem owns_insert_self (h : t.Fresh (key a)) : (t.insert a).Owns owner (owner a) (key a) :=
  ⟨a, (mem_insert h).mpr (.inr rfl), rfl, rfl⟩

theorem Owns.put (hb : t.Owns owner (owner b) (key b)) (h : t.Owns owner o k) : (t.put b).Owns owner o k := by
  obtain ⟨a, ha, hk, ho⟩ := h
  by_cases hkey : key a = key b
  · refine ⟨b, mem_put_self ha hkey, hkey.symm.trans hk, ?_⟩
    rw [← ho, hb.owner_eq ha hkey]
  · exact ⟨a, mem_put.mpr ⟨a, ha, by rw [if_neg hkey]⟩, hk, ho⟩

theorem Owns.of_put (hb : t.Owns owner (owner b) (key b)) (h : (t.put b).Owns owner o k) : t.Owns owner o k := by
  obtain ⟨a, ha, hk, ho⟩ := h
  rcases mem_of_mem_put ha with rfl | ⟨hold, -⟩
  · rwa [hk, ho] at hb
  · exact ⟨a, hold, hk, ho⟩

theorem Owns.erase {k' : κ} (h : t.Owns owner o k) (hne : k ≠ k') : (t.erase k').Owns owner o k := by
  obtain ⟨a, ha, hk, ho⟩ := h
  exact ⟨a, mem_erase.mpr ⟨ha, by rwa [hk]⟩, hk, ho⟩

end

variable [DecidableEq ω]

theorem mem_view : a ∈ t.view owner o ↔ a ∈ t ∧ owner a = o := by
  rw [view, List.mem_filter, decide_eq_true_eq]
  rfl

theorem owns_iff_mem_view : t.Owns owner o k ↔ ∃ a ∈ t.view owner o, key a = k := by
  simp only [Owns, mem_view]
  constructor
  · rintro ⟨a, ha, hk, ho⟩
    exact ⟨a, ⟨ha, ho⟩, hk⟩
  · rintro ⟨a, ⟨ha, ho⟩, hk⟩
    exact ⟨a, ha, hk, ho⟩

theorem owns_congr (h : t.view owner o = t'.view owner o) : t.Owns owner o k ↔ t'.Owns owner o k := by
  rw [owns_iff_mem_view, owns_iff_mem_view, h]

theorem filter_congr {p : α → Bool} (hp : ∀ a, p a = true → owner a = o)
    (h : t.view owner o = t'.view owner o) : t.rows.filter p = t'.rows.filter p := by
  have hview : ∀ u : Table key, u.rows.filter p = (u.view owner o).filter p := by
    intro u
    unfold view
    rw [List.filter_filter]
    apply List.filter_congr
    intro a _
    cases hpa : p a with
    | false => rfl
    | true => simp [hp a hpa]
  rw [hview t, hview t', h]

theorem countP_rows : (t.rows.countP fun a => owner a = o) = (t.view owner o).length := by
  rw [List.countP_eq_length_filter]
  rfl

theorem view_filter {p : α → Bool} : (t.filter p).view owner o = (t.view owner o).filter p := by
  unfold view filter
  rw [List.filter_filter, List.filter_filter]
  simp only [Bool.and_comm]

theorem view_mapRows {f : α → α} {hf : ∀ a, key (f a) = key a} (howner : ∀ a, owner (f a) = owner a) :
    (t.mapRows f hf).view owner o = (t.view owner o).map f := by
  unfold view mapRows
  rw [List.filter_map]
  simp only [Function.comp_def, howner]

variable [DecidableEq κ]

theorem filter_find? : (t.find? k).filter (fun a => owner a = o) = (t.view owner o).find? fun a => key a = k := by
  cases hfound : (t.view owner o).find? fun a => key a = k with
  | none =>
    rw [Option.filter_eq_none_iff]
    intro a ha
    obtain ⟨hmem, hk⟩ := find?_eq_some_iff.mp ha
    intro ho
    have hview : a ∈ t.view owner o := mem_view.mpr ⟨hmem, of_decide_eq_true ho⟩
    exact absurd (decide_eq_true hk) (List.find?_eq_none.mp hfound a hview)
  | some a =>
    obtain ⟨hmem, ho⟩ := mem_view.mp (List.mem_of_find?_eq_some hfound)
    have hk : key a = k := by simpa using List.find?_some hfound
    exact Option.filter_eq_some_iff.mpr ⟨find?_eq_some_iff.mpr ⟨hmem, hk⟩, decide_eq_true ho⟩

theorem find?_congr (hk : ∀ a, key a = k → owner a = o) (h : t.view owner o = t'.view owner o) :
    t.find? k = t'.find? k := by
  have hview : ∀ (u : Table key) (a : α), u.find? k = some a ↔ a ∈ u.view owner o ∧ key a = k := by
    intro u a
    rw [find?_eq_some_iff, mem_view]
    exact ⟨fun ⟨hmem, hkey⟩ => ⟨⟨hmem, hk a hkey⟩, hkey⟩, fun ⟨⟨hmem, _⟩, hkey⟩ => ⟨hmem, hkey⟩⟩
  ext a
  rw [hview t, hview t', h]

theorem view_insert (h : t.Fresh (key a)) (ho : owner a = o) : (t.insert a).view owner o = t.view owner o ++ [a] := by
  unfold view
  rw [rows_insert h, List.filter_append]
  simp [ho]

theorem view_insert_of_ne (ho : owner a ≠ o) : (t.insert a).view owner o = t.view owner o := by
  unfold view insert
  split
  · rfl
  · simp [ho]

theorem view_put (hb : t.Owns owner o (key b)) (ho : owner b = o) :
    (t.put b).view owner o = (t.view owner o).map fun a => if key a = key b then b else a := by
  unfold view put
  rw [List.filter_map]
  congr 1
  apply List.filter_congr
  intro a ha
  simp only [Function.comp_apply, decide_eq_decide]
  split
  · rename_i hk
    rw [ho, hb.owner_eq ha hk]
  · exact Iff.rfl

theorem view_put_of_ne (hb : t.Owns owner (owner b) (key b)) (ho : owner b ≠ o) :
    (t.put b).view owner o = t.view owner o := by
  unfold view put
  rw [List.filter_map]
  have hcongr : t.rows.filter ((fun a => decide (owner a = o)) ∘ fun a => if key a = key b then b else a) =
      t.rows.filter fun a => owner a = o := by
    apply List.filter_congr
    intro a ha
    simp only [Function.comp_apply, decide_eq_decide]
    split
    · rename_i hk
      rw [hb.owner_eq ha hk]
    · exact Iff.rfl
  rw [hcongr]
  conv_rhs => rw [← List.map_id (t.rows.filter fun a => owner a = o)]
  apply List.map_congr_left
  intro a ha
  obtain ⟨hmem, hao⟩ := List.mem_filter.mp ha
  rw [if_neg]
  · rfl
  · intro hk
    rw [← hb.owner_eq hmem hk] at ho
    exact ho (of_decide_eq_true hao)

theorem view_modify {f : α → α} {hf : ∀ a, key (f a) = key a} (howner : ∀ a, owner (f a) = owner a) :
    (t.modify k f hf).view owner o = (t.view owner o).map fun a => if key a = k then f a else a := by
  unfold view modify
  rw [List.filter_map]
  congr 1
  apply List.filter_congr
  intro a _
  simp only [Function.comp_apply, decide_eq_decide]
  split
  · rw [howner]
  · exact Iff.rfl

theorem view_erase : (t.erase k).view owner o = (t.view owner o).filter fun a => key a ≠ k := by
  unfold view erase
  rw [List.filter_filter, List.filter_filter]
  simp only [Bool.and_comm]

theorem view_erase_of_ne (h : t.Owns owner o' k) (ho : o' ≠ o) : (t.erase k).view owner o = t.view owner o := by
  rw [view_erase, List.filter_eq_self]
  intro a ha
  obtain ⟨hmem, hao⟩ := mem_view.mp ha
  apply decide_eq_true
  intro hk
  exact ho (h.owner_eq hmem hk ▸ hao)

end

section

variable {α β κ κ' ω : Type*} {key : α → κ} {key' : β → κ'}

/-- A reference of a row is to a row with the same owner. -/
def RefersWithin (owner : α → ω) (ref : α → Option κ') (t : Table key) (owner' : β → ω) (parents : Table key') :
    Prop :=
  ∀ a ∈ t, ∀ k ∈ ref a, parents.Owns owner' (owner a) k

variable {owner : α → ω} {ref : α → Option κ'} {t u : Table key} {owner' : β → ω} {parents parents' : Table key'}

theorem RefersWithin.of_mem (h : RefersWithin owner ref t owner' parents)
    (hrows : ∀ a ∈ u, a ∈ t ∨ ∀ k ∈ ref a, parents.Owns owner' (owner a) k) :
    RefersWithin owner ref u owner' parents := by
  intro a ha
  rcases hrows a ha with hold | hnew
  · exact h a hold
  · exact hnew

theorem RefersWithin.retarget (h : RefersWithin owner ref t owner' parents)
    (hkeep : ∀ a ∈ t, ∀ k ∈ ref a, parents.Owns owner' (owner a) k → parents'.Owns owner' (owner a) k) :
    RefersWithin owner ref t owner' parents' :=
  fun a ha k hk => hkeep a ha k hk (h a ha k hk)

theorem RefersWithin.filter {p : α → Bool} (h : RefersWithin owner ref t owner' parents) :
    RefersWithin owner ref (t.filter p) owner' parents :=
  h.of_mem fun _ ha => .inl (mem_filter.mp ha).1

theorem RefersWithin.cascade [DecidableEq κ'] {k : κ'} {p : α → Bool} (h : RefersWithin owner ref t owner' parents)
    (hp : ∀ a ∈ t, p a = true → ref a ≠ some k) :
    RefersWithin owner ref (t.filter p) owner' (parents.erase k) := by
  intro a ha k' hk'
  obtain ⟨hmem, hpa⟩ := mem_filter.mp ha
  refine (h a hmem k' hk').erase ?_
  rintro rfl
  exact hp a hmem hpa hk'

theorem RefersWithin.not_refers [DecidableEq ω] {a : α} {k : κ'} {o o' : ω}
    (h : RefersWithin owner ref t owner' parents) (hk : parents.Owns owner' o' k) (hne : o' ≠ o)
    (ha : a ∈ t.view owner o) : ref a ≠ some k := by
  obtain ⟨hmem, rfl⟩ := mem_view.mp ha
  intro hka
  exact hne (hk.unique (h a hmem k hka))

theorem RefersWithin.view_filter_of_ne [DecidableEq ω] {k : κ'} {o o' : ω} {p : α → Bool}
    (h : RefersWithin owner ref t owner' parents) (hk : parents.Owns owner' o' k) (hne : o' ≠ o)
    (hp : ∀ a, ref a ≠ some k → p a = true) : (t.filter p).view owner o = t.view owner o := by
  rw [view_filter, List.filter_eq_self]
  exact fun a ha => hp a (h.not_refers hk hne ha)

end

end Leadline.Library.Table
