import Mathlib.Data.List.Nodup
import Mathlib.Data.List.Basic

namespace Leadline.Library

/-- Rows in insertion order, no two of them with one key. -/
structure Table {α κ : Type*} (key : α → κ) where
  rows : List α
  nodup : (rows.map key).Nodup

namespace Table

variable {α κ : Type*} {key : α → κ}

def empty : Table key := ⟨[], by simp⟩

instance : Membership α (Table key) := ⟨fun t a => a ∈ t.rows⟩

theorem mem_def {t : Table key} {a : α} : a ∈ t ↔ a ∈ t.rows := Iff.rfl

instance [DecidableEq α] (a : α) (t : Table key) : Decidable (a ∈ t) :=
  inferInstanceAs (Decidable (a ∈ t.rows))

theorem not_mem_empty (a : α) : a ∉ (empty : Table key) := by simp [mem_def, empty]

theorem ext_rows {t u : Table key} (h : t.rows = u.rows) : t = u := by
  cases t
  cases u
  cases h
  rfl

theorem eq_of_key_eq {t : Table key} {a b : α} (ha : a ∈ t) (hb : b ∈ t) (h : key a = key b) :
    a = b :=
  List.inj_on_of_nodup_map t.nodup ha hb h

variable [DecidableEq κ]

def find? (t : Table key) (k : κ) : Option α := t.rows.find? (fun a => key a = k)

theorem find?_eq_some_iff {t : Table key} {k : κ} {a : α} :
    t.find? k = some a ↔ a ∈ t ∧ key a = k := by
  constructor
  · intro h
    exact ⟨List.mem_of_find?_eq_some h, by simpa using List.find?_some h⟩
  · rintro ⟨ha, rfl⟩
    cases hf : t.find? (key a) with
    | none => exact absurd (List.find?_eq_none.mp hf a ha) (by simp)
    | some b =>
      have hb : key b = key a := by simpa using List.find?_some hf
      rw [eq_of_key_eq (List.mem_of_find?_eq_some hf) ha hb]

theorem find?_eq_none_iff {t : Table key} {k : κ} : t.find? k = none ↔ ∀ a ∈ t, key a ≠ k := by
  simp [find?, mem_def]

def insert (t : Table key) (a : α) : Table key :=
  if h : key a ∈ t.rows.map key then t
  else ⟨t.rows ++ [a], by
    rw [List.map_append]
    exact t.nodup.append (by simp) (by simpa using h)⟩

def Fresh (t : Table key) (k : κ) : Prop := ∀ a ∈ t, key a ≠ k

instance (t : Table key) (k : κ) : Decidable (t.Fresh k) :=
  inferInstanceAs (Decidable (∀ a ∈ t.rows, key a ≠ k))

theorem rows_insert {t : Table key} {a : α} (h : t.Fresh (key a)) :
    (t.insert a).rows = t.rows ++ [a] := by
  have hn : key a ∉ t.rows.map key := by
    rintro hm
    obtain ⟨b, hb, he⟩ := List.mem_map.mp hm
    exact h b hb he
  simp [insert, hn]

theorem insert_of_not_fresh {t : Table key} {a : α} (h : ¬t.Fresh (key a)) : t.insert a = t := by
  simp only [Fresh, not_forall, not_not] at h
  obtain ⟨b, hb, hkey⟩ := h
  exact dif_pos (List.mem_map.mpr ⟨b, hb, hkey⟩)

theorem mem_insert {t : Table key} {a b : α} (h : t.Fresh (key a)) :
    b ∈ t.insert a ↔ b ∈ t ∨ b = a := by
  rw [mem_def, rows_insert h]
  simp [mem_def]

theorem mem_of_mem_insert {t : Table key} {a b : α} (h : b ∈ t.insert a) : b ∈ t ∨ b = a := by
  unfold insert at h
  split at h
  · exact .inl h
  · simpa [mem_def] using h

theorem mem_insert_of_mem {t : Table key} {a b : α} (h : b ∈ t) : b ∈ t.insert a := by
  unfold insert
  split
  · exact h
  · exact List.mem_append_left _ h

theorem mem_of_mem_foldl_insert {β : Type*} {f : β → α} {items : List β} {t : Table key} {a : α}
    (h : a ∈ items.foldl (fun t b => t.insert (f b)) t) : a ∈ t ∨ ∃ b ∈ items, a = f b := by
  induction items generalizing t with
  | nil => exact .inl h
  | cons b items ih =>
    rcases ih h with hrest | ⟨c, hc, rfl⟩
    · rcases mem_of_mem_insert hrest with hold | rfl
      · exact .inl hold
      · exact .inr ⟨b, List.mem_cons_self, rfl⟩
    · exact .inr ⟨c, List.mem_cons_of_mem b hc, rfl⟩

def modify (t : Table key) (k : κ) (f : α → α) (hf : ∀ a, key (f a) = key a) : Table key :=
  ⟨t.rows.map (fun a => if key a = k then f a else a), by
    have hc : key ∘ (fun a => if key a = k then f a else a) = key := by
      funext a
      simp only [Function.comp_apply]
      split <;> simp [hf]
    rw [List.map_map, hc]
    exact t.nodup⟩

variable {k : κ} {f : α → α} (hf : ∀ a, key (f a) = key a)

theorem mem_modify {t : Table key} {b : α} :
    b ∈ t.modify k f hf ↔ ∃ a ∈ t, b = if key a = k then f a else a := by
  simp [mem_def, modify, eq_comm]

theorem mem_modify_self {t : Table key} {a : α} (ha : a ∈ t) (hk : key a = k) :
    f a ∈ t.modify k f hf :=
  (mem_modify hf).mpr ⟨a, ha, by rw [if_pos hk]⟩

theorem mem_modify_of_ne {t : Table key} {b : α} (hb : key b ≠ k) :
    b ∈ t.modify k f hf ↔ b ∈ t := by
  rw [mem_modify]
  constructor
  · rintro ⟨a, ha, h⟩
    split at h
    · rename_i hk
      rw [h, hf] at hb
      exact absurd hk hb
    · rwa [h]
  · intro h
    exact ⟨b, h, by rw [if_neg hb]⟩

theorem find?_modify_self {t : Table key} {a : α} (h : t.find? k = some a) :
    (t.modify k f hf).find? k = some (f a) := by
  obtain ⟨ha, hk⟩ := find?_eq_some_iff.mp h
  exact find?_eq_some_iff.mpr ⟨mem_modify_self hf ha hk, by rw [hf, hk]⟩

theorem find?_modify_of_ne {t : Table key} {k' : κ} (hne : k' ≠ k) :
    (t.modify k f hf).find? k' = t.find? k' := by
  ext b
  rw [find?_eq_some_iff, find?_eq_some_iff]
  refine and_congr_left fun hb => ?_
  rw [mem_modify_of_ne]
  rwa [hb]

def erase (t : Table key) (k : κ) : Table key :=
  ⟨t.rows.filter (fun a => key a ≠ k), t.nodup.sublist (List.filter_sublist.map key)⟩

theorem mem_erase {t : Table key} {b : α} : b ∈ t.erase k ↔ b ∈ t ∧ key b ≠ k := by
  simp [mem_def, erase]

def filter (t : Table key) (p : α → Bool) : Table key :=
  ⟨t.rows.filter p, t.nodup.sublist (List.filter_sublist.map key)⟩

omit [DecidableEq κ] in
theorem mem_filter {t : Table key} {p : α → Bool} {b : α} : b ∈ t.filter p ↔ b ∈ t ∧ p b = true :=
  List.mem_filter

def put (t : Table key) (b : α) : Table key :=
  ⟨t.rows.map (fun a => if key a = key b then b else a), by
    have hc : key ∘ (fun a => if key a = key b then b else a) = key := by
      funext a
      simp only [Function.comp_apply]
      split
      · rename_i hk
        exact hk.symm
      · rfl
    rw [List.map_map, hc]
    exact t.nodup⟩

theorem mem_put {t : Table key} {a b : α} : a ∈ t.put b ↔ ∃ c ∈ t, a = if key c = key b then b else c := by
  simp [mem_def, put, eq_comm]

theorem mem_put_self {t : Table key} {a b : α} (ha : a ∈ t) (hk : key a = key b) : b ∈ t.put b :=
  mem_put.mpr ⟨a, ha, by rw [if_pos hk]⟩

theorem mem_of_mem_put {t : Table key} {a b : α} (h : a ∈ t.put b) : a = b ∨ a ∈ t ∧ key a ≠ key b := by
  obtain ⟨c, hc, rfl⟩ := mem_put.mp h
  split
  · exact .inl rfl
  · rename_i hk
    exact .inr ⟨hc, hk⟩

theorem find?_put {t : Table key} {a b : α} (h : t.find? k = some a) (hk : key b = k) : (t.put b).find? k = some b := by
  obtain ⟨ha, hkey⟩ := find?_eq_some_iff.mp h
  exact find?_eq_some_iff.mpr ⟨mem_put_self ha (hkey.trans hk.symm), hk⟩

theorem put_put (t : Table key) (b : α) : (t.put b).put b = t.put b := by
  apply ext_rows
  simp only [put, List.map_map]
  apply List.map_congr_left
  intro a _
  by_cases hk : key a = key b
  · simp [hk]
  · simp [hk]

theorem modify_eq_put {t : Table key} {a : α} (h : t.find? k = some a) : t.modify k f hf = t.put (f a) := by
  obtain ⟨ha, hk⟩ := find?_eq_some_iff.mp h
  apply ext_rows
  apply List.map_congr_left
  intro b hb
  rw [hf, hk]
  split
  · rename_i hbk
    rw [eq_of_key_eq hb ha (hbk.trans hk.symm)]
  · rfl

omit [DecidableEq κ] in
def mapRows (t : Table key) (f : α → α) (hf : ∀ a, key (f a) = key a) : Table key :=
  ⟨t.rows.map f, by
    have hc : key ∘ f = key := funext hf
    rw [List.map_map, hc]
    exact t.nodup⟩

omit [DecidableEq κ] in
theorem mem_mapRows {t : Table key} {f : α → α} {hf : ∀ a, key (f a) = key a} {b : α} :
    b ∈ t.mapRows f hf ↔ ∃ a ∈ t, b = f a := by
  simp [mem_def, mapRows, eq_comm]

theorem find?_insert_of_some {t : Table key} {a b : α} (h : t.find? k = some b) :
    (t.insert a).find? k = some b := by
  obtain ⟨hb, hk⟩ := find?_eq_some_iff.mp h
  exact find?_eq_some_iff.mpr ⟨mem_insert_of_mem hb, hk⟩

theorem find?_insert_self {t : Table key} {a : α} (h : t.Fresh (key a)) :
    (t.insert a).find? (key a) = some a :=
  find?_eq_some_iff.mpr ⟨(mem_insert h).mpr (.inr rfl), rfl⟩

theorem find?_insert_of_ne {t : Table key} {a : α} (h : key a ≠ k) : (t.insert a).find? k = t.find? k := by
  ext b
  rw [find?_eq_some_iff, find?_eq_some_iff]
  refine and_congr_left fun hb => ?_
  constructor
  · intro hmem
    obtain hold | rfl := mem_of_mem_insert hmem
    · exact hold
    · exact absurd hb h
  · exact mem_insert_of_mem

def UniqueOn {β : Type*} (t : Table key) (k : α → Option β) : Prop :=
  ∀ a ∈ t, ∀ b ∈ t, ∀ v, k a = some v → k b = some v → a = b

def Unclaimed {β : Type*} (t : Table key) (k : α → Option β) (a : α) : Prop :=
  ∀ b ∈ t, ∀ v, k a = some v → k b ≠ some v

namespace UniqueOn

variable {β : Type*} {t : Table key} {u : α → Option β}

omit [DecidableEq κ] in
theorem empty : (Table.empty : Table key).UniqueOn u := by
  intro a ha
  exact absurd ha (not_mem_empty a)

omit [DecidableEq κ] in
theorem mono {t' : Table key} (h : t.UniqueOn u) (hsub : ∀ a ∈ t', a ∈ t) : t'.UniqueOn u :=
  fun a ha b hb => h a (hsub a ha) b (hsub b hb)

theorem insert {a : α} (h : t.UniqueOn u) (ha : t.Unclaimed u a) : (t.insert a).UniqueOn u := by
  intro b hb c hc v hbv hcv
  rcases mem_of_mem_insert hb with hb | hba
  · rcases mem_of_mem_insert hc with hc | hca
    · exact h b hb c hc v hbv hcv
    · rw [hca] at hcv
      exact absurd hbv (ha b hb v hcv)
  · rcases mem_of_mem_insert hc with hc | hca
    · rw [hba] at hbv
      exact absurd hcv (ha c hc v hbv)
    · rw [hba, hca]

theorem modify (h : t.UniqueOn u)
    (hnew : ∀ a ∈ t, key a = k → ∀ b ∈ t, key b ≠ k → ∀ v, u (f a) = some v → u b ≠ some v) :
    (t.modify k f hf).UniqueOn u := by
  intro b hb c hc v hbv hcv
  obtain ⟨a, ha, rfl⟩ := (mem_modify hf).mp hb
  obtain ⟨d, hd, rfl⟩ := (mem_modify hf).mp hc
  split at hbv
  · rename_i hak
    split at hcv
    · rename_i hdk
      rw [eq_of_key_eq ha hd (hak.trans hdk.symm)]
    · rename_i hdk
      exact absurd hcv (hnew a ha hak d hd hdk v hbv)
  · rename_i hak
    split at hcv
    · rename_i hdk
      exact absurd hbv (hnew d hd hdk a ha hak v hcv)
    · rename_i hdk
      rw [if_neg hak, if_neg hdk]
      exact h a ha d hd v hbv hcv

end UniqueOn

end Table

end Leadline.Library
