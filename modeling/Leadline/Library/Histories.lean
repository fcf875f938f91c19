import Leadline.Library.Table

namespace Leadline.Library.Table

variable {α κ : Type*} {key : α → κ} {moves : α → α → Prop} {used used' : List κ} {t t' t'' : Table key} {a b : α}

def Evolves (moves : α → α → Prop) (used : List κ) (t t' : Table key) : Prop :=
  ∀ b ∈ t', (∃ a ∈ t, key a = key b ∧ moves a b) ∨ key b ∉ used

def Same {β : Type*} (f : α → β) (a b : α) : Prop := f b = f a

theorem Same.refl {β : Type*} (f : α → β) (a : α) : Same f a a := rfl

theorem Same.trans {β : Type*} (f : α → β) (a b c : α) (h : Same f a b) (h' : Same f b c) : Same f a c :=
  Eq.trans h' h

theorem Evolves.refl (hrefl : ∀ a, moves a a) (used : List κ) (t : Table key) : t.Evolves moves used t := by
  intro b hb
  exact .inl ⟨b, hb, rfl, hrefl b⟩

theorem Evolves.trans (htrans : ∀ a b c, moves a b → moves b c → moves a c) (hused : ∀ k ∈ used, k ∈ used')
    (h : t.Evolves moves used t') (h' : t'.Evolves moves used' t'') : t.Evolves moves used t'' := by
  intro c hc
  rcases h' c hc with ⟨b, hb, hkey, hmoves⟩ | hnew
  · rcases h b hb with ⟨a, ha, hkey', hmoves'⟩ | hnew
    · exact .inl ⟨a, ha, hkey'.trans hkey, htrans a b c hmoves' hmoves⟩
    · rw [hkey] at hnew
      exact .inr hnew
  · exact .inr fun hk => hnew (hused _ hk)

theorem Evolves.fresh {k : κ} (h : t.Evolves moves used t') (hk : k ∈ used) (hfresh : ∀ a ∈ t, key a ≠ k) :
    ∀ b ∈ t', key b ≠ k := by
  rintro b hb rfl
  rcases h b hb with ⟨a, ha, hkey, -⟩ | hnew
  · exact hfresh a ha hkey
  · exact hnew hk

theorem Evolves.filter {p : α → Bool} (h : t.Evolves moves used t') : t.Evolves moves used (t'.filter p) := by
  intro b hb
  exact h b (mem_filter.mp hb).1

theorem Evolves.mapRows {f : α → α} (hf : ∀ a, key (f a) = key a) (hmoves : ∀ a b, moves a b → moves a (f b))
    (h : t.Evolves moves used t') : t.Evolves moves used (t'.mapRows f hf) := by
  intro b hb
  obtain ⟨old, hold, rfl⟩ := mem_mapRows.mp hb
  rw [hf]
  apply (h old hold).imp_left
  rintro ⟨a, ha, hkey, hmove⟩
  exact ⟨a, ha, hkey, hmoves a old hmove⟩

variable [DecidableEq κ]

theorem Evolves.insert (h : t.Evolves moves used t') (hnew : key a ∉ used) : t.Evolves moves used (t'.insert a) := by
  intro b hb
  rcases mem_of_mem_insert hb with hold | rfl
  · exact h b hold
  · exact .inr hnew

theorem Evolves.put (h : t.Evolves moves used t') (ha : a ∈ t) (hkey : key a = key b) (hmoves : moves a b) :
    t.Evolves moves used (t'.put b) := by
  intro c hc
  rcases mem_of_mem_put hc with rfl | ⟨hold, -⟩
  · exact .inl ⟨a, ha, hkey, hmoves⟩
  · exact h c hold

theorem Evolves.erase {k : κ} (h : t.Evolves moves used t') : t.Evolves moves used (t'.erase k) := by
  intro b hb
  exact h b (mem_erase.mp hb).1

end Leadline.Library.Table
