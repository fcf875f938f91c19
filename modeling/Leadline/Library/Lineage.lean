import Mathlib.Data.List.Basic
import Mathlib.Data.List.Nodup
import Mathlib.Logic.Relation

namespace Leadline.Library.Lineage

open List

variable {α : Type*} {p settled : α → Prop} {next : α → α → Prop} {l : List α}

theorem pair_snoc {a : α} (h : a ∈ l) (b : α) : [a, b] <+ l ++ [b] :=
  (singleton_sublist.mpr h).append (Sublist.refl [b])

theorem of_pair_cons {a b c : α} (h : [a, b] <+ c :: l) (ha : a ∈ l) (hc : c ∉ l) : [a, b] <+ l := by
  cases h with
  | cons _ h => exact h
  | cons_cons _ h => exact absurd ha hc

theorem leads_to_settled (hl : l.Nodup) (h : ∀ a ∈ l, p a → settled a ∨ ∃ b, p b ∧ next a b ∧ [a, b] <+ l) :
    ∀ a ∈ l, p a → ∃ b ∈ l, p b ∧ settled b ∧ Relation.ReflTransGen next a b := by
  induction l with
  | nil =>
    intro a ha
    cases ha
  | cons c l ih =>
    obtain ⟨hc, hl⟩ := nodup_cons.mp hl
    have hrest : ∀ a ∈ l, p a → ∃ b ∈ l, p b ∧ settled b ∧ Relation.ReflTransGen next a b := by
      apply ih hl
      intro a ha hp
      apply (h a (mem_cons_of_mem c ha) hp).imp_right
      rintro ⟨b, hb, hnext, hsub⟩
      exact ⟨b, hb, hnext, of_pair_cons hsub ha hc⟩
    intro a ha hp
    rcases mem_cons.mp ha with rfl | ha
    · rcases h a ha hp with hsettled | ⟨b, hb, hnext, hsub⟩
      · exact ⟨a, ha, hp, hsettled, .refl⟩
      · have hmem : b ∈ l := singleton_sublist.mp (cons_sublist_cons.mp hsub)
        obtain ⟨last, hlast, hplast, hsettled, hpath⟩ := hrest b hmem hb
        exact ⟨last, mem_cons_of_mem a hlast, hplast, hsettled, .head hnext hpath⟩
    · obtain ⟨b, hb, hpb, hsettled, hpath⟩ := hrest a ha hp
      exact ⟨b, mem_cons_of_mem c hb, hpb, hsettled, hpath⟩

end Leadline.Library.Lineage
