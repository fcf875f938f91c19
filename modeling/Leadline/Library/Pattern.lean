import Mathlib.Data.List.Forall2
import Mathlib.Data.List.Infix
import Mathlib.Data.List.TakeWhile

/-!
Regular expressions that are a row of greedy repetitions, matched by backtracking, and the
substitution of their matches from left to right.
-/

namespace Leadline.Library

theorem exists_of_forall₂ {α β : Type*} {R : α → β → Prop} {xs : List α} {ys : List β} (h : List.Forall₂ R xs ys)
    {x : α} (hx : x ∈ xs) : ∃ y ∈ ys, R x y := by
  induction h with
  | nil => cases hx
  | cons hxy _ ih =>
    rcases List.mem_cons.mp hx with rfl | hx
    · exact ⟨_, List.mem_cons_self, hxy⟩
    · obtain ⟨y, hy, hR⟩ := ih hx
      exact ⟨y, List.mem_cons_of_mem _ hy, hR⟩

theorem split_after {α : Type*} {c : α} {xs ys as bs : List α} (hc : c ∉ xs) (h : xs ++ ys = as ++ c :: bs) :
    ∃ mid, as = xs ++ mid ∧ ys = mid ++ c :: bs := by
  rcases List.append_eq_append_iff.mp h with ⟨mid, has, hys⟩ | ⟨mid, hxs, hrest⟩
  · exact ⟨mid, has, hys⟩
  · cases mid with
    | nil => exact ⟨[], by simpa using hxs.symm, hrest.symm⟩
    | cons d mid =>
      obtain ⟨rfl, -⟩ := List.cons.inj hrest
      exact absurd (hxs ▸ by simp) hc

theorem takeWhile_stop {α : Type*} {allowed : α → Bool} {cs : List α} (h : ∀ c ∈ cs.head?, allowed c = false) :
    cs.takeWhile allowed = [] := by
  cases cs with
  | nil => rfl
  | cons c cs => exact List.takeWhile_cons_of_neg (by simp [h c rfl])

/-- Between `least` and `most` symbols of a class, as many as possible. -/
structure Repeat (α : Type*) where
  allowed : α → Bool
  least : ℕ := 1
  most : Option ℕ := some 1

variable {α β : Type*}

def firstDown (f : ℕ → Option β) : ℕ → Option β
  | 0 => f 0
  | n + 1 => (f (n + 1)).orElse fun _ => firstDown f n

theorem firstDown_eq_some {f : ℕ → Option β} {n : ℕ} {v : β} (h : firstDown f n = some v) :
    ∃ k ≤ n, f k = some v := by
  induction n with
  | zero => exact ⟨0, le_refl 0, h⟩
  | succ n ih =>
    rw [firstDown] at h
    cases hf : f (n + 1) with
    | some w =>
      rw [hf] at h
      exact ⟨n + 1, le_refl _, hf.trans h⟩
    | none =>
      rw [hf] at h
      obtain ⟨k, hk, hv⟩ := ih h
      exact ⟨k, by omega, hv⟩

theorem firstDown_isSome {f : ℕ → Option β} {k n : ℕ} (hk : k ≤ n) (h : (f k).isSome = true) :
    (firstDown f n).isSome = true := by
  induction n with
  | zero =>
    obtain rfl : k = 0 := by omega
    exact h
  | succ n ih =>
    rw [firstDown]
    cases hf : f (n + 1) with
    | some w => rfl
    | none =>
      have hne : k ≠ n + 1 := by
        rintro rfl
        rw [hf] at h
        cases h
      exact ih (by omega)

theorem firstDown_congr {f g : ℕ → Option β} {n : ℕ} (h : ∀ k ≤ n, f k = g k) : firstDown f n = firstDown g n := by
  induction n with
  | zero => exact h 0 (le_refl 0)
  | succ n ih => rw [firstDown, firstDown, h (n + 1) (le_refl _), ih fun k hk => h k (by omega)]

theorem firstDown_of_fails {f : ℕ → Option β} {n : ℕ} (h : ∀ k < n, f k = none) : firstDown f n = f n := by
  cases n with
  | zero => rfl
  | succ n =>
    have hrest : firstDown f n = none := by
      rw [Option.eq_none_iff_forall_ne_some]
      intro v hv
      obtain ⟨k, hk, hf⟩ := firstDown_eq_some hv
      rw [h k (by omega)] at hf
      cases hf
    rw [firstDown, hrest]
    cases f (n + 1) <;> rfl

theorem firstDown_of_some {f : ℕ → Option β} {n : ℕ} {v : β} (h : f n = some v) : firstDown f n = some v := by
  cases n with
  | zero => exact h
  | succ n => rw [firstDown, h]; rfl

theorem firstDown_below {f : ℕ → Option β} {k n : ℕ} (hk : k ≤ n) (h : ∀ j, k < j → j ≤ n → f j = none) :
    firstDown f n = firstDown f k := by
  induction n with
  | zero =>
    obtain rfl : k = 0 := by omega
    rfl
  | succ n ih =>
    by_cases heq : k = n + 1
    · rw [heq]
    · rw [firstDown, h (n + 1) (by omega) (le_refl _)]
      exact ih (by omega) fun j hj hjn => h j hj (by omega)

namespace Repeat

def longest (r : Repeat α) (cs : List α) : ℕ :=
  let run := (cs.takeWhile r.allowed).length
  (r.most.map (min run)).getD run

structure Admits (r : Repeat α) (part : List α) : Prop where
  allowed : ∀ c ∈ part, r.allowed c = true
  least : r.least ≤ part.length
  most : ∀ m, r.most = some m → part.length ≤ m

theorem le_longest_iff (r : Repeat α) (cs : List α) (n : ℕ) :
    n ≤ r.longest cs ↔ n ≤ (cs.takeWhile r.allowed).length ∧ ∀ m, r.most = some m → n ≤ m := by
  unfold longest
  cases r.most with
  | none => simp
  | some m =>
    dsimp only [Option.map_some, Option.getD_some]
    rw [Nat.le_min]
    simp

theorem longest_eq_zero (r : Repeat α) {cs : List α} (h : ∀ c ∈ cs.head?, r.allowed c = false) : r.longest cs = 0 := by
  refine Nat.le_zero.mp (((r.le_longest_iff cs _).mp (le_refl _)).1.trans_eq ?_)
  rw [takeWhile_stop h, List.length_nil]

theorem longest_eq_one {r : Repeat α} (hmost : r.most = some 1) {c : α} (hc : r.allowed c = true) (cs : List α) :
    r.longest (c :: cs) = 1 := by
  rw [longest, hmost, List.takeWhile_cons_of_pos hc, List.length_cons]
  exact Nat.min_eq_right (by omega)

theorem admits_take {r : Repeat α} {cs : List α} {n : ℕ} (hn : n ≤ r.longest cs) (hleast : r.least ≤ n) :
    r.Admits (cs.take n) := by
  obtain ⟨hrun, hmost⟩ := (r.le_longest_iff cs n).mp hn
  have hlength : (cs.take n).length = n :=
    List.length_take_of_le (hrun.trans (List.takeWhile_prefix r.allowed).length_le)
  have hbegins : cs.take n <+: cs.takeWhile r.allowed :=
    List.prefix_of_prefix_length_le (List.take_prefix n cs) (List.takeWhile_prefix r.allowed) (hlength.trans_le hrun)
  exact ⟨fun c hc => List.mem_takeWhile_imp (hbegins.subset hc), hlength.symm ▸ hleast, hlength.symm ▸ hmost⟩

theorem Admits.le_longest {r : Repeat α} {part rest : List α} (h : r.Admits part) :
    part.length ≤ r.longest (part ++ rest) := by
  refine (r.le_longest_iff _ _).mpr ⟨?_, h.most⟩
  rw [List.takeWhile_append_of_pos h.allowed, List.length_append]
  exact Nat.le_add_right _ _

end Repeat

def matchAt : List (Repeat α) → List α → Option (List (List α))
  | [], _ => some []
  | r :: rs, cs =>
    firstDown
      (fun n => if r.least ≤ n then (matchAt rs (cs.drop n)).map fun parts => cs.take n :: parts else none)
      (r.longest cs)

section Matches

variable {r q : Repeat α} {rs : List (Repeat α)} {cs : List α} {parts : List (List α)} {c : α}

theorem matchAt_sound (h : matchAt rs cs = some parts) :
    List.Forall₂ Repeat.Admits rs parts ∧ parts.flatten <+: cs := by
  induction rs generalizing cs parts with
  | nil =>
    cases h
    exact ⟨.nil, List.nil_prefix⟩
  | cons r rs ih =>
    obtain ⟨n, hn, hparts⟩ := firstDown_eq_some h
    split at hparts
    · rename_i hleast
      obtain ⟨rest, hrest, rfl⟩ := Option.map_eq_some_iff.mp hparts
      obtain ⟨hadmits, suffix, hsuffix⟩ := ih hrest
      refine ⟨.cons (Repeat.admits_take hn hleast) hadmits, suffix, ?_⟩
      rw [List.flatten_cons, List.append_assoc, hsuffix, List.take_append_drop]
    · cases hparts

theorem matchAt_complete (h : List.Forall₂ Repeat.Admits rs parts) (rest : List α) :
    (matchAt rs (parts.flatten ++ rest)).isSome = true := by
  induction h with
  | nil => rfl
  | @cons r part rs parts hpart _ ih =>
    rw [List.flatten_cons, List.append_assoc]
    refine firstDown_isSome hpart.le_longest ?_
    rw [if_pos hpart.least, Option.isSome_map, List.drop_left]
    exact ih

theorem matchAt_mono (h : (matchAt rs cs).isSome = true) (suffix : List α) : (matchAt rs (cs ++ suffix)).isSome = true := by
  obtain ⟨parts, hparts⟩ := Option.isSome_iff_exists.mp h
  obtain ⟨hadmits, rest, rfl⟩ := matchAt_sound hparts
  rw [List.append_assoc]
  exact matchAt_complete hadmits (rest ++ suffix)

theorem matchAt_append {ys : List α} (h : ∀ r ∈ rs, ∀ c ∈ ys.head?, r.allowed c = false) (xs : List α) :
    matchAt rs (xs ++ ys) = matchAt rs xs := by
  induction rs generalizing xs with
  | nil => rfl
  | cons r rs ih =>
    have hstop : ys.takeWhile r.allowed = [] := takeWhile_stop (h r List.mem_cons_self)
    have hrun : (xs ++ ys).takeWhile r.allowed = xs.takeWhile r.allowed := by
      rw [List.takeWhile_append]
      split
      · rename_i hall
        rw [hstop, List.append_nil, (List.takeWhile_prefix r.allowed).eq_of_length hall]
      · rfl
    have hlongest : r.longest (xs ++ ys) = r.longest xs := by rw [Repeat.longest, Repeat.longest, hrun]
    rw [matchAt, matchAt, hlongest]
    refine firstDown_congr fun n hn => ?_
    have hlength : n ≤ xs.length :=
      ((r.le_longest_iff xs n).mp hn).1.trans (List.takeWhile_prefix r.allowed).length_le
    rw [List.drop_append_of_le_length hlength, List.take_append_of_le_length hlength,
      ih (fun r hr => h r (List.mem_cons_of_mem _ hr))]

theorem matchAt_head (hleast : 0 < r.least) (h : ∀ c ∈ cs.head?, r.allowed c = false) :
    matchAt (r :: rs) cs = none := by
  rw [matchAt, r.longest_eq_zero h, firstDown, if_neg (by omega)]

theorem matchAt_one (hleast : r.least = 1) (hmost : r.most = some 1) (hc : r.allowed c = true) :
    matchAt (r :: rs) (c :: cs) = (matchAt rs cs).map fun parts => [c] :: parts := by
  rw [matchAt, Repeat.longest_eq_one hmost hc, firstDown_of_fails, if_pos hleast.le]
  · rfl
  · intro k hk
    rw [if_neg (by omega)]

theorem matchAt_skip (hleast : r.least = 0) (h : ∀ c ∈ cs.head?, r.allowed c = false) :
    matchAt (r :: rs) cs = (matchAt rs cs).map fun parts => [] :: parts := by
  rw [matchAt, r.longest_eq_zero h, firstDown, if_pos hleast.le]
  rfl

theorem matchAt_optional (hleast : r.least = 0) (hmost : r.most = some 1) (hc : r.allowed c = true)
    (hnone : matchAt rs (c :: cs) = none) :
    matchAt (r :: rs) (c :: cs) = (matchAt rs cs).map fun parts => [c] :: parts := by
  rw [matchAt, Repeat.longest_eq_one hmost hc, firstDown, firstDown, if_pos (by omega), if_pos hleast.le, List.drop_zero,
    hnone]
  cases h : matchAt rs cs <;> simp [h]

theorem matchAt_last {front back rest : List α} (hmost : r.most = none) (hqleast : q.least = 1) (hqmost : q.most = some 1)
    (hsub : ∀ c, q.allowed c = true → r.allowed c = true) (hfront : ∀ c ∈ front, r.allowed c = true)
    (hc : q.allowed c = true) (hback : ∀ d ∈ back, r.allowed d = true ∧ q.allowed d = false)
    (hrest : ∀ d ∈ rest.head?, r.allowed d = false) :
    matchAt [r, q] (front ++ c :: (back ++ rest)) = if r.least ≤ front.length then some [front, [c]] else none := by
  have hrun : (front ++ c :: (back ++ rest)).takeWhile r.allowed = front ++ c :: back := by
    rw [List.takeWhile_append_of_pos hfront, List.takeWhile_cons_of_pos (hsub c hc),
      List.takeWhile_append_of_pos fun d hd => (hback d hd).1, takeWhile_stop hrest, List.append_nil]
  have hlongest : r.longest (front ++ c :: (back ++ rest)) = front.length + back.length + 1 := by
    rw [Repeat.longest, hmost, hrun]
    simp
    omega
  have hlater : ∀ i ≤ back.length, matchAt [q] ((back ++ rest).drop i) = none := by
    intro i hi
    apply matchAt_head (by omega)
    intro d hd
    rw [List.drop_append_of_le_length hi] at hd
    cases hdrop : back.drop i with
    | nil =>
      rw [hdrop, List.nil_append] at hd
      by_contra hallowed
      have hrun := hsub d (by simpa using hallowed)
      rw [hrest d hd] at hrun
      cases hrun
    | cons e es =>
      rw [hdrop] at hd
      obtain rfl : e = d := Option.some.inj hd
      exact (hback e (List.drop_subset i back (hdrop ▸ List.mem_cons_self))).2
  rw [matchAt, hlongest, firstDown_below (by omega : front.length ≤ front.length + back.length + 1)]
  · have hfound : matchAt [q] (c :: (back ++ rest)) = some [[c]] := by
      rw [matchAt_one hqleast hqmost hc]
      rfl
    split
    · rename_i hleast
      apply firstDown_of_some
      rw [if_pos hleast, List.drop_left, List.take_left, hfound]
      rfl
    · rw [Option.eq_none_iff_forall_ne_some]
      intro parts hparts
      obtain ⟨n, hn, hsome⟩ := firstDown_eq_some hparts
      rw [if_neg (by omega)] at hsome
      cases hsome
  · intro n hlow hhigh
    obtain ⟨i, rfl⟩ : ∃ i, n = front.length + (i + 1) := ⟨n - front.length - 1, by omega⟩
    rw [List.drop_length_add_append, List.drop_succ_cons, hlater i (by omega)]
    split <;> rfl

theorem matchAt_no_last {back rest : List α} (hqleast : q.least = 1)
    (hsub : ∀ c, q.allowed c = true → r.allowed c = true) (hback : ∀ d ∈ back, q.allowed d = false)
    (hrest : ∀ d ∈ rest.head?, r.allowed d = false) : matchAt [r, q] (back ++ rest) = none := by
  rw [Option.eq_none_iff_forall_ne_some]
  intro parts hparts
  obtain ⟨hadmits, hbegins⟩ := matchAt_sound hparts
  cases hadmits with
  | @cons _ front _ _ hfront hadmits =>
    cases hadmits with
    | @cons _ last _ _ hlast hadmits =>
      cases hadmits
      obtain ⟨c, hc⟩ := List.exists_mem_of_length_pos (hqleast.symm.trans_le hlast.least)
      rw [List.flatten_cons, List.flatten_cons, List.flatten_nil, List.append_nil] at hbegins
      have hrun : ∀ d ∈ front ++ last, r.allowed d = true := by
        intro d hd
        rcases List.mem_append.mp hd with hd | hd
        · exact hfront.allowed d hd
        · exact hsub d (hlast.allowed d hd)
      have hinside : front ++ last <+: back := by
        obtain ⟨suffix, hsuffix⟩ := hbegins
        rcases List.append_eq_append_iff.mp hsuffix with ⟨mid, hmid, -⟩ | ⟨mid, hmid, hrest'⟩
        · exact ⟨mid, hmid.symm⟩
        · cases mid with
          | nil => exact ⟨[], by simpa using hmid⟩
          | cons d mid =>
            have hd := hrun d (hmid ▸ by simp)
            rw [hrest d (hrest' ▸ rfl)] at hd
            cases hd
      have hcback := hback c (hinside.subset (List.mem_append_right front hc))
      rw [hlast.allowed c hc] at hcback
      cases hcback

theorem matchAt_run {run : List α} (hmost : r.most = none) (hleast : r.least ≤ run.length)
    (hrun : ∀ c ∈ run, r.allowed c = true) (hstop : ∀ c ∈ cs.head?, r.allowed c = false) (hq : 0 < q.least)
    (hdisjoint : ∀ c, r.allowed c = true → q.allowed c = false) :
    matchAt (r :: q :: rs) (run ++ cs) = (matchAt (q :: rs) cs).map fun parts => run :: parts := by
  have htake : (run ++ cs).takeWhile r.allowed = run := by
    rw [List.takeWhile_append_of_pos hrun, takeWhile_stop hstop, List.append_nil]
  have hlongest : r.longest (run ++ cs) = run.length := by rw [Repeat.longest, hmost, htake]; rfl
  rw [matchAt, hlongest, firstDown_of_fails, if_pos hleast, List.drop_left, List.take_left]
  intro k hk
  have hnone : matchAt (q :: rs) ((run ++ cs).drop k) = none := by
    refine matchAt_head hq fun c hc => hdisjoint c (hrun c ?_)
    rw [List.drop_append_of_le_length hk.le, List.head?_append_of_ne_nil _ (by simpa using hk)] at hc
    exact List.drop_subset k run (List.mem_of_mem_head? hc)
  rw [hnone]
  split <;> rfl

end Matches

structure Pattern (α : Type*) where
  pieces : List (Repeat α)
  nonempty : ∃ r ∈ pieces, 0 < r.least

namespace Pattern

variable (p : Pattern α) (replace : List (List α) → List α)

theorem flatten_ne_nil {p : Pattern α} {cs : List α} {parts : List (List α)} (h : matchAt p.pieces cs = some parts) :
    parts.flatten ≠ [] := by
  obtain ⟨r, hr, hleast⟩ := p.nonempty
  obtain ⟨part, hpart, hadmits⟩ := exists_of_forall₂ (matchAt_sound h).1 hr
  intro hflatten
  rw [List.flatten_eq_nil_iff.mp hflatten part hpart] at hadmits
  exact Nat.not_le.mpr hleast hadmits.least

def scan : ℕ → List α → List α
  | _, [] => []
  | skipped + 1, _ :: cs => scan skipped cs
  | 0, c :: cs =>
    match matchAt p.pieces (c :: cs) with
    | some parts => replace parts ++ scan (parts.flatten.length - 1) cs
    | none => c :: scan 0 cs

def sub (cs : List α) : List α := p.scan replace 0 cs

theorem scan_eq_sub (skipped : ℕ) (cs : List α) : p.scan replace skipped cs = p.sub replace (cs.drop skipped) := by
  induction skipped generalizing cs with
  | zero => rfl
  | succ skipped ih =>
    cases cs with
    | nil => rfl
    | cons c cs => exact ih cs

variable {p replace}

theorem sub_miss {c : α} {cs : List α} (h : matchAt p.pieces (c :: cs) = none) :
    p.sub replace (c :: cs) = c :: p.sub replace cs := by
  rw [sub, scan, h]
  rfl

theorem sub_hit {parts : List (List α)} {rest : List α}
    (h : matchAt p.pieces (parts.flatten ++ rest) = some parts) :
    p.sub replace (parts.flatten ++ rest) = replace parts ++ p.sub replace rest := by
  have hne := flatten_ne_nil h
  cases hflatten : parts.flatten with
  | nil => exact absurd hflatten hne
  | cons c cs =>
    rw [hflatten, List.cons_append] at h
    rw [List.cons_append, sub, scan, h]
    dsimp only
    rw [scan_eq_sub, hflatten, List.length_cons, Nat.add_sub_cancel, List.drop_left]

theorem sub_induction (p : Pattern α) {motive : List α → Prop} (nil : motive [])
    (miss : ∀ c cs, matchAt p.pieces (c :: cs) = none → motive cs → motive (c :: cs))
    (hit : ∀ parts rest, matchAt p.pieces (parts.flatten ++ rest) = some parts → motive rest →
      motive (parts.flatten ++ rest)) (cs : List α) : motive cs := by
  induction hn : cs.length using Nat.strong_induction_on generalizing cs with
  | _ n ih =>
    cases cs with
    | nil => exact nil
    | cons c cs =>
      rw [List.length_cons] at hn
      cases h : matchAt p.pieces (c :: cs) with
      | none => exact miss c cs h (ih cs.length (by omega) cs rfl)
      | some parts =>
        obtain ⟨rest, hrest⟩ := (matchAt_sound h).2
        have hpos := List.length_pos_iff.mpr (flatten_ne_nil h)
        have hlength := congrArg List.length hrest
        rw [List.length_append, List.length_cons] at hlength
        rw [← hrest] at h ⊢
        exact hit parts rest h (ih rest.length (by omega) rest rfl)

def Separates (p : Pattern α) (c : α) : Prop := ∀ r ∈ p.pieces, r.allowed c = false

theorem Separates.not_mem {c : α} {cs : List α} {parts : List (List α)} (hc : p.Separates c)
    (h : matchAt p.pieces cs = some parts) : c ∉ parts.flatten := by
  intro hmem
  obtain ⟨part, hpart, hin⟩ := List.mem_flatten.mp hmem
  obtain ⟨r, hr, hadmits⟩ := exists_of_forall₂ (matchAt_sound h).1.flip hpart
  have hallowed : r.allowed c = true := hadmits.allowed c hin
  rw [hc r hr] at hallowed
  cases hallowed

theorem Separates.miss {c : α} (hc : p.Separates c) (cs : List α) : matchAt p.pieces (c :: cs) = none := by
  rw [Option.eq_none_iff_forall_ne_some]
  intro parts hparts
  obtain ⟨rest, hrest⟩ := (matchAt_sound hparts).2
  cases hflatten : parts.flatten with
  | nil => exact flatten_ne_nil hparts hflatten
  | cons d ds =>
    rw [hflatten] at hrest
    obtain ⟨rfl, -⟩ := List.cons.inj hrest
    exact hc.not_mem hparts (hflatten ▸ List.mem_cons_self)

theorem sub_append {ys : List α} (h : ∀ c ∈ ys.head?, p.Separates c) (xs : List α) :
    p.sub replace (xs ++ ys) = p.sub replace xs ++ p.sub replace ys := by
  have hstop : ∀ r ∈ p.pieces, ∀ c ∈ ys.head?, r.allowed c = false := fun r hr c hc => h c hc r hr
  induction xs using p.sub_induction with
  | nil => rfl
  | miss c cs hmatch ih =>
    have hlater : matchAt p.pieces (c :: (cs ++ ys)) = none := (matchAt_append hstop (c :: cs)).trans hmatch
    rw [List.cons_append, sub_miss hlater, sub_miss hmatch, ih, List.cons_append]
  | hit parts rest hmatch ih =>
    have hlater : matchAt p.pieces (parts.flatten ++ (rest ++ ys)) = some parts := by
      rw [← List.append_assoc, matchAt_append hstop, hmatch]
    rw [List.append_assoc, sub_hit hlater, sub_hit hmatch, ih, List.append_assoc]

theorem sub_separator {c : α} (hc : p.Separates c) (xs ys : List α) :
    p.sub replace (xs ++ c :: ys) = p.sub replace xs ++ c :: p.sub replace ys := by
  rw [sub_append (by rintro d ⟨⟩; exact hc), sub_miss (hc.miss ys)]

theorem sub_separators {ys : List α} (h : ∀ c ∈ ys, p.Separates c) (xs : List α) :
    p.sub replace (xs ++ ys) = p.sub replace xs ++ ys := by
  induction ys using List.reverseRecOn with
  | nil => rw [List.append_nil, List.append_nil]
  | append_singleton ys c ih =>
    rw [← List.append_assoc, sub_separator (h c (by simp)), ih fun d hd => h d (List.mem_append_left _ hd),
      List.append_assoc]
    rfl

theorem count_sub [DecidableEq α] {c : α} (hc : p.Separates c) (hreplace : ∀ parts, c ∉ replace parts) (cs : List α) :
    (p.sub replace cs).count c = cs.count c := by
  induction cs using p.sub_induction with
  | nil => rfl
  | miss d cs hmatch ih => rw [sub_miss hmatch, List.count_cons, List.count_cons, ih]
  | hit parts rest hmatch ih =>
    rw [sub_hit hmatch, List.count_append, List.count_append, ih, List.count_eq_zero_of_not_mem (hreplace parts),
      List.count_eq_zero_of_not_mem (hc.not_mem hmatch)]

theorem sub_eq_nil (hne : ∀ parts, replace parts ≠ []) {cs : List α} (h : p.sub replace cs = []) : cs = [] := by
  induction cs using p.sub_induction with
  | nil => rfl
  | miss c cs hmatch _ =>
    rw [sub_miss hmatch] at h
    cases h
  | hit parts rest hmatch _ =>
    rw [sub_hit hmatch] at h
    exact absurd (List.append_eq_nil_iff.mp h).1 (hne parts)

theorem sub_last (hne : ∀ parts, replace parts ≠ []) {c : α} (hc : ∀ parts, c ∉ (replace parts).getLast?) {cs xs : List α}
    (h : p.sub replace cs = xs ++ [c]) : ∃ kept, cs = kept ++ [c] := by
  induction cs using p.sub_induction generalizing xs with
  | nil => exact absurd (congrArg List.length h) (by simp [sub, scan])
  | miss d cs hmatch ih =>
    rw [sub_miss hmatch] at h
    cases xs with
    | nil =>
      obtain ⟨rfl, hrest⟩ := List.cons.inj h
      exact ⟨[], by rw [sub_eq_nil hne hrest, List.nil_append]⟩
    | cons e xs =>
      obtain ⟨kept, rfl⟩ := ih (List.cons.inj h).2
      exact ⟨d :: kept, rfl⟩
  | hit parts rest hmatch ih =>
    rw [sub_hit hmatch] at h
    rcases List.eq_nil_or_concat (p.sub replace rest) with hnil | ⟨mid, d, hmid⟩
    · rw [hnil, List.append_nil] at h
      exact absurd (by rw [h, List.getLast?_concat]; rfl) (hc parts)
    · rw [hmid, List.concat_eq_append, ← List.append_assoc] at h
      obtain rfl : d = c := List.singleton_inj.mp (List.append_inj_right' h rfl)
      obtain ⟨kept, rfl⟩ := ih (hmid.trans (List.concat_eq_append))
      exact ⟨parts.flatten ++ kept, by rw [List.append_assoc]⟩

theorem sub_split {c : α} (hc : p.Separates c) (hreplace : ∀ parts, c ∉ replace parts) {cs xs ys : List α}
    (h : p.sub replace cs = xs ++ c :: ys) :
    ∃ first last, cs = first ++ c :: last ∧ xs = p.sub replace first ∧ ys = p.sub replace last := by
  have hstop : ∀ {last : List α}, ∀ r ∈ p.pieces, ∀ d ∈ (c :: last).head?, r.allowed d = false := by
    rintro last r hr d ⟨⟩
    exact hc r hr
  induction cs using p.sub_induction generalizing xs with
  | nil => exact absurd (congrArg List.length h) (by simp [sub, scan])
  | miss d cs hmatch ih =>
    rw [sub_miss hmatch] at h
    cases xs with
    | nil =>
      obtain ⟨rfl, rfl⟩ := List.cons.inj h
      exact ⟨[], cs, rfl, rfl, rfl⟩
    | cons e xs =>
      obtain ⟨rfl, hrest⟩ := List.cons.inj h
      obtain ⟨first, last, rfl, rfl, rfl⟩ := ih hrest
      have hmiss : matchAt p.pieces (d :: first) = none := by
        rw [← List.cons_append, matchAt_append hstop] at hmatch
        exact hmatch
      exact ⟨d :: first, last, rfl, (sub_miss hmiss).symm, rfl⟩
  | hit parts rest hmatch ih =>
    rw [sub_hit hmatch] at h
    obtain ⟨mid, rfl, hrest⟩ := split_after (hreplace parts) h
    obtain ⟨first, last, rfl, rfl, rfl⟩ := ih hrest
    have hhit : matchAt p.pieces (parts.flatten ++ first) = some parts := by
      rw [← List.append_assoc, matchAt_append hstop] at hmatch
      exact hmatch
    exact ⟨parts.flatten ++ first, last, by rw [List.append_assoc], (sub_hit hhit).symm, rfl⟩

def findFrom (p : Pattern α) : ℕ → List α → List (List (List α) × List α)
  | _, [] => []
  | skipped + 1, _ :: cs => findFrom p skipped cs
  | 0, c :: cs =>
    match matchAt p.pieces (c :: cs) with
    | some parts => (parts, cs.drop (parts.flatten.length - 1)) :: findFrom p (parts.flatten.length - 1) cs
    | none => findFrom p 0 cs

def finditer (p : Pattern α) (cs : List α) : List (List (List α) × List α) := p.findFrom 0 cs

def before (p : Pattern α) : List α → List α
  | [] => []
  | c :: cs =>
    match matchAt p.pieces (c :: cs) with
    | some _ => []
    | none => c :: before p cs

theorem findFrom_eq_finditer (skipped : ℕ) (cs : List α) : p.findFrom skipped cs = p.finditer (cs.drop skipped) := by
  induction skipped generalizing cs with
  | zero => rfl
  | succ skipped ih =>
    cases cs with
    | nil => rfl
    | cons c cs => exact ih cs

theorem finditer_miss {c : α} {cs : List α} (h : matchAt p.pieces (c :: cs) = none) :
    p.finditer (c :: cs) = p.finditer cs := by
  rw [finditer, findFrom, h]
  rfl

theorem finditer_hit {parts : List (List α)} {rest : List α}
    (h : matchAt p.pieces (parts.flatten ++ rest) = some parts) :
    p.finditer (parts.flatten ++ rest) = (parts, rest) :: p.finditer rest := by
  have hne := flatten_ne_nil h
  cases hflatten : parts.flatten with
  | nil => exact absurd hflatten hne
  | cons c cs =>
    rw [hflatten, List.cons_append] at h
    rw [List.cons_append, finditer, findFrom, h]
    dsimp only
    rw [findFrom_eq_finditer, hflatten, List.length_cons, Nat.add_sub_cancel, List.drop_left]

theorem before_miss {c : α} {cs : List α} (h : matchAt p.pieces (c :: cs) = none) :
    p.before (c :: cs) = c :: p.before cs := by
  rw [before, h]

theorem before_hit {parts : List (List α)} {rest : List α}
    (h : matchAt p.pieces (parts.flatten ++ rest) = some parts) : p.before (parts.flatten ++ rest) = [] := by
  cases hcs : parts.flatten ++ rest with
  | nil => rfl
  | cons c cs =>
    rw [hcs] at h
    rw [before, h]

inductive FirstMatch (p : Pattern α) (replace : List (List α) → List α) (cs : List α) : Prop where
  | none (hbefore : p.before cs = cs) (hfind : p.finditer cs = []) (hsub : p.sub replace cs = cs)
  | found (parts : List (List α)) (rest : List α) (hmatch : matchAt p.pieces (parts.flatten ++ rest) = some parts)
      (hcs : cs = p.before cs ++ (parts.flatten ++ rest)) (hfind : p.finditer cs = (parts, rest) :: p.finditer rest)
      (hsub : p.sub replace cs = p.before cs ++ (replace parts ++ p.sub replace rest))

theorem firstMatch (p : Pattern α) (replace : List (List α) → List α) (cs : List α) : p.FirstMatch replace cs := by
  induction cs using p.sub_induction with
  | nil => exact .none rfl rfl rfl
  | miss c cs hmatch ih =>
    have hbefore := before_miss hmatch
    have hfind := finditer_miss hmatch
    have hsub : p.sub replace (c :: cs) = c :: p.sub replace cs := sub_miss hmatch
    cases ih with
    | none hb hf hs => exact .none (by rw [hbefore, hb]) (hfind.trans hf) (by rw [hsub, hs])
    | found parts rest hlater hcs hf hs =>
      refine .found parts rest hlater ?_ (hfind.trans hf) ?_
      · rw [hbefore, List.cons_append, ← hcs]
      · rw [hsub, hbefore, hs, List.cons_append]
  | hit parts rest hmatch _ =>
    have hbefore := before_hit hmatch
    refine .found parts rest hmatch ?_ (finditer_hit hmatch) ?_
    · rw [hbefore, List.nil_append]
    · rw [hbefore, List.nil_append, sub_hit hmatch]

theorem before_begins (p : Pattern α) (cs : List α) : p.before cs <+: cs := by
  cases p.firstMatch (fun _ => []) cs with
  | none hbefore => rw [hbefore]
  | found parts rest _ hcs => exact ⟨_, hcs.symm⟩

def Contains (p : Pattern α) (cs : List α) : Prop :=
  ∃ first parts last, List.Forall₂ Repeat.Admits p.pieces parts ∧ cs = first ++ (parts.flatten ++ last)

theorem contains_iff {cs : List α} :
    p.Contains cs ↔ ∃ first rest, cs = first ++ rest ∧ (matchAt p.pieces rest).isSome = true := by
  constructor
  · rintro ⟨first, parts, last, hadmits, hcs⟩
    exact ⟨first, parts.flatten ++ last, hcs, matchAt_complete hadmits last⟩
  · rintro ⟨first, rest, hcs, hmatch⟩
    obtain ⟨parts, hparts⟩ := Option.isSome_iff_exists.mp hmatch
    obtain ⟨hadmits, last, hrest⟩ := matchAt_sound hparts
    exact ⟨first, parts, last, hadmits, hcs.trans (by rw [hrest])⟩

theorem not_contains_nil : ¬p.Contains [] := by
  rintro hcontains
  obtain ⟨first, rest, hcs, hmatch⟩ := contains_iff.mp hcontains
  obtain ⟨-, rfl⟩ := List.append_eq_nil_iff.mp hcs.symm
  obtain ⟨parts, hparts⟩ := Option.isSome_iff_exists.mp hmatch
  exact flatten_ne_nil hparts (List.prefix_nil.mp (matchAt_sound hparts).2)

theorem contains_cons {c : α} {cs : List α} :
    p.Contains (c :: cs) ↔ (matchAt p.pieces (c :: cs)).isSome = true ∨ p.Contains cs := by
  rw [contains_iff, contains_iff]
  constructor
  · rintro ⟨first, rest, hcs, hmatch⟩
    cases first with
    | nil =>
      obtain rfl : c :: cs = rest := hcs
      exact .inl hmatch
    | cons d first => exact .inr ⟨first, rest, (List.cons.inj hcs).2, hmatch⟩
  · rintro (hmatch | ⟨first, rest, rfl, hmatch⟩)
    · exact ⟨[], c :: cs, rfl, hmatch⟩
    · exact ⟨c :: first, rest, rfl, hmatch⟩

theorem sub_of_not_contains {cs : List α} (h : ¬p.Contains cs) : p.sub replace cs = cs := by
  induction cs with
  | nil => rfl
  | cons c cs ih =>
    rw [contains_cons, not_or, Bool.not_eq_true, Option.isSome_eq_false_iff, Option.isNone_iff_eq_none] at h
    rw [sub_miss h.1, ih h.2]

theorem contains_separators {xs ys : List α} (h : ∀ c ∈ xs, p.Separates c) : p.Contains (xs ++ ys) ↔ p.Contains ys := by
  induction xs with
  | nil => rfl
  | cons c xs ih =>
    have hmiss : matchAt p.pieces (c :: (xs ++ ys)) = none := (h c List.mem_cons_self).miss _
    rw [List.cons_append, contains_cons, hmiss, ih fun d hd => h d (List.mem_cons_of_mem _ hd)]
    simp

theorem not_contains_sub (hne : ∀ parts, replace parts ≠ []) (h : ∀ parts, ∀ c ∈ replace parts, p.Separates c)
    (cs : List α) : ¬p.Contains (p.sub replace cs) := by
  induction cs using p.sub_induction with
  | nil => exact not_contains_nil
  | miss c cs hmatch ih =>
    have hhead : matchAt p.pieces (c :: p.before cs) = none := by
      obtain ⟨rest, hrest⟩ := p.before_begins cs
      rw [← Option.not_isSome_iff_eq_none]
      intro hsome
      have hlonger := matchAt_mono hsome rest
      rw [List.cons_append, hrest, hmatch] at hlonger
      cases hlonger
    rw [sub_miss hmatch, contains_cons]
    rintro (hsome | hlater)
    · cases p.firstMatch replace cs with
      | none _ _ hsub =>
        rw [hsub, hmatch] at hsome
        cases hsome
      | found parts rest _ _ _ hsub =>
        have hstop : ∀ r ∈ p.pieces, ∀ d ∈ (replace parts ++ p.sub replace rest).head?, r.allowed d = false := by
          intro r hr d hd
          rw [List.head?_append_of_ne_nil _ (hne parts)] at hd
          exact h parts d (List.mem_of_mem_head? hd) r hr
        rw [hsub, ← List.cons_append, matchAt_append hstop, hhead] at hsome
        cases hsome
    · exact ih hlater
  | hit parts rest hmatch ih =>
    rw [sub_hit hmatch, contains_separators (h parts)]
    exact ih

end Pattern

end Leadline.Library
