import Leadline.MaskedAddresses
import Mathlib.Data.List.DropRight

namespace Leadline

open Library

section Numbers

variable (py : Python)

/-- `[\d\-\s]` -/
def isNumberChar (c : Char) : Bool := AIOrchestrator.isDigit py c || c = '-' || isSpace c

def numberIn (run : List Char) : List Char :=
  (run.dropWhile fun c => !AIOrchestrator.isDigit py c).rdropWhile fun c => !AIOrchestrator.isDigit py c

def numbers (cs : List Char) : List (List Char) := (cs.splitOnP fun c => !isNumberChar py c).map (numberIn py)

structure IsNumber (number : List Char) : Prop where
  nonempty : number ≠ []
  starts : ∀ c ∈ number.head?, AIOrchestrator.isDigit py c = true
  ends : ∀ c ∈ number.getLast?, AIOrchestrator.isDigit py c = true
  allowed : ∀ c ∈ number, isNumberChar py c = true

def LongNumbers (cs : List Char) : Prop := ∀ number ∈ numbers py cs, number ≠ [] → 9 ≤ number.length

instance (cs : List Char) : Decidable (LongNumbers py cs) :=
  List.decidableBAll (fun number => number ≠ [] → 9 ≤ number.length) (numbers py cs)

def NoDigit (cs : List Char) : Prop := ∀ c ∈ cs, AIOrchestrator.isDigit py c = false

instance (cs : List Char) : Decidable (NoDigit py cs) :=
  List.decidableBAll (fun c => AIOrchestrator.isDigit py c = false) cs

end Numbers

def exposed (cs : List Char) : List (List Char) :=
  emailRe.before cs :: (emailRe.finditer cs).flatMap fun found => [(found.1.drop 2).flatten, emailRe.before found.2]

structure Phone where
  plus : Bool
  groups : List Char
  grouped : (groups.all fun c => c.isDigit || c = ' ' || c = '-' || c = '.' || c = '(' || c = ')') = true
  tenDigits : 10 ≤ groups.countP Char.isDigit

namespace Phone

def text (p : Phone) : List Char := (if p.plus then ['+'] else []) ++ p.groups

end Phone

structure PhoneText (py : Python) where
  before : List Char
  phone : Phone
  after : List Char
  noDigit : NoDigit py (before ++ after)

def PhoneText.text {py : Python} (t : PhoneText py) : List Char := t.before ++ (t.phone.text ++ t.after)

namespace MaskedPhones

open Masking

variable {py : Python} {cs xs ys run rest : List Char} {c : Char}

theorem noDigit_append : NoDigit py (xs ++ ys) ↔ NoDigit py xs ∧ NoDigit py ys := List.forall_mem_append

theorem noDigit_cons : NoDigit py (c :: cs) ↔ AIOrchestrator.isDigit py c = false ∧ NoDigit py cs := List.forall_mem_cons

theorem numberIn_split (py : Python) (run : List Char) :
    ∃ first last, run = first ++ (numberIn py run ++ last) ∧ NoDigit py first ∧ NoDigit py last := by
  let p : Char → Bool := fun c => !AIOrchestrator.isDigit py c
  refine ⟨run.takeWhile p, (run.dropWhile p).rtakeWhile p, ?_, ?_, ?_⟩
  · have hsplit : numberIn py run ++ (run.dropWhile p).rtakeWhile p = run.dropWhile p :=
      List.rdropWhile_append_rtakeWhile
    rw [hsplit, List.takeWhile_append_dropWhile]
  · intro c hc
    simpa [p] using List.mem_takeWhile_imp hc
  · intro c hc
    simpa [p] using List.mem_rtakeWhile_imp hc

theorem isNumber_numberIn (hrun : ∀ c ∈ run, isNumberChar py c = true) (hne : numberIn py run ≠ []) :
    IsNumber py (numberIn py run) := by
  let p : Char → Bool := fun c => !AIOrchestrator.isDigit py c
  have hbegins : numberIn py run <+: run.dropWhile p := List.rdropWhile_prefix p _
  constructor
  · exact hne
  · intro c hc
    obtain ⟨rest, hrest⟩ := hbegins
    have hhead := List.head?_dropWhile_not p run
    rw [← hrest, List.head?_append, Option.mem_def.mp hc] at hhead
    simpa [p] using hhead
  · intro c hc
    obtain ⟨_, rfl⟩ := List.mem_getLast?_eq_getLast hc
    have hlast : ¬p ((numberIn py run).getLast hne) = true := List.rdropWhile_last_not p _ hne
    simpa [p] using hlast
  · intro c hc
    exact hrun c (List.dropWhile_subset p (hbegins.subset hc))

theorem plus_not_number (hdigits : AsciiDigits py) : isNumberChar py '+' = false := by
  have hplus : AIOrchestrator.isDigit py '+' = false := by
    rw [← Bool.not_eq_true, hdigits '+' (by decide)]
    decide
  simp [isNumberChar, hplus]
  decide

theorem isNumberChar_of_isDigit (h : AIOrchestrator.isDigit py c = true) : isNumberChar py c = true := by
  simp [isNumberChar, h]

theorem isDigit_of_not_number (hc : isNumberChar py c = false) : AIOrchestrator.isDigit py c = false := by
  by_contra hdigit
  rw [isNumberChar_of_isDigit (by simpa using hdigit)] at hc
  cases hc

theorem ne_plus (hdigits : AsciiDigits py) (h : isNumberChar py c = true) : decide (c = '+') = false := by
  rw [decide_eq_false_iff_not]
  rintro rfl
  rw [plus_not_number hdigits] at h
  cases h

theorem phone_plus (hdigits : AsciiDigits py) (cs : List Char) :
    matchAt (phoneRe py).pieces ('+' :: cs) =
      (matchAt (phoneRe py).pieces.tail cs).map fun parts => ['+'] :: parts := by
  apply matchAt_optional rfl rfl rfl
  apply matchAt_head Nat.one_pos
  rintro c ⟨⟩
  exact isDigit_of_not_number (plus_not_number hdigits)

theorem phone_digit (hdigits : AsciiDigits py) (h : ∀ c ∈ cs.head?, AIOrchestrator.isDigit py c = true) :
    matchAt (phoneRe py).pieces cs = (matchAt (phoneRe py).pieces.tail cs).map fun parts => [] :: parts :=
  matchAt_skip rfl fun c hc => ne_plus hdigits (isNumberChar_of_isDigit (h c hc))

theorem phone_none (h : AIOrchestrator.isDigit py c = false) (hplus : c ≠ '+') (cs : List Char) :
    matchAt (phoneRe py).pieces (c :: cs) = none := by
  have hskip : matchAt (phoneRe py).pieces (c :: cs) = _ :=
    matchAt_skip rfl (by rintro d ⟨⟩; exact decide_eq_false hplus)
  rw [hskip, matchAt_head Nat.one_pos (by rintro d ⟨⟩; exact h)]
  rfl

theorem number_at {number last : List Char} (hnumber : IsNumber py number) (hafter : ∀ c ∈ last, isNumberChar py c = true)
    (hnone : NoDigit py last) (hrest : ∀ c ∈ rest.head?, isNumberChar py c = false) :
    (9 ≤ number.length ∧ ∃ parts, parts.flatten = number ∧
        matchAt (phoneRe py).pieces.tail (number ++ (last ++ rest)) = some parts) ∨
      number.length < 9 ∧ matchAt (phoneRe py).pieces.tail (number ++ (last ++ rest)) = none := by
  obtain ⟨d, body, rfl⟩ := List.exists_cons_of_ne_nil hnumber.nonempty
  have hfirst : ∀ text, matchAt (phoneRe py).pieces.tail (d :: text) =
      (matchAt [⟨isNumberChar py, 7, none⟩, ⟨AIOrchestrator.isDigit py, 1, some 1⟩] text).map fun parts => [d] :: parts :=
    fun text => matchAt_one rfl rfl (hnumber.starts d rfl)
  have hsub : ∀ c, AIOrchestrator.isDigit py c = true → isNumberChar py c = true := fun c => isNumberChar_of_isDigit
  rw [List.cons_append, hfirst]
  rcases List.eq_nil_or_concat body with rfl | ⟨front, e, rfl⟩
  · apply Or.inr
    have hlonely : matchAt [⟨isNumberChar py, 7, none⟩, ⟨AIOrchestrator.isDigit py, 1, some 1⟩] (last ++ rest) = none :=
      matchAt_no_last rfl hsub hnone hrest
    rw [List.nil_append, hlonely]
    exact ⟨by simp, rfl⟩
  · rw [List.concat_eq_append] at hnumber ⊢
    have he : AIOrchestrator.isDigit py e = true := by
      apply hnumber.ends
      rw [← List.cons_append, List.getLast?_concat]
      rfl
    rw [List.append_assoc, List.singleton_append, matchAt_last rfl rfl rfl hsub
      (fun c hc => hnumber.allowed c (by simp [hc])) he (fun c hc => ⟨hafter c hc, hnone c hc⟩) hrest]
    by_cases hlong : 7 ≤ front.length
    · rw [if_pos hlong]
      apply Or.inl
      constructor
      · simp only [List.length_cons, List.length_append, List.length_nil]
        omega
      · exact ⟨[[d], front, [e]], by simp, rfl⟩
    · rw [if_neg hlong]
      apply Or.inr
      constructor
      · simp only [List.length_cons, List.length_append, List.length_nil]
        omega
      · rfl

theorem noDigit_of_ascii (hdigits : AsciiDigits py) (h : (cs.all fun c => c.toNat < 128 && !c.isDigit) = true) :
    NoDigit py cs := by
  intro c hc
  have hplain := List.all_eq_true.mp h c hc
  rw [Bool.and_eq_true, decide_eq_true_eq, Bool.not_eq_true'] at hplain
  rw [← Bool.not_eq_true, hdigits c hplain.1, hplain.2]
  exact Bool.false_ne_true

theorem maskPhones_kept (hrun : NoDigit py run) (hnumber : ∀ c ∈ run, isNumberChar py c = true) (hdigits : AsciiDigits py) :
    maskPhones py (run ++ rest) = run ++ maskPhones py rest := by
  induction run with
  | nil => rfl
  | cons c run ih =>
    rw [noDigit_cons] at hrun
    have hplus : c ≠ '+' := of_decide_eq_false (ne_plus hdigits (hnumber c List.mem_cons_self))
    have hkept : maskPhones py (c :: (run ++ rest)) = c :: maskPhones py (run ++ rest) :=
      Pattern.sub_miss (phone_none hrun.1 hplus _)
    rw [List.cons_append, hkept, ih hrun.2 fun d hd => hnumber d (List.mem_cons_of_mem _ hd), List.cons_append]

theorem maskPhones_number {number last : List Char} (hdigits : AsciiDigits py) (hnumber : IsNumber py number)
    (hafter : ∀ c ∈ last, isNumberChar py c = true) (hnone : NoDigit py last)
    (hrest : ∀ c ∈ rest.head?, isNumberChar py c = false) :
    NoDigit py (maskPhones py (number ++ (last ++ rest))) ↔
      9 ≤ number.length ∧ NoDigit py (maskPhones py (last ++ rest)) := by
  have hphone : matchAt (phoneRe py).pieces (number ++ (last ++ rest)) =
      (matchAt (phoneRe py).pieces.tail (number ++ (last ++ rest))).map fun parts => [] :: parts := by
    apply phone_digit hdigits
    intro c hc
    apply hnumber.starts
    rwa [List.head?_append_of_ne_nil _ hnumber.nonempty] at hc
  rcases number_at hnumber hafter hnone hrest with ⟨hlong, parts, hparts, hfound⟩ | ⟨hshort, hfails⟩
  · have hflatten : ([] :: parts).flatten = number := by rw [List.flatten_cons, List.nil_append, hparts]
    rw [hfound, Option.map_some, ← hflatten] at hphone
    have hhit : maskPhones py (number ++ (last ++ rest)) = "***PHONE***".toList ++ maskPhones py (last ++ rest) := by
      rw [← hflatten]
      exact Pattern.sub_hit hphone
    have hmask : NoDigit py "***PHONE***".toList := noDigit_of_ascii hdigits (by decide)
    rw [hhit, noDigit_append, and_iff_right hmask, and_iff_right hlong]
  · -- The first digit of a short number is kept.
    refine iff_of_false (fun hmasked => ?_) fun hlong => Nat.not_le.mpr hshort hlong.1
    obtain ⟨d, body, rfl⟩ := List.exists_cons_of_ne_nil hnumber.nonempty
    rw [hfails, Option.map_none, List.cons_append] at hphone
    rw [List.cons_append, maskPhones, Pattern.sub_miss hphone, noDigit_cons, hnumber.starts d rfl] at hmasked
    exact Bool.noConfusion hmasked.1

theorem maskPhones_run (hdigits : AsciiDigits py) (hrun : ∀ c ∈ run, isNumberChar py c = true)
    (hrest : ∀ c ∈ rest.head?, isNumberChar py c = false) :
    NoDigit py (maskPhones py (run ++ rest)) ↔
      (numberIn py run ≠ [] → 9 ≤ (numberIn py run).length) ∧ NoDigit py (maskPhones py rest) := by
  obtain ⟨first, last, hsplit, hfirst, hlast⟩ := numberIn_split py run
  have hbefore : ∀ c ∈ first, isNumberChar py c = true := fun c hc => hrun c (by rw [hsplit]; simp [hc])
  have hafter : ∀ c ∈ last, isNumberChar py c = true := fun c hc => hrun c (by rw [hsplit]; simp [hc])
  have hmasked : maskPhones py (run ++ rest) = first ++ maskPhones py (numberIn py run ++ (last ++ rest)) := by
    conv_lhs => rw [hsplit, List.append_assoc, List.append_assoc]
    exact maskPhones_kept hfirst hbefore hdigits
  have hkept : maskPhones py (last ++ rest) = last ++ maskPhones py rest := maskPhones_kept hlast hafter hdigits
  rw [hmasked, noDigit_append, and_iff_right hfirst]
  by_cases hne : numberIn py run = []
  · rw [hne, List.nil_append, hkept, noDigit_append, and_iff_right hlast]
    simp
  · rw [maskPhones_number hdigits (isNumber_numberIn hrun hne) hafter hlast hrest, hkept, noDigit_append,
      and_iff_right hlast]
    simp [hne]

theorem maskPhones_stop (hdigits : AsciiDigits py) (hc : isNumberChar py c = false) (cs : List Char) :
    NoDigit py (maskPhones py (c :: cs)) ↔ NoDigit py (maskPhones py cs) := by
  have hdigit := isDigit_of_not_number hc
  by_cases hplus : c = '+'
  · subst hplus
    have hmatch := phone_plus hdigits cs
    cases htail : matchAt (phoneRe py).pieces.tail cs with
    | none =>
      rw [htail, Option.map_none] at hmatch
      rw [maskPhones, Pattern.sub_miss hmatch, noDigit_cons, and_iff_right hdigit]
      rfl
    | some parts =>
      have hhead : ∀ d ∈ cs.head?, AIOrchestrator.isDigit py d = true := by
        intro d hd
        by_contra hno
        have hfails : matchAt (phoneRe py).pieces.tail cs = none :=
          matchAt_head Nat.one_pos fun e he => by
            obtain rfl : d = e := Option.some.inj (hd.symm.trans he)
            simpa using hno
        rw [htail] at hfails
        cases hfails
      have hplain := phone_digit hdigits hhead
      rw [htail, Option.map_some] at hmatch hplain
      obtain ⟨rest, rfl⟩ := (matchAt_sound htail).2
      have hmasked : ∀ sign, matchAt (phoneRe py).pieces ((sign :: parts).flatten ++ rest) = some (sign :: parts) →
          maskPhones py ((sign :: parts).flatten ++ rest) = "***PHONE***".toList ++ maskPhones py rest :=
        fun _ hmatch => Pattern.sub_hit hmatch
      have hplus := hmasked ['+'] hmatch
      have hbare := hmasked [] hplain
      rw [List.flatten_cons] at hplus hbare
      exact Iff.of_eq (congrArg (NoDigit py) (hplus.trans hbare.symm))
  · rw [maskPhones, Pattern.sub_miss (phone_none hdigit hplus cs), noDigit_cons, and_iff_right hdigit]
    rfl

theorem longNumbers_append_cons (hc : isNumberChar py c = false) (xs ys : List Char) :
    LongNumbers py (xs ++ c :: ys) ↔ LongNumbers py xs ∧ LongNumbers py ys := by
  unfold LongNumbers numbers
  rw [List.splitOnP_append_cons xs ys (by simp [hc]), List.map_append, List.forall_mem_append]

theorem longNumbers_run (hrun : ∀ c ∈ run, isNumberChar py c = true) :
    LongNumbers py run ↔ (numberIn py run ≠ [] → 9 ≤ (numberIn py run).length) := by
  unfold LongNumbers numbers
  rw [List.splitOnP_eq_singleton fun c hc => by simp [hrun c hc], List.map_singleton, List.forall_mem_singleton]

theorem noDigit_maskPhones (hdigits : AsciiDigits py) (cs : List Char) :
    NoDigit py (maskPhones py cs) ↔ LongNumbers py cs := by
  induction hn : cs.length using Nat.strong_induction_on generalizing cs with
  | _ n ih =>
    have hrun : ∀ c ∈ cs.takeWhile (isNumberChar py), isNumberChar py c = true := fun c hc => List.mem_takeWhile_imp hc
    have hcs := List.takeWhile_append_dropWhile (p := isNumberChar py) (l := cs)
    cases hrest : cs.dropWhile (isNumberChar py) with
    | nil =>
      rw [hrest] at hcs
      rw [← hcs, maskPhones_run hdigits hrun (by rintro c ⟨⟩), List.append_nil, longNumbers_run hrun]
      exact and_iff_left nofun
    | cons c rest =>
      have hc : isNumberChar py c = false := by
        have hhead := List.head?_dropWhile_not (isNumberChar py) cs
        rw [hrest] at hhead
        simpa using hhead
      have hlength := congrArg List.length hcs
      rw [hrest, List.length_append, List.length_cons] at hlength
      rw [hrest] at hcs
      rw [← hcs, maskPhones_run hdigits hrun (by rintro d ⟨⟩; exact hc), maskPhones_stop hdigits hc,
        ih rest.length (by omega) rest rfl, longNumbers_append_cons hc, longNumbers_run hrun]

theorem isNumberChar_of_ascii (hdigits : AsciiDigits py) (hascii : c.toNat < 128) :
    isNumberChar py c = (c.isDigit || c = '-' || isSpace c) := by
  have hdigit : AIOrchestrator.isDigit py c = c.isDigit := Bool.eq_iff_iff.mpr (hdigits c hascii)
  rw [isNumberChar, hdigit]

theorem isDigit_of_ascii (hdigits : AsciiDigits py) (h : c.isDigit = true) : AIOrchestrator.isDigit py c = true := by
  have hbounds : (c.val ≥ 48 && c.val ≤ 57) = true := h
  rw [Bool.and_eq_true, decide_eq_true_eq, decide_eq_true_eq] at hbounds
  have hnine : c.toNat ≤ 57 := UInt32.le_iff_toNat_le.mp hbounds.2
  exact (hdigits c (by omega)).mpr h

theorem longNumbers_nil : LongNumbers py [] := (longNumbers_run (by simp)).mpr fun h => absurd rfl h

theorem longNumbers_cons (hc : isNumberChar py c = false) (cs : List Char) :
    LongNumbers py (c :: cs) ↔ LongNumbers py cs :=
  (longNumbers_append_cons hc [] cs).trans (and_iff_right longNumbers_nil)

theorem longNumbers_exposed (hdigits : AsciiDigits py) (cs : List Char) :
    LongNumbers py (maskEmails cs) ↔ ∀ text ∈ exposed cs, LongNumbers py text := by
  have hstop : ∀ {c : Char}, c = '@' ∨ c = '*' ∨ c.isAlpha = true → isNumberChar py c = false := fun hc =>
    phone_separates hdigits hc _ (List.mem_cons_of_mem _ (List.mem_cons_of_mem _ List.mem_cons_self))
  induction hn : cs.length using Nat.strong_induction_on generalizing cs with
  | _ n ih =>
    cases emailRe.firstMatch (fun parts => "***@".toList ++ (parts.drop 2).flatten) cs with
    | none hbefore hfind hsub =>
      rw [maskEmails, hsub, exposed, hbefore, hfind]
      simp
    | found parts rest hmatch hcs hfind hsub =>
      obtain ⟨_, _, domain, rfl, -, hdomain⟩ := email_parts (matchAt_sound hmatch).1
      obtain ⟨body, letter, hbody, hletter⟩ := domain_ends hdomain
      have hmasked : maskEmails cs =
          emailRe.before cs ++ '*' :: '*' :: '*' :: '@' :: (body ++ letter :: maskEmails rest) := by
        rw [maskEmails, hsub]
        simp [hbody, maskEmails]
      have hexposed : exposed cs = emailRe.before cs :: (body ++ [letter]) :: exposed rest := by
        rw [exposed, hfind, exposed]
        simp [hbody]
      have hshorter : rest.length < cs.length := by
        have hlength := congrArg List.length hcs
        rw [List.length_append, List.length_append] at hlength
        have hpos := List.length_pos_iff.mpr (Pattern.flatten_ne_nil hmatch)
        omega
      have hrest : LongNumbers py (maskEmails rest) ↔ ∀ text ∈ exposed rest, LongNumbers py text :=
        ih rest.length (hn ▸ hshorter) rest rfl
      rw [hmasked, hexposed, longNumbers_append_cons (hstop (.inr (.inl rfl))), longNumbers_cons (hstop (.inr (.inl rfl))),
        longNumbers_cons (hstop (.inr (.inl rfl))), longNumbers_cons (hstop (.inl rfl)),
        longNumbers_append_cons (hstop (.inr (.inr hletter))), hrest, List.forall_mem_cons,
        List.forall_mem_cons, longNumbers_append_cons (hstop (.inr (.inr hletter))), and_iff_left longNumbers_nil]

theorem longNumbers_before (hdigits : AsciiDigits py) (hxs : NoDigit py xs) (ys : List Char) :
    LongNumbers py (xs ++ ys) ↔ LongNumbers py ys := by
  induction xs with
  | nil => rfl
  | cons c xs ih =>
    rw [noDigit_cons] at hxs
    rw [← ih hxs.2, List.cons_append]
    cases hc : isNumberChar py c with
    | false => exact longNumbers_cons hc _
    | true =>
      have hkept : maskPhones py ([c] ++ (xs ++ ys)) = [c] ++ maskPhones py (xs ++ ys) :=
        maskPhones_kept (by simpa [NoDigit] using hxs.1) (by simpa using hc) hdigits
      rw [← noDigit_maskPhones hdigits, ← noDigit_maskPhones hdigits, ← List.singleton_append, hkept, noDigit_append]
      exact and_iff_right (by simpa [NoDigit] using hxs.1)

theorem numberIn_concat (hc : AIOrchestrator.isDigit py c = false) (run : List Char) :
    numberIn py (run ++ [c]) = numberIn py run := by
  unfold numberIn
  rw [List.dropWhile_append]
  split
  · rename_i hempty
    rw [List.isEmpty_iff.mp hempty]
    simp [hc]
  · rw [List.rdropWhile_concat_pos _ _ _ (by simp [hc])]

theorem longNumbers_concat (hc : AIOrchestrator.isDigit py c = false) (xs : List Char) :
    LongNumbers py (xs ++ [c]) ↔ LongNumbers py xs := by
  cases hstop : isNumberChar py c with
  | false => exact (longNumbers_append_cons hstop xs []).trans (and_iff_left longNumbers_nil)
  | true =>
    let run := xs.rtakeWhile (isNumberChar py)
    have hxs : xs.rdropWhile (isNumberChar py) ++ run = xs := List.rdropWhile_append_rtakeWhile
    have hrun : ∀ d ∈ run, isNumberChar py d = true := fun d hd => List.mem_rtakeWhile_imp hd
    have hlonger : ∀ d ∈ run ++ [c], isNumberChar py d = true := by
      intro d hd
      rcases List.mem_append.mp hd with hd | hd
      · exact hrun d hd
      · exact List.mem_singleton.mp hd ▸ hstop
    have hsame : LongNumbers py (run ++ [c]) ↔ LongNumbers py run := by
      rw [longNumbers_run hlonger, longNumbers_run hrun, numberIn_concat hc]
    rw [← hxs, List.append_assoc]
    by_cases hne : xs.rdropWhile (isNumberChar py) = []
    · rw [hne, List.nil_append, List.nil_append]
      exact hsame
    · have hlast : isNumberChar py ((xs.rdropWhile (isNumberChar py)).getLast hne) = false := by
        simpa using List.rdropWhile_last_not (isNumberChar py) xs hne
      rw [← List.dropLast_append_getLast hne, List.append_assoc, List.append_assoc, List.singleton_append,
        List.singleton_append, longNumbers_append_cons hlast, longNumbers_append_cons hlast, hsame]

theorem longNumbers_after (hys : NoDigit py ys) (xs : List Char) : LongNumbers py (xs ++ ys) ↔ LongNumbers py xs := by
  induction ys generalizing xs with
  | nil => rw [List.append_nil]
  | cons c ys ih =>
    rw [noDigit_cons] at hys
    rw [← List.singleton_append, ← List.append_assoc, ih hys.2, longNumbers_concat hys.1]

theorem exposed_of_not_at (h : '@' ∉ cs) : exposed cs = [cs] := by
  cases emailRe.firstMatch (fun _ => []) cs with
  | none hbefore hfind =>
    rw [exposed, hbefore, hfind]
    rfl
  | found parts rest hmatch hcs =>
    obtain ⟨_, _, domain, rfl, -, -⟩ := email_parts (matchAt_sound hmatch).1
    exact absurd (by rw [hcs]; simp) h

theorem Phone.mem_text {p : Phone} (hc : c ∈ p.text) :
    c = '+' ∨ c.isDigit = true ∨ c = ' ' ∨ c = '-' ∨ c = '.' ∨ c = '(' ∨ c = ')' := by
  rcases List.mem_append.mp hc with hsign | hgroup
  · split at hsign
    · exact .inl (List.mem_singleton.mp hsign)
    · cases hsign
  · have hgrouped := List.all_eq_true.mp p.grouped c hgroup
    simp only [Bool.or_eq_true, decide_eq_true_eq] at hgrouped
    tauto

end MaskedPhones

open Masking MaskedPhones

theorem normalizePhone_text (p : Phone) :
    normalizePhone (some (String.ofList p.text)) =
      some (String.ofList ((if p.plus then ['+'] else []) ++ p.groups.filter Char.isDigit)) := by
  obtain ⟨d, hd, hdigit⟩ := List.countP_pos_iff.mp (Nat.zero_lt_of_lt p.tenDigits)
  have hkept : p.text.filter isPhoneChar = (if p.plus then ['+'] else []) ++ p.groups.filter Char.isDigit := by
    rw [Phone.text, List.filter_append]
    congr 1
    · cases p.plus <;> rfl
    · apply List.filter_congr
      intro c hc
      have hgrouped := List.all_eq_true.mp p.grouped c hc
      have hplus : c ≠ '+' := by
        rintro rfl
        exact absurd hgrouped (by decide)
      have hnumber : isDigit c = c.isDigit := rfl
      rw [Bool.eq_iff_iff, isPhoneChar_iff, hnumber]
      exact or_iff_left hplus
  have hne : ∀ {cs : List Char}, d ∈ cs → String.ofList cs ≠ "" := by
    rintro cs hmem hempty
    rw [← String.toList_inj, String.toList_ofList] at hempty
    rw [hempty] at hmem
    cases hmem
  have htext : configured (some (String.ofList p.text)) = some (String.ofList p.text) :=
    configured_eq_some.mpr ⟨rfl, hne (List.mem_append_right _ hd)⟩
  rw [normalizePhone, htext, Option.map_some, String.toList_ofList, hkept]
  exact configured_eq_some.mpr ⟨rfl, hne (List.mem_append_right _ (List.mem_filter.mpr ⟨hd, hdigit⟩))⟩

theorem spaced_phone_long {py : Python} (hdigits : AsciiDigits py) (p : Phone)
    (hspaced : (p.groups.all fun c => c.isDigit || c = ' ' || c = '-') = true) : LongNumbers py p.text := by
  have hrun : ∀ c ∈ p.groups, isNumberChar py c = true := by
    intro c hc
    have hallowed := List.all_eq_true.mp hspaced c hc
    simp only [Bool.or_eq_true, decide_eq_true_eq] at hallowed
    rcases hallowed with (hdigit | rfl) | rfl
    · exact isNumberChar_of_isDigit (isDigit_of_ascii hdigits hdigit)
    · rw [isNumberChar_of_ascii hdigits (by decide)]
      decide
    · rw [isNumberChar_of_ascii hdigits (by decide)]
      decide
  have hlength : 10 ≤ (numberIn py p.groups).length := by
    have hplain : ∀ {cs : List Char}, NoDigit py cs → cs.countP Char.isDigit = 0 := by
      intro cs hcs
      apply List.countP_eq_zero.mpr
      intro c hc hdigit
      exact Bool.false_ne_true ((hcs c hc).symm.trans (isDigit_of_ascii hdigits hdigit))
    obtain ⟨first, last, hsplit, hfirst, hlast⟩ := numberIn_split py p.groups
    calc 10 ≤ p.groups.countP Char.isDigit := p.tenDigits
      _ = (numberIn py p.groups).countP Char.isDigit := by
        conv_lhs => rw [hsplit, List.countP_append, List.countP_append, hplain hfirst, hplain hlast]
        omega
      _ ≤ (numberIn py p.groups).length := List.countP_le_length
  have hgroups : LongNumbers py p.groups := (longNumbers_run hrun).mpr fun _ => by omega
  rw [Phone.text]
  cases p.plus with
  | false => exact hgroups
  | true => exact (longNumbers_cons (plus_not_number hdigits) _).mpr hgroups

theorem phone_masked_iff {py : Python} (hdigits : AsciiDigits py) (t : PhoneText py) :
    (NoDigit py (maskText py (String.ofList t.text)).toList ↔ ∀ text ∈ exposed t.text, LongNumbers py text) ∧
      ('@' ∉ t.before ++ t.after →
        (NoDigit py (maskText py (String.ofList t.text)).toList ↔ LongNumbers py t.phone.text)) := by
  have hmasked : NoDigit py (maskText py (String.ofList t.text)).toList ↔ ∀ text ∈ exposed t.text, LongNumbers py text := by
    rw [maskText, String.toList_ofList, String.toList_ofList, noDigit_maskPhones hdigits, longNumbers_exposed hdigits]
  refine ⟨hmasked, fun hat => ?_⟩
  have hplain : '@' ∉ t.text := by
    intro hmem
    rcases List.mem_append.mp hmem with hbefore | hmem
    · exact hat (List.mem_append_left _ hbefore)
    · rcases List.mem_append.mp hmem with hphone | hafter
      · exact absurd (Phone.mem_text hphone) (by decide)
      · exact hat (List.mem_append_right _ hafter)
  obtain ⟨hbefore, hafter⟩ := noDigit_append.mp t.noDigit
  rw [hmasked, exposed_of_not_at hplain, List.forall_mem_singleton, PhoneText.text, longNumbers_before hdigits hbefore,
    longNumbers_after hafter]

namespace MaskedPhones

def called (phone : Phone) : PhoneText Python.ascii where
  before := "call ".toList
  phone := phone
  after := " today".toList
  noDigit := by decide +kernel

def dashed : Phone where
  plus := true
  groups := "1 555-123-4567".toList
  grouped := by decide
  tenDigits := by decide

def bracketed : Phone where
  plus := true
  groups := "1 (555) 123-4567".toList
  grouped := by decide
  tenDigits := by decide

end MaskedPhones

theorem phone_masked_iff_dashed :
    NoDigit Python.ascii (maskText Python.ascii (String.ofList (called dashed).text)).toList := by
  have hlong : LongNumbers Python.ascii dashed.text := spaced_phone_long ascii_digits dashed (by decide)
  exact ((phone_masked_iff ascii_digits (called dashed)).2 (by decide)).mpr hlong

theorem bracketed_phone_shown :
    maskText Python.ascii (String.ofList (called bracketed).text) = "call +1 (555) 123-4567 today" ∧
      ¬NoDigit Python.ascii (maskText Python.ascii (String.ofList (called bracketed).text)).toList := by
  have hmasked : maskText Python.ascii (String.ofList (called bracketed).text) = "call +1 (555) 123-4567 today" := by
    decide +kernel
  refine ⟨hmasked, ?_⟩
  rw [hmasked]
  decide +kernel

end Leadline
