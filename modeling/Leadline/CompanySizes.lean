import Leadline.LeadSignals
import Mathlib.Algebra.Ring.Nat
import Mathlib.Data.List.Infix
import Mathlib.Data.List.TakeWhile
import Mathlib.Tactic.Linarith

namespace Leadline

open Library AIOrchestrator

/-- What Python's decimal digits are: in ASCII the ten digits with their values, elsewhere characters with a
value below ten as well, and no white space. -/
structure DecimalDigits (py : Python) : Prop where
  ascii : ∀ c : Char, c.toNat < 128 → py.digit c = if c.isDigit then some (c.toNat - '0'.toNat) else none
  lt_ten : ∀ c v, py.digit c = some v → v < 10
  not_space : ∀ c, AIOrchestrator.isDigit py c = true → isSpace c = false

namespace CompanySizes

structure SizePhrase (digit : Char → Bool) (text before digits : List Char) : Prop where
  text : ∃ blanks word after, text = before ++ (digits ++ (blanks ++ (word.toList ++ after))) ∧
    (∀ c ∈ blanks, isSpace c = true) ∧ word ∈ sizeWords
  nonempty : digits ≠ []
  allowed : ∀ c ∈ digits, digit c = true
  maximal : ∀ c ∈ before.getLast?, digit c = false

structure FirstPhrase (digit : Char → Bool) (text before digits : List Char) : Prop where
  phrase : SizePhrase digit text before digits
  first : ∀ before' digits', SizePhrase digit text before' digits' → before.length ≤ before'.length

def SaysSize (py : Python) (content : String) (n : ℕ) : Prop :=
  ∃ before digits, FirstPhrase Char.isDigit (py.lower content).toList before digits ∧ natOfDigits digits = n

def ReadsSize (py : Python) (content : String) (n : ℕ) : Prop :=
  (fallbackEntities py (py.lower content)).get "company_size" = some (.int n)

variable {py : Python} {digit : Char → Bool} {text before digits cs ds es : List Char} {c : Char} {n : ℕ}

theorem isDigit_bounds (h : c.isDigit = true) : 48 ≤ c.toNat ∧ c.toNat ≤ 57 := by
  have hboth : (decide ('0'.val ≤ c.val) && decide (c.val ≤ '9'.val)) = true := h
  rw [Bool.and_eq_true, decide_eq_true_eq, decide_eq_true_eq] at hboth
  exact hboth

theorem foldl_digits (ds : List Char) (n : ℕ) :
    ds.foldl (fun n d => n * 10 + (py.digit d).getD 0) n = n * 10 ^ ds.length + digitsValue py ds := by
  induction ds generalizing n with
  | nil => simp [digitsValue]
  | cons d ds ih =>
    have hvalue : digitsValue py (d :: ds) = (0 * 10 + (py.digit d).getD 0) * 10 ^ ds.length + digitsValue py ds :=
      ih _
    rw [List.foldl_cons, ih, hvalue, List.length_cons, Nat.pow_succ']
    ring

theorem digitsValue_cons (c : Char) (ds : List Char) :
    digitsValue py (c :: ds) = (py.digit c).getD 0 * 10 ^ ds.length + digitsValue py ds := by
  have hvalue : digitsValue py (c :: ds) = (0 * 10 + (py.digit c).getD 0) * 10 ^ ds.length + digitsValue py ds :=
    foldl_digits ds _
  rw [hvalue, Nat.zero_mul, Nat.zero_add]

theorem digitsValue_lt (hdigits : DecimalDigits py) (ds : List Char) : digitsValue py ds < 10 ^ ds.length := by
  induction ds with
  | nil => simp [digitsValue]
  | cons c ds ih =>
    have hvalue : (py.digit c).getD 0 < 10 := by
      cases hc : py.digit c with
      | none => simp
      | some v => exact hdigits.lt_ten c v hc
    rw [digitsValue_cons, List.length_cons, Nat.pow_succ']
    nlinarith

theorem digitsValue_natOfDigits (hdigits : DecimalDigits py) (h : ∀ c ∈ ds, c.isDigit = true) :
    digitsValue py ds = natOfDigits ds := by
  have hvalue : ∀ c ∈ ds, (py.digit c).getD 0 = c.toNat - '0'.toNat := by
    intro c hc
    have hbounds := isDigit_bounds (h c hc)
    rw [hdigits.ascii c (by omega), if_pos (h c hc)]
    rfl
  unfold digitsValue natOfDigits
  apply List.foldl_ext
  intro n c hc
  rw [hvalue c hc]

def StartsPhrase (digit : Char → Bool) (cs : List Char) : Prop :=
  ∃ ds blanks word after, cs = ds ++ (blanks ++ (String.toList word ++ after)) ∧ ds ≠ [] ∧
    (∀ c ∈ ds, digit c = true) ∧ (∀ c ∈ blanks, isSpace c = true) ∧ word ∈ sizeWords

theorem SizePhrase.startsPhrase (h : SizePhrase digit text before digits) :
    ∃ cs, text = before ++ cs ∧ StartsPhrase digit cs := by
  obtain ⟨blanks, word, after, htext, hblanks, hword⟩ := h.text
  exact ⟨_, htext, digits, blanks, word, after, rfl, h.nonempty, h.allowed, hblanks, hword⟩

theorem exists_run (digit : Char → Bool) (before : List Char) :
    ∃ a e, before = a ++ e ∧ (∀ c ∈ e, digit c = true) ∧ ∀ c ∈ a.getLast?, digit c = false := by
  induction before using List.reverseRecOn with
  | nil => exact ⟨[], [], rfl, by simp, by simp⟩
  | append_singleton before d ih =>
    cases hd : digit d with
    | false => exact ⟨before ++ [d], [], by simp, by simp, by simpa using hd⟩
    | true =>
      obtain ⟨a, e, rfl, he, ha⟩ := ih
      refine ⟨a, e ++ [d], by rw [List.append_assoc], ?_, ha⟩
      intro c hc
      obtain hc | hc := List.mem_append.mp hc
      · exact he c hc
      · rw [List.mem_singleton.mp hc, hd]

theorem StartsPhrase.exists_sizePhrase (h : StartsPhrase digit cs) (before : List Char) :
    ∃ before' digits', SizePhrase digit (before ++ cs) before' digits' ∧ before'.length ≤ before.length := by
  obtain ⟨ds, blanks, word, after, rfl, hne, hds, hblanks, hword⟩ := h
  obtain ⟨a, e, rfl, he, ha⟩ := exists_run digit before
  refine ⟨a, e ++ ds, ⟨⟨blanks, word, after, by simp, hblanks, hword⟩, by simp [hne], ?_, ha⟩, by simp⟩
  intro c hc
  obtain hc | hc := List.mem_append.mp hc
  · exact he c hc
  · exact hds c hc

theorem startsPhrase_of_sizeAt (h : (sizeAt py cs).isSome = true) : StartsPhrase (AIOrchestrator.isDigit py) cs := by
  unfold sizeAt at h
  dsimp only at h
  split at h
  · rename_i hmatch
    obtain ⟨hne, hwords⟩ := hmatch
    obtain ⟨word, hword, hbegins⟩ := List.any_eq_true.mp hwords
    obtain ⟨after, hafter⟩ := List.isPrefixOf_iff_prefix.mp hbegins
    let ds := (cs.takeWhile (AIOrchestrator.isDigit py)).take 4
    have hprefix : ds <+: cs := (List.take_prefix _ _).trans (List.takeWhile_prefix _)
    refine ⟨ds, (cs.drop ds.length).takeWhile isSpace, word, after, ?_, hne, ?_, ?_, hword⟩
    · rw [hafter, List.takeWhile_append_dropWhile]
      obtain ⟨rest, hrest⟩ := hprefix
      rw [← hrest, List.drop_left]
    · intro c hc
      exact List.mem_takeWhile_imp (List.mem_of_mem_take hc)
    · intro c hc
      exact List.mem_takeWhile_imp hc
  · cases h

theorem FirstPhrase.no_match {a b rest : List Char} (h : FirstPhrase (AIOrchestrator.isDigit py) text before digits)
    (hbefore : before = a ++ b) (hne : b ≠ []) (htext : text = before ++ rest) : sizeAt py (b ++ rest) = none := by
  rw [Option.eq_none_iff_forall_ne_some]
  intro size hsize
  have hstarts : StartsPhrase (AIOrchestrator.isDigit py) (b ++ rest) := startsPhrase_of_sizeAt (by rw [hsize]; rfl)
  obtain ⟨before', digits', hphrase, hlength⟩ := hstarts.exists_sizePhrase a
  rw [← List.append_assoc, ← hbefore, ← htext] at hphrase
  have hfirst := h.first _ _ hphrase
  have hpos := List.length_pos_iff.mpr hne
  rw [hbefore, List.length_append] at hfirst
  omega

theorem search_before {a b rest : List Char} (h : FirstPhrase (AIOrchestrator.isDigit py) text before digits)
    (hbefore : before = a ++ b) (htext : text = before ++ rest) :
    search (sizeAt py) (b ++ rest) = search (sizeAt py) rest := by
  induction b generalizing a with
  | nil => rfl
  | cons c b ih =>
    have hmiss : sizeAt py (c :: b ++ rest) = none := h.no_match hbefore (List.cons_ne_nil c b) htext
    have hlater := ih (a := a ++ [c]) (by simpa using hbefore)
    rw [List.cons_append] at hmiss ⊢
    rw [search, hmiss, ← hlater]
    rfl

theorem sizeWords_head {word : String} (hdigits : DecimalDigits py) (h : word ∈ sizeWords) :
    ∃ c cs, word.toList = c :: cs ∧ AIOrchestrator.isDigit py c = false ∧ isSpace c = false := by
  have hletter : ∀ c : Char, c.toNat < 128 → c.isDigit = false → AIOrchestrator.isDigit py c = false := by
    intro c hc hdigit
    rw [AIOrchestrator.isDigit, hdigits.ascii c hc, hdigit]
    rfl
  simp only [sizeWords, List.mem_cons, List.not_mem_nil, or_false] at h
  obtain rfl | rfl | rfl | rfl | rfl := h
  all_goals exact ⟨_, _, rfl, hletter _ (by decide) (by decide), by decide⟩

section Rest

variable {blanks after : List Char} {word : String}

theorem rest_head (hdigits : DecimalDigits py) (hblanks : ∀ c ∈ blanks, isSpace c = true) (hword : word ∈ sizeWords) :
    ∀ c ∈ (blanks ++ (word.toList ++ after)).head?, AIOrchestrator.isDigit py c = false := by
  obtain ⟨w, ws, hw, hletter, -⟩ := sizeWords_head hdigits hword
  intro c hc
  cases blanks with
  | nil =>
    rw [hw] at hc
    obtain rfl : w = c := by simpa using hc
    exact hletter
  | cons d blanks =>
    obtain rfl : d = c := by simpa using hc
    rw [Bool.eq_false_iff]
    intro hd
    have hspace := hblanks d List.mem_cons_self
    rw [hdigits.not_space d hd] at hspace
    cases hspace

theorem sizeAt_short (hdigits : DecimalDigits py) (hne : ds ≠ []) (hlength : ds.length ≤ 4)
    (hds : ∀ c ∈ ds, AIOrchestrator.isDigit py c = true) (hblanks : ∀ c ∈ blanks, isSpace c = true)
    (hword : word ∈ sizeWords) :
    sizeAt py (ds ++ (blanks ++ (word.toList ++ after))) = some (digitsValue py ds) := by
  have hrun : (ds ++ (blanks ++ (word.toList ++ after))).takeWhile (AIOrchestrator.isDigit py) = ds := by
    rw [List.takeWhile_append_of_pos hds]
    have hstop : ∀ c ∈ (blanks ++ (word.toList ++ after)).head?, AIOrchestrator.isDigit py c = false :=
      rest_head hdigits hblanks hword
    cases hrest : blanks ++ (word.toList ++ after) with
    | nil => simp
    | cons c cs => rw [List.takeWhile_cons_of_neg (by simp [hstop c (by rw [hrest]; rfl)]), List.append_nil]
  have hwords : (blanks ++ (word.toList ++ after)).dropWhile isSpace = word.toList ++ after := by
    obtain ⟨w, ws, hw, -, hspace⟩ := sizeWords_head hdigits hword
    rw [List.dropWhile_append_of_pos hblanks, hw, List.cons_append, List.dropWhile_cons_of_neg (by simp [hspace])]
  unfold sizeAt
  dsimp only
  rw [hrun, List.take_of_length_le hlength, List.drop_left, hwords, if_pos]
  refine ⟨hne, List.any_eq_true.mpr ⟨word, hword, ?_⟩⟩
  rw [List.isPrefixOf_iff_prefix]
  exact List.prefix_append _ _

theorem sizeAt_long (hdigits : DecimalDigits py) (hlength : 4 < ds.length)
    (hds : ∀ c ∈ ds, AIOrchestrator.isDigit py c = true) (rest : List Char) : sizeAt py (ds ++ rest) = none := by
  have hrun : ((ds ++ rest).takeWhile (AIOrchestrator.isDigit py)).take 4 = ds.take 4 := by
    rw [List.takeWhile_append_of_pos hds, List.take_append_of_le_length hlength.le]
  have hfour : (ds.take 4).length = 4 := List.length_take_of_le hlength.le
  obtain ⟨d, es, hdrop⟩ := List.exists_cons_of_length_pos (l := ds.drop 4) (by rw [List.length_drop]; omega)
  have hd : AIOrchestrator.isDigit py d = true := hds d (List.mem_of_mem_drop (hdrop ▸ List.mem_cons_self))
  unfold sizeAt
  dsimp only
  rw [hrun, hfour, List.drop_append_of_le_length hlength.le, hdrop, List.cons_append,
    List.dropWhile_cons_of_neg (by simp [hdigits.not_space d hd]), if_neg]
  rintro ⟨-, hwords⟩
  obtain ⟨word, hword, hbegins⟩ := List.any_eq_true.mp hwords
  obtain ⟨w, ws, hw, hletter, -⟩ := sizeWords_head hdigits hword
  rw [List.isPrefixOf_iff_prefix, hw] at hbegins
  obtain ⟨after, hafter⟩ := hbegins
  obtain rfl : w = d := (List.cons.inj hafter).1
  rw [hd] at hletter
  cases hletter

theorem search_digits (hdigits : DecimalDigits py) (hne : ds ≠ []) (hds : ∀ c ∈ ds, AIOrchestrator.isDigit py c = true)
    (hblanks : ∀ c ∈ blanks, isSpace c = true) (hword : word ∈ sizeWords) :
    search (sizeAt py) (ds ++ (blanks ++ (word.toList ++ after))) = some (digitsValue py ds % 10000) := by
  induction ds with
  | nil => exact absurd rfl hne
  | cons d ds ih =>
    -- The match begins at the fourth digit from the end.
    by_cases hlength : (d :: ds).length ≤ 4
    · have hvalue : digitsValue py (d :: ds) < 10000 :=
        (digitsValue_lt hdigits _).trans_le (Nat.pow_le_pow_right (by omega) hlength)
      have hmatch : sizeAt py (d :: ds ++ (blanks ++ (word.toList ++ after))) = some (digitsValue py (d :: ds)) :=
        sizeAt_short hdigits hne hlength hds hblanks hword
      rw [List.cons_append] at hmatch ⊢
      rw [search, hmatch, Nat.mod_eq_of_lt hvalue]
      rfl
    · have hmatch := sizeAt_long hdigits (by omega) hds (blanks ++ (word.toList ++ after))
      have hshorter : ds ≠ [] := by
        rintro rfl
        simp at hlength
      obtain ⟨k, hk⟩ : ∃ k, ds.length = 4 + k := by
        rw [List.length_cons] at hlength
        exact ⟨ds.length - 4, by omega⟩
      have hvalue : digitsValue py (d :: ds) = 10000 * ((py.digit d).getD 0 * 10 ^ k) + digitsValue py ds := by
        rw [digitsValue_cons, hk, Nat.pow_add]
        ring
      have hlater := ih hshorter fun c hc => hds c (List.mem_cons_of_mem d hc)
      rw [List.cons_append] at hmatch ⊢
      rw [search, hmatch, hvalue, Nat.mul_add_mod, ← hlater]
      rfl

end Rest

theorem search_first (hdigits : DecimalDigits py) (h : FirstPhrase (AIOrchestrator.isDigit py) text before digits) :
    search (sizeAt py) text = some (digitsValue py digits % 10000) := by
  obtain ⟨blanks, word, after, htext, hblanks, hword⟩ := h.phrase.text
  have hskip := search_before (a := []) h rfl htext
  rw [← htext] at hskip
  rw [hskip]
  exact search_digits hdigits h.phrase.nonempty h.phrase.allowed hblanks hword

theorem isDigit_of_ascii (hdigits : DecimalDigits py) (hc : c.isDigit = true) : AIOrchestrator.isDigit py c = true := by
  have hbounds := isDigit_bounds hc
  rw [AIOrchestrator.isDigit, hdigits.ascii c (by omega), if_pos hc]
  rfl

theorem SizePhrase.congr {digit' : Char → Bool} (h : SizePhrase digit text before digits)
    (hsame : ∀ c ∈ text, digit c = digit' c) : SizePhrase digit' text before digits := by
  obtain ⟨blanks, word, after, htext, -, -⟩ := h.text
  refine ⟨h.text, h.nonempty, ?_, ?_⟩
  · intro c hc
    rw [← hsame c (by simp [htext, hc])]
    exact h.allowed c hc
  · intro c hc
    rw [← hsame c (by simp [htext, List.mem_of_getLast? hc])]
    exact h.maximal c hc

theorem FirstPhrase.congr {digit' : Char → Bool} (h : FirstPhrase digit text before digits)
    (hsame : ∀ c ∈ text, digit c = digit' c) : FirstPhrase digit' text before digits := by
  refine ⟨h.phrase.congr hsame, ?_⟩
  intro before' digits' hphrase
  exact h.first before' digits' (hphrase.congr fun c hc => (hsame c hc).symm)

theorem SizePhrase.exists_first (h : SizePhrase digit text before digits) :
    ∃ before digits, FirstPhrase digit text before digits := by
  induction hn : before.length using Nat.strong_induction_on generalizing before digits with
  | _ n ih =>
    by_cases hshorter : ∃ before' digits', SizePhrase digit text before' digits' ∧ before'.length < before.length
    · obtain ⟨before', digits', hphrase, hlength⟩ := hshorter
      exact ih before'.length (hn ▸ hlength) hphrase rfl
    · refine ⟨before, digits, h, ?_⟩
      intro before' digits' hphrase
      by_contra hlength
      exact hshorter ⟨before', digits', hphrase, by omega⟩

theorem SizePhrase.exists_decimal (hdigits : DecimalDigits py) (h : SizePhrase Char.isDigit text before digits) :
    ∃ before digits, FirstPhrase (AIOrchestrator.isDigit py) text before digits := by
  obtain ⟨cs, rfl, ds, blanks, word, after, hcs, hne, hds, hrest⟩ := h.startsPhrase
  have hstarts : StartsPhrase (AIOrchestrator.isDigit py) cs :=
    ⟨ds, blanks, word, after, hcs, hne, fun c hc => isDigit_of_ascii hdigits (hds c hc), hrest⟩
  obtain ⟨before', digits', hphrase, -⟩ := hstarts.exists_sizePhrase before
  exact hphrase.exists_first

theorem readsSize_iff {content : String} (hdigits : DecimalDigits py)
    (h : FirstPhrase (AIOrchestrator.isDigit py) (py.lower content).toList before digits) :
    ReadsSize py content n ↔ digitsValue py digits % 10000 = n := by
  have hentities : (fallbackEntities py (py.lower content)).get "company_size" =
      some (.int (digitsValue py digits % 10000 : ℕ)) := by
    rw [fallbackEntities, search_first hdigits h]
    rfl
  rw [ReadsSize, hentities, Option.some.injEq, Json.int.injEq, Nat.cast_inj]

def Heuristic (py : Python) (content : String) (u : MessageUnderstanding) : Prop :=
  ∃ model promptVersion, sanitizeUnderstanding py (fallbackAnalysis py content) model promptVersion = some u

theorem Heuristic.companySize_eq {content : String} {u : MessageUnderstanding} (h : Heuristic py content u)
    (hread : ReadsSize py content n) : LeadSignals.companySize u = some (n : ℤ) := by
  obtain ⟨model, promptVersion, hu⟩ := h
  unfold sanitizeUnderstanding at hu
  obtain ⟨tokensUsed, -, rfl⟩ := Option.map_eq_some_iff.mp hu
  exact congrArg PlanLimitService.intValue hread

end CompanySizes

open CompanySizes

theorem company_size_read_iff (py : Python) (hdigits : DecimalDigits py) (content : String) (n : ℕ)
    (h : SaysSize py content n) :
    ((∀ c ∈ (py.lower content).toList, AIOrchestrator.isDigit py c = c.isDigit) → (ReadsSize py content n ↔ n < 10000)) ∧
      (∃ before digits, FirstPhrase (AIOrchestrator.isDigit py) (py.lower content).toList before digits ∧
        (ReadsSize py content n ↔ digitsValue py digits % 10000 = n)) ∧
      ∀ content' n', ReadsSize py content n → ReadsSize py content' n' → n ≤ n' →
        ∀ u u' messageCount, Heuristic py content u → Heuristic py content' u' →
          (computeInitialScores u messageCount).fitScore ≤ (computeInitialScores u' messageCount).fitScore := by
  obtain ⟨before, digits, hfirst, hn⟩ := h
  refine ⟨?_, ?_, ?_⟩
  · intro hascii
    have hvalue : digitsValue py digits = n := by
      rw [← hn]
      exact digitsValue_natOfDigits hdigits hfirst.phrase.allowed
    rw [readsSize_iff hdigits (hfirst.congr fun c hc => (hascii c hc).symm), hvalue]
    omega
  · obtain ⟨before', digits', hdecimal⟩ := hfirst.phrase.exists_decimal hdigits
    exact ⟨before', digits', hdecimal, readsSize_iff hdigits hdecimal⟩
  · intro content' n' hread hread' hle u u' messageCount hu hu'
    have hfit : companyFit u.entities ≤ companyFit u'.entities := by
      apply LeadSignals.companyFit_mono
      intro a ha
      rw [hu.companySize_eq hread] at ha
      obtain rfl := Option.some.inj ha
      exact ⟨n', hu'.companySize_eq hread', by omega⟩
    apply LeadSignals.bound_mono
    omega

namespace CompanySizes

theorem FirstPhrase.of_no_digit (h : SizePhrase digit text before digits) (hbefore : before.any digit = false) :
    FirstPhrase digit text before digits := by
  refine ⟨h, ?_⟩
  intro before' digits' hphrase
  by_contra hlength
  obtain ⟨cs, htext, -⟩ := h.startsPhrase
  obtain ⟨blanks, word, after, htext', -, -⟩ := hphrase.text
  obtain ⟨d, ds, hd⟩ := List.exists_cons_of_ne_nil hphrase.nonempty
  have hat : text[before'.length]? = some d := by
    rw [htext', hd, List.getElem?_append_right (le_refl _)]
    simp
  rw [htext, List.getElem?_append_left (by omega)] at hat
  have hdigit : digit d = true := hphrase.allowed d (hd ▸ List.mem_cons_self)
  rw [List.any_eq_false] at hbefore
  exact hbefore d (List.mem_of_getElem? hat) hdigit

theorem isDigit_ascii (c : Char) : AIOrchestrator.isDigit Python.ascii c = c.isDigit := by
  unfold AIOrchestrator.isDigit Python.ascii
  dsimp only
  cases c.isDigit <;> rfl

theorem ascii_decimalDigits : DecimalDigits Python.ascii where
  ascii c _ := rfl
  lt_ten c v h := by
    have hvalue : (if c.isDigit = true then some (c.toNat - 48) else none) = some v := h
    obtain ⟨hc, hv⟩ := Option.ite_none_right_eq_some.mp hvalue
    have hbounds := isDigit_bounds hc
    have hsub := Option.some.inj hv
    omega
  not_space c hc := by
    rw [isDigit_ascii] at hc
    have hbounds := isDigit_bounds hc
    simp only [isSpace, Bool.or_eq_false_iff, Bool.and_eq_false_iff, decide_eq_false_iff_not]
    omega

theorem says_fifty : SaysSize Python.ascii "Pricing for 50 People" 50 := by
  refine ⟨"pricing for ".toList, "50".toList, FirstPhrase.of_no_digit ?_ (by decide), by decide⟩
  refine ⟨⟨[' '], "people", [], by decide, List.all_eq_true.mp (by decide), by decide⟩, by decide,
    List.all_eq_true.mp (by decide), ?_⟩
  rintro c ⟨⟩
  rfl

theorem first_ten_thousand : FirstPhrase Char.isDigit (Python.ascii.lower "Pricing for 10000 people").toList
    "pricing for ".toList "10000".toList := by
  apply FirstPhrase.of_no_digit ?_ (by decide)
  refine ⟨⟨[' '], "people", [], by decide, List.all_eq_true.mp (by decide), by decide⟩, by decide,
    List.all_eq_true.mp (by decide), ?_⟩
  rintro c ⟨⟩
  rfl

end CompanySizes

theorem company_size_read_iff_fifty : ReadsSize Python.ascii "Pricing for 50 People" 50 :=
  ((company_size_read_iff Python.ascii ascii_decimalDigits _ 50 says_fifty).1 fun c _ => isDigit_ascii c).mpr
    (by decide)

theorem large_company_misread :
    SaysSize Python.ascii "Pricing for 10000 people" 10000 ∧
      ¬ReadsSize Python.ascii "Pricing for 10000 people" 10000 ∧
      ReadsSize Python.ascii "Pricing for 10000 people" 0 ∧
      ((sanitizeUnderstanding Python.ascii (fallbackAnalysis Python.ascii "Pricing for 10000 people") "" "").map
          fun u => (computeInitialScores u 1).fitScore) = some 40 ∧
      ((sanitizeUnderstanding Python.ascii (fallbackAnalysis Python.ascii "Pricing for 50 People") "" "").map
          fun u => (computeInitialScores u 1).fitScore) = some 60 := by
  have hfirst := first_ten_thousand.congr fun c _ => (isDigit_ascii c).symm
  refine ⟨⟨_, _, first_ten_thousand, by decide⟩, ?_, ?_, by decide +kernel, by decide +kernel⟩
  · rw [readsSize_iff ascii_decimalDigits hfirst]
    decide
  · rw [readsSize_iff ascii_decimalDigits hfirst]
    decide

end Leadline
