import Leadline.Library.Json
import Mathlib.Data.List.Nodup
import Mathlib.Data.List.TakeWhile
import Mathlib.Tactic.IntervalCases

namespace Leadline.Library.Json

def Digits (ds : List Char) : Prop := ds ≠ [] ∧ ∀ d ∈ ds, d.isDigit = true

def IntegerText (ds : List Char) : Prop := ds = ['0'] ∨ Digits ds ∧ ds.head? ≠ some '0'

def FractionText (cs : List Char) : Prop := cs = [] ∨ ∃ ds, Digits ds ∧ cs = '.' :: ds

def ExponentText (cs : List Char) : Prop :=
  cs = [] ∨ ∃ e sign ds, (e = 'e' ∨ e = 'E') ∧ (sign = [] ∨ sign = ['+'] ∨ sign = ['-']) ∧ Digits ds ∧
    cs = e :: (sign ++ ds)

structure NumberText (sign ds frac exp : List Char) : Prop where
  sign : sign = [] ∨ sign = ['-']
  integer : IntegerText ds
  fraction : FractionText frac
  exponent : ExponentText exp

structure FloatParts (l : Literal) : Prop where
  text : NumberText l.sign l.integer l.fraction l.exponent
  float : l.fraction ≠ [] ∨ l.exponent ≠ []

def FloatText (l : String) : Prop :=
  l ∈ ["NaN", "Infinity", "-Infinity"] ∨ ∃ parts, FloatParts parts ∧ parts.repr = l ∧ l.toList = parts.chars

def Delimited (rest : List Char) : Prop := ∀ c ∈ rest.head?, c = ',' ∨ c = ']' ∨ c = '}'

theorem delimited_nil : Delimited [] := by simp [Delimited]

theorem delimited_cons {c : Char} {rest : List Char} (h : c = ',' ∨ c = ']' ∨ c = '}') : Delimited (c :: rest) := by
  simpa [Delimited] using h

theorem takeWhile_digits {ds rest : List Char} (hds : ∀ d ∈ ds, d.isDigit = true)
    (hrest : ∀ c ∈ rest.head?, c.isDigit = false) : (ds ++ rest).takeWhile Char.isDigit = ds := by
  rw [List.takeWhile_append_of_pos hds]
  cases rest with
  | nil => simp
  | cons c rest =>
    have hc := hrest c rfl
    simp [hc]

theorem Delimited.no_digit {rest : List Char} (h : Delimited rest) : ∀ c ∈ rest.head?, c.isDigit = false := by
  intro c hc
  rcases h c hc with rfl | rfl | rfl <;> decide

theorem integerPart_append {ds rest : List Char} (hds : IntegerText ds)
    (hrest : ∀ c ∈ rest.head?, c.isDigit = false) : integerPart (ds ++ rest) = some (ds, rest) := by
  unfold integerPart
  rcases hds with rfl | ⟨⟨hne, hdigits⟩, hhead⟩
  · simp
  · have hhead' : (ds ++ rest).head? ≠ some '0' := by
      rw [List.head?_append_of_ne_nil ds hne]
      exact hhead
    rw [if_neg hhead']
    simp only [takeWhile_digits hdigits hrest, hne, if_false, List.drop_left]

theorem fractionPart_append {frac rest : List Char} (hfrac : FractionText frac)
    (hrest : ∀ c ∈ rest.head?, c.isDigit = false ∧ c ≠ '.') : fractionPart (frac ++ rest) = (frac, rest) := by
  unfold fractionPart
  rcases hfrac with rfl | ⟨ds, ⟨hne, hdigits⟩, rfl⟩
  · have hdot : rest.head? ≠ some '.' := fun h => (hrest '.' h).2 rfl
    simp [hdot]
  · have htake := takeWhile_digits hdigits fun c hc => (hrest c hc).1
    simp [htake, hne]

theorem exponentPart_append {exp rest : List Char} (hexp : ExponentText exp) (hrest : Delimited rest) :
    exponentPart (exp ++ rest) = (exp, rest) := by
  unfold exponentPart
  rcases hexp with rfl | ⟨e, sign, ds, he, hsign, ⟨hne, hdigits⟩, rfl⟩
  · cases rest with
    | nil => simp
    | cons c rest =>
      rcases hrest c rfl with rfl | rfl | rfl <;> simp
  · have htake := takeWhile_digits hdigits hrest.no_digit
    obtain ⟨d, ds', rfl⟩ := List.exists_cons_of_ne_nil hne
    have hd : d ≠ '+' ∧ d ≠ '-' := by
      have hdigit := hdigits d List.mem_cons_self
      constructor <;> (rintro rfl; revert hdigit; decide)
    simp only [List.cons_append] at htake
    rcases hsign with rfl | rfl | rfl
    · simp [he, hd, htake]
    · simp [he, htake, Nat.add_comm 1]
    · simp [he, htake, Nat.add_comm 1]

theorem number_append {sign ds frac exp rest : List Char} (h : NumberText sign ds frac exp) (hrest : Delimited rest) :
    number (sign ++ ds ++ frac ++ exp ++ rest) =
      if frac = [] ∧ exp = [] then
        if ds.length ≤ maxStrDigits then
          some (.int (if sign = [] then natOfDigits ds else -natOfDigits ds), rest)
        else none
      else some (.float (Literal.repr ⟨sign, ds, frac, exp⟩), rest) := by
  have hafterExp : ∀ c ∈ (exp ++ rest).head?, c.isDigit = false ∧ c ≠ '.' := by
    intro c hc
    rcases h.exponent with rfl | ⟨e, esign, eds, he, -, -, rfl⟩
    · rcases hrest c hc with rfl | rfl | rfl <;> decide
    · cases hc
      rcases he with rfl | rfl <;> decide
  have hafterFrac : ∀ c ∈ (frac ++ (exp ++ rest)).head?, c.isDigit = false := by
    intro c hc
    rcases h.fraction with rfl | ⟨fds, -, rfl⟩
    · exact (hafterExp c hc).1
    · cases hc
      decide
  have hinteger := integerPart_append h.integer hafterFrac
  have hhead : (ds ++ (frac ++ (exp ++ rest))).head? ≠ some '-' := by
    rcases h.integer with rfl | ⟨⟨hne, hdigits⟩, -⟩
    · simp
    · obtain ⟨d, ds', rfl⟩ := List.exists_cons_of_ne_nil hne
      have hdigit := hdigits d List.mem_cons_self
      intro hd
      cases hd
      revert hdigit
      decide
  simp only [List.append_assoc]
  unfold number
  rcases h.sign with rfl | rfl
  · simp only [List.nil_append, if_neg hhead, hinteger, fractionPart_append h.fraction hafterExp,
      exponentPart_append h.exponent hrest, Option.bind_eq_bind, Option.bind_some, Option.pure_def, if_true]
  · simp only [List.cons_append, List.nil_append, List.head?_cons, if_true, List.tail_cons, hinteger,
      fractionPart_append h.fraction hafterExp, exponentPart_append h.exponent hrest, Option.bind_eq_bind,
      Option.bind_some, Option.pure_def]

theorem head_toDigits {n : ℕ} (hn : n ≠ 0) : (Nat.toDigits 10 n).head? ≠ some '0' := by
  induction n using Nat.strongRecOn with
  | ind n ih =>
    by_cases hlt : n < 10
    · rw [Nat.toDigits_of_lt_base hlt]
      interval_cases n <;> first | exact absurd rfl hn | decide
    · have hge : 10 ≤ n := Nat.not_lt.mp hlt
      rw [Nat.toDigits_of_base_le (by decide) hge, List.head?_append_of_ne_nil _ Nat.toDigits_ne_nil]
      exact ih (n / 10) (by omega) (by omega)

theorem digits_zeros (n : ℕ) : ∀ d ∈ List.replicate n '0', d.isDigit = true := by
  intro d hd
  rw [List.eq_of_mem_replicate hd]
  decide

theorem digits_zero : Digits ['0'] := ⟨List.cons_ne_nil _ _, digits_zeros 1⟩

theorem digits_toDigits (n : ℕ) : Digits (Nat.toDigits 10 n) :=
  ⟨Nat.toDigits_ne_nil, fun _ hd => Nat.isDigit_of_mem_toDigits (by decide) (by decide) hd⟩

theorem digits_padded {ds : List Char} (h : Digits ds) (n : ℕ) : Digits (List.replicate n '0' ++ ds) :=
  ⟨List.append_ne_nil_of_right_ne_nil _ h.1, List.forall_mem_append.mpr ⟨digits_zeros n, h.2⟩⟩

theorem floatParts_fixed {integer fraction : List Char} (hinteger : IntegerText integer) (hfraction : Digits fraction) :
    FloatParts ⟨[], integer, '.' :: fraction, []⟩ :=
  ⟨⟨.inl rfl, hinteger, .inr ⟨fraction, hfraction, rfl⟩, .inl rfl⟩, .inl (List.cons_ne_nil _ _)⟩

theorem floatParts_zero : FloatParts Literal.zero := floatParts_fixed (.inl rfl) digits_zero

theorem floatParts_ofDigits {ds : List Char} (hds : Digits ds) (hhead : ds.head? ≠ some '0') (point : ℤ) :
    FloatParts (Literal.ofDigits ds point) := by
  have ⟨hne, hdigits⟩ := hds
  unfold Literal.ofDigits
  split
  · split
    · exact floatParts_fixed (.inl rfl) (digits_padded hds _)
    · split
      · have hhead' : (ds ++ List.replicate (point.toNat - ds.length) '0').head? ≠ some '0' := by
          rwa [List.head?_append_of_ne_nil ds hne]
        have hinteger : Digits (ds ++ List.replicate (point.toNat - ds.length) '0') :=
          ⟨List.append_ne_nil_of_left_ne_nil hne _, List.forall_mem_append.mpr ⟨hdigits, digits_zeros _⟩⟩
        exact floatParts_fixed (.inr ⟨hinteger, hhead'⟩) digits_zero
      · have hhead' : (ds.take point.toNat).head? ≠ some '0' := by
          rwa [List.head?_take, if_neg (by omega)]
        have htake : ds.take point.toNat ≠ [] := by
          rw [Ne, List.take_eq_nil_iff, not_or]
          exact ⟨by omega, hne⟩
        have hdrop : ds.drop point.toNat ≠ [] := by
          rw [Ne, List.drop_eq_nil_iff]
          omega
        exact floatParts_fixed (.inr ⟨⟨htake, fun d hd => hdigits d (List.mem_of_mem_take hd)⟩, hhead'⟩)
          ⟨hdrop, fun d hd => hdigits d (List.mem_of_mem_drop hd)⟩
  · obtain ⟨d, ds, rfl⟩ := List.exists_cons_of_ne_nil hne
    refine ⟨⟨.inl rfl, .inr ⟨⟨List.cons_ne_nil _ _, ?_⟩, hhead⟩, ?_, ?_⟩, .inr (List.cons_ne_nil _ _)⟩
    · intro e he
      exact hdigits e (List.mem_of_mem_take he)
    · by_cases htail : ds = []
      · exact .inl (if_pos htail)
      · rw [List.tail_cons, if_neg htail]
        exact .inr ⟨ds, ⟨htail, fun e he => hdigits e (List.mem_cons_of_mem d he)⟩, rfl⟩
    · refine .inr ⟨'e', _, _, .inl rfl, ?_, digits_padded (digits_toDigits _) _, rfl⟩
      split
      · exact .inr (.inr rfl)
      · exact .inr (.inl rfl)

theorem floatParts_ofDecimal (c : ℕ) (e : ℤ) : FloatParts (Literal.ofDecimal c e) := by
  unfold Literal.ofDecimal
  dsimp only
  split
  · exact floatParts_zero
  · rename_i hc
    have hhead := head_toDigits hc
    have hshort : (Nat.toDigits 10 c).rdropWhile (· = '0') <+: Nat.toDigits 10 c := List.rdropWhile_prefix _ _
    have hne : (Nat.toDigits 10 c).rdropWhile (· = '0') ≠ [] := by
      intro hnil
      obtain ⟨d, ds, hds⟩ := List.exists_cons_of_ne_nil (Nat.toDigits_ne_nil (n := c) (b := 10))
      have hall := List.rdropWhile_eq_nil_iff.mp hnil d (hds ▸ List.mem_cons_self)
      rw [hds, of_decide_eq_true hall] at hhead
      exact hhead rfl
    apply floatParts_ofDigits ⟨hne, fun d hd => (digits_toDigits c).2 d (hshort.subset hd)⟩
    obtain ⟨rest, hrest⟩ := hshort
    rwa [← hrest, List.head?_append_of_ne_nil _ hne] at hhead

theorem floatParts_candidates (u : Float.Model.UnpackedFloat) : ∀ l ∈ Literal.candidates u, FloatParts l := by
  intro l hl
  cases u with
  | finite sign m e hm =>
    obtain ⟨n, -, hl⟩ := List.mem_flatMap.mp hl
    unfold Literal.around at hl
    extract_lets e num den below rest at hl
    split at hl
    all_goals
      rcases List.mem_pair.mp hl with rfl | rfl
      all_goals exact floatParts_ofDecimal _ _
  | infinity sign => exact List.mem_singleton.mp hl ▸ floatParts_zero
  | notANumber => exact List.mem_singleton.mp hl ▸ floatParts_zero
  | zero sign => exact List.mem_singleton.mp hl ▸ floatParts_zero

theorem shortest_spec {l : Literal} (h : FloatParts l) :
    FloatParts l.shortest ∧ l.shortest.magnitude = l.magnitude ∧ l.shortest.sign = l.sign := by
  have hfound : ∀ c, FloatParts c → c.magnitude = l.magnitude →
      FloatParts { c with sign := l.sign } ∧ Literal.magnitude { c with sign := l.sign } = l.magnitude :=
    fun c hc hsame => ⟨⟨⟨h.text.sign, hc.text.integer, hc.text.fraction, hc.text.exponent⟩, hc.float⟩, hsame⟩
  unfold Literal.shortest
  cases hfind : (Literal.candidates l.magnitude.unpack).find? (·.magnitude = l.magnitude) with
  | none =>
    obtain ⟨hparts, hsame⟩ := hfound l h rfl
    exact ⟨hparts, hsame, rfl⟩
  | some c =>
    have hmem := List.mem_of_find?_eq_some hfind
    obtain ⟨hparts, hsame⟩ :=
      hfound c (floatParts_candidates _ c hmem) (by simpa using List.find?_some hfind)
    exact ⟨hparts, hsame, rfl⟩

theorem shortest_shortest {l : Literal} (h : FloatParts l) : l.shortest.shortest = l.shortest := by
  obtain ⟨-, hmagnitude, hsign⟩ := shortest_spec h
  rw [Literal.shortest, hmagnitude, hsign]
  cases hfind : (Literal.candidates l.magnitude.unpack).find? (·.magnitude = l.magnitude) with
  | none => rw [Literal.shortest, hfind]; rfl
  | some c => rw [Literal.shortest, hfind]; rfl

theorem floatText_repr {l : Literal} (h : FloatParts l) : FloatText l.repr := by
  unfold Literal.repr
  split
  · rcases h.text.sign with hsign | hsign
    · rw [hsign]
      exact .inl (by decide)
    · rw [hsign]
      exact .inl (by decide)
  · rename_i hfinite
    obtain ⟨hparts, hmagnitude, -⟩ := shortest_spec h
    refine .inr ⟨l.shortest, hparts, ?_, String.toList_ofList⟩
    rw [Literal.repr, hmagnitude, if_neg hfinite, shortest_shortest h]

theorem hexDigit_hexChar : ∀ n < 16, hexDigit (hexChar n) = some n := by decide

theorem hex4_unitEscape {n : ℕ} (hn : n < 65536) (rest : List Char) :
    hex4 (hexChar (n / 4096 % 16) :: hexChar (n / 256 % 16) :: hexChar (n / 16 % 16) :: hexChar (n % 16) :: rest) =
      some (n, rest) := by
  simp only [hex4, hexDigit_hexChar _ (Nat.mod_lt _ (by decide : 0 < 16)), Option.bind_eq_bind, Option.bind_some,
    Option.pure_def]
  congr 2
  omega

theorem escapeTail_unit {n : ℕ} (hn : n < 65536) (hhigh : isHighSurrogate n = false) (hlow : isLowSurrogate n = false)
    (rest : List Char) : escapeTail ((unitEscape n).tail ++ rest) = some (Char.ofNat n, rest) := by
  simp only [unitEscape, List.tail_cons, List.cons_append, List.nil_append, escapeTail, if_true, unicodeEscape,
    hex4_unitEscape hn, Option.bind_eq_bind, Option.bind_some, hhigh, hlow, Bool.false_eq_true, if_false, Option.pure_def]

theorem escapeTail_pair {hi lo : ℕ} (hhi : hi < 0x400) (hlo : lo < 0x400) (rest : List Char) :
    escapeTail ((unitEscape (0xd800 + hi)).tail ++ unitEscape (0xdc00 + lo) ++ rest) =
      some (Char.ofNat (0x10000 + hi * 0x400 + lo), rest) := by
  have hhigh : isHighSurrogate (0xd800 + hi) = true := by
    simp only [isHighSurrogate, Bool.and_eq_true, decide_eq_true_eq]
    omega
  have hlow : isLowSurrogate (0xdc00 + lo) = true := by
    simp only [isLowSurrogate, Bool.and_eq_true, decide_eq_true_eq]
    omega
  have hsecond : lowSurrogate (unitEscape (0xdc00 + lo) ++ rest) = some (0xdc00 + lo, rest) := by
    simp only [unitEscape, List.cons_append, List.nil_append, lowSurrogate, and_self, if_true,
      hex4_unitEscape (show 0xdc00 + lo < 65536 by omega), Option.filter_some, hlow]
  rw [List.append_assoc]
  generalize unitEscape (0xdc00 + lo) ++ rest = later at hsecond ⊢
  simp only [unitEscape, List.tail_cons, List.cons_append, List.nil_append, escapeTail, if_true, unicodeEscape,
    hex4_unitEscape (show 0xd800 + hi < 65536 by omega), Option.bind_eq_bind, Option.bind_some, hhigh, hsecond,
    Option.pure_def, Nat.add_sub_cancel_left]

theorem escapeTail_short {p : Char × Char} (hp : p ∈ shortEscapes) (rest : List Char) :
    escapeTail (p.1 :: rest) = some (p.2, rest) := by
  simp only [shortEscapes, List.mem_cons, List.not_mem_nil, or_false] at hp
  rcases hp with rfl | rfl | rfl | rfl | rfl | rfl | rfl | rfl <;> rfl

theorem stringTail_escape (n : ℕ) (c : Char) (cs : List Char) :
    stringTail (n + 1) (escape c ++ cs) = (stringTail n cs).map fun p => (c :: p.1, p.2) := by
  have hescaped : ∀ tail rest, escapeTail tail = some (c, rest) →
      stringTail (n + 1) ('\\' :: tail) = (stringTail n rest).map fun p => (c :: p.1, p.2) := by
    intro tail rest htail
    simp only [stringTail, htail, Char.reduceEq, if_false, if_true, Option.bind_eq_bind, Option.bind_some,
      Option.pure_def]
    cases stringTail n rest <;> rfl
  unfold escape
  dsimp only
  split
  · rename_i p hfind
    have hp : p ∈ shortEscapes := (List.mem_filter.mp (List.mem_of_find?_eq_some hfind)).1
    have hc : p.2 = c := by simpa using List.find?_some hfind
    have htail := escapeTail_short hp cs
    rw [hc] at htail
    exact hescaped _ _ htail
  · rename_i hfind
    have hplain : ∀ p ∈ shortEscapes, p.1 ≠ '/' → p.2 ≠ c := by
      intro p hp hslash hc
      have hnone := List.find?_eq_none.mp hfind p (List.mem_filter.mpr ⟨hp, by simpa using hslash⟩)
      exact hnone (by simpa using hc)
    split
    · rename_i hprintable
      have hquote : c ≠ '"' := Ne.symm (hplain ('"', '"') (by decide) (by decide))
      have hback : c ≠ '\\' := Ne.symm (hplain ('\\', '\\') (by decide) (by decide))
      simp only [List.cons_append, List.nil_append, stringTail, hquote, hback, if_false,
        if_neg (Nat.not_lt.mpr hprintable.1), Option.bind_eq_bind, Option.pure_def]
      cases stringTail n cs <;> rfl
    · split
      · rename_i hbmp
        -- a character is no surrogate
        have hvalid : c.toNat < 0xd800 ∨ 0xdfff < c.toNat ∧ c.toNat < 0x110000 := c.valid
        have hhigh : isHighSurrogate c.toNat = false := by
          simp only [isHighSurrogate, Bool.and_eq_false_iff, decide_eq_false_iff_not]
          omega
        have hlow : isLowSurrogate c.toNat = false := by
          simp only [isLowSurrogate, Bool.and_eq_false_iff, decide_eq_false_iff_not]
          omega
        have htail := escapeTail_unit hbmp hhigh hlow cs
        rw [Char.ofNat_toNat] at htail
        exact hescaped _ _ htail
      · rename_i hastral
        have hvalid : c.toNat < 0xd800 ∨ 0xdfff < c.toNat ∧ c.toNat < 0x110000 := c.valid
        have hhi : (c.toNat - 0x10000) / 0x400 < 0x400 := by omega
        have hlo : (c.toNat - 0x10000) % 0x400 < 0x400 := by omega
        have hcode : 0x10000 + (c.toNat - 0x10000) / 0x400 * 0x400 + (c.toNat - 0x10000) % 0x400 = c.toNat := by omega
        have htail := escapeTail_pair hhi hlo cs
        rw [hcode, Char.ofNat_toNat] at htail
        exact hescaped _ _ htail

theorem stringTail_escapes (n : ℕ) (s rest : List Char) (hn : s.length < n) :
    stringTail n (s.flatMap escape ++ '"' :: rest) = some (s, rest) := by
  induction s generalizing n with
  | nil =>
    obtain ⟨n, rfl⟩ := Nat.exists_eq_succ_of_ne_zero (Nat.ne_of_gt hn)
    simp [stringTail]
  | cons c s ih =>
    obtain ⟨n, rfl⟩ := Nat.exists_eq_succ_of_ne_zero (Nat.ne_of_gt (Nat.zero_lt_of_lt hn))
    have hrest := ih n (by simpa using hn)
    rw [List.flatMap_cons, List.append_assoc, stringTail_escape, hrest]
    rfl

theorem length_escape (c : Char) : 0 < (escape c).length := by
  unfold escape
  dsimp only
  split
  · simp
  · split
    · simp
    · split <;> simp [unitEscape]

theorem length_le_escapes (s : List Char) : s.length ≤ (s.flatMap escape).length := by
  induction s with
  | nil => simp
  | cons c s ih =>
    have hc := length_escape c
    rw [List.flatMap_cons, List.length_append, List.length_cons]
    omega

inductive WellFormed : Json → Prop
  | null : WellFormed .null
  | bool (b : Bool) : WellFormed (.bool b)
  | int {n : ℤ} (hn : n.natAbs < 10 ^ maxStrDigits) : WellFormed (.int n)
  | float {l : String} (hl : FloatText l) : WellFormed (.float l)
  | str (s : String) : WellFormed (.str s)
  | arr {items : List Json} (hitems : ∀ j ∈ items, WellFormed j) : WellFormed (.arr items)
  | obj {fields : List (String × Json)} (hkeys : (fields.map Prod.fst).Nodup)
      (hfields : ∀ p ∈ fields, WellFormed p.2) : WellFormed (.obj fields)

theorem natOfDigits_eq (ds : List Char) : natOfDigits ds = Nat.ofDigitChars 10 ds 0 := by
  rw [natOfDigits, Nat.ofDigitChars_eq_foldl]
  congr 1
  funext n d
  rw [Nat.mul_comm]

theorem integerText_toDigits (n : ℕ) : IntegerText (Nat.toDigits 10 n) := by
  by_cases hn : n = 0
  · rw [hn]
    exact .inl (Nat.toDigits_zero 10)
  · refine .inr ⟨⟨Nat.toDigits_ne_nil, fun d hd => ?_⟩, head_toDigits hn⟩
    exact Nat.isDigit_of_mem_toDigits (by decide) (by decide) hd

theorem toList_toString_int (n : ℤ) :
    (toString n).toList = (if n < 0 then ['-'] else []) ++ Nat.toDigits 10 n.natAbs := by
  rw [Int.toString_eq_repr, Int.repr_eq_if]
  by_cases hn : n < 0
  · have habs : (-n).toNat = n.natAbs := by omega
    rw [if_neg (by omega), if_pos hn, habs, String.toList_append, Nat.toList_repr]
    rfl
  · have habs : n.toNat = n.natAbs := by omega
    rw [if_pos (by omega), if_neg hn, habs, Nat.toList_repr, List.nil_append]

theorem number_int {n : ℤ} (hn : n.natAbs < 10 ^ maxStrDigits) {rest : List Char} (hrest : Delimited rest) :
    number ((toString n).toList ++ rest) = some (.int n, rest) := by
  have htext : NumberText (if n < 0 then ['-'] else []) (Nat.toDigits 10 n.natAbs) [] [] := by
    refine ⟨?_, integerText_toDigits _, .inl rfl, .inl rfl⟩
    split
    · exact .inr rfl
    · exact .inl rfl
  have hlength : (Nat.toDigits 10 n.natAbs).length ≤ maxStrDigits :=
    (Nat.length_toDigits_le_iff (by decide) (by decide)).mpr hn
  have hnumber := number_append htext hrest
  simp only [List.append_nil, and_self, if_true, if_pos hlength] at hnumber
  rw [toList_toString_int, hnumber, natOfDigits_eq, Nat.ofDigitChars_ten_toDigits]
  by_cases hneg : n < 0
  · simp only [hneg, if_true, List.cons_ne_nil, if_false]
    congr 3
    omega
  · simp only [hneg, if_false, if_true]
    congr 3
    omega

theorem value_number {sign ds frac exp : List Char} (h : NumberText sign ds frac exp) (n : ℕ)
    (rest : List Char) :
    value (n + 1) (sign ++ ds ++ frac ++ exp ++ rest) = number (sign ++ ds ++ frac ++ exp ++ rest) := by
  obtain ⟨d, ds', rfl, hd⟩ : ∃ d ds', ds = d :: ds' ∧ d.isDigit = true := by
    rcases h.integer with rfl | ⟨⟨hne, hdigits⟩, -⟩
    · exact ⟨'0', [], rfl, by decide⟩
    · obtain ⟨d, ds', rfl⟩ := List.exists_cons_of_ne_nil hne
      exact ⟨d, ds', rfl, hdigits d List.mem_cons_self⟩
  have hne : ∀ c : Char, c.isDigit = false → d ≠ c := by
    intro c hc h
    rw [h, hc] at hd
    cases hd
  have hname : ∀ name : String, name ∈ constants.map Prod.fst →
      ∀ cs, name.toList.isPrefixOf (sign ++ d :: cs) = false := by
    intro name hname cs
    simp only [constants, List.map_cons, List.map_nil, List.mem_cons, List.not_mem_nil, or_false] at hname
    rcases h.sign with rfl | rfl
    · rcases hname with rfl | rfl | rfl | rfl | rfl | rfl
      all_goals simp [List.isPrefixOf, (hne _ _).symm]
    · rcases hname with rfl | rfl | rfl | rfl | rfl | rfl
      all_goals simp [List.isPrefixOf, (hne _ _).symm]
  have hconstant : ∀ cs, constant (sign ++ d :: cs) = none := by
    intro cs
    rw [constant, List.findSome?_eq_none_iff]
    intro p hp
    exact if_neg (by simp [hname p.1 (List.mem_map_of_mem hp) cs])
  have hhead : ∃ c cs, sign ++ (d :: ds') ++ frac ++ exp ++ rest = c :: cs ∧ c ≠ '"' ∧ c ≠ '{' ∧ c ≠ '[' := by
    rcases h.sign with rfl | rfl
    · exact ⟨d, _, rfl, hne _ (by decide), hne _ (by decide), hne _ (by decide)⟩
    · exact ⟨'-', _, rfl, by decide, by decide, by decide⟩
  obtain ⟨c, cs, htext, hquote, hbrace, hbracket⟩ := hhead
  have hnone : constant (c :: cs) = none := by
    rw [← htext]
    simp only [List.append_assoc, List.cons_append]
    exact hconstant _
  rw [htext]
  simp only [value, hquote, hbrace, hbracket, if_false, hnone]
  rfl

theorem value_constant (name : String) {j : Json} (h : (name, j) ∈ constants) (n : ℕ) (rest : List Char) :
    value (n + 1) (name.toList ++ rest) = some (j, rest) := by
  simp only [constants, List.mem_cons, Prod.mk.injEq, List.not_mem_nil, or_false] at h
  rcases h with ⟨rfl, rfl⟩ | ⟨rfl, rfl⟩ | ⟨rfl, rfl⟩ | ⟨rfl, rfl⟩ | ⟨rfl, rfl⟩ | ⟨rfl, rfl⟩
  all_goals
    simp [value, constant, constants]
    rfl

theorem toList_literal (s : String) : (literal s).toList = '"' :: (s.toList.flatMap escape ++ ['"']) := by
  rw [literal, String.toList_ofList]
  rfl

theorem stringTail_literal {n : ℕ} {s : String} (hn : (literal s).toList.length ≤ n + 1) (rest : List Char) :
    stringTail n ((literal s).toList.tail ++ rest) = some (s.toList, rest) := by
  have hlength := length_le_escapes s.toList
  rw [toList_literal] at hn ⊢
  simp only [List.length_cons, List.length_append, List.length_nil] at hn
  have hread := stringTail_escapes n s.toList rest (by omega)
  simpa using hread

def itemsText (items : List Json) : List Char := (String.intercalate ", " (dumpItems items)).toList

theorem itemsText_cons_cons (j k : Json) (js : List Json) :
    itemsText (j :: k :: js) = (dumps j).toList ++ ',' :: ' ' :: itemsText (k :: js) := by
  simp only [itemsText, dumpItems, String.intercalate_cons_cons, String.toList_append, List.append_assoc]
  rfl

theorem itemsText_singleton (j : Json) : itemsText [j] = (dumps j).toList := by
  simp [itemsText, dumpItems]

theorem toList_arr (items : List Json) : (dumps (.arr items)).toList = '[' :: (itemsText items ++ [']']) := by
  rw [dumps, String.toList_append, String.toList_append]
  rfl

def fieldsText (fields : List (String × Json)) : List Char := (String.intercalate ", " (dumpFields fields)).toList

theorem fieldsText_cons_cons (p q : String × Json) (fields : List (String × Json)) :
    fieldsText (p :: q :: fields) =
      (literal p.1).toList ++ ':' :: ' ' :: ((dumps p.2).toList ++ ',' :: ' ' :: fieldsText (q :: fields)) := by
  simp only [fieldsText, dumpFields, String.intercalate_cons_cons, String.toList_append, List.append_assoc]
  rfl

theorem fieldsText_singleton (p : String × Json) :
    fieldsText [p] = (literal p.1).toList ++ ':' :: ' ' :: (dumps p.2).toList := by
  simp only [fieldsText, dumpFields, String.intercalate_singleton, String.toList_append, List.append_assoc]
  rfl

theorem toList_obj (fields : List (String × Json)) :
    (dumps (.obj fields)).toList = '{' :: (fieldsText fields ++ ['}']) := by
  rw [dumps, String.toList_append, String.toList_append]
  rfl

theorem head_dumps {j : Json} (hj : WellFormed j) :
    ∃ c cs, (dumps j).toList = c :: cs ∧ isBlank c = false ∧ c ≠ ']' := by
  have hdigit : ∀ d : Char, d.isDigit = true → isBlank d = false ∧ d ≠ ']' := by
    intro d hd
    constructor
    · by_contra hblank
      simp only [isBlank, Bool.not_eq_false, Bool.or_eq_true, decide_eq_true_eq] at hblank
      rcases hblank with ((rfl | rfl) | rfl) | rfl
      all_goals
        revert hd
        decide
    · rintro rfl
      revert hd
      decide
  have hnumber : ∀ sign ds more : List Char, (sign = [] ∨ sign = ['-']) → IntegerText ds →
      ∃ c cs, sign ++ ds ++ more = c :: cs ∧ isBlank c = false ∧ c ≠ ']' := by
    intro sign ds more hsign hds
    obtain ⟨d, ds', rfl, hd⟩ : ∃ d ds', ds = d :: ds' ∧ d.isDigit = true := by
      rcases hds with rfl | ⟨⟨hne, hdigits⟩, -⟩
      · exact ⟨'0', [], rfl, by decide⟩
      · obtain ⟨d, ds', rfl⟩ := List.exists_cons_of_ne_nil hne
        exact ⟨d, ds', rfl, hdigits d List.mem_cons_self⟩
    rcases hsign with rfl | rfl
    · exact ⟨d, _, rfl, hdigit d hd⟩
    · exact ⟨'-', _, rfl, by decide, by decide⟩
  cases hj with
  | null => exact ⟨'n', _, rfl, by decide, by decide⟩
  | bool b =>
    cases b with
    | true => exact ⟨'t', _, rfl, by decide, by decide⟩
    | false => exact ⟨'f', _, rfl, by decide, by decide⟩
  | @int n _ =>
    have htext := hnumber (if n < 0 then ['-'] else []) (Nat.toDigits 10 n.natAbs) []
      (by split <;> simp) (integerText_toDigits _)
    rwa [List.append_nil, ← toList_toString_int] at htext
  | @float l hl =>
    rcases hl with hl | ⟨parts, hparts, -, htext⟩
    · simp only [List.mem_cons, List.not_mem_nil, or_false] at hl
      rcases hl with rfl | rfl | rfl
      · exact ⟨'N', _, rfl, by decide, by decide⟩
      · exact ⟨'I', _, rfl, by decide, by decide⟩
      · exact ⟨'-', _, rfl, by decide, by decide⟩
    · have hstart := hnumber parts.sign parts.integer (parts.fraction ++ parts.exponent) hparts.text.sign
        hparts.text.integer
      rw [← List.append_assoc] at hstart
      rw [dumps, htext]
      exact hstart
  | str s => exact ⟨'"', _, toList_literal s, by decide, by decide⟩
  | arr _ => exact ⟨'[', _, toList_arr _, by decide, by decide⟩
  | obj _ _ => exact ⟨'{', _, toList_obj _, by decide, by decide⟩

theorem skipBlank_of_head {c : Char} {cs : List Char} (hc : isBlank c = false) : skipBlank (c :: cs) = c :: cs := by
  simp [skipBlank, hc]

theorem skipBlank_space (cs : List Char) : skipBlank (' ' :: cs) = skipBlank cs := by simp [skipBlank, isBlank]

def Reads (j : Json) : Prop :=
  ∀ n rest, (dumps j).toList.length ≤ n → Delimited rest → value n ((dumps j).toList ++ rest) = some (j, rest)

theorem head_itemsText {j : Json} (js : List Json) (hj : WellFormed j) :
    ∃ c cs, itemsText (j :: js) = c :: cs ∧ isBlank c = false ∧ c ≠ ']' := by
  obtain ⟨c, cs, htext, hc⟩ := head_dumps hj
  cases js with
  | nil => exact ⟨c, cs, by rw [itemsText_singleton, htext], hc⟩
  | cons k js => exact ⟨c, _, by rw [itemsText_cons_cons, htext, List.cons_append], hc⟩

theorem elements_itemsText {items : List Json} (hne : items ≠ []) (hitems : ∀ j ∈ items, WellFormed j)
    (hreads : ∀ j ∈ items, Reads j) (n : ℕ) (rest : List Char) (hn : (itemsText items).length + 1 ≤ n) :
    elements n (itemsText items ++ ']' :: rest) = some (items, rest) := by
  induction items generalizing n with
  | nil => exact absurd rfl hne
  | cons j js ih =>
    obtain ⟨n, rfl⟩ := Nat.exists_eq_succ_of_ne_zero (Nat.ne_of_gt (Nat.lt_of_lt_of_le (Nat.succ_pos _) hn))
    have hj := hreads j List.mem_cons_self
    cases js with
    | nil =>
      rw [itemsText_singleton] at hn ⊢
      have hread := hj n (']' :: rest) (by omega) (delimited_cons (by simp))
      rw [elements, hread]
      simp [skipBlank, isBlank]
    | cons k js =>
      rw [itemsText_cons_cons] at hn ⊢
      simp only [List.length_append, List.length_cons] at hn
      have hread := hj n (',' :: ' ' :: (itemsText (k :: js) ++ ']' :: rest)) (by omega) (delimited_cons (by simp))
      have hlater := ih (by simp) (fun x hx => hitems x (List.mem_cons_of_mem j hx))
        (fun x hx => hreads x (List.mem_cons_of_mem j hx)) n (by omega)
      obtain ⟨c, cs, htext, hc, -⟩ := head_itemsText js (hitems k (by simp))
      have hblank : skipBlank (' ' :: (itemsText (k :: js) ++ ']' :: rest)) = itemsText (k :: js) ++ ']' :: rest := by
        rw [skipBlank_space, htext, List.cons_append, skipBlank_of_head hc]
      simp only [List.append_assoc, List.cons_append]
      rw [elements, hread]
      simp only [Option.bind_eq_bind, Option.bind_some, skipBlank_of_head (show isBlank ',' = false by decide),
        List.head?_cons, if_true, List.tail_cons, hblank, hlater, Option.pure_def]

theorem head_fieldsText (p : String × Json) (fields : List (String × Json)) :
    ∃ cs, fieldsText (p :: fields) = '"' :: cs := by
  cases fields with
  | nil => exact ⟨_, by rw [fieldsText_singleton, toList_literal, List.cons_append]⟩
  | cons q fields => exact ⟨_, by rw [fieldsText_cons_cons, toList_literal, List.cons_append]⟩

theorem members_fieldsText {fields : List (String × Json)} (hne : fields ≠ []) (hreads : ∀ p ∈ fields, Reads p.2)
    (hstart : ∀ p ∈ fields, WellFormed p.2) (d : Dict) (hkeys : ((d ++ fields).map Prod.fst).Nodup) (n : ℕ)
    (rest : List Char) (hn : (fieldsText fields).length + 1 ≤ n) :
    members n d (fieldsText fields ++ '}' :: rest) = some (d ++ fields, rest) := by
  induction fields generalizing n d with
  | nil => exact absurd rfl hne
  | cons p fields ih =>
    obtain ⟨n, rfl⟩ := Nat.exists_eq_succ_of_ne_zero (Nat.ne_of_gt (Nat.lt_of_lt_of_le (Nat.succ_pos _) hn))
    have hp := hreads p List.mem_cons_self
    have hnew : d.set p.1 p.2 = d ++ [p] := by
      have hmissing : ¬d.any (·.1 = p.1) = true := by
        intro hany
        obtain ⟨q, hq, hqp⟩ := List.any_eq_true.mp hany
        rw [List.map_append, List.nodup_append] at hkeys
        exact hkeys.2.2 q.1 (List.mem_map_of_mem hq) p.1 (by simp) (of_decide_eq_true hqp)
      rw [Dict.set, if_neg hmissing]
    obtain ⟨c, cs, htext, hc, -⟩ := head_dumps (hstart p List.mem_cons_self)
    have hvalue : ∀ later, skipBlank (' ' :: ((dumps p.2).toList ++ later)) = (dumps p.2).toList ++ later := by
      intro later
      rw [skipBlank_space, htext, List.cons_append, skipBlank_of_head hc]
    have hquote : ∀ later, ((literal p.1).toList ++ later).head? = some '"' := by
      intro later
      rw [toList_literal]
      rfl
    have htail : ∀ later, ((literal p.1).toList ++ later).tail = (literal p.1).toList.tail ++ later := by
      intro later
      rw [toList_literal]
      rfl
    cases fields with
    | nil =>
      rw [fieldsText_singleton] at hn ⊢
      simp only [List.length_append, List.length_cons] at hn
      have hkey := stringTail_literal (n := n + 1) (s := p.1) (by omega)
      have hread := hp n ('}' :: rest) (by omega) (delimited_cons (by simp))
      simp only [List.append_assoc, List.cons_append]
      rw [members, if_pos (hquote _), htail, hkey]
      simp only [Option.bind_eq_bind, Option.bind_some, skipBlank_of_head (show isBlank ':' = false by decide),
        List.head?_cons, if_true, List.tail_cons, hvalue, hread,
        skipBlank_of_head (show isBlank '}' = false by decide), String.ofList_toList, hnew, Option.pure_def]
      simp
    | cons q fields =>
      rw [fieldsText_cons_cons] at hn ⊢
      simp only [List.length_append, List.length_cons] at hn
      have hkey := stringTail_literal (n := n + 1) (s := p.1) (by omega)
      have hread := hp n (',' :: ' ' :: (fieldsText (q :: fields) ++ '}' :: rest)) (by omega)
        (delimited_cons (by simp))
      have hkeys' : ((d ++ [p] ++ q :: fields).map Prod.fst).Nodup := by simpa using hkeys
      have hlater := ih (by simp) (fun x hx => hreads x (List.mem_cons_of_mem p hx))
        (fun x hx => hstart x (List.mem_cons_of_mem p hx)) (d ++ [p]) hkeys' n (by omega)
      have hblank : skipBlank (' ' :: (fieldsText (q :: fields) ++ '}' :: rest)) =
          fieldsText (q :: fields) ++ '}' :: rest := by
        obtain ⟨cs, hhead⟩ := head_fieldsText q fields
        rw [skipBlank_space, hhead, List.cons_append, skipBlank_of_head (by decide)]
      simp only [List.append_assoc, List.cons_append]
      rw [members, if_pos (hquote _), htail, hkey]
      simp only [Option.bind_eq_bind, Option.bind_some, skipBlank_of_head (show isBlank ':' = false by decide),
        List.head?_cons, if_true, List.tail_cons, hvalue, hread,
        skipBlank_of_head (show isBlank ',' = false by decide), String.ofList_toList, hnew, hblank, hlater]
      simp

theorem Reads.of_succ {j : Json} (hj : WellFormed j)
    (h : ∀ n rest, (dumps j).toList.length ≤ n + 1 → Delimited rest →
      value (n + 1) ((dumps j).toList ++ rest) = some (j, rest)) : Reads j := by
  intro n rest hn hrest
  obtain ⟨c, cs, htext, -⟩ := head_dumps hj
  cases n with
  | zero =>
    rw [htext] at hn
    cases hn
  | succ n => exact h n rest hn hrest

theorem reads_of_wellFormed {j : Json} (hj : WellFormed j) : Reads j := by
  induction hj with
  | null => exact .of_succ .null fun n rest _ _ => value_constant "null" (by simp [constants]) n rest
  | bool b =>
    refine .of_succ (.bool b) fun n rest _ _ => ?_
    cases b with
    | true => exact value_constant "true" (by simp [constants]) n rest
    | false => exact value_constant "false" (by simp [constants]) n rest
  | @int i hi =>
    refine .of_succ (.int hi) fun n rest _ hrest => ?_
    have htext : NumberText (if i < 0 then ['-'] else []) (Nat.toDigits 10 i.natAbs) [] [] := by
      refine ⟨?_, integerText_toDigits _, .inl rfl, .inl rfl⟩
      split <;> simp
    have hvalue := value_number htext n rest
    simp only [List.append_nil, ← toList_toString_int] at hvalue
    rw [dumps, hvalue, number_int hi hrest]
  | @float l hl =>
    refine .of_succ (.float hl) fun n rest _ hrest => ?_
    rw [dumps]
    rcases hl with hl | ⟨parts, hparts, hrepr, htext⟩
    · apply value_constant
      simp only [List.mem_cons, List.not_mem_nil, or_false] at hl
      rcases hl with rfl | rfl | rfl <;> simp [constants]
    · have hnot : ¬(parts.fraction = [] ∧ parts.exponent = []) := fun hnil => hparts.float.elim (· hnil.1) (· hnil.2)
      rw [htext, Literal.chars, value_number hparts.text n rest, number_append hparts.text hrest, if_neg hnot, hrepr]
  | str s =>
    refine .of_succ (.str s) fun n rest hn _ => ?_
    rw [dumps] at hn ⊢
    have htail := stringTail_literal (n := n + 1) (s := s) (by omega) rest
    rw [toList_literal] at htail ⊢
    simp only [List.tail_cons] at htail
    rw [List.cons_append, value, if_pos rfl, htail]
    simp
  | @arr items hitems ih =>
    refine .of_succ (.arr hitems) fun n rest hn _ => ?_
    rw [toList_arr] at hn ⊢
    simp only [List.length_cons, List.length_append, List.length_nil] at hn
    simp only [List.cons_append, List.append_assoc, List.nil_append]
    rw [value, if_neg (by decide), if_neg (by decide), if_pos rfl]
    cases items with
    | nil => rfl
    | cons j js =>
      obtain ⟨c, cs, htext, hc, hbracket⟩ := head_itemsText js (hitems j List.mem_cons_self)
      have hblank : skipBlank (itemsText (j :: js) ++ ']' :: rest) = itemsText (j :: js) ++ ']' :: rest := by
        rw [htext, List.cons_append, skipBlank_of_head hc]
      have hhead : (itemsText (j :: js) ++ ']' :: rest).head? ≠ some ']' := by
        rw [htext]
        simpa using hbracket
      rw [hblank, if_neg hhead, elements_itemsText (by simp) hitems ih n rest (by omega)]
      rfl
  | @obj fields hkeys hfields ih =>
    refine .of_succ (.obj hkeys hfields) fun n rest hn _ => ?_
    rw [toList_obj] at hn ⊢
    simp only [List.length_cons, List.length_append, List.length_nil] at hn
    simp only [List.cons_append, List.append_assoc, List.nil_append]
    rw [value, if_neg (by decide), if_pos rfl]
    cases fields with
    | nil => rfl
    | cons p fields =>
      obtain ⟨cs, hhead⟩ := head_fieldsText p fields
      have hblank : skipBlank (fieldsText (p :: fields) ++ '}' :: rest) = fieldsText (p :: fields) ++ '}' :: rest := by
        rw [hhead, List.cons_append, skipBlank_of_head (by decide)]
      have hbrace : (fieldsText (p :: fields) ++ '}' :: rest).head? ≠ some '}' := by
        rw [hhead]
        simp
      rw [hblank, if_neg hbrace, members_fieldsText (by simp) ih hfields [] hkeys n rest (by omega)]
      rfl

theorem loads_dumps {j : Json} (hj : WellFormed j) : loads (dumps j) = some j := by
  obtain ⟨c, cs, htext, hc, -⟩ := head_dumps hj
  have hread := reads_of_wellFormed hj ((dumps j).toList.length + 1) [] (Nat.le_succ _) delimited_nil
  rw [List.append_nil] at hread
  have hblank : skipBlank (dumps j).toList = (dumps j).toList := by
    rw [htext, skipBlank_of_head hc]
  rw [loads, hblank, hread]
  rfl

theorem natOfDigits_lt {ds : List Char} (hds : ∀ d ∈ ds, d.isDigit = true) : natOfDigits ds < 10 ^ ds.length := by
  rw [natOfDigits_eq]
  induction ds with
  | nil => simp
  | cons d ds ih =>
    have hd : d.toNat - '0'.toNat < 10 := by
      have hdigit := hds d List.mem_cons_self
      simp only [Char.isDigit, Bool.and_eq_true, decide_eq_true_eq] at hdigit
      have hle : d.toNat ≤ 57 := hdigit.2
      have hzero : '0'.toNat = 48 := rfl
      omega
    have hrest := ih fun e he => hds e (List.mem_cons_of_mem d he)
    rw [Nat.ofDigitChars_cons, Nat.ofDigitChars_eq_ofDigitChars_zero, List.length_cons, Nat.pow_succ]
    have hmul : 10 ^ ds.length * (10 * 0 + (d.toNat - '0'.toNat)) ≤ 10 ^ ds.length * 9 :=
      Nat.mul_le_mul_left _ (by omega)
    omega

theorem takeWhile_isDigit (cs : List Char) : ∀ d ∈ cs.takeWhile Char.isDigit, d.isDigit = true :=
  fun _ hd => List.mem_takeWhile_imp hd

theorem integerText_of_integerPart {cs ds rest : List Char} (h : integerPart cs = some (ds, rest)) :
    IntegerText ds := by
  unfold integerPart at h
  split at h
  · cases h
    exact .inl rfl
  · rename_i hzero
    dsimp only at h
    split at h
    · cases h
    · rename_i hne
      cases h
      refine .inr ⟨⟨hne, takeWhile_isDigit cs⟩, ?_⟩
      cases cs with
      | nil => simp
      | cons c cs =>
        simp only [List.head?_cons, List.takeWhile_cons] at hzero ⊢
        split
        · simpa using hzero
        · simp

theorem fractionText_of_fractionPart {cs frac rest : List Char} (h : fractionPart cs = (frac, rest)) :
    FractionText frac := by
  unfold fractionPart at h
  dsimp only at h
  split at h
  · rename_i hdigits
    cases h
    exact .inr ⟨_, ⟨hdigits.2, takeWhile_isDigit _⟩, rfl⟩
  · cases h
    exact .inl rfl

theorem exponentText_of_exponentPart {cs exp rest : List Char} (h : exponentPart cs = (exp, rest)) :
    ExponentText exp := by
  unfold exponentPart at h
  dsimp only at h
  split at h
  · rename_i hparts
    obtain ⟨he, hne⟩ := hparts
    cases h
    have hsign : ∀ l : List Char, (l.take 1).filter (fun c => c = '+' || c = '-') = [] ∨
        (l.take 1).filter (fun c => c = '+' || c = '-') = ['+'] ∨
        (l.take 1).filter (fun c => c = '+' || c = '-') = ['-'] := by
      intro l
      cases l with
      | nil => simp
      | cons c l =>
        by_cases hplus : c = '+'
        · simp [hplus]
        · by_cases hminus : c = '-'
          · simp [hminus]
          · simp [hplus, hminus]
    rcases he with he | he
    · refine .inr ⟨'e', _, _, .inl rfl, hsign cs.tail, ⟨hne, takeWhile_isDigit _⟩, ?_⟩
      rw [he, List.append_assoc]
      rfl
    · refine .inr ⟨'E', _, _, .inr rfl, hsign cs.tail, ⟨hne, takeWhile_isDigit _⟩, ?_⟩
      rw [he, List.append_assoc]
      rfl
  · cases h
    exact .inl rfl

theorem wellFormed_of_number {cs rest : List Char} {j : Json} (h : number cs = some (j, rest)) : WellFormed j := by
  unfold number at h
  obtain ⟨sign, more, hsplit, hsign⟩ : ∃ sign more : List Char,
      (if cs.head? = some '-' then (['-'], cs.tail) else ([], cs)) = (sign, more) ∧ (sign = [] ∨ sign = ['-']) := by
    split
    · exact ⟨_, _, rfl, .inr rfl⟩
    · exact ⟨_, _, rfl, .inl rfl⟩
  rw [hsplit] at h
  simp only [Option.bind_eq_bind, Option.pure_def] at h
  obtain ⟨⟨ds, afterDs⟩, hds, h⟩ := Option.bind_eq_some_iff.mp h
  have hinteger := integerText_of_integerPart hds
  rcases hfraction : fractionPart afterDs with ⟨frac, afterFrac⟩
  rcases hexponent : exponentPart afterFrac with ⟨exp, afterExp⟩
  simp only [hfraction, hexponent] at h
  split at h
  · split at h
    · rename_i hlength
      cases h
      have hdigits : ∀ d ∈ ds, d.isDigit = true := by
        rcases hinteger with rfl | ⟨⟨-, hdigits⟩, -⟩
        · simp
        · exact hdigits
      have hlt : natOfDigits ds < 10 ^ maxStrDigits :=
        Nat.lt_of_lt_of_le (natOfDigits_lt hdigits) (Nat.pow_le_pow_right (by decide) hlength)
      constructor
      split
      · simpa using hlt
      · simpa using hlt
    · cases h
  · rename_i hparts
    cases h
    refine .float (floatText_repr ⟨⟨hsign, hinteger, fractionText_of_fractionPart hfraction,
      exponentText_of_exponentPart hexponent⟩, ?_⟩)
    tauto

theorem wellFormed_of_constant {cs rest : List Char} {j : Json} (h : constant cs = some (j, rest)) : WellFormed j := by
  obtain ⟨p, hp, hread⟩ := List.exists_of_findSome?_eq_some h
  simp only [constants, List.mem_cons, List.not_mem_nil, or_false] at hp
  rcases hp with rfl | rfl | rfl | rfl | rfl | rfl
  all_goals
    dsimp only at hread
    split at hread
    · cases hread
      first
        | exact .null
        | exact .bool _
        | exact .float (.inl (by simp))
    · cases hread

theorem nodup_set {d : Dict} (hd : (d.map Prod.fst).Nodup) (k : String) (v : Json) :
    ((d.set k v).map Prod.fst).Nodup := by
  unfold Dict.set
  split
  · have hkeys : (d.map fun p => if p.1 = k then (k, v) else p).map Prod.fst = d.map Prod.fst := by
      rw [List.map_map]
      apply List.map_congr_left
      intro p _
      simp only [Function.comp_apply]
      split
      · rename_i hk
        exact hk.symm
      · rfl
    rwa [hkeys]
  · rename_i hnew
    rw [List.map_append, List.nodup_append]
    refine ⟨hd, by simp, ?_⟩
    intro x hx y hy
    obtain ⟨p, hp, rfl⟩ := List.mem_map.mp hx
    rw [List.map_singleton, List.mem_singleton] at hy
    rintro hsame
    exact hnew (List.any_eq_true.mpr ⟨p, hp, decide_eq_true (hsame.trans hy)⟩)

theorem mem_set {d : Dict} {k : String} {v : Json} {p : String × Json} (h : p ∈ d.set k v) : p ∈ d ∨ p = (k, v) := by
  unfold Dict.set at h
  split at h
  · obtain ⟨q, hq, rfl⟩ := List.mem_map.mp h
    split
    · exact .inr rfl
    · exact .inl hq
  · simpa using h

theorem wellFormed_set {d : Dict} (hd : WellFormed (.obj d)) (k : String) {v : Json} (hv : WellFormed v) :
    WellFormed (.obj (d.set k v)) := by
  cases hd with
  | obj hkeys hfields =>
    refine .obj (nodup_set hkeys k v) fun p hp => ?_
    rcases mem_set hp with hp | rfl
    · exact hfields p hp
    · exact hv

theorem wellFormed_of_reading (n : ℕ) :
    (∀ cs j rest, value n cs = some (j, rest) → WellFormed j) ∧
      (∀ cs js rest, elements n cs = some (js, rest) → ∀ j ∈ js, WellFormed j) ∧
      ∀ d cs d' rest, WellFormed (.obj d) → members n d cs = some (d', rest) → WellFormed (.obj d') := by
  induction n with
  | zero =>
    refine ⟨?_, ?_, ?_⟩
    · intro cs j rest h
      simp [value] at h
    · intro cs js rest h
      simp [elements] at h
    · intro d cs d' rest _ h
      simp [members] at h
  | succ n ih =>
    obtain ⟨hvalue, helements, hmembers⟩ := ih
    refine ⟨?_, ?_, ?_⟩
    · intro cs j rest h
      cases cs with
      | nil => simp [value] at h
      | cons c cs =>
        rw [value] at h
        split at h
        · obtain ⟨p, -, hp⟩ := Option.map_eq_some_iff.mp h
          cases hp
          exact .str _
        · split at h
          · split at h
            · cases h
              exact .obj (by simp) (by simp)
            · obtain ⟨p, hp, hobj⟩ := Option.map_eq_some_iff.mp h
              cases hobj
              exact hmembers [] _ p.1 p.2 (.obj (by simp) (by simp)) hp
          · split at h
            · split at h
              · cases h
                exact .arr (by simp)
              · obtain ⟨p, hp, harr⟩ := Option.map_eq_some_iff.mp h
                cases harr
                exact .arr (helements _ p.1 p.2 hp)
            · cases hconstant : constant (c :: cs) with
              | some p =>
                rw [hconstant] at h
                cases h
                exact wellFormed_of_constant hconstant
              | none =>
                rw [hconstant] at h
                exact wellFormed_of_number h
    · intro cs js rest h
      rw [elements] at h
      simp only [Option.bind_eq_bind, Option.pure_def] at h
      obtain ⟨⟨j, later⟩, hj, h⟩ := Option.bind_eq_some_iff.mp h
      dsimp only at h
      split at h
      · obtain ⟨⟨js', later'⟩, hjs, h⟩ := Option.bind_eq_some_iff.mp h
        cases h
        intro x hx
        rcases List.mem_cons.mp hx with rfl | hx
        · exact hvalue _ _ _ hj
        · exact helements _ _ _ hjs x hx
      · split at h
        · cases h
          intro x hx
          rw [List.mem_singleton.mp hx]
          exact hvalue _ _ _ hj
        · cases h
    · intro d cs d' rest hd h
      rw [members] at h
      split at h
      · simp only [Option.bind_eq_bind, Option.pure_def] at h
        obtain ⟨⟨k, later⟩, -, h⟩ := Option.bind_eq_some_iff.mp h
        dsimp only at h
        split at h
        · obtain ⟨⟨j, later'⟩, hj, h⟩ := Option.bind_eq_some_iff.mp h
          have hset := wellFormed_set hd (String.ofList k) (hvalue _ _ _ hj)
          dsimp only at h
          split at h
          · exact hmembers _ _ _ _ hset h
          · split at h
            · cases h
              exact hset
            · cases h
        · cases h
      · cases h

theorem wellFormed_of_loads {text : String} {j : Json} (h : loads text = some j) : WellFormed j := by
  unfold loads at h
  dsimp only at h
  split at h
  · rename_i k rest hread
    split at h
    · cases h
      exact (wellFormed_of_reading _).1 _ _ _ hread
    · cases h
  · cases h

end Leadline.Library.Json
