import Leadline.ContactData
import Leadline.Library.Pattern
import Leadline.MessageAnalysis

/-!
`app/security/masking.py`: what the masking of a text shows of the local part of an email address.
-/

namespace Leadline

open Library

/-- `[A-Za-z0-9._%+-]` -/
def isLocalChar (c : Char) : Bool := c.isAlphanum || c = '.' || c = '_' || c = '%' || c = '+' || c = '-'

/-- `[A-Za-z0-9.-]` -/
def isHostChar (c : Char) : Bool := c.isAlphanum || c = '.' || c = '-'

/-- `[A-Za-z0-9.-]+\.[A-Za-z]{2,}` -/
def domainRe : List (Repeat Char) :=
  [{ allowed := isHostChar, most := none }, { allowed := (· = '.') }, { allowed := Char.isAlpha, least := 2, most := none }]

/-- `([A-Za-z0-9._%+-]+)@([A-Za-z0-9.-]+\.[A-Za-z]{2,})` -/
def emailRe : Pattern Char where
  pieces := { allowed := isLocalChar, most := none } :: { allowed := (· = '@') } :: domainRe
  nonempty := ⟨_, List.mem_cons_self, Nat.one_pos⟩

section Masks

variable (py : Python)

/-- `(\+?\d[\d\-\s]{7,}\d)` -/
def phoneRe : Pattern Char where
  pieces := [{ allowed := (· = '+'), least := 0 }, { allowed := AIOrchestrator.isDigit py },
    { allowed := fun c => AIOrchestrator.isDigit py c || c = '-' || isSpace c, least := 7, most := none },
    { allowed := AIOrchestrator.isDigit py }]
  nonempty := ⟨_, List.mem_cons_of_mem _ List.mem_cons_self, Nat.one_pos⟩

/-- `_EMAIL_RE.sub("***@\\2", value)` -/
def maskEmails (cs : List Char) : List Char := emailRe.sub (fun parts => "***@".toList ++ (parts.drop 2).flatten) cs

def maskPhones (cs : List Char) : List Char := (phoneRe py).sub (fun _ => "***PHONE***".toList) cs

def maskText (value : String) : String := String.ofList (maskPhones py (maskEmails value.toList))

def isSecretKey (key : String) : Bool :=
  py.lower key ∈ ["authorization", "api_key", "token", "secret", "password"]

mutual

def maskPii : Json → Json
  | .str s => .str (maskText py s)
  | .arr items => .arr (maskItems items)
  | .obj fields => .obj (maskFields fields)
  | value => value

def maskItems : List Json → List Json
  | [] => []
  | item :: items => maskPii item :: maskItems items

def maskFields : List (String × Json) → List (String × Json)
  | [] => []
  | (key, item) :: fields =>
    (key, if isSecretKey py key then .str "***REDACTED***" else maskPii item) :: maskFields fields

end

end Masks

structure LocalPart where
  text : List Char
  nonempty : text ≠ []
  allowed : text.all isLocalChar = true

theorem LocalPart.isLocalChar (l : LocalPart) : ∀ c ∈ l.text, isLocalChar c = true := List.all_eq_true.mp l.allowed

structure Address where
  before : List Char
  host : List Char
  tld : List Char
  after : List Char
  delimited : before.getLast?.any isLocalChar = false
  hostNonempty : host ≠ []
  hostAllowed : host.all isHostChar = true
  tldLong : 2 ≤ tld.length
  tldAllowed : tld.all Char.isAlpha = true
  ends : after.head?.any isLocalChar = false

namespace Address

theorem not_isLocalChar (a : Address) : ∀ c ∈ a.before.getLast?, isLocalChar c = false :=
  (Option.any_eq_false _ _).mp a.delimited

def rest (a : Address) : List Char := '@' :: (a.host ++ '.' :: a.tld ++ a.after)

def withLocal (a : Address) (l : LocalPart) : String := String.ofList (a.before ++ l.text ++ a.rest)

end Address

def blankEmails (cs : List Char) : List Char := emailRe.sub (fun _ => [' ']) cs

def OpenEnd (cs : List Char) : Prop := ∃ kept c, blankEmails cs = kept ++ [c, '@'] ∧ isLocalChar c = true

instance (cs : List Char) : Decidable (OpenEnd cs) :=
  decidable_of_iff
    ((blankEmails cs).getLast? = some '@' ∧ (blankEmails cs).dropLast.getLast?.any isLocalChar = true) (by
      rw [List.getLast?_eq_some_iff, Option.any_eq_true]
      constructor
      · rintro ⟨⟨kept, hkept⟩, c, hlast, hc⟩
        rw [hkept, List.dropLast_concat] at hlast
        obtain ⟨kept, rfl⟩ := List.getLast?_eq_some_iff.mp hlast
        exact ⟨kept, c, by rw [hkept, List.append_assoc]; rfl, hc⟩
      · rintro ⟨kept, c, hkept, hc⟩
        have hsplit : blankEmails cs = kept ++ [c] ++ ['@'] := by rw [hkept, List.append_assoc]; rfl
        rw [hsplit, List.dropLast_concat]
        exact ⟨⟨_, rfl⟩, c, List.getLast?_concat, hc⟩)

/-- What shows of the local part there: the domain with its phone numbers masked, and whether that is all. -/
def LocalPart.revealed (py : Python) (l : LocalPart) : Option (List Char × Bool) :=
  (matchAt domainRe l.text).map fun parts => (maskPhones py parts.flatten, parts.flatten.length = l.text.length)

namespace Masking

variable {cs rest run suffix : List Char} {c : Char}

theorem isHostChar_of_isAlpha (h : c.isAlpha = true) : isHostChar c = true := by
  simp [isHostChar, Char.isAlphanum, h]

theorem isLocalChar_of_isHostChar (h : isHostChar c = true) : isLocalChar c = true := by
  simp only [isHostChar, isLocalChar, Bool.or_eq_true] at h ⊢
  tauto

theorem stops_domain (h : isLocalChar c = false) : ∀ r ∈ domainRe, r.allowed c = false := by
  have hhost : isHostChar c = false := by
    by_contra hc
    rw [isLocalChar_of_isHostChar (by simpa using hc)] at h
    cases h
  intro r hr
  simp only [domainRe, List.mem_cons, List.not_mem_nil, or_false] at hr
  rcases hr with rfl | rfl | rfl
  · exact hhost
  · rw [decide_eq_false_iff_not]
    rintro rfl
    cases h
  · by_contra hc
    rw [isHostChar_of_isAlpha (by simpa using hc)] at hhost
    cases hhost

theorem domainRe_nil : matchAt domainRe ([] : List Char) = none := matchAt_head Nat.one_pos fun _ h => nomatch h

theorem domain_ends {parts : List (List Char)} (hadmits : List.Forall₂ Repeat.Admits domainRe parts) :
    ∃ body c, parts.flatten = body ++ [c] ∧ c.isAlpha = true := by
  cases hadmits with
  | @cons _ host _ _ _ hadmits =>
    cases hadmits with
    | @cons _ dot _ _ _ hadmits =>
      cases hadmits with
      | @cons _ tld _ _ htld hadmits =>
        cases hadmits
        have hne : tld ≠ [] := by
          rintro rfl
          exact absurd htld.least (by decide)
        obtain ⟨body, c, rfl⟩ := (List.eq_nil_or_concat tld).resolve_left hne
        exact ⟨host ++ (dot ++ body), c, by simp, htld.allowed c (by simp)⟩

theorem email_no_local (h : ∀ c ∈ cs.head?, isLocalChar c = false) : matchAt emailRe.pieces cs = none :=
  matchAt_head Nat.one_pos h

theorem email_run (hne : run ≠ []) (hrun : ∀ c ∈ run, isLocalChar c = true)
    (hrest : ∀ c ∈ rest.head?, isLocalChar c = false) :
    matchAt emailRe.pieces (run ++ rest) =
      (matchAt ({ allowed := (· = '@') } :: domainRe) rest).map fun parts => run :: parts := by
  refine matchAt_run rfl (List.length_pos_iff.mpr hne) hrun hrest Nat.one_pos ?_
  rintro c hc
  rw [decide_eq_false_iff_not]
  rintro rfl
  cases hc

theorem email_at (hne : run ≠ []) (hrun : ∀ c ∈ run, isLocalChar c = true) :
    matchAt emailRe.pieces (run ++ '@' :: rest) = (matchAt domainRe rest).map fun parts => run :: ['@'] :: parts := by
  rw [email_run hne hrun (by rintro c ⟨⟩; rfl), matchAt_one rfl rfl rfl, Option.map_map]
  rfl

theorem email_append (hends : ∀ c ∈ cs.getLast?, isLocalChar c = false)
    (hopen : ∀ run, run ≠ [] → (∀ c ∈ run, isLocalChar c = true) → cs ≠ run ++ ['@']) (hne : cs ≠ []) :
    matchAt emailRe.pieces (cs ++ suffix) = matchAt emailRe.pieces cs := by
  let run := cs.takeWhile isLocalChar
  have hrun : ∀ c ∈ run, isLocalChar c = true := fun c hc => List.mem_takeWhile_imp hc
  have hcs : cs = run ++ cs.dropWhile isLocalChar := List.takeWhile_append_dropWhile.symm
  cases hrest : cs.dropWhile isLocalChar with
  | nil =>
    -- The last character of the text would be one of the run.
    rw [hrest, List.append_nil] at hcs
    have hlast := List.getLast_mem hne
    have hlocal := hends _ (List.getLast?_eq_some_getLast hne)
    rw [hrun _ (hcs ▸ hlast)] at hlocal
    cases hlocal
  | cons z rest =>
    have hz : isLocalChar z = false := by
      have hhead := List.head?_dropWhile_not isLocalChar cs
      rw [hrest] at hhead
      simpa using hhead
    rw [hrest] at hcs
    rw [hcs, List.append_assoc, List.cons_append]
    by_cases hempty : run = []
    · rw [hempty, List.nil_append, List.nil_append]
      rw [email_no_local (by rintro c ⟨⟩; exact hz), email_no_local (by rintro c ⟨⟩; exact hz)]
    · rw [email_run hempty hrun (by rintro c ⟨⟩; exact hz), email_run hempty hrun (by rintro c ⟨⟩; exact hz)]
      by_cases hat : z = '@'
      · subst hat
        rw [matchAt_one rfl rfl rfl, matchAt_one rfl rfl rfl]
        obtain rfl | ⟨body, w, rfl⟩ := List.eq_nil_or_concat rest
        · exact absurd hcs (hopen run hempty hrun)
        · have hw : isLocalChar w = false := by
            refine hends w ?_
            rw [hcs, List.concat_eq_append, ← List.cons_append, ← List.append_assoc]
            exact List.getLast?_concat
          have hstops := stops_domain hw
          rw [List.concat_eq_append, List.append_assoc, List.cons_append, List.nil_append,
            matchAt_append (by rintro r hr c ⟨⟩; exact hstops r hr),
            matchAt_append (by rintro r hr c ⟨⟩; exact hstops r hr)]
      · rw [matchAt_head Nat.one_pos (by rintro c ⟨⟩; exact decide_eq_false hat),
          matchAt_head Nat.one_pos (by rintro c ⟨⟩; exact decide_eq_false hat)]

theorem sub_run (replace : List (List Char) → List Char) (hrun : ∀ c ∈ run, isLocalChar c = true)
    (hnone : matchAt domainRe suffix = none) :
    emailRe.sub replace (run ++ '@' :: suffix) = run ++ '@' :: emailRe.sub replace suffix := by
  induction run with
  | nil => exact Pattern.sub_miss (email_no_local (by rintro c ⟨⟩; rfl))
  | cons c run ih =>
    have hmiss : matchAt emailRe.pieces (c :: run ++ '@' :: suffix) = none := by
      rw [email_at (List.cons_ne_nil c run) hrun, hnone, Option.map_none]
    rw [List.cons_append] at hmiss
    rw [List.cons_append, Pattern.sub_miss hmiss, ih fun c hc => hrun c (List.mem_cons_of_mem _ hc), List.cons_append]

theorem maskEmails_address {parts : List (List Char)} (hne : run ≠ []) (hrun : ∀ c ∈ run, isLocalChar c = true)
    (hparts : matchAt domainRe (parts.flatten ++ rest) = some parts) :
    maskEmails (run ++ '@' :: (parts.flatten ++ rest)) = "***".toList ++ '@' :: (parts.flatten ++ maskEmails rest) := by
  have hfound : matchAt emailRe.pieces ((run :: ['@'] :: parts).flatten ++ rest) = some (run :: ['@'] :: parts) := by
    have hat : matchAt emailRe.pieces (run ++ '@' :: (parts.flatten ++ rest)) = _ := email_at hne hrun
    rw [hparts] at hat
    simpa using hat
  have hmasked : maskEmails ((run :: ['@'] :: parts).flatten ++ rest) =
      "***@".toList ++ parts.flatten ++ maskEmails rest := Pattern.sub_hit hfound
  simpa using hmasked

theorem blank_eq_nil (h : blankEmails cs = []) : cs = [] := Pattern.sub_eq_nil (fun _ => by decide) h

theorem blank_eq_at (h : blankEmails cs = ['@']) : cs = ['@'] := by
  induction cs using emailRe.sub_induction with
  | nil => cases h
  | miss c cs hmatch _ =>
    rw [blankEmails, Pattern.sub_miss hmatch] at h
    obtain ⟨rfl, hnil⟩ := List.cons.inj h
    rw [blank_eq_nil hnil]
  | hit parts rest hmatch _ =>
    rw [blankEmails, Pattern.sub_hit hmatch] at h
    cases h

theorem openEnd_run (hne : run ≠ []) (hrun : ∀ c ∈ run, isLocalChar c = true) : OpenEnd (run ++ ['@']) := by
  obtain ⟨body, c, rfl⟩ := (List.eq_nil_or_concat run).resolve_left hne
  rw [List.concat_eq_append] at hrun ⊢
  refine ⟨body, c, ?_, hrun c (by simp)⟩
  rw [blankEmails, sub_run _ hrun domainRe_nil]
  exact List.append_assoc body [c] ['@']

theorem openEnd_cons (hmatch : matchAt emailRe.pieces (c :: cs) = none) :
    OpenEnd (c :: cs) ↔ OpenEnd cs ∨ cs = ['@'] ∧ isLocalChar c = true := by
  have hblank : blankEmails (c :: cs) = c :: blankEmails cs := Pattern.sub_miss hmatch
  constructor
  · rintro ⟨kept, d, hkept, hd⟩
    rw [hblank] at hkept
    cases kept with
    | nil =>
      obtain ⟨rfl, hsign⟩ := List.cons.inj hkept
      exact .inr ⟨blank_eq_at hsign, hd⟩
    | cons e kept => exact .inl ⟨kept, d, (List.cons.inj hkept).2, hd⟩
  · rintro (⟨kept, d, hkept, hd⟩ | ⟨rfl, hc⟩)
    · exact ⟨c :: kept, d, by rw [hblank, hkept, List.cons_append], hd⟩
    · exact openEnd_run (List.cons_ne_nil c []) (by simpa using hc)

theorem openEnd_hit {parts : List (List Char)} (hmatch : matchAt emailRe.pieces (parts.flatten ++ rest) = some parts) :
    OpenEnd (parts.flatten ++ rest) ↔ OpenEnd rest := by
  have hblank : blankEmails (parts.flatten ++ rest) = ' ' :: blankEmails rest := Pattern.sub_hit hmatch
  constructor
  · rintro ⟨kept, d, hkept, hd⟩
    rw [hblank] at hkept
    cases kept with
    | nil =>
      obtain ⟨rfl, -⟩ := List.cons.inj hkept
      cases hd
    | cons e kept => exact ⟨kept, d, (List.cons.inj hkept).2, hd⟩
  · rintro ⟨kept, d, hkept, hd⟩
    exact ⟨' ' :: kept, d, by rw [hblank, hkept, List.cons_append], hd⟩

theorem not_openEnd_nil : ¬OpenEnd [] := by
  rintro ⟨kept, c, hkept, -⟩
  exact absurd (congrArg List.length hkept) (by simp [blankEmails, Pattern.sub, Pattern.scan])

theorem delimited_tail (h : ∀ d ∈ (c :: cs).getLast?, isLocalChar d = false) :
    ∀ d ∈ cs.getLast?, isLocalChar d = false := by
  intro d hd
  refine h d ?_
  rw [List.getLast?_cons, Option.mem_def.mp hd]
  rfl

theorem delimited_rest (h : ∀ d ∈ (run ++ rest).getLast?, isLocalChar d = false) :
    ∀ d ∈ rest.getLast?, isLocalChar d = false := by
  intro d hd
  refine h d ?_
  rw [List.getLast?_append, Option.mem_def.mp hd]
  rfl

theorem maskEmails_closed (hends : ∀ c ∈ cs.getLast?, isLocalChar c = false) (hopen : ¬OpenEnd cs)
    (suffix : List Char) : maskEmails (cs ++ suffix) = maskEmails cs ++ maskEmails suffix := by
  have hrun : ∀ {cs : List Char}, ¬OpenEnd cs → ∀ run, run ≠ [] → (∀ c ∈ run, isLocalChar c = true) →
      cs ≠ run ++ ['@'] := by
    rintro cs hopen run hne hlocal rfl
    exact hopen (openEnd_run hne hlocal)
  induction cs using emailRe.sub_induction with
  | nil => rfl
  | miss c cs hmatch ih =>
    have hlater : matchAt emailRe.pieces (c :: (cs ++ suffix)) = none :=
      (email_append hends (hrun hopen) (List.cons_ne_nil c cs)).trans hmatch
    have hopen' : ¬OpenEnd cs := fun h => hopen ((openEnd_cons hmatch).mpr (.inl h))
    unfold maskEmails at ih ⊢
    rw [List.cons_append, Pattern.sub_miss hlater, Pattern.sub_miss hmatch, ih (delimited_tail hends) hopen',
      List.cons_append]
  | hit parts rest hmatch ih =>
    have hlater : matchAt emailRe.pieces (parts.flatten ++ (rest ++ suffix)) = some parts := by
      rw [← List.append_assoc, email_append hends (hrun hopen) (by simp [Pattern.flatten_ne_nil hmatch]), hmatch]
    unfold maskEmails at ih ⊢
    rw [List.append_assoc, Pattern.sub_hit hlater, Pattern.sub_hit hmatch,
      ih (delimited_rest hends) (fun h => hopen ((openEnd_hit hmatch).mpr h))]
    simp only [List.append_assoc]

theorem maskEmails_open (hends : ∀ c ∈ cs.getLast?, isLocalChar c = false) (hopen : OpenEnd cs) :
    ∃ out run, (∀ c ∈ run, isLocalChar c = true) ∧ ∀ suffix,
      (matchAt domainRe suffix = none → maskEmails (cs ++ suffix) = out ++ run ++ '@' :: maskEmails suffix) ∧
      ∀ parts, matchAt domainRe suffix = some parts → maskEmails (cs ++ suffix) =
        out ++ "***".toList ++ '@' :: (parts.flatten ++ maskEmails (suffix.drop parts.flatten.length)) := by
  induction cs using emailRe.sub_induction with
  | nil => exact absurd hopen not_openEnd_nil
  | miss c cs hmatch ih =>
    by_cases hrun : ∃ run, run ≠ [] ∧ (∀ c ∈ run, isLocalChar c = true) ∧ c :: cs = run ++ ['@']
    · obtain ⟨run, hne, hlocal, heq⟩ := hrun
      refine ⟨[], run, hlocal, fun suffix => ⟨fun hnone => ?_, fun parts hparts => ?_⟩⟩
      · rw [heq, List.append_assoc]
        exact sub_run _ hlocal hnone
      · obtain ⟨rest, rfl⟩ := (matchAt_sound hparts).2
        rw [heq, List.drop_left, List.append_assoc]
        exact maskEmails_address hne hlocal hparts
    · push Not at hrun
      have hopen' : OpenEnd cs := by
        refine ((openEnd_cons hmatch).mp hopen).resolve_right ?_
        rintro ⟨rfl, hc⟩
        exact hrun [c] (List.cons_ne_nil c []) (by simpa using hc) rfl
      obtain ⟨out, run, hlocal, hshown⟩ := ih (delimited_tail hends) hopen'
      refine ⟨c :: out, run, hlocal, fun suffix => ?_⟩
      have hlater : matchAt emailRe.pieces (c :: (cs ++ suffix)) = none :=
        (email_append hends hrun (List.cons_ne_nil c cs)).trans hmatch
      have hmasked : maskEmails (c :: cs ++ suffix) = c :: maskEmails (cs ++ suffix) := Pattern.sub_miss hlater
      rw [hmasked]
      exact ⟨fun hnone => congrArg (c :: ·) ((hshown suffix).1 hnone),
        fun parts hparts => congrArg (c :: ·) ((hshown suffix).2 parts hparts)⟩
  | hit parts rest hmatch ih =>
    obtain ⟨out, run, hlocal, hshown⟩ := ih (delimited_rest hends) ((openEnd_hit hmatch).mp hopen)
    refine ⟨"***@".toList ++ (parts.drop 2).flatten ++ out, run, hlocal, fun suffix => ?_⟩
    have hrun : ∀ run, run ≠ [] → (∀ c ∈ run, isLocalChar c = true) → parts.flatten ++ rest ≠ run ++ ['@'] := by
      intro run hne hlocal heq
      rw [heq, email_at hne hlocal, domainRe_nil] at hmatch
      cases hmatch
    have hlater : matchAt emailRe.pieces (parts.flatten ++ (rest ++ suffix)) = some parts := by
      rw [← List.append_assoc, email_append hends hrun (by simp [Pattern.flatten_ne_nil hmatch]), hmatch]
    have hmasked : maskEmails (parts.flatten ++ rest ++ suffix) =
        "***@".toList ++ (parts.drop 2).flatten ++ maskEmails (rest ++ suffix) := by
      rw [List.append_assoc]
      exact Pattern.sub_hit hlater
    rw [hmasked]
    refine ⟨fun hnone => ?_, fun parts hparts => ?_⟩
    · rw [(hshown suffix).1 hnone]
      simp only [List.append_assoc]
    · rw [(hshown suffix).2 parts hparts]
      simp only [List.append_assoc]

theorem domain_found (a : Address) : ∃ parts, matchAt domainRe (a.host ++ '.' :: a.tld ++ a.after) = some parts := by
  have hadmits : List.Forall₂ Repeat.Admits domainRe [a.host, ['.'], a.tld] := by
    refine .cons ⟨List.all_eq_true.mp a.hostAllowed, List.length_pos_iff.mpr a.hostNonempty, fun _ h => nomatch h⟩
      (.cons ?_ (.cons ?_ .nil))
    · exact ⟨by simp, le_refl 1, fun m hm => (Option.some.inj hm).le⟩
    · exact ⟨List.all_eq_true.mp a.tldAllowed, a.tldLong, fun _ h => nomatch h⟩
  have hfound := Option.isSome_iff_exists.mp (matchAt_complete hadmits a.after)
  simpa using hfound

theorem maskEmails_local (a : Address) : ∃ tail, ∀ run, run ≠ [] → (∀ c ∈ run, isLocalChar c = true) →
    maskEmails (run ++ a.rest) = "***".toList ++ '@' :: tail := by
  obtain ⟨parts, hparts⟩ := domain_found a
  obtain ⟨rest, hrest⟩ := (matchAt_sound hparts).2
  refine ⟨parts.flatten ++ maskEmails rest, fun run hne hlocal => ?_⟩
  rw [Address.rest, ← hrest]
  exact maskEmails_address hne hlocal (hrest ▸ hparts)

theorem domain_in_local (a : Address) (cs : List Char) : matchAt domainRe (cs ++ a.rest) = matchAt domainRe cs :=
  matchAt_append (by rintro r hr c ⟨⟩; exact stops_domain rfl r hr) cs

variable {py : Python}

/-- Among the ASCII characters `\d` has the ten digits only. -/
def AsciiDigits (py : Python) : Prop := ∀ c : Char, c.toNat < 128 → (AIOrchestrator.isDigit py c = true ↔ c.isDigit = true)

theorem ascii_digits : AsciiDigits Python.ascii := by
  intro c _
  cases hc : c.isDigit <;> simp [AIOrchestrator.isDigit, Python.ascii, hc]

theorem isAlpha_bounds (h : c.isAlpha = true) : 65 ≤ c.toNat ∧ c.toNat ≤ 122 := by
  have hbounds : ∀ {low high : UInt32}, low ≤ c.val ∧ c.val ≤ high → low.toNat ≤ c.toNat ∧ c.toNat ≤ high.toNat :=
    fun hc => ⟨UInt32.le_iff_toNat_le.mp hc.1, UInt32.le_iff_toNat_le.mp hc.2⟩
  rcases (Bool.or_eq_true _ _).mp h with hupper | hlower
  · obtain ⟨hge, hle⟩ := hbounds (of_decide_eq_true hupper)
    exact ⟨hge, hle.trans (by decide)⟩
  · obtain ⟨hge, hle⟩ := (Bool.and_eq_true _ _).mp hlower
    obtain ⟨hge, hle⟩ := hbounds ⟨of_decide_eq_true hge, of_decide_eq_true hle⟩
    exact ⟨le_trans (by decide) hge, hle⟩

theorem phone_separates (hdigits : AsciiDigits py) (hc : c = '@' ∨ c = '*' ∨ c.isAlpha = true) :
    (phoneRe py).Separates c := by
  have hfacts : c.toNat < 128 ∧ c.isDigit = false ∧ c ≠ '+' ∧ c ≠ '-' ∧ isSpace c = false := by
    rcases hc with rfl | rfl | hletter
    · decide
    · decide
    · obtain ⟨hge, hle⟩ := isAlpha_bounds hletter
      refine ⟨by omega, ?_, ?_, ?_, isSpace_of_letter hge hle⟩
      · by_contra hnumber
        rw [Bool.not_eq_false, Char.isDigit, Bool.and_eq_true, decide_eq_true_eq, decide_eq_true_eq] at hnumber
        have hnine : c.toNat ≤ 57 := UInt32.le_iff_toNat_le.mp hnumber.2
        omega
      · rintro rfl
        cases hletter
      · rintro rfl
        cases hletter
  obtain ⟨hascii, hnumber, hplus, hhyphen, hspace⟩ := hfacts
  have hdigit : AIOrchestrator.isDigit py c = false := by
    rw [← Bool.not_eq_true, hdigits c hascii, hnumber]
    exact Bool.false_ne_true
  intro r hr
  simp only [phoneRe, List.mem_cons, List.not_mem_nil, or_false] at hr
  rcases hr with rfl | rfl | rfl | rfl
  · exact decide_eq_false hplus
  · exact hdigit
  · simp [hdigit, hhyphen, hspace]
  · exact hdigit

theorem append_cons_inj_of_count {xs ys xs' ys' : List Char} (hcount : xs.count c = ys.count c)
    (h : xs ++ c :: xs' = ys ++ c :: ys') : xs = ys ∧ xs' = ys' := by
  induction xs generalizing ys with
  | nil =>
    cases ys with
    | nil => exact ⟨rfl, (List.cons.inj h).2⟩
    | cons d ys =>
      obtain ⟨rfl, -⟩ := List.cons.inj h
      simp at hcount
  | cons d xs ih =>
    cases ys with
    | nil =>
      obtain ⟨rfl, -⟩ := List.cons.inj h
      simp at hcount
    | cons e ys =>
      obtain ⟨rfl, hrest⟩ := List.cons.inj h
      rw [List.count_cons, List.count_cons, Nat.add_right_cancel_iff] at hcount
      obtain ⟨rfl, hsuffix⟩ := ih hcount hrest
      exact ⟨rfl, hsuffix⟩

def revealedText : Option (List Char × Bool) → List Char
  | none => "***".toList
  | some (domain, true) => domain
  | some (domain, false) => domain ++ "***".toList

def shown (tried left tail whole : List Char) (revealed : Option (List Char × Bool)) : List Char :=
  match revealed with
  | none => tried ++ '@' :: (revealedText revealed ++ '@' :: tail)
  | some (_, true) => left ++ '@' :: (revealedText revealed ++ '@' :: whole)
  | some (_, false) => left ++ '@' :: (revealedText revealed ++ '@' :: tail)

def EndsInLetter (revealed : Option (List Char × Bool)) : Prop :=
  ∀ domain whole, revealed = some (domain, whole) → '@' ∉ domain ∧ ∃ body c, domain = body ++ [c] ∧ c.isAlpha = true

theorem at_not_mem_revealedText {r : Option (List Char × Bool)} (h : EndsInLetter r) : '@' ∉ revealedText r := by
  rcases r with _ | ⟨domain, whole⟩
  · decide
  · have hdomain := (h domain whole rfl).1
    cases whole with
    | true => exact hdomain
    | false => simpa [revealedText] using hdomain

theorem EndsInLetter.ne_stars {domain : List Char} {whole : Bool} (h : EndsInLetter (some (domain, whole)))
    (before : List Char) : domain ≠ before ++ "***".toList := by
  rintro rfl
  obtain ⟨-, body, c, heq, hc⟩ := h _ _ rfl
  have hsplit : before ++ "***".toList = (before ++ "**".toList) ++ ['*'] := by rw [List.append_assoc]; rfl
  rw [hsplit] at heq
  obtain rfl : '*' = c := List.singleton_inj.mp (List.append_inj_right' heq rfl)
  cases hc

theorem revealedText_ne_stars {domain : List Char} {whole : Bool} (h : EndsInLetter (some (domain, whole))) :
    revealedText (some (domain, whole)) ≠ "***".toList := by
  cases whole with
  | true => exact h.ne_stars []
  | false =>
    intro heq
    obtain ⟨-, body, c, rfl, -⟩ := h _ _ rfl
    have hnil := List.append_left_eq_self.mp heq
    simp at hnil

theorem revealedText_injective {r s : Option (List Char × Bool)} (hr : EndsInLetter r) (hs : EndsInLetter s)
    (h : revealedText r = revealedText s) : r = s := by
  rcases r with _ | ⟨domain, whole⟩
  · rcases s with _ | ⟨domain', whole'⟩
    · rfl
    · exact absurd h.symm (revealedText_ne_stars hs)
  · rcases s with _ | ⟨domain', whole'⟩
    · exact absurd h (revealedText_ne_stars hr)
    · cases whole with
      | true =>
        cases whole' with
        | true => exact congrArg (fun domain => some (domain, true)) h
        | false => exact absurd h (hr.ne_stars domain')
      | false =>
        cases whole' with
        | true => exact absurd h.symm (hs.ne_stars domain)
        | false => exact congrArg (fun domain => some (domain, false)) (List.append_cancel_right h)

theorem shown_split (tried left tail whole : List Char) (hcount : tried.count '@' = left.count '@')
    (r : Option (List Char × Bool)) : ∃ first last, first.count '@' = left.count '@' ∧
      shown tried left tail whole r = first ++ '@' :: (revealedText r ++ '@' :: last) := by
  rcases r with _ | ⟨domain, _ | _⟩
  · exact ⟨tried, tail, hcount, rfl⟩
  · exact ⟨left, tail, rfl, rfl⟩
  · exact ⟨left, whole, rfl, rfl⟩

theorem shown_injective {tried left tail whole : List Char} {r s : Option (List Char × Bool)}
    (hcount : tried.count '@' = left.count '@') (hr : EndsInLetter r) (hs : EndsInLetter s)
    (h : shown tried left tail whole r = shown tried left tail whole s) : r = s := by
  obtain ⟨first, last, hfirst, hshown⟩ := shown_split tried left tail whole hcount r
  obtain ⟨first', last', hfirst', hshown'⟩ := shown_split tried left tail whole hcount s
  rw [hshown, hshown'] at h
  obtain ⟨-, hrest⟩ := append_cons_inj_of_count (hfirst.trans hfirst'.symm) h
  have hnone : (revealedText r).count '@' = (revealedText s).count '@' := by
    rw [List.count_eq_zero_of_not_mem (at_not_mem_revealedText hr),
      List.count_eq_zero_of_not_mem (at_not_mem_revealedText hs)]
  exact revealedText_injective hr hs (append_cons_inj_of_count hnone hrest).1

theorem maskPhones_at (hdigits : AsciiDigits py) (xs ys : List Char) :
    maskPhones py (xs ++ '@' :: ys) = maskPhones py xs ++ '@' :: maskPhones py ys :=
  Pattern.sub_separator (phone_separates hdigits (.inl rfl)) xs ys

theorem maskPhones_stars (hdigits : AsciiDigits py) (xs : List Char) :
    maskPhones py (xs ++ "***".toList) = maskPhones py xs ++ "***".toList := by
  have hstars : "***".toList = List.replicate 3 '*' := rfl
  refine Pattern.sub_separators (fun c hc => phone_separates hdigits (.inr (.inl ?_))) xs
  exact List.eq_of_mem_replicate (hstars ▸ hc)

theorem count_maskPhones (hdigits : AsciiDigits py) (cs : List Char) :
    (maskPhones py cs).count '@' = cs.count '@' :=
  Pattern.count_sub (phone_separates hdigits (.inl rfl)) (fun _ => by decide) cs

theorem count_run (hrun : ∀ c ∈ run, isLocalChar c = true) : run.count '@' = 0 := by
  refine List.count_eq_zero_of_not_mem fun hmem => ?_
  have hat := hrun '@' hmem
  cases hat

theorem revealed_endsInLetter (hdigits : AsciiDigits py) (l : LocalPart) : EndsInLetter (l.revealed py) := by
  intro domain whole h
  obtain ⟨parts, hparts, heq⟩ := Option.map_eq_some_iff.mp h
  obtain ⟨rfl, -⟩ := Prod.mk.inj heq
  constructor
  · have hbegins := (matchAt_sound hparts).2
    rw [← List.count_eq_zero, count_maskPhones hdigits, List.count_eq_zero]
    intro hmem
    have hat := l.isLocalChar '@' (hbegins.subset hmem)
    cases hat
  · obtain ⟨body, c, hbody, hc⟩ := domain_ends (matchAt_sound hparts).1
    refine ⟨maskPhones py body, c, ?_, hc⟩
    rw [hbody]
    exact Pattern.sub_separators (by simpa using phone_separates hdigits (.inr (.inr hc))) body

theorem masked_open (hdigits : AsciiDigits py) (a : Address) (hopen : OpenEnd a.before) :
    ∃ tried left tail whole, tried.count '@' = left.count '@' ∧ ∀ l : LocalPart,
      maskPhones py (maskEmails (a.before ++ (l.text ++ a.rest))) = shown tried left tail whole (l.revealed py) := by
  obtain ⟨out, run, hrun, hbefore⟩ := maskEmails_open a.not_isLocalChar hopen
  obtain ⟨tail, hlocal⟩ := maskEmails_local a
  let whole := maskEmails (a.host ++ '.' :: a.tld ++ a.after)
  have hrest : maskEmails a.rest = '@' :: whole := Pattern.sub_miss (email_no_local (by rintro c ⟨⟩; rfl))
  refine ⟨maskPhones py (out ++ run), maskPhones py (out ++ "***".toList), maskPhones py tail, maskPhones py whole,
    ?_, fun l => ?_⟩
  · rw [count_maskPhones hdigits, count_maskPhones hdigits, List.count_append, List.count_append, count_run hrun]
    rfl
  · unfold LocalPart.revealed
    cases hdomain : matchAt domainRe l.text with
    | none =>
      rw [(hbefore _).1 ((domain_in_local a l.text).trans hdomain), hlocal l.text l.nonempty l.isLocalChar,
        maskPhones_at hdigits, maskPhones_at hdigits]
      have hstars : maskPhones py "***".toList = "***".toList := maskPhones_stars hdigits []
      rw [hstars]
      rfl
    | some parts =>
      obtain ⟨after, hafter⟩ := (matchAt_sound hdomain).2
      rw [(hbefore _).2 parts ((domain_in_local a l.text).trans hdomain), maskPhones_at hdigits, ← hafter,
        List.append_assoc, List.drop_left, Option.map_some, List.length_append]
      by_cases hempty : after = []
      · subst hempty
        rw [List.nil_append, hrest, maskPhones_at hdigits]
        simp [shown, revealedText]
      · have hallowed : ∀ c ∈ after, isLocalChar c = true :=
          fun c hc => l.isLocalChar c (hafter ▸ List.mem_append_right _ hc)
        have hpos := List.length_pos_iff.mpr hempty
        rw [hlocal after hempty hallowed, ← List.append_assoc, maskPhones_at hdigits,
          maskPhones_stars hdigits parts.flatten, decide_eq_false (by omega)]
        rfl

end Masking

open Masking

theorem maskText_withLocal_iff {py : Python} (hdigits : AsciiDigits py) (a : Address) (l m : LocalPart) :
    maskText py (a.withLocal l) = maskText py (a.withLocal m) ↔
      (OpenEnd a.before → l.revealed py = m.revealed py) := by
  have htext : ∀ l : LocalPart,
      maskText py (a.withLocal l) = String.ofList (maskPhones py (maskEmails (a.before ++ (l.text ++ a.rest)))) := by
    intro l
    rw [maskText, Address.withLocal, String.toList_ofList, List.append_assoc]
  rw [htext, htext, String.ofList_inj]
  by_cases hopen : OpenEnd a.before
  · obtain ⟨tried, left, tail, whole, hcount, hshown⟩ := masked_open hdigits a hopen
    rw [hshown, hshown]
    constructor
    · exact fun h _ => shown_injective hcount (revealed_endsInLetter hdigits l) (revealed_endsInLetter hdigits m) h
    · exact fun h => congrArg _ (h hopen)
  · obtain ⟨tail, hlocal⟩ := maskEmails_local a
    refine iff_of_true (congrArg (maskPhones py) ?_) fun h => absurd h hopen
    rw [maskEmails_closed a.not_isLocalChar hopen, maskEmails_closed a.not_isLocalChar hopen, hlocal l.text l.nonempty l.isLocalChar,
      hlocal m.text m.nonempty m.isLocalChar]

end Leadline
