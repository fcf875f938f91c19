import Leadline.Masking

namespace Leadline

open Library

def chainedAddress (py : Python) (cs : List Char) : Bool :=
  (emailRe.finditer cs).any fun found =>
    match found.2 with
    | '@' :: tail => (matchAt domainRe ((phoneRe py).before (emailRe.before tail))).isSome
    | _ => false

theorem chainedAddress_iff {py : Python} {cs : List Char} :
    chainedAddress py cs = true ↔ ∃ parts tail, (parts, '@' :: tail) ∈ emailRe.finditer cs ∧
      (matchAt domainRe ((phoneRe py).before (emailRe.before tail))).isSome = true := by
  rw [chainedAddress, List.any_eq_true]
  constructor
  · rintro ⟨⟨parts, rest⟩, hmem, hfound⟩
    dsimp only at hfound
    split at hfound
    · rename_i tail
      exact ⟨parts, tail, hmem, hfound⟩
    · cases hfound
  · rintro ⟨parts, tail, hmem, hdomain⟩
    exact ⟨(parts, '@' :: tail), hmem, hdomain⟩

namespace Masking

variable {py : Python} {cs rest tail xs ys : List Char} {parts : List (List Char)} {c : Char}

theorem email_parts (hadmits : List.Forall₂ Repeat.Admits emailRe.pieces parts) :
    ∃ body c domain, parts = (body ++ [c]) :: ['@'] :: domain ∧ isLocalChar c = true ∧
      List.Forall₂ Repeat.Admits domainRe domain := by
  cases hadmits with
  | @cons _ user _ _ huser hadmits =>
    cases hadmits with
    | @cons _ sign _ domain hsign hadmits =>
      obtain ⟨body, c, rfl⟩ := (List.eq_nil_or_concat user).resolve_left (List.length_pos_iff.mp huser.least)
      obtain ⟨d, rfl⟩ : ∃ d, sign = [d] := List.length_eq_one_iff.mp (le_antisymm (hsign.most 1 rfl) hsign.least)
      obtain rfl : d = '@' := of_decide_eq_true (hsign.allowed d List.mem_cons_self)
      exact ⟨body, c, domain, by rw [List.concat_eq_append], huser.allowed c (by simp), hadmits⟩

theorem at_not_mem_domain (hadmits : List.Forall₂ Repeat.Admits domainRe parts) : '@' ∉ parts.flatten := by
  intro hmem
  obtain ⟨part, hpart, hin⟩ := List.mem_flatten.mp hmem
  obtain ⟨r, hr, hallowed⟩ := exists_of_forall₂ hadmits.flip hpart
  have hat := hallowed.allowed '@' hin
  rw [stops_domain rfl r hr] at hat
  cases hat

theorem contains_email_iff :
    emailRe.Contains cs ↔
      ∃ xs c ys, cs = xs ++ c :: '@' :: ys ∧ isLocalChar c = true ∧ (matchAt domainRe ys).isSome = true := by
  constructor
  · rintro ⟨first, parts, last, hadmits, rfl⟩
    obtain ⟨body, c, domain, rfl, hc, hdomain⟩ := email_parts hadmits
    exact ⟨first ++ body, c, domain.flatten ++ last, by simp, hc, matchAt_complete hdomain last⟩
  · rintro ⟨xs, c, ys, rfl, hc, hdomain⟩
    apply Pattern.contains_iff.mpr
    refine ⟨xs, c :: '@' :: ys, rfl, ?_⟩
    have hat : matchAt emailRe.pieces ([c] ++ '@' :: ys) = _ :=
      email_at (List.cons_ne_nil c []) (by simpa using hc)
    rw [List.singleton_append] at hat
    rw [hat, Option.isSome_map, hdomain]

theorem maskEmails_head (h : maskEmails cs = '@' :: ys) : ∃ tail, cs = '@' :: tail ∧ ys = maskEmails tail := by
  induction cs using emailRe.sub_induction with
  | nil => cases h
  | miss c cs hmatch _ =>
    rw [maskEmails, Pattern.sub_miss hmatch] at h
    obtain ⟨rfl, rfl⟩ := List.cons.inj h
    exact ⟨cs, rfl, rfl⟩
  | hit parts rest hmatch _ =>
    rw [maskEmails, Pattern.sub_hit hmatch] at h
    cases h

theorem domain_stops {cs ys : List Char} (h : ∀ c ∈ ys.head?, c = '*') : matchAt domainRe (cs ++ ys) = matchAt domainRe cs :=
  matchAt_append (fun r hr c hc => h c hc ▸ stops_domain rfl r hr) cs

theorem domain_masked (hdigits : AsciiDigits py) (cs : List Char) :
    matchAt domainRe (maskPhones py (maskEmails cs)) = matchAt domainRe ((phoneRe py).before (emailRe.before cs)) := by
  have hphones : ∀ cs, matchAt domainRe (maskPhones py cs) = matchAt domainRe ((phoneRe py).before cs) := by
    intro cs
    cases (phoneRe py).firstMatch (fun _ => "***PHONE***".toList) cs with
    | none hbefore _ hsub => rw [maskPhones, hsub, hbefore]
    | found parts rest _ _ _ hsub =>
      rw [maskPhones, hsub]
      exact domain_stops (by rintro c ⟨⟩; rfl)
  cases emailRe.firstMatch (fun parts => "***@".toList ++ (parts.drop 2).flatten) cs with
  | none hbefore _ hsub => rw [maskEmails, hsub, hbefore, hphones]
  | found parts rest _ _ _ hsub =>
    have hmasked : maskEmails cs =
        emailRe.before cs ++ '*' :: ("**@".toList ++ (parts.drop 2).flatten ++ maskEmails rest) := hsub
    have hstar : (phoneRe py).Separates '*' := phone_separates hdigits (.inr (.inl rfl))
    rw [hmasked, maskPhones, Pattern.sub_separator hstar]
    exact (domain_stops (by rintro c ⟨⟩; rfl)).trans (hphones _)

theorem domain_before (h : (matchAt domainRe ((phoneRe py).before (emailRe.before cs))).isSome = true) :
    (matchAt domainRe cs).isSome = true := by
  obtain ⟨rest, hrest⟩ := ((phoneRe py).before_begins _).trans (emailRe.before_begins cs)
  rw [← hrest]
  exact matchAt_mono h rest

theorem masked_before_at (hc : isLocalChar c = true) (h : maskEmails cs = xs ++ c :: '@' :: ys) :
    ∃ tail, ys = maskEmails tail ∧
      (matchAt domainRe tail = none ∨ ∃ parts, (parts, '@' :: tail) ∈ emailRe.finditer cs) := by
  induction cs using emailRe.sub_induction generalizing xs with
  | nil => exact absurd (congrArg List.length h) (by simp [maskEmails, Pattern.sub, Pattern.scan])
  | miss d cs hmatch ih =>
    rw [maskEmails, Pattern.sub_miss hmatch] at h
    rw [Pattern.finditer_miss hmatch]
    cases xs with
    | nil =>
      obtain ⟨rfl, hsign⟩ := List.cons.inj h
      obtain ⟨tail, rfl, rfl⟩ := maskEmails_head hsign
      have hat : matchAt emailRe.pieces ([d] ++ '@' :: tail) = _ := email_at (List.cons_ne_nil d []) (by simpa using hc)
      exact ⟨tail, rfl, .inl (Option.map_eq_none_iff.mp (hat.symm.trans hmatch))⟩
    | cons e xs => exact ih (List.cons.inj h).2
  | hit parts rest hmatch ih =>
    have hhit : maskEmails (parts.flatten ++ rest) = "***@".toList ++ ((parts.drop 2).flatten ++ maskEmails rest) :=
      (Pattern.sub_hit hmatch).trans (List.append_assoc _ _ _)
    rw [hhit] at h
    rw [Pattern.finditer_hit hmatch]
    obtain ⟨_, _, domain, rfl, -, hdomain⟩ := email_parts (matchAt_sound hmatch).1
    have hmask : c ∉ "***@".toList := by
      intro hmem
      have hstops : ("***@".toList.all fun d => !isLocalChar d) = true := by decide
      simpa [hc] using List.all_eq_true.mp hstops c hmem
    obtain ⟨mid, -, hrest⟩ := split_after hmask h
    have hsplit : domain.flatten ++ maskEmails rest = mid ++ [c] ++ '@' :: ys :=
      hrest.trans (List.append_assoc mid [c] _).symm
    obtain ⟨kept, hkept, hmasked⟩ := split_after (at_not_mem_domain hdomain) hsplit
    rcases List.eq_nil_or_concat kept with rfl | ⟨kept, d, rfl⟩
    · obtain ⟨tail, rfl, rfl⟩ := maskEmails_head hmasked
      exact ⟨tail, rfl, .inr ⟨_, List.mem_cons_self⟩⟩
    · -- The character is in what follows the masked address.
      rw [List.concat_eq_append, ← List.append_assoc] at hkept
      obtain rfl : c = d := List.singleton_inj.mp (List.append_inj_right' hkept rfl)
      rw [List.concat_eq_append, List.append_assoc] at hmasked
      obtain ⟨tail, rfl, htail⟩ := ih hmasked
      exact ⟨tail, rfl, htail.imp_right (Exists.imp fun _ hmem => List.mem_cons_of_mem _ hmem)⟩

theorem masked_chained (h : (parts, '@' :: tail) ∈ emailRe.finditer cs) :
    ∃ xs c, c.isAlpha = true ∧ maskEmails cs = xs ++ c :: '@' :: maskEmails tail := by
  induction cs using emailRe.sub_induction with
  | nil => cases h
  | miss d cs hmatch ih =>
    rw [Pattern.finditer_miss hmatch] at h
    obtain ⟨xs, c, hc, hmasked⟩ := ih h
    exact ⟨d :: xs, c, hc, (Pattern.sub_miss hmatch).trans (congrArg (d :: ·) hmasked)⟩
  | hit found rest hmatch ih =>
    rw [Pattern.finditer_hit hmatch] at h
    have hhit : maskEmails (found.flatten ++ rest) = "***@".toList ++ (found.drop 2).flatten ++ maskEmails rest :=
      Pattern.sub_hit hmatch
    rw [hhit]
    rcases List.mem_cons.mp h with heq | hlater
    · obtain ⟨rfl, rfl⟩ := Prod.mk.inj heq
      obtain ⟨_, _, domain, rfl, -, hdomain⟩ := email_parts (matchAt_sound hmatch).1
      obtain ⟨body, c, hbody, hc⟩ := domain_ends hdomain
      have hsign : maskEmails ('@' :: tail) = '@' :: maskEmails tail :=
        Pattern.sub_miss (email_no_local (by rintro d ⟨⟩; rfl))
      refine ⟨"***@".toList ++ body, c, hc, ?_⟩
      rw [hsign]
      simp [hbody]
    · obtain ⟨xs, c, hc, hmasked⟩ := ih hlater
      refine ⟨"***@".toList ++ (found.drop 2).flatten ++ xs, c, hc, ?_⟩
      rw [hmasked]
      simp

theorem contains_masked_iff (hdigits : AsciiDigits py) (cs : List Char) :
    emailRe.Contains (maskPhones py (maskEmails cs)) ↔ chainedAddress py cs = true := by
  have hsign : (phoneRe py).Separates '@' := phone_separates hdigits (.inl rfl)
  rw [contains_email_iff, chainedAddress_iff]
  constructor
  · rintro ⟨xs, c, ys, hmasked, hc, hdomain⟩
    rw [← List.singleton_append, ← List.append_assoc] at hmasked
    obtain ⟨first, last, hfirst, hxs, rfl⟩ := Pattern.sub_split hsign (fun _ => by decide) hmasked
    have hstar : ∀ d ∈ "***PHONE***".toList.getLast?, isLocalChar d = false := by
      rintro d ⟨⟩
      rfl
    have hkept : c ∉ "***PHONE***".toList.getLast? := fun hmem => Bool.false_ne_true ((hstar c hmem).symm.trans hc)
    obtain ⟨kept, rfl⟩ := Pattern.sub_last (fun _ => by decide) (fun _ => hkept) hxs.symm
    rw [List.append_assoc, List.singleton_append] at hfirst
    obtain ⟨tail, rfl, hnone | ⟨parts, hmem⟩⟩ := masked_before_at hc hfirst
    · have htail : (matchAt domainRe tail).isSome = true := by
        rw [← maskPhones, domain_masked hdigits] at hdomain
        exact domain_before hdomain
      rw [hnone] at htail
      cases htail
    · rw [← maskPhones, domain_masked hdigits] at hdomain
      exact ⟨parts, tail, hmem, hdomain⟩
  · rintro ⟨parts, tail, hmem, hdomain⟩
    obtain ⟨xs, c, hc, hmasked⟩ := masked_chained hmem
    refine ⟨maskPhones py xs, c, maskPhones py (maskEmails tail), ?_, ?_, ?_⟩
    · rw [hmasked, maskPhones, Pattern.sub_separator (phone_separates hdigits (.inr (.inr hc))),
        Pattern.sub_miss (hsign.miss _)]
      rfl
    · exact isLocalChar_of_isHostChar (isHostChar_of_isAlpha hc)
    · rw [domain_masked hdigits]
      exact hdomain

end Masking

open Masking

theorem masked_text_settled_iff {py : Python} (hdigits : AsciiDigits py) (value : String) :
    (¬emailRe.Contains (maskText py value).toList ∧ ¬(phoneRe py).Contains (maskText py value).toList ∧
        maskText py (maskText py value) = maskText py value) ↔ chainedAddress py value.toList = false := by
  have htext : ∀ value, (maskText py value).toList = maskPhones py (maskEmails value.toList) :=
    fun value => String.toList_ofList
  have hemail := contains_masked_iff hdigits value.toList
  rw [← htext] at hemail
  rw [← Bool.not_eq_true, ← hemail]
  constructor
  · exact fun hmasked => hmasked.1
  · intro haddress
    have hphone : ¬(phoneRe py).Contains (maskText py value).toList := by
      rw [htext]
      apply Pattern.not_contains_sub (fun _ => by decide)
      intro _ c hc
      apply phone_separates hdigits
      have hmask : ("***PHONE***".toList.all fun c => c = '*' || c.isAlpha) = true := by decide
      have hchar := List.all_eq_true.mp hmask c hc
      rw [Bool.or_eq_true, decide_eq_true_eq] at hchar
      exact .inr hchar
    refine ⟨haddress, hphone, ?_⟩
    rw [maskText, maskEmails, Pattern.sub_of_not_contains haddress, maskPhones, Pattern.sub_of_not_contains hphone,
      String.ofList_toList]

theorem masked_text_settled_iff_names :
    maskText Python.ascii (maskText Python.ascii "Ann <ann@x.org>, bob@y.org@") =
      maskText Python.ascii "Ann <ann@x.org>, bob@y.org@" := by
  have hchained : chainedAddress Python.ascii "Ann <ann@x.org>, bob@y.org@".toList = false := by decide +kernel
  exact ((masked_text_settled_iff ascii_digits _).mpr hchained).2.2

theorem address_left_in_masked_text :
    maskText Python.ascii "a@b.co@c.com" = "***@b.co@c.com" ∧
      emailRe.Contains (maskText Python.ascii "a@b.co@c.com").toList ∧
      maskText Python.ascii (maskText Python.ascii "a@b.co@c.com") = "***@***@c.com" := by
  have hmasked : maskText Python.ascii "a@b.co@c.com" = "***@b.co@c.com" := by decide +kernel
  have hagain : maskText Python.ascii "***@b.co@c.com" = "***@***@c.com" := by decide +kernel
  refine ⟨hmasked, ?_, by rw [hmasked, hagain]⟩
  rw [hmasked]
  exact contains_email_iff.mpr ⟨"***@b.c".toList, 'o', "c.com".toList, rfl, rfl, by decide +kernel⟩

end Leadline
