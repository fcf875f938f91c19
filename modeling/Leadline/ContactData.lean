import Leadline.LeadUniqueness
import Mathlib.Data.List.DropRight

namespace Leadline

open Library

def Lead.SharesContact (l : Lead) (tenantId : Id) (data : LeadCreate) : Prop :=
  l.tenantId = tenantId ∧
    ((∃ email, email ≠ "" ∧ data.email = some email ∧ l.email = some email) ∨
      ∃ phone, phone ≠ "" ∧ data.phone = some phone ∧ l.phone = some phone)

theorem sharesContact_iff {l : Lead} {tenantId : Id} {data : LeadCreate} :
    l.SharesContact tenantId data ↔ l.Duplicates tenantId data.email data.phone := by
  have hcolumn : ∀ {value column : Option String},
      (∃ v, v ≠ "" ∧ value = some v ∧ column = some v) ↔ MatchesColumn value column := by
    intro value column
    rw [matchesColumn_iff]
    refine exists_congr fun v => ?_
    rw [configured_eq_some, configured_eq_some]
    tauto
  rw [Lead.SharesContact, Lead.Duplicates, hcolumn, hcolumn]

theorem known_lead_resubmitted (lower : String → String) (settings : Settings) (db : Db) (tenantId : Id)
    (payload : LeadCreate) (calls : CreateCalls)
    (hknown : ∃ l ∈ db.leads, l.SharesContact tenantId (payload.normalized lower)) :
    let limit := (PlanLimitService.getPlanLimits db tenantId).maxLeads
    let count := db.leads.rows.countP fun l => l.tenantId = tenantId
    let handled := LeadService.createLead lower settings db tenantId payload calls
    (count < limit → ∃ l ∈ db.leads, l.SharesContact tenantId (payload.normalized lower) ∧
        handled = ⟨.returned ⟨true, l⟩, db, []⟩) ∧
      (limit ≤ count → handled = ⟨.refused ⟨429, "plan lead limit exceeded"⟩, db, []⟩) := by
  intro limit count handled
  constructor
  · intro hbelow
    have hlimit : PlanLimitService.enforceLeadCreationLimit db tenantId = .ok () := if_neg (not_le.mpr hbelow)
    obtain ⟨known, hmem, hshares⟩ := hknown
    unfold handled LeadService.createLead
    rw [hlimit]
    dsimp only
    cases hfound : LeadRepository.findDuplicateByEmailOrPhone db tenantId (payload.normalized lower).email
        (payload.normalized lower).phone calls.choice with
    | none => exact absurd (sharesContact_iff.mp hshares) (LeadRepository.findDuplicate_eq_none.mp hfound known hmem)
    | some l =>
      obtain ⟨hl, hduplicates⟩ := LeadRepository.findDuplicate_eq_some hfound
      exact ⟨l, hl, sharesContact_iff.mpr hduplicates, rfl⟩
  · intro hfull
    have hlimit : PlanLimitService.enforceLeadCreationLimit db tenantId =
        .error ⟨429, "plan lead limit exceeded"⟩ := if_pos hfull
    unfold handled LeadService.createLead
    rw [hlimit]

namespace ContactData

def ada : Lead :=
  LeadRepository.create "lead-1" "tenant-1" { email := some "ada@example.com", phone := some "+15551234567" }

def smallTenant (maxLeads : ℤ) : Tenant where
  id := "tenant-1"
  name := "Acme"
  slug := "acme"
  plan := "starter"
  status := "active"
  settings := .obj [("plan_limits", .obj [("max_leads", .int maxLeads)])]

def knowsAda (maxLeads : ℤ) : Db where
  tenants := Table.empty.insert (smallTenant maxLeads)
  leads := Table.empty.insert ada

def resubmitted : LeadCreate where
  email := some " Ada@Example.com"

end ContactData

open ContactData

theorem known_lead_resubmitted_ada :
    ∃ l ∈ (knowsAda 2).leads, l.SharesContact "tenant-1" (resubmitted.normalized asciiLower) ∧
      LeadService.createLead asciiLower {} (knowsAda 2) "tenant-1" resubmitted (createCalls "lead-2" "event-2") =
        ⟨.returned ⟨true, l⟩, knowsAda 2, []⟩ := by
  have hknown : ∃ l ∈ (knowsAda 2).leads, l.SharesContact "tenant-1" (resubmitted.normalized asciiLower) :=
    ⟨ada, List.mem_singleton_self ada, rfl, .inl ⟨"ada@example.com", by decide, by decide +kernel, rfl⟩⟩
  exact (known_lead_resubmitted asciiLower {} (knowsAda 2) "tenant-1" resubmitted (createCalls "lead-2" "event-2")
    hknown).1 (by decide +kernel)

theorem known_lead_refused :
    (∃ l ∈ (knowsAda 1).leads, l.SharesContact "tenant-1" (resubmitted.normalized asciiLower)) ∧
      (LeadService.createLead asciiLower {} (knowsAda 1) "tenant-1" resubmitted
        (createCalls "lead-2" "event-2")).answer = .refused ⟨429, "plan lead limit exceeded"⟩ := by
  refine ⟨⟨ada, List.mem_singleton_self ada, rfl, .inl ⟨"ada@example.com", by decide, by decide +kernel, rfl⟩⟩, ?_⟩
  rfl

/-- What is needed of `str.lower`. -/
structure LowersCase (lower : String → String) : Prop where
  eq_empty : ∀ s, lower s = "" ↔ s = ""
  lower_lower : ∀ s, lower (lower s) = lower s
  strip_lower : ∀ s, strip s = s → strip (lower s) = lower s

def isSmallLetter (c : Char) : Bool := c.isLower || c = '_' || c = '-'

def KeepsSmallLetters (lower : String → String) : Prop := ∀ s : String, s.toList.all isSmallLetter = true → lower s = s

def isDigit (c : Char) : Bool := '0' ≤ c && c ≤ '9'

def NormalEmail (lower : String → String) (email : Option String) : Prop :=
  ∀ e, email = some e → e ≠ "" ∧ lower (strip e) = e

def NormalPhone (phone : Option String) : Prop :=
  ∀ p, phone = some p → (∃ c ∈ p.toList, isDigit c = true) ∧ ∀ c ∈ p.toList, isDigit c = true ∨ c = '+'

/-- The last two say that a stored value does not change when it is normalized again. -/
structure NormalContact (lower : String → String) (l : Lead) : Prop where
  email : NormalEmail lower l.email
  phone : NormalPhone l.phone
  emailAgain : normalizeEmail lower l.email = l.email
  phoneAgain : normalizePhone l.phone = l.phone

def BlankEmail (email : Option String) : Prop := ∃ e, email = some e ∧ e ≠ "" ∧ strip e = ""

def PlusOnly (phone : Option String) : Prop :=
  ∃ p, phone = some p ∧ '+' ∈ p.toList ∧ ∀ c ∈ p.toList, isDigit c = false

instance (email : Option String) : Decidable (BlankEmail email) :=
  match email with
  | none => .isFalse fun ⟨_, h, _⟩ => nomatch h
  | some e => decidable_of_iff (e ≠ "" ∧ strip e = "") (by simp [BlankEmail])

instance (phone : Option String) : Decidable (PlusOnly phone) :=
  match phone with
  | none => .isFalse fun ⟨_, h, _⟩ => nomatch h
  | some p => decidable_of_iff ('+' ∈ p.toList ∧ p.toList.all (fun c => !isDigit c) = true) (by simp [PlusOnly])

theorem isPhoneChar_iff {c : Char} : isPhoneChar c = true ↔ isDigit c = true ∨ c = '+' := by
  simp [isPhoneChar, isDigit]

theorem normalizeEmail_of_normal {lower : String → String} {email : Option String} (h : NormalEmail lower email) :
    normalizeEmail lower email = email := by
  cases email with
  | none => rfl
  | some e =>
    obtain ⟨hne, hform⟩ := h e rfl
    have hconfigured : configured (some e) = some e := configured_eq_some.mpr ⟨rfl, hne⟩
    rw [normalizeEmail, hconfigured, Option.map_some, hform]

theorem normalizePhone_of_normal {phone : Option String} (h : NormalPhone phone) : normalizePhone phone = phone := by
  cases phone with
  | none => rfl
  | some p =>
    obtain ⟨⟨c, hc, -⟩, hchars⟩ := h p rfl
    have hne : p ≠ "" := by
      rintro rfl
      simp at hc
    have hconfigured : configured (some p) = some p := configured_eq_some.mpr ⟨rfl, hne⟩
    have hall : p.toList.filter isPhoneChar = p.toList :=
      List.filter_eq_self.mpr fun c hc => isPhoneChar_iff.mpr (hchars c hc)
    rw [normalizePhone, hconfigured, Option.map_some, hall, String.ofList_toList, hconfigured]

theorem NormalContact.of_forms {lower : String → String} {l : Lead} (hemail : NormalEmail lower l.email)
    (hphone : NormalPhone l.phone) : NormalContact lower l :=
  ⟨hemail, hphone, normalizeEmail_of_normal hemail, normalizePhone_of_normal hphone⟩

theorem dropWhile_rdropWhile {p : Char → Bool} {cs : List Char} (h : cs.dropWhile p = cs) :
    (cs.rdropWhile p).dropWhile p = cs.rdropWhile p := by
  rw [List.dropWhile_eq_self_iff] at h ⊢
  intro hlength
  have hbegins : cs.rdropWhile p <+: cs := List.rdropWhile_prefix p cs
  rw [hbegins.getElem hlength]
  exact h _

theorem strip_strip (s : String) : strip (strip s) = strip s := by
  have hstrip : ∀ t, strip t = String.ofList ((t.toList.dropWhile isSpace).rdropWhile isSpace) := fun _ => rfl
  rw [hstrip (strip s), hstrip s, String.toList_ofList,
    dropWhile_rdropWhile (List.dropWhile_idempotent isSpace s.toList), List.rdropWhile_idempotent]

theorem normalEmail_normalizeEmail {lower : String → String} (hlower : LowersCase lower) (email : Option String) :
    NormalEmail lower (normalizeEmail lower email) ↔ ¬BlankEmail email := by
  cases email with
  | none =>
    constructor
    · rintro - ⟨e, he, -⟩
      cases he
    · intro _ e he
      cases he
  | some e =>
    by_cases hempty : e = ""
    · subst hempty
      constructor
      · rintro - ⟨e, he, hne, -⟩
        cases he
        exact hne rfl
      · intro _ e he
        cases he
    · have hconfigured : configured (some e) = some e := configured_eq_some.mpr ⟨rfl, hempty⟩
      rw [normalizeEmail, hconfigured, Option.map_some]
      have hagain : lower (strip (lower (strip e))) = lower (strip e) := by
        rw [hlower.strip_lower _ (strip_strip e), hlower.lower_lower]
      constructor
      · rintro h ⟨e', he', -, hblank⟩
        cases he'
        exact (h _ rfl).1 ((hlower.eq_empty _).mpr hblank)
      · intro hblank e' he'
        cases he'
        refine ⟨?_, hagain⟩
        intro hlowered
        exact hblank ⟨e, rfl, hempty, (hlower.eq_empty _).mp hlowered⟩

theorem normalPhone_normalizePhone (phone : Option String) :
    NormalPhone (normalizePhone phone) ↔ ¬PlusOnly phone := by
  cases phone with
  | none =>
    constructor
    · rintro - ⟨p, hp, -⟩
      cases hp
    · intro _ p hp
      cases hp
  | some p =>
    have hform : normalizePhone (some p) = configured (some (String.ofList (p.toList.filter isPhoneChar))) := by
      by_cases hempty : p = ""
      · subst hempty
        rfl
      · rw [normalizePhone, configured_eq_some.mpr ⟨rfl, hempty⟩]
        rfl
    rw [hform]
    constructor
    · rintro h ⟨p', hp', hplus, hnodigit⟩
      cases hp'
      have hmem : '+' ∈ p.toList.filter isPhoneChar := List.mem_filter.mpr ⟨hplus, by decide⟩
      have hne : String.ofList (p.toList.filter isPhoneChar) ≠ "" := by
        intro hnil
        have := congrArg String.toList hnil
        rw [String.toList_ofList] at this
        rw [this] at hmem
        simp at hmem
      obtain ⟨⟨c, hc, hdigit⟩, -⟩ := h _ (configured_eq_some.mpr ⟨rfl, hne⟩)
      rw [String.toList_ofList] at hc
      rw [hnodigit c (List.mem_filter.mp hc).1] at hdigit
      cases hdigit
    · intro h stored hstored
      obtain ⟨heq, hne⟩ := configured_eq_some.mp hstored
      cases heq
      rw [String.toList_ofList]
      refine ⟨?_, ?_⟩
      · by_contra hnone
        push Not at hnone
        have hdigits : ∀ c ∈ p.toList, isDigit c = false := by
          intro c hc
          by_contra hdigit
          have hphone : isPhoneChar c = true := isPhoneChar_iff.mpr (.inl (by simpa using hdigit))
          exact hdigit (by simpa using hnone c (List.mem_filter.mpr ⟨hc, hphone⟩))
        cases hchars : p.toList.filter isPhoneChar with
        | nil => exact hne (by rw [hchars])
        | cons c rest =>
          obtain ⟨hc, hphone⟩ := List.mem_filter.mp (hchars ▸ List.mem_cons_self : c ∈ p.toList.filter isPhoneChar)
          rcases isPhoneChar_iff.mp hphone with hdigit | rfl
          · rw [hdigits c hc] at hdigit
            cases hdigit
          · exact h ⟨p, rfl, hc, hdigits⟩
      · intro c hc
        exact isPhoneChar_iff.mp (List.mem_filter.mp hc).2

def AllNormal (lower : String → String) (leads : Table Lead.id) : Prop := ∀ l ∈ leads, NormalContact lower l

namespace ContactData

def Creates (lower : String → String) (db : Db) (tenantId : Id) (payload : LeadCreate) (calls : CreateCalls) : Prop :=
  (PlanLimitService.enforceLeadCreationLimit db tenantId).isOk = true ∧
    (LeadRepository.findDuplicateByEmailOrPhone db tenantId (payload.normalized lower).email
      (payload.normalized lower).phone calls.choice).isNone = true ∧ calls.commit.takesEffect = true

def Updates (lower : String → String) (db : Db) (tenantId leadId : Id) (payload : LeadUpdate) (calls : WriteCalls) :
    Prop :=
  ((LeadRepository.get db tenantId leadId).bind (payload.normalized lower).apply).isSome = true ∧
    calls.commit.takesEffect = true

def Admitted (lower : String → String) (db : Db) : LeadUniqueness.Request → Prop
  | .create tenantId payload calls =>
    Creates lower db tenantId payload calls → ¬BlankEmail payload.email ∧ ¬PlusOnly payload.phone
  | .update tenantId leadId payload calls =>
    Updates lower db tenantId leadId payload calls →
      (∀ email, payload.email = some email → ¬BlankEmail email) ∧ ∀ phone, payload.phone = some phone → ¬PlusOnly phone
  | .delete _ _ _ => True

instance (lower : String → String) (db : Db) : ∀ request, Decidable (Admitted lower db request)
  | .create _ _ _ => inferInstanceAs (Decidable (_ ∧ _ ∧ _ → ¬_ ∧ ¬_))
  | .update _ _ payload _ => inferInstanceAs
      (Decidable (_ ∧ _ → (∀ email ∈ payload.email, ¬BlankEmail email) ∧ ∀ phone ∈ payload.phone, ¬PlusOnly phone))
  | .delete _ _ _ => .isTrue trivial

variable {lower : String → String} {settings : Settings} {db db' : Db} {tenantId leadId : Id}

theorem createLead_db (payload : LeadCreate) (calls : CreateCalls) :
    (Creates lower db tenantId payload calls ∧
        (LeadService.createLead lower settings db tenantId payload calls).db =
          (LeadService.newLead db tenantId calls.id calls.eventId calls.today (payload.normalized lower)).commit db) ∨
      ¬Creates lower db tenantId payload calls ∧
        (LeadService.createLead lower settings db tenantId payload calls).db = db := by
  unfold LeadService.createLead Creates
  cases PlanLimitService.enforceLeadCreationLimit db tenantId with
  | error e => simp [Except.isOk, Except.toBool]
  | ok _ =>
    dsimp only
    cases LeadRepository.findDuplicateByEmailOrPhone db tenantId (payload.normalized lower).email
        (payload.normalized lower).phone calls.choice with
    | some existing => simp
    | none =>
      rw [LeadService.commitAndPublish_db]
      cases calls.commit.takesEffect <;> simp [Except.isOk, Except.toBool]

theorem normal_create_iff (hlower : LowersCase lower) (h : AllNormal lower db.leads) (payload : LeadCreate)
    (calls : CreateCalls) (hfresh : db.leads.Fresh calls.id) :
    AllNormal lower (LeadService.createLead lower settings db tenantId payload calls).db.leads ↔
      Admitted lower db (.create tenantId payload calls) := by
  rcases createLead_db payload calls with ⟨hcreates, hdb⟩ | ⟨hcreates, hdb⟩
  · rw [hdb]
    let lead := LeadRepository.create calls.id tenantId (payload.normalized lower)
    have hforms : NormalContact lower lead ↔ ¬BlankEmail payload.email ∧ ¬PlusOnly payload.phone := by
      rw [← normalEmail_normalizeEmail hlower, ← normalPhone_normalizePhone]
      exact ⟨fun hnormal => ⟨hnormal.email, hnormal.phone⟩, fun hboth => .of_forms hboth.1 hboth.2⟩
    have hmem : ∀ l, l ∈ db.leads.insert lead ↔ l ∈ db.leads ∨ l = lead := fun l => Table.mem_insert hfresh
    rw [Admitted, ← hforms]
    constructor
    · exact fun hall _ => hall lead ((hmem lead).mpr (.inr rfl))
    · intro hnormal l hl
      rcases (hmem l).mp hl with hold | rfl
      · exact h l hold
      · exact hnormal hcreates
  · rw [hdb]
    exact ⟨fun _ hc => absurd hc hcreates, fun _ => h⟩

theorem normal_updated_iff (hlower : LowersCase lower) {lead updated : Lead} {payload : LeadUpdate}
    (h : NormalContact lower lead) (happly : (payload.normalized lower).apply lead = some updated) :
    NormalContact lower updated ↔
      (∀ email, payload.email = some email → ¬BlankEmail email) ∧
        ∀ phone, payload.phone = some phone → ¬PlusOnly phone := by
  obtain ⟨-, -, hemail, hphone⟩ := LeadUpdate.apply_eq_some happly
  have hemailForm : NormalEmail lower updated.email ↔ ∀ email, payload.email = some email → ¬BlankEmail email := by
    rw [hemail]
    unfold LeadUpdate.normalized
    cases payload.email with
    | none => simpa using h.email
    | some email => simpa using normalEmail_normalizeEmail hlower email
  have hphoneForm : NormalPhone updated.phone ↔ ∀ phone, payload.phone = some phone → ¬PlusOnly phone := by
    rw [hphone]
    unfold LeadUpdate.normalized
    cases payload.phone with
    | none => simpa using h.phone
    | some phone => simpa using normalPhone_normalizePhone phone
  rw [← hemailForm, ← hphoneForm]
  exact ⟨fun hnormal => ⟨hnormal.email, hnormal.phone⟩, fun hboth => .of_forms hboth.1 hboth.2⟩

theorem normal_update_iff (hlower : LowersCase lower) (h : AllNormal lower db.leads) (payload : LeadUpdate)
    (calls : WriteCalls) :
    AllNormal lower (LeadService.updateLead lower settings db tenantId leadId payload calls).db.leads ↔
      Admitted lower db (.update tenantId leadId payload calls) := by
  rcases LeadUniqueness.updateLead_cases payload calls with ⟨hno, hdb⟩ | ⟨lead, updated, hget, happly, hcommit, hdb⟩
  · rw [hdb]
    exact ⟨fun _ hu => (hno hu.1 hu.2).elim, fun _ => h⟩
  · rw [hdb, Admitted]
    obtain ⟨hlead, hid, -⟩ := ofTenant_eq_some.mp hget
    have hupdates : Updates lower db tenantId leadId payload calls :=
      ⟨by rw [hget, Option.bind_some, happly]; rfl, hcommit⟩
    rw [← normal_updated_iff hlower (h lead hlead) happly]
    constructor
    · intro hall _
      exact hall updated (LeadService.mem_writeLead hlead hid (LeadUpdate.apply_eq_some happly).1)
    · intro hnormal l hl
      obtain ⟨stored, hstored, rfl⟩ := (Table.mem_modify (LeadService.overwriteLead_id updated)).mp hl
      split
      · exact .of_forms (hnormal hupdates).email (hnormal hupdates).phone
      · exact h stored hstored

theorem normal_step_iff (hlower : LowersCase lower) {request : LeadUniqueness.Request} (h : AllNormal lower db.leads)
    (hstep : LeadUniqueness.step lower settings db request = some db') :
    AllNormal lower db'.leads ↔ Admitted lower db request := by
  cases request with
  | create tenantId payload calls =>
    simp only [LeadUniqueness.step] at hstep
    split at hstep
    · rename_i hfresh
      cases hstep
      exact normal_create_iff hlower h payload calls hfresh.1
    · cases hstep
  | update tenantId leadId payload calls =>
    cases hstep
    exact normal_update_iff hlower h payload calls
  | delete tenantId leadId commit =>
    cases hstep
    refine ⟨fun _ => trivial, fun _ => ?_⟩
    unfold LeadService.deleteLead
    split
    · exact h
    · dsimp only
      split
      · exact fun l hl => h l (Table.mem_erase.mp hl).1
      · exact h

end ContactData

theorem contacts_stay_normal (lower : String → String) (hlower : LowersCase lower) (settings : Settings)
    (db₀ db : Db) (requests : List LeadUniqueness.Request) (h₀ : AllNormal lower db₀.leads)
    (hrun : GuardedRun (Enabled (LeadUniqueness.step lower settings)) (ContactData.Admitted lower) db₀ requests db) :
    AllNormal lower db.leads ∧
      ∀ request db', LeadUniqueness.step lower settings db request = some db' →
        (AllNormal lower db'.leads ↔ ContactData.Admitted lower db request) := by
  have hnormal : AllNormal lower db.leads := by
    apply hrun.invariant (fun db => AllNormal lower db.leads)
    · intro db request db' h hok hstep
      exact (normal_step_iff hlower h hstep).mpr hok
    · exact h₀
  exact ⟨hnormal, fun request db' hstep => normal_step_iff hlower hnormal hstep⟩

theorem toNat_toLower (c : Char) :
    c.toLower = c ∨ c.toLower.toNat = c.toNat + 32 ∧ 65 ≤ c.toNat ∧ c.toNat ≤ 90 := by
  unfold Char.toLower
  split
  · rename_i hupper
    have hge : 65 ≤ c.toNat := UInt32.le_iff_toNat_le.mp hupper.1
    have hle : c.toNat ≤ 90 := UInt32.le_iff_toNat_le.mp hupper.2
    refine .inr ⟨?_, hge, hle⟩
    change (c.val + 32).toNat = c.toNat + 32
    rw [UInt32.toNat_add]
    change (c.toNat + 32) % 2 ^ 32 = c.toNat + 32
    omega
  · exact .inl rfl

theorem toLower_toLower (c : Char) : c.toLower.toLower = c.toLower := by
  rcases toNat_toLower c.toLower with hsame | ⟨hlower, hge, hle⟩
  · exact hsame
  · rcases toNat_toLower c with hsame | ⟨hupper, hge', -⟩
    · rw [hsame, hsame]
    · omega

theorem isSpace_of_letter {c : Char} (hge : 65 ≤ c.toNat) (hle : c.toNat ≤ 122) : isSpace c = false := by
  simp only [isSpace, Bool.or_eq_false_iff, Bool.and_eq_false_iff, decide_eq_false_iff_not]
  omega

theorem isSpace_toLower (c : Char) : isSpace c.toLower = isSpace c := by
  rcases toNat_toLower c with hsame | ⟨hlower, hge, hle⟩
  · rw [hsame]
  · rw [isSpace_of_letter (c := c.toLower) (by omega) (by omega), isSpace_of_letter hge (by omega)]

theorem asciiLower_lowersCase : LowersCase asciiLower where
  eq_empty s := by
    rw [← String.toList_inj, ← String.toList_inj, asciiLower, String.toList_ofList]
    simp
  lower_lower s := by
    have hchars : Char.toLower ∘ Char.toLower = Char.toLower := funext toLower_toLower
    simp only [asciiLower, String.toList_ofList, List.map_map, hchars]
  strip_lower s hs := by
    have hspace : isSpace ∘ Char.toLower = isSpace := funext isSpace_toLower
    have hstrip : strip (asciiLower s) = asciiLower (strip s) := by
      simp only [strip, asciiLower, String.toList_ofList, List.dropWhile_map, ← List.map_reverse, hspace]
    rw [hstrip, hs]

theorem asciiLower_keepsSmallLetters : KeepsSmallLetters asciiLower := by
  intro s hs
  have hchars : s.toList.map Char.toLower = s.toList := by
    refine (List.map_congr_left fun c hc => ?_).trans (List.map_id _)
    rcases toNat_toLower c with hsame | ⟨-, hge, hle⟩
    · exact hsame
    · have hsmall := List.all_eq_true.mp hs c hc
      simp only [isSmallLetter, Bool.or_eq_true, decide_eq_true_eq] at hsmall
      rcases hsmall with (hsmall | rfl) | rfl
      · have hletter : 97 ≤ c.toNat := UInt32.le_iff_toNat_le.mp (of_decide_eq_true (Bool.and_elim_left hsmall))
        omega
      · rfl
      · rfl
  rw [asciiLower, hchars, String.ofList_toList]

namespace ContactData

def spacedEmail : LeadUniqueness.Request := .create "tenant-1" { email := some "   " } (createCalls "lead-1" "event-1")

def loneSign : LeadUniqueness.Request := .create "tenant-1" { phone := some "+" } (createCalls "lead-1" "event-1")

end ContactData

theorem contacts_stay_normal_ada :
    ∃ db : Db, AllNormal asciiLower db.leads ∧ ∃ l ∈ db.leads.rows,
      l.email = some "ada@example.com" ∧ l.phone = some "+15551234567" := by
  have hrun : (runChecked (LeadUniqueness.step asciiLower {}) (ContactData.Admitted asciiLower) {} adaThenBob).any
      (fun db => decide (∃ l ∈ db.leads.rows, l.email = some "ada@example.com" ∧ l.phone = some "+15551234567")) =
        true := by
    decide +kernel
  obtain ⟨db, hdb, hada⟩ := (Option.any_eq_true _ _).mp hrun
  have hempty : AllNormal asciiLower (Table.empty : Table Lead.id) := fun l hl => absurd hl (Table.not_mem_empty l)
  have hstays := contacts_stay_normal asciiLower asciiLower_lowersCase {} {} db _ hempty (guarded_of_runChecked hdb)
  exact ⟨db, hstays.1, of_decide_eq_true hada⟩

theorem contacts_not_normal :
    (∃ db, runSteps (LeadUniqueness.step asciiLower {}) {} [spacedEmail] = some db ∧
        ¬AllNormal asciiLower db.leads) ∧
      ∃ db, runSteps (LeadUniqueness.step asciiLower {}) {} [loneSign] = some db ∧
        ¬AllNormal asciiLower db.leads := by
  have hspaced : (runSteps (LeadUniqueness.step asciiLower {}) {} [spacedEmail]).any
      (fun db => decide (∃ l ∈ db.leads.rows, l.email = some "")) = true := by
    decide +kernel
  have hsign : (runSteps (LeadUniqueness.step asciiLower {}) {} [loneSign]).any
      (fun db => decide (∃ l ∈ db.leads.rows, l.phone = some "+")) = true := by
    decide +kernel
  constructor
  · obtain ⟨db, hdb, hstored⟩ := (Option.any_eq_true _ _).mp hspaced
    obtain ⟨l, hl, hemail⟩ := of_decide_eq_true hstored
    exact ⟨db, hdb, fun hall => ((hall l hl).email "" hemail).1 rfl⟩
  · obtain ⟨db, hdb, hstored⟩ := (Option.any_eq_true _ _).mp hsign
    obtain ⟨l, hl, hphone⟩ := of_decide_eq_true hstored
    refine ⟨db, hdb, fun hall => ?_⟩
    obtain ⟨⟨c, hc, hdigit⟩, -⟩ := (hall l hl).phone "+" hphone
    cases List.mem_singleton.mp hc
    exact absurd hdigit (by decide)

end Leadline
