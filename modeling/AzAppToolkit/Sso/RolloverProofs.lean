import AzAppToolkit.Lib.Rely
import AzAppToolkit.Sso.Rollover

set_option autoImplicit false

/-! # The rollover keeps sign-in working

What the rows of the view say of the credentials they are made of, and from it what each command does to
the service principal: as long as two identifiers that differ in case only are one certificate, and two of
one certificate differ in case only, the preferred thumbprint keeps naming a certificate that is there. -/

namespace Sso

open Prog
open Graph (GraphError)

/-! ## Canonical thumbprints -/

theorem not_isWhitespace_hexDigits : ∀ c ∈ hexDigits, isWhitespace c = false := by
  simp [hexDigits, isWhitespace]

def lowerDigits : List Char := ['a', 'b', 'c', 'd', 'e', 'f']

theorem map_toLower_hexDigits : hexDigits.map Char.toLower = hexDigits.take 10 ++ lowerDigits := by
  decide

theorem map_toUpper_hexDigits : hexDigits.map Char.toUpper = hexDigits := by decide

theorem map_toUpper_lowerDigits : lowerDigits.map Char.toUpper = hexDigits.drop 10 := by decide

theorem toLower_injOn_hexDigits : (hexDigits.map Char.toLower).Nodup := by
  rw [map_toLower_hexDigits]
  decide

theorem mem_hexDigits_toUpper {c : Char} (h : isHexDigit c = true) : c.toUpper ∈ hexDigits := by
  unfold isHexDigit at h
  rw [Bool.or_eq_true, List.contains_iff_mem, List.contains_iff_mem] at h
  rcases h with h | h
  · exact map_toUpper_hexDigits ▸ List.mem_map_of_mem h
  · have hmem := List.mem_map_of_mem (f := Char.toUpper) (show c ∈ lowerDigits from h)
    rw [map_toUpper_lowerDigits] at hmem
    exact List.mem_of_mem_drop hmem

theorem mem_hexDigits_hexUpper {bytes : List UInt8} {c : Char} (h : c ∈ hexUpper bytes) : c ∈ hexDigits := by
  have hdigit : ∀ n, hexDigit n ∈ hexDigits := by
    intro n
    unfold hexDigit
    by_cases hn : n < hexDigits.length
    · rw [List.getD_eq_getElem _ _ hn]
      exact List.getElem_mem hn
    · rw [List.getD_eq_default _ _ (by omega)]
      decide
  obtain ⟨b, -, hc⟩ := List.mem_flatMap.1 h
  rcases List.mem_pair.1 hc with rfl | rfl
  · exact hdigit _
  · exact hdigit _

theorem canonical_hex {identifier t : Text} (h : canonical identifier = some t) : ∀ c ∈ t, c ∈ hexDigits := by
  unfold canonical at h
  dsimp only at h
  split at h
  · exact absurd h (by simp)
  · split at h
    · next hhex =>
      obtain rfl := Option.some.inj h
      intro c hc
      obtain ⟨d, hd, rfl⟩ := List.mem_map.1 hc
      exact mem_hexDigits_toUpper (List.all_eq_true.1 hhex.2 d hd)
    · split at h
      · exact absurd h (by simp)
      · split at h
        · exact absurd h (by simp)
        · obtain rfl := Option.some.inj h
          exact fun c hc => mem_hexDigits_hexUpper hc

theorem eqIgnoreAsciiCase_hex {s t : Text} (hs : ∀ c ∈ s, c ∈ hexDigits) (ht : ∀ c ∈ t, c ∈ hexDigits) :
    Text.eqIgnoreAsciiCase s t = true ↔ s = t := by
  rw [Text.eqIgnoreAsciiCase_iff]
  refine ⟨fun h => ?_, fun h => h ▸ rfl⟩
  unfold toAsciiLowercase at h
  induction s generalizing t with
  | nil =>
    cases t with
    | nil => rfl
    | cons d t => exact absurd h (by simp)
  | cons c s ih =>
    cases t with
    | nil => exact absurd h (by simp)
    | cons d t =>
      obtain ⟨hcd, hrest⟩ := List.cons.inj h
      have hc := hs c (List.mem_cons_self ..)
      have hd := ht d (List.mem_cons_self ..)
      rw [List.inj_on_of_nodup_map toLower_injOn_hexDigits hc hd hcd, ih (fun c hc => hs c (List.mem_cons_of_mem _ hc))
        (fun c hc => ht c (List.mem_cons_of_mem _ hc)) hrest]

theorem trim_hex {s : Text} (hs : ∀ c ∈ s, c ∈ hexDigits) : Text.trim s = s := by
  have hdrop : ∀ {l : Text}, (∀ c ∈ l, c ∈ hexDigits) → l.dropWhile isWhitespace = l := by
    intro l hl
    cases l with
    | nil => rfl
    | cons c l =>
      rw [List.dropWhile_cons_of_neg]
      rw [not_isWhitespace_hexDigits c (hl c (List.mem_cons_self ..))]
      exact Bool.false_ne_true
  unfold Text.trim
  rw [hdrop hs, hdrop (fun c hc => hs c (List.mem_reverse.1 hc)), List.reverse_reverse]

theorem KeyCredential.thumbprint_hex {e : KeyCredential} {t : Text} (h : e.thumbprint = some t) :
    ∀ c ∈ t, c ∈ hexDigits := by
  obtain ⟨identifier, -, hcanonical⟩ := Option.bind_eq_some_iff.1 h
  exact canonical_hex hcanonical

/-! ## The rows -/

/-- The first entry of a certificate. -/
def firstEntry (creds : List KeyCredential) (t : Text) : Option KeyCredential :=
  creds.find? (fun e => e.thumbprint == some t)

theorem firstEntry_eq_none {creds : List KeyCredential} {t : Text} :
    firstEntry creds t = none ↔ ∀ e ∈ creds, e.thumbprint ≠ some t := by
  unfold firstEntry
  rw [List.find?_eq_none]
  simp

theorem firstEntry_eq_some {creds : List KeyCredential} {t : Text} {e : KeyCredential}
    (h : firstEntry creds t = some e) : e ∈ creds ∧ e.thumbprint = some t :=
  ⟨List.mem_of_find?_eq_some h, by simpa using List.find?_some h⟩

/-- One row for each certificate, made of its first entry. -/
theorem collectCerts_snoc (preferred : Option Text) (now : Int) (creds : List KeyCredential)
    (e : KeyCredential) : collectCerts preferred now (creds ++ [e]) =
      match e.thumbprint with
      | none => collectCerts preferred now creds
      | some t =>
        if (collectCerts preferred now creds).any (fun c => Text.eqIgnoreAsciiCase c.thumbprint t) then
          collectCerts preferred now creds
        else collectCerts preferred now creds ++ [rowOf preferred now e t] := by
  unfold collectCerts
  rw [List.foldl_append]
  rfl

theorem collectCerts_rows (preferred : Option Text) (now : Int) (creds : List KeyCredential) :
    (∀ row ∈ collectCerts preferred now creds, ∃ e, firstEntry creds row.thumbprint = some e ∧
      row = rowOf preferred now e row.thumbprint) ∧
    (∀ e ∈ creds, ∀ t, e.thumbprint = some t →
      ∃ row ∈ collectCerts preferred now creds, row.thumbprint = t) := by
  induction creds using List.reverseRecOn with
  | nil => exact ⟨fun row hrow => absurd hrow (by simp [collectCerts]), by simp⟩
  | append_singleton creds e ih =>
    obtain ⟨hrows, hall⟩ := ih
    have hold : ∀ {t : Text} {e' : KeyCredential}, firstEntry creds t = some e' →
        firstEntry (creds ++ [e]) t = some e' := by
      intro t e' h
      unfold firstEntry at h ⊢
      rw [List.find?_append, h, Option.some_or]
    rw [collectCerts_snoc]
    cases hthumb : e.thumbprint with
    | none =>
      refine ⟨fun row hrow => ?_, fun e' he' t ht => ?_⟩
      · obtain ⟨e', he', hrow'⟩ := hrows row hrow
        exact ⟨e', hold he', hrow'⟩
      · rcases List.mem_append.1 he' with he' | he'
        · exact hall e' he' t ht
        · obtain rfl := List.mem_singleton.1 he'
          exact absurd (hthumb.symm.trans ht) (by simp)
    | some t =>
      have hsame : ∀ row ∈ collectCerts preferred now creds,
          Text.eqIgnoreAsciiCase row.thumbprint t = true ↔ row.thumbprint = t := by
        intro row hrow
        obtain ⟨e', he', -⟩ := hrows row hrow
        exact eqIgnoreAsciiCase_hex (KeyCredential.thumbprint_hex (firstEntry_eq_some he').2)
          (KeyCredential.thumbprint_hex hthumb)
      dsimp only
      split
      · next hany =>
        obtain ⟨row₀, hrow₀, hrow₀t⟩ := List.any_eq_true.1 hany
        refine ⟨fun row hrow => ?_, fun e' he' t' ht' => ?_⟩
        · obtain ⟨e', he', hrow'⟩ := hrows row hrow
          exact ⟨e', hold he', hrow'⟩
        · rcases List.mem_append.1 he' with he' | he'
          · exact hall e' he' t' ht'
          · obtain rfl := List.mem_singleton.1 he'
            obtain rfl := Option.some.inj (hthumb.symm.trans ht')
            exact ⟨row₀, hrow₀, (hsame row₀ hrow₀).1 hrow₀t⟩
      · next hnone =>
        have hfirst : firstEntry creds t = none := by
          rw [firstEntry_eq_none]
          intro e' he' ht'
          obtain ⟨row, hrow, hrowt⟩ := hall e' he' t ht'
          exact hnone (List.any_eq_true.2 ⟨row, hrow, (hsame row hrow).2 hrowt⟩)
        refine ⟨fun row hrow => ?_, fun e' he' t' ht' => ?_⟩
        · rcases List.mem_append.1 hrow with hrow | hrow
          · obtain ⟨e', he', hrow'⟩ := hrows row hrow
            exact ⟨e', hold he', hrow'⟩
          · obtain rfl := List.mem_singleton.1 hrow
            refine ⟨e, ?_, rfl⟩
            show firstEntry (creds ++ [e]) t = some e
            unfold firstEntry at hfirst ⊢
            rw [List.find?_append, hfirst, Option.none_or]
            simp [hthumb]
        · rcases List.mem_append.1 he' with he' | he'
          · obtain ⟨row, hrow, hrowt⟩ := hall e' he' t' ht'
            exact ⟨row, List.mem_append_left _ hrow, hrowt⟩
          · obtain rfl := List.mem_singleton.1 he'
            obtain rfl := Option.some.inj (hthumb.symm.trans ht')
            exact ⟨_, List.mem_append_right _ (List.mem_singleton.2 rfl), rfl⟩

/-- What a row of the view says: its certificate's first entry, whether it is the preferred one, and when
    it counts as superseded. -/
structure RowFacts (sp : ServicePrincipal) (now : Int) (row : SigningCert) (e : KeyCredential) : Prop where
  first : firstEntry sp.keyCredentials row.thumbprint = some e
  keyId : row.keyId = e.keyId
  active : row.isActive = isActiveRow (preferredThumbprint sp) row.thumbprint
  expired : row.status = .expired ↔ isExpired now e.endDateTime = true
  signing : row.status = .active → row.isActive = true
  superseded : row.status = .superseded → ∃ t' e', isActiveRow (preferredThumbprint sp) t' = true ∧
    firstEntry sp.keyCredentials t' = some e' ∧ isExpired now e'.endDateTime = false

variable {row : SigningCert}

theorem certRows_facts (sp : ServicePrincipal) (now : Int)
    (hrow : row ∈ (buildRollover sp now).certs) : ∃ e, RowFacts sp now row e := by
  have hmem : row ∈ (collectCerts (preferredThumbprint sp) now sp.keyCredentials).map (fun cert =>
    { cert with status := statusOf now (((collectCerts (preferredThumbprint sp) now
      sp.keyCredentials).find? (·.isActive)).bind (·.endDateTime)) cert }) :=
    List.mem_mergeSort.1 hrow
  obtain ⟨cert, hcert, rfl⟩ := List.mem_map.1 hmem
  obtain ⟨hrows, -⟩ := collectCerts_rows (preferredThumbprint sp) now sp.keyCredentials
  obtain ⟨e, he, heq⟩ := hrows cert hcert
  have hend : cert.endDateTime = e.endDateTime := by rw [heq]; rfl
  refine ⟨e, he, by rw [heq]; rfl, by rw [heq]; rfl, ?_, fun hsigning => ?_, fun hsuper => ?_⟩
  · show statusOf now _ cert = .expired ↔ _
    unfold statusOf
    rw [← hend]
    split
    · next h => exact iff_of_true rfl h
    · next h =>
      refine iff_of_false ?_ h
      split
      · simp
      · split <;> simp
  · change statusOf now _ cert = .active at hsigning
    show cert.isActive = true
    unfold statusOf at hsigning
    split at hsigning
    · nomatch hsigning
    · split at hsigning
      · next hactive => exact hactive
      · split at hsigning <;> nomatch hsigning
  · change statusOf now _ cert = .superseded at hsuper
    unfold statusOf at hsuper
    split at hsuper
    · exact absurd hsuper (by simp)
    · split at hsuper
      · exact absurd hsuper (by simp)
      · split at hsuper
        · exact absurd hsuper (by simp)
        · next hstaged =>
          rw [Bool.or_eq_true, not_or] at hstaged
          obtain ⟨hexpired, hall⟩ := hstaged
          cases hfind : (collectCerts (preferredThumbprint sp) now sp.keyCredentials).find?
              (·.isActive) with
          | none =>
            rw [hfind] at hall
            exact absurd rfl hall
          | some active =>
            rw [hfind] at hexpired
            obtain ⟨e', he', heq'⟩ := hrows active (List.mem_of_find?_eq_some hfind)
            have hactive : active.isActive = true := List.find?_some hfind
            have hend' : active.endDateTime = e'.endDateTime := by rw [heq']; rfl
            refine ⟨active.thumbprint, e', ?_, he', ?_⟩
            · rw [heq'] at hactive
              exact hactive
            · rw [← hend']
              simpa using hexpired

/-! ## The preferred thumbprint -/

/-- The preferred thumbprint names the certificate. -/
def Names (sp : ServicePrincipal) (t : Text) : Prop :=
  ∃ raw, sp.preferredTokenSigningKeyThumbprint = some raw ∧ Text.eqIgnoreAsciiCase (Text.trim raw) t = true

variable {sp : ServicePrincipal}

theorem isActiveRow_iff {t : Text} : isActiveRow (preferredThumbprint sp) t = true ↔ Names sp t := by
  unfold isActiveRow preferredThumbprint Names
  cases sp.preferredTokenSigningKeyThumbprint with
  | none => simp
  | some raw =>
    simp only [Option.map_some, Option.any_some, Option.some.injEq, exists_eq_left']
    cases hcanonical : canonical raw with
    | none => rfl
    | some c =>
      simp only [Option.filter_some]
      split
      · next hsame =>
        rw [Option.getD_some, trim_hex (canonical_hex hcanonical), Text.eqIgnoreAsciiCase_iff,
          Text.eqIgnoreAsciiCase_iff, Text.eqIgnoreAsciiCase_iff.1 hsame]
      · rfl

/-- The preferred thumbprint names a certificate that is there. -/
def PreferredPresent (sp : ServicePrincipal) : Prop :=
  ∃ t e, Names sp t ∧ firstEntry sp.keyCredentials t = some e

structure Sound (sp : ServicePrincipal) : Prop where
  preferred : PreferredPresent sp
  keyIds : (sp.keyCredentials.map (·.keyId)).Nodup

/-! ## The directory -/

/-- The service principal, and the time of the command. -/
structure State where
  sp : ServicePrincipal
  now : Int

/-- What `addTokenSigningCertificate` adds: two keys and a password under one new identifier. -/
def Added (sp sp' : ServicePrincipal) : Prop :=
  ∃ (sign verify : KeyCredential) (password : PasswordCredential) (identifier t : Text),
    canonical identifier = some t ∧ sign.customKeyIdentifier = some identifier ∧
    verify.customKeyIdentifier = some identifier ∧ password.customKeyIdentifier = some identifier ∧
    firstEntry sp.keyCredentials t = none ∧
    ((sp.keyCredentials ++ [sign, verify]).map (·.keyId)).Nodup ∧
    sp' = { sp with
      keyCredentials := sp.keyCredentials ++ [sign, verify]
      passwordCredentials := sp.passwordCredentials ++ [password] }

/-- A read answers what is there, and a write is applied or fails without effect. -/
def world : World Answer State
  | s, .getSsoFields, r, s' => s' = s ∧ ∀ sp, r = .ok (some sp) → sp = s.sp
  | s, .utcNow, r, s' => s' = s ∧ r = s.now
  | s, .patchPreferred t, r, s' =>
    match r with
    | .ok () => s' = { s with sp := { s.sp with preferredTokenSigningKeyThumbprint := some t } }
    | .error _ => s' = s
  | s, .getCredentials, r, s' => s' = s ∧ ∀ keys passwords, r = .ok (keys, passwords) →
      keys = s.sp.keyCredentials ∧ passwords = s.sp.passwordCredentials
  | s, .patchCredentials keys passwords, r, s' =>
    match r with
    | .ok () => s' = { s with sp := { s.sp with
        keyCredentials := keys
        passwordCredentials := passwords } }
    | .error _ => s' = s
  | s, .addTokenSigningCertificate _ _, r, s' =>
    match r with
    | .ok _ => Added s.sp s'.sp ∧ s'.now = s.now
    | .error _ => s' = s
  | s, .invalidateCertBoard, _, s' => s' = s

/-- The service principal without a certificate: no key and no password of its thumbprint. -/
def ServicePrincipal.without (sp : ServicePrincipal) (t : Text) : ServicePrincipal :=
  { sp with
    keyCredentials := sp.keyCredentials.filter (fun e => e.thumbprint != some t)
    passwordCredentials := sp.passwordCredentials.filter (fun e => e.thumbprint != some t) }

/-- The identifiers of its keys and passwords. -/
def ServicePrincipal.identifiers (sp : ServicePrincipal) : List (Option Text) :=
  sp.keyCredentials.map (·.customKeyIdentifier) ++ sp.passwordCredentials.map (·.customKeyIdentifier)

/-- Where the guard lets a retire on, the identifiers that are the certificate's but for case are those of
    its thumbprint. -/
def Matched (sp : ServicePrincipal) (now : Int) (keyId : Text) : Prop :=
  ∀ row, retireTarget (buildRollover sp now) keyId = .ok row →
    ∀ target ∈ sp.keyCredentials, target.keyId = keyId → ∀ identifier ∈ sp.identifiers,
      sameIdentifier identifier target.customKeyIdentifier =
        (identifier.bind canonical == target.thumbprint)

/-! ## A retire -/

theorem retireTarget_ok {roll : SigningCertRollover} {keyId : Text} (h : retireTarget roll keyId = .ok row) :
    row ∈ roll.certs ∧ row.keyId = keyId ∧ row.isActive = false ∧ row.status ≠ .staged := by
  unfold retireTarget at h
  split at h
  · nomatch h
  · next target hfind =>
    split at h
    · nomatch h
    · next hactive =>
      split at h
      · nomatch h
      · next hstaged =>
        obtain rfl := Except.ok.inj h
        exact ⟨List.mem_of_find?_eq_some hfind, beq_iff_eq.1 (List.find?_some hfind :),
          Bool.eq_false_of_not_eq_true hactive, hstaged⟩

/-- The certificate a retire removes, and what it leaves. -/
def Retired (sp : ServicePrincipal) (now : Int) (keyId : Text) (sp' : ServicePrincipal) : Prop :=
  ∃ row e, retireTarget (buildRollover sp now) keyId = .ok row ∧ RowFacts sp now row e ∧ e.keyId = keyId ∧
    sp' = sp.without row.thumbprint

theorem firstEntry_without {t t' : Text} (hne : t' ≠ t) :
    firstEntry (sp.without t).keyCredentials t' = firstEntry sp.keyCredentials t' := by
  unfold firstEntry ServicePrincipal.without
  dsimp only
  rw [List.find?_filter]
  congr 1
  funext e
  by_cases h : e.thumbprint = some t'
  · simp [h, hne]
  · simp [h]

variable {sp sp' : ServicePrincipal}

theorem Retired.sound {now : Int} {keyId : Text} (hs : Sound sp)
    (h : Retired sp now keyId sp') : Sound sp' := by
  obtain ⟨row, e, hok, hrow, -, rfl⟩ := h
  obtain ⟨t, e', hnames, hfirst⟩ := hs.preferred
  have hne : t ≠ row.thumbprint := by
    rintro rfl
    have hactive := hrow.active.trans (isActiveRow_iff.2 hnames)
    exact absurd hactive (by rw [(retireTarget_ok hok).2.2.1]; simp)
  refine ⟨⟨t, e', hnames, (firstEntry_without hne).trans hfirst⟩, ?_⟩
  exact hs.keyIds.sublist (List.filter_sublist.map _)

theorem eq_of_keyId (hs : Sound sp) {e e' : KeyCredential}
    (he : e ∈ sp.keyCredentials) (he' : e' ∈ sp.keyCredentials) (h : e.keyId = e'.keyId) : e = e' :=
  List.inj_on_of_nodup_map hs.keyIds he he' h

/-- What the removal keeps, where the identifiers match. -/
theorem kept_eq_without (hs : Sound sp) {now : Int} {keyId t : Text}
    {target : KeyCredential} (hmatched : Matched sp now keyId)
    (hok : retireTarget (buildRollover sp now) keyId = .ok row) (htarget : target ∈ sp.keyCredentials)
    (hkey : target.keyId = keyId) (ht : target.thumbprint = some t) :
    { sp with
      keyCredentials := sp.keyCredentials.filter (fun c =>
        if sameIdentifier c.customKeyIdentifier target.customKeyIdentifier then false else c.keyId != keyId)
      passwordCredentials := sp.passwordCredentials.filter
        (fun c => !sameIdentifier c.customKeyIdentifier target.customKeyIdentifier) } = sp.without t := by
  have hsame := hmatched row hok target htarget hkey
  unfold ServicePrincipal.without
  congr 1
  · refine List.filter_congr fun c hc => ?_
    rw [hsame _ (List.mem_append_left _ (List.mem_map_of_mem hc)), ht]
    show (if (c.thumbprint == some t) = true then false else c.keyId != keyId) = (c.thumbprint != some t)
    by_cases hct : c.thumbprint = some t
    · simp [hct]
    · have hother : c.keyId ≠ keyId := by
        intro hck
        rw [eq_of_keyId hs hc htarget (hck.trans hkey.symm)] at hct
        exact hct ht
      rw [if_neg (by simpa using hct), bne_iff_ne.2 hother, bne_iff_ne.2 hct]
  · refine List.filter_congr fun c hc => ?_
    rw [hsame _ (List.mem_append_right _ (List.mem_map_of_mem hc)), ht]
    rfl

/-! ## Commands -/

/-- What a command does to the service principal it finds. -/
def Change (s : State) : Command → State → Except UiError Outcome → Prop
  | .retire keyId, s', r => Retired s.sp s.now keyId s'.sp ∨ s'.sp = s.sp ∧ ∀ outcome, r ≠ .ok outcome
  | _, s', _ => ∃ added, s'.sp.keyCredentials = s.sp.keyCredentials ++ added

/-- Whatever is asked is asked while the preferred certificate is there. -/
def askedSound (s : State) (_ : Call) : Prop := Sound s.sp

variable {s : State}

/-- The view is made of the live state, and changes nothing. -/
theorem getSigningCertRollover_meets (hs : Sound s.sp) :
    Meets world askedSound (fun s' r => s' = s ∧ ∀ roll, r = .ok roll → roll = buildRollover s.sp s.now) s
      getSigningCertRollover := by
  refine Meets.bind ⟨hs, fun r s₁ hw => ?_⟩
  obtain ⟨rfl, hlive⟩ := hw
  cases r with
  | error err => exact Meets.pure ⟨rfl, fun roll h => nomatch h⟩
  | ok found =>
    cases found with
    | none => exact Meets.pure ⟨rfl, fun roll h => nomatch h⟩
    | some sp =>
      obtain rfl := hlive sp rfl
      refine Meets.bind ⟨hs, fun now s₂ hw' => ?_⟩
      obtain ⟨rfl, rfl⟩ := hw'
      exact Meets.pure ⟨rfl, fun roll h => (Except.ok.inj h).symm⟩

/-- The view that a command ends with. -/
theorem lastView_meets (hs : Sound s.sp) {post : State → Except UiError Outcome → Prop}
    (hpost : ∀ r, post s r) :
    Meets world askedSound post s (do return (← getSigningCertRollover).map .rollover) := by
  refine Meets.bind ((getSigningCertRollover_meets hs).mono (fun s' r hr => ?_))
  obtain ⟨rfl, -⟩ := hr
  exact Meets.pure (hpost _)

/-- The removal, where the guard lets it on. -/
theorem removal_meets (hs : Sound s.sp) {keyId : Text} (hmatched : Matched s.sp s.now keyId)
    (hok : retireTarget (buildRollover s.sp s.now) keyId = .ok row) :
    Meets world askedSound (fun s' r => r = .ok () ∧ s'.now = s.now ∧ Retired s.sp s.now keyId s'.sp ∨
      s' = s ∧ ∃ err, r = .error err) s (removeServicePrincipalKeyCredential keyId) := by
  obtain ⟨hrow, hkey, -, -⟩ := retireTarget_ok hok
  obtain ⟨e, he⟩ := certRows_facts s.sp s.now hrow
  refine Meets.bind ⟨hs, fun r s₁ hw => ?_⟩
  obtain ⟨rfl, hlive⟩ := hw
  cases r with
  | error err => exact Meets.pure (.inr ⟨rfl, _, rfl⟩)
  | ok found =>
    obtain ⟨entries, passwords⟩ := found
    obtain ⟨rfl, rfl⟩ := hlive entries passwords rfl
    refine Meets.pure ?_
    dsimp only
    split
    · exact Meets.pure (.inr ⟨rfl, _, rfl⟩)
    · next target hfind =>
      have htarget := List.mem_of_find?_eq_some hfind
      have htkey : target.keyId = keyId := by simpa using List.find?_some hfind
      obtain ⟨hmem, hthumb⟩ := firstEntry_eq_some he.first
      have heq : target = e := eq_of_keyId hs htarget hmem (htkey.trans (hkey.symm.trans he.keyId))
      refine Meets.bind ⟨hs, fun r s₂ hw => ?_⟩
      cases r with
      | error err => exact Meets.pure (.inr ⟨hw, _, rfl⟩)
      | ok u =>
        obtain rfl := hw
        refine Meets.pure (.inl ⟨rfl, rfl, row, e, hok, he, he.keyId.symm.trans hkey, ?_⟩)
        exact kept_eq_without hs hmatched hok htarget htkey (heq ▸ hthumb)

theorem retire_meets (hs : Sound s.sp) {keyId : Text} (hmatched : Matched s.sp s.now keyId) :
    Meets world askedSound (fun s' r => Sound s'.sp ∧ s'.now = s.now ∧ Change s (.retire keyId) s' r) s
      (retireSamlSigningCertificate keyId) := by
  refine Meets.bind ((getSigningCertRollover_meets hs).mono (fun s₁ r hr => ?_))
  obtain ⟨rfl, hlive⟩ := hr
  cases r with
  | error err => exact Meets.pure ⟨hs, rfl, .inr ⟨rfl, fun _ h => nomatch h⟩⟩
  | ok before =>
    obtain rfl := hlive before rfl
    dsimp only
    split
    · exact Meets.pure ⟨hs, rfl, .inr ⟨rfl, fun _ h => nomatch h⟩⟩
    · next row hok =>
      refine Meets.bind ((removal_meets hs hmatched hok).mono (fun s₂ r hr => ?_))
      rcases hr with ⟨rfl, hnow, hretired⟩ | ⟨rfl, err, rfl⟩
      · have hsound := hretired.sound hs
        refine Meets.bind ⟨hsound, fun u s₃ hw => ?_⟩
        obtain rfl := hw
        exact lastView_meets hsound (fun r => ⟨hsound, hnow, .inl hretired⟩)
      · exact Meets.pure ⟨hs, rfl, .inr ⟨rfl, fun _ h => nomatch h⟩⟩

/-- The thumbprint of a row may be made the preferred one. -/
theorem Sound.prefer (hs : Sound sp) {t : Text} {e : KeyCredential}
    (he : firstEntry sp.keyCredentials t = some e) :
    Sound { sp with preferredTokenSigningKeyThumbprint := some t } := by
  have hhex := KeyCredential.thumbprint_hex (firstEntry_eq_some he).2
  refine ⟨⟨t, e, ⟨t, rfl, ?_⟩, he⟩, hs.keyIds⟩
  rw [trim_hex hhex]
  exact (eqIgnoreAsciiCase_hex hhex hhex).2 rfl

theorem activationTarget_mem {roll : SigningCertRollover} {thumbprint : Text}
    (h : activationTarget roll thumbprint = .ok (some row)) : row ∈ roll.certs := by
  unfold activationTarget at h
  split at h
  · nomatch h
  · next target hfind =>
    split at h
    · nomatch h
    · split at h
      · nomatch h
      · obtain rfl := Option.some.inj (Except.ok.inj h)
        exact List.mem_of_find?_eq_some hfind

/-- The activation leaves the credentials as they are. -/
theorem activate_meets (hs : Sound s.sp) (thumbprint : Text) :
    Meets world askedSound (fun s' _ => Sound s'.sp ∧ s'.now = s.now ∧
      s'.sp.keyCredentials = s.sp.keyCredentials) s (setPreferredSigningKey thumbprint) := by
  refine Meets.bind ((getSigningCertRollover_meets hs).mono (fun s₁ r hr => ?_))
  obtain ⟨rfl, hlive⟩ := hr
  cases r with
  | error err => exact Meets.pure ⟨hs, rfl, rfl⟩
  | ok before =>
    obtain rfl := hlive before rfl
    dsimp only
    split
    · exact Meets.pure ⟨hs, rfl, rfl⟩
    · exact Meets.pure ⟨hs, rfl, rfl⟩
    · next row hok =>
      obtain ⟨e, he⟩ := certRows_facts s₁.sp s₁.now (activationTarget_mem hok)
      refine Meets.bind ⟨hs, fun r s₂ hw => ?_⟩
      cases r with
      | error err =>
        obtain rfl := hw
        exact Meets.pure ⟨hs, rfl, rfl⟩
      | ok u =>
        obtain rfl := hw
        have hsound := hs.prefer he.first
        refine Meets.bind ⟨hsound, fun u s₃ hw => ?_⟩
        obtain rfl := hw
        exact lastView_meets hsound (fun r => ⟨hsound, rfl, rfl⟩)

theorem Added.sound (hs : Sound sp) (h : Added sp sp') : Sound sp' := by
  obtain ⟨sign, verify, password, identifier, t, -, -, -, -, -, hkeys, rfl⟩ := h
  obtain ⟨t', e, hnames, hfirst⟩ := hs.preferred
  refine ⟨⟨t', e, hnames, ?_⟩, hkeys⟩
  show firstEntry (sp.keyCredentials ++ [sign, verify]) t' = some e
  unfold firstEntry at hfirst ⊢
  rw [List.find?_append, hfirst, Option.some_or]

theorem stage_meets (hs : Sound s.sp) (subject : Text) (lifetimeDays : Option Nat) :
    Meets world askedSound (fun s' _ => Sound s'.sp ∧ s'.now = s.now ∧
      ∃ added, s'.sp.keyCredentials = s.sp.keyCredentials ++ added) s
      (stageSamlSigningCertificate subject lifetimeDays) := by
  have hsame : ∃ added, s.sp.keyCredentials = s.sp.keyCredentials ++ added := ⟨[], by simp⟩
  unfold stageSamlSigningCertificate mintSigningCertificate
  split
  · exact Meets.pure ⟨hs, rfl, hsame⟩
  · dsimp only
    split
    · exact Meets.pure ⟨hs, rfl, hsame⟩
    · refine Meets.bind (Meets.bind ⟨hs, fun now s₁ hw => ?_⟩)
      obtain ⟨rfl, -⟩ := hw
      refine Meets.bind ⟨hs, fun r s₂ hw => ?_⟩
      cases r with
      | error err =>
        obtain rfl := hw
        exact Meets.pure (Meets.pure ⟨hs, rfl, hsame⟩)
      | ok cert =>
        obtain ⟨hadded, hnow⟩ := hw
        have hsound := hadded.sound hs
        obtain ⟨sign, verify, password, identifier, t, -, -, -, -, -, -, heq⟩ := hadded
        refine Meets.pure (Meets.bind ⟨hsound, fun u s₃ hw => ?_⟩)
        obtain rfl := hw
        exact Meets.pure ⟨hsound, hnow, [sign, verify], by rw [heq]⟩

/-- Every command keeps the service principal sound, and changes it as it should. -/
theorem command_meets (hs : Sound s.sp) (cmd : Command)
    (hmatched : ∀ keyId, cmd = .retire keyId → Matched s.sp s.now keyId) :
    Meets world askedSound (fun s' r => Sound s'.sp ∧ s'.now = s.now ∧ Change s cmd s' r) s
      cmd.program := by
  cases cmd with
  | stage subject lifetimeDays => exact stage_meets hs subject lifetimeDays
  | activate thumbprint | revert thumbprint =>
    refine (activate_meets hs thumbprint).mono (fun s' r hr => ⟨hr.1, hr.2.1, [], ?_⟩)
    rw [hr.2.2, List.append_nil]
  | retire keyId => exact retire_meets hs (hmatched keyId rfl)

/-! ## Runs -/

/-- A command, when it was issued, and what it answered. -/
structure Issued where
  cmd : Command
  time : Int
  result : Except UiError Outcome

/-- One command after the other, at times that do not decrease. -/
def Step (s : State) (e : Issued) (s' : State) : Prop :=
  s.now ≤ e.time ∧ Exec world ⟨s.sp, e.time⟩ e.cmd.program s' e.result

/-- A step that retires no certificate whose identifiers do not match. -/
def MatchedStep (s : State) (e : Issued) (s' : State) : Prop :=
  Step s e s' ∧ ∀ keyId, e.cmd = .retire keyId → Matched s.sp e.time keyId

/-- The keys and passwords of the certificate are gone, and nothing else. -/
def RemovedExactly (sp : ServicePrincipal) (keyId : Text) (sp' : ServicePrincipal) : Prop :=
  ∃ e ∈ sp.keyCredentials, e.keyId = keyId ∧ ∃ t, e.thumbprint = some t ∧ sp' = sp.without t

/-- An unexpired certificate. -/
def Unexpired (sp : ServicePrincipal) (now : Int) (t : Text) : Prop :=
  ∃ e, firstEntry sp.keyCredentials t = some e ∧ isExpired now e.endDateTime = false

/-- What a command may do: the preferred certificate is there at each call, a retire that succeeds removes
    its certificate and no other, and an unexpired certificate goes only while another one is preferred. -/
structure Harmless (s : State) (e : Issued) (s' : State) : Prop where
  present : ∀ s₁ c, Asks world ⟨s.sp, e.time⟩ e.cmd.program s₁ c → PreferredPresent s₁.sp
  exactly : ∀ keyId outcome, e.cmd = .retire keyId → e.result = .ok outcome →
    RemovedExactly s.sp keyId s'.sp
  covered : ∀ t, Unexpired s.sp e.time t → firstEntry s'.sp.keyCredentials t = none →
    ∃ t', t' ≠ t ∧ Names s.sp t' ∧ Unexpired s.sp e.time t' ∧ Names s'.sp t' ∧ Unexpired s'.sp e.time t'

theorem Retired.removedExactly {now : Int} {keyId : Text}
    (h : Retired sp now keyId sp') : RemovedExactly sp keyId sp' := by
  obtain ⟨row, e, -, hrow, hkey, rfl⟩ := h
  obtain ⟨hmem, hthumb⟩ := firstEntry_eq_some hrow.first
  exact ⟨e, hmem, hkey, row.thumbprint, hthumb, rfl⟩

/-- The guard lets an unexpired certificate go only where another one signs. -/
theorem Retired.covered {now : Int} {keyId t : Text} (h : Retired sp now keyId sp') (ht : Unexpired sp now t)
    (hgone : firstEntry sp'.keyCredentials t = none) :
    ∃ t', t' ≠ t ∧ Names sp t' ∧ Unexpired sp now t' ∧ Names sp' t' ∧ Unexpired sp' now t' := by
  obtain ⟨row, e, hok, hrow, -, rfl⟩ := h
  obtain ⟨e₀, he₀, hunexpired⟩ := ht
  obtain ⟨-, -, hinactive, hnotStaged⟩ := retireTarget_ok hok
  have htrow : t = row.thumbprint := by
    by_contra hne
    rw [firstEntry_without hne, he₀] at hgone
    nomatch hgone
  obtain rfl : e = e₀ := Option.some.inj (hrow.first.symm.trans (htrow ▸ he₀))
  have hsuperseded : row.status = .superseded := by
    cases hstatus : row.status with
    | active => exact absurd (hrow.signing hstatus) (by rw [hinactive]; exact Bool.false_ne_true)
    | staged => exact absurd hstatus hnotStaged
    | superseded => rfl
    | expired => exact absurd (hrow.expired.1 hstatus) (by rw [hunexpired]; exact Bool.false_ne_true)
  obtain ⟨t', e', hactive, he', hlive⟩ := hrow.superseded hsuperseded
  have hne : t' ≠ row.thumbprint := by
    rintro rfl
    rw [← hrow.active, hinactive] at hactive
    exact Bool.false_ne_true hactive
  have hnames := isActiveRow_iff.1 hactive
  exact ⟨t', htrow ▸ hne, hnames, ⟨e', he', hlive⟩, hnames, e', (firstEntry_without hne).trans he', hlive⟩

theorem firstEntry_append_ne_none {creds added : List KeyCredential} {t : Text} {e : KeyCredential}
    (h : firstEntry creds t = some e) : firstEntry (creds ++ added) t ≠ none := by
  unfold firstEntry at h ⊢
  rw [List.find?_append, h, Option.some_or]
  exact Option.some_ne_none e

/-- What a command did tells that it was harmless. -/
theorem Change.harmless {e : Issued} {s' : State}
    (hpresent : ∀ s₁ c, Asks world ⟨s.sp, e.time⟩ e.cmd.program s₁ c → PreferredPresent s₁.sp)
    (h : Change ⟨s.sp, e.time⟩ e.cmd s' e.result) : Harmless s e s' := by
  refine ⟨hpresent, fun keyId outcome hcmd hresult => ?_, fun t ht hgone => ?_⟩
  · rw [hcmd, hresult] at h
    rcases h with h | ⟨-, hfailed⟩
    · exact h.removedExactly
    · exact absurd rfl (hfailed outcome)
  · obtain ⟨e₀, he₀, hunexpired⟩ := ht
    cases hcmd : e.cmd with
    | retire keyId =>
      rw [hcmd] at h
      rcases h with h | ⟨hsame, -⟩
      · exact h.covered ⟨e₀, he₀, hunexpired⟩ hgone
      · rw [hsame, he₀] at hgone
        nomatch hgone
    | stage subject lifetimeDays | activate thumbprint | revert thumbprint =>
      rw [hcmd] at h
      obtain ⟨added, hkeys⟩ := h
      exact absurd (hkeys ▸ hgone) (firstEntry_append_ne_none he₀)

theorem matchedStep_sound {s s' : State} {e : Issued} (hs : Sound s.sp) (h : MatchedStep s e s') :
    Sound s'.sp ∧ Harmless s e s' := by
  obtain ⟨⟨-, hexec⟩, hmatched⟩ := h
  have hmeets := command_meets (s := ⟨s.sp, e.time⟩) hs e.cmd hmatched
  obtain ⟨hsound, -, hchange⟩ := hmeets.sound hexec
  exact ⟨hsound, hchange.harmless (fun s₁ c hasks => (hmeets.asked hasks).preferred)⟩

/-- While retires meet matched identifiers only, the rollover never breaks sign-in. -/
theorem rollover_keeps_sign_in {s₀ s : State} {tr : List Issued} (hs : Sound s₀.sp)
    (hrun : Run MatchedStep s₀ tr s) :
    PreferredPresent s.sp ∧ ∀ e s', MatchedStep s e s' → Harmless s e s' ∧ PreferredPresent s'.sp := by
  have hsound : Sound s.sp := hrun.invariant (fun _ s => Sound s.sp) hs
    (fun tr t e u _ ht hstep => (matchedStep_sound ht hstep).1)
  refine ⟨hsound.preferred, fun e s' hstep => ?_⟩
  obtain ⟨hsound', hharmless⟩ := matchedStep_sound hsound hstep
  exact ⟨hharmless, hsound'.preferred⟩

/-! ## Two certificates -/

/-- A directory where every call succeeds. -/
def serve (s : State) : (c : Call) → Option (Answer c × State)
  | .getSsoFields => some (.ok (some s.sp), s)
  | .utcNow => some (s.now, s)
  | .patchPreferred t => some (.ok (), { s with sp := { s.sp with preferredTokenSigningKeyThumbprint := some t } })
  | .getCredentials => some (.ok (s.sp.keyCredentials, s.sp.passwordCredentials), s)
  | .patchCredentials keys passwords => some (.ok (), { s with sp := { s.sp with
      keyCredentials := keys
      passwordCredentials := passwords } })
  | .addTokenSigningCertificate _ _ => none
  | .invalidateCertBoard => some ((), s)

theorem world_of_serve (s : State) (c : Call) (r : Answer c) (s' : State) (h : serve s c = some (r, s')) :
    world s c r s' := by
  cases c with
  | getSsoFields =>
    obtain ⟨rfl, rfl⟩ := Prod.mk.inj (Option.some.inj h)
    exact ⟨rfl, fun sp heq => (Option.some.inj (Except.ok.inj heq)).symm⟩
  | utcNow =>
    obtain ⟨rfl, rfl⟩ := Prod.mk.inj (Option.some.inj h)
    exact ⟨rfl, rfl⟩
  | patchPreferred t =>
    obtain ⟨rfl, rfl⟩ := Prod.mk.inj (Option.some.inj h)
    exact rfl
  | getCredentials =>
    obtain ⟨rfl, rfl⟩ := Prod.mk.inj (Option.some.inj h)
    exact ⟨rfl, fun keys passwords heq => (Prod.mk.inj (Except.ok.inj heq)).imp Eq.symm Eq.symm⟩
  | patchCredentials keys passwords =>
    obtain ⟨rfl, rfl⟩ := Prod.mk.inj (Option.some.inj h)
    exact rfl
  | addTokenSigningCertificate displayName endDateTime => nomatch h
  | invalidateCertBoard =>
    obtain ⟨rfl, rfl⟩ := Prod.mk.inj (Option.some.inj h)
    exact rfl

/-- The two halves and the password of two certificates, the first of them preferred. -/
def pair (active old : Text) (preferred : Text) : ServicePrincipal where
  appId := "app".toList
  preferredTokenSigningKeyThumbprint := some preferred
  keyCredentials := [
    ⟨"a1".toList, some active, some 2000⟩, ⟨"a2".toList, some active, some 2000⟩,
    ⟨"b1".toList, some old, some 1000⟩, ⟨"b2".toList, some old, some 1000⟩]
  passwordCredentials := [⟨"a1".toList, some active⟩, ⟨"b1".toList, some old⟩]

def sharedText : ServicePrincipal :=
  pair "AAAAAAAAAAAAAAAAAAAAAAAAAA8=".toList "aAAAAAAAAAAAAAAAAAAAAAAAAA8=".toList
    "000000000000000000000000000000000000000F".toList

theorem sound_pair {active old preferred t : Text} (hcanonical : canonical active = some t)
    (hsame : Text.eqIgnoreAsciiCase (Text.trim preferred) t = true) : Sound (pair active old preferred) := by
  refine ⟨⟨t, ⟨"a1".toList, some active, some 2000⟩, ⟨preferred, rfl, hsame⟩, ?_⟩, ?_⟩
  · have hthumb : (⟨"a1".toList, some active, some 2000⟩ : KeyCredential).thumbprint = some t := hcanonical
    exact List.find?_cons_of_pos (by rw [hthumb]; exact beq_self_eq_true _)
  · show ["a1".toList, "a2".toList, "b1".toList, "b2".toList].Nodup
    decide

/-- The rows of the two certificates. -/
def pairRows (active old : Text) : List SigningCert :=
  [⟨"a1".toList, active, some 2000, true, some 0, .active⟩,
    ⟨"b1".toList, old, some 1000, false, some 0, .superseded⟩]

/-- What a removal of the old certificate leaves. -/
def pairLeft (active old preferred : Text) : ServicePrincipal :=
  { pair active old preferred with
    keyCredentials := (pair active old preferred).keyCredentials.filter (fun c =>
      if sameIdentifier c.customKeyIdentifier (some old) then false else c.keyId != "b1".toList)
    passwordCredentials := (pair active old preferred).passwordCredentials.filter
      (fun c => !sameIdentifier c.customKeyIdentifier (some old)) }

/-- The removal of the old certificate, where the guard sees both rows. -/
theorem retire_pair (active old preferred t t' : Text)
    (hrows : collectCerts (preferredThumbprint (pair active old preferred)) 0
      (pair active old preferred).keyCredentials =
        [⟨"a1".toList, t, some 2000, true, some 0, .expired⟩,
          ⟨"b1".toList, t', some 1000, false, some 0, .expired⟩]) :
    ∃ r s, Exec world ⟨pair active old preferred, 0⟩ (retireSamlSigningCertificate "b1".toList) s r ∧
      s.sp = pairLeft active old preferred := by
  have hcerts : certRows (preferredThumbprint (pair active old preferred)) 0
      (pair active old preferred).keyCredentials = pairRows t t' := by
    unfold certRows
    rw [hrows]
    exact List.mergeSort_of_pairwise (List.pairwise_pair.2 rfl)
  have hok : retireTarget (buildRollover (pair active old preferred) 0) "b1".toList =
      .ok ⟨"b1".toList, t', some 1000, false, some 0, .superseded⟩ := by
    unfold retireTarget buildRollover
    dsimp only
    rw [hcerts]
    rfl
  have hrun : run serve (retireSamlSigningCertificate "b1".toList) ⟨pair active old preferred, 0⟩ =
      some (.ok (.rollover (buildRollover (pairLeft active old preferred) 0)),
        ⟨pairLeft active old preferred, 0⟩) := by
    have hread : run serve getSigningCertRollover ⟨pair active old preferred, 0⟩ =
        some (.ok (buildRollover (pair active old preferred) 0), ⟨pair active old preferred, 0⟩) := rfl
    unfold retireSamlSigningCertificate
    rw [run_bind, hread]
    dsimp only [Option.bind_some]
    rw [hok]
    rfl
  exact ⟨_, _, exec_of_run world_of_serve hrun, rfl⟩

/-- Two certificates whose identifiers differ in case only go together. -/
theorem retire_deletes_live_certificate :
    ∃ (s₀ : State) (tr : List Issued) (s : State), Sound s₀.sp ∧ Run Step s₀ tr s ∧
      ¬ PreferredPresent s.sp := by
  obtain ⟨r, s, hexec, hleft⟩ := retire_pair "AAAAAAAAAAAAAAAAAAAAAAAAAA8=".toList
    "aAAAAAAAAAAAAAAAAAAAAAAAAA8=".toList "000000000000000000000000000000000000000F".toList
    "000000000000000000000000000000000000000F".toList "680000000000000000000000000000000000000F".toList
    (by decide)
  refine ⟨⟨sharedText, 0⟩, [⟨.retire "b1".toList, 0, r⟩], s, ?_, Run.single ⟨le_rfl, hexec⟩, ?_⟩
  · exact sound_pair (t := "000000000000000000000000000000000000000F".toList) (by decide)
      (by decide)
  · rintro ⟨t, e, -, hfirst⟩
    have hnil : s.sp.keyCredentials = [] := by
      rw [hleft]
      decide
    rw [hnil] at hfirst
    nomatch hfirst

/-- The same two certificates under identifiers that differ in more than case. -/
def distinctTexts : ServicePrincipal :=
  pair "AAAAAAAAAAAAAAAAAAAAAAAAAA8=".toList "00000000000000000000000000000000000000b0".toList
    "000000000000000000000000000000000000000F".toList

theorem matched_distinctTexts : Matched distinctTexts 0 "b1".toList := by
  intro row _
  decide

theorem retire_keeps_live_certificate : ∃ r s, Run MatchedStep ⟨distinctTexts, 0⟩
      [⟨.retire "b1".toList, 0, r⟩] s ∧ s.sp.keyCredentials.map (·.keyId) = ["a1".toList, "a2".toList] ∧
      PreferredPresent s.sp := by
  obtain ⟨r, s, hexec, hleft⟩ := retire_pair "AAAAAAAAAAAAAAAAAAAAAAAAAA8=".toList
    "00000000000000000000000000000000000000b0".toList "000000000000000000000000000000000000000F".toList
    "000000000000000000000000000000000000000F".toList "00000000000000000000000000000000000000B0".toList
    (by decide)
  have hrun : Run MatchedStep ⟨distinctTexts, 0⟩ [⟨.retire "b1".toList, 0, r⟩] s := by
    refine Run.single ⟨⟨le_rfl, hexec⟩, fun keyId hcmd => ?_⟩
    obtain rfl := Command.retire.inj hcmd
    exact matched_distinctTexts
  have hsound : Sound distinctTexts :=
    sound_pair (t := "000000000000000000000000000000000000000F".toList) (by decide)
      (by decide)
  refine ⟨r, s, hrun, ?_, (@rollover_keeps_sign_in ⟨distinctTexts, 0⟩ _ _ hsound hrun).1⟩
  rw [hleft]
  decide

end Sso
