import AzAppToolkit.Sso.RolloverProofs

set_option autoImplicit false

/-! # What the rollover view says

The rows, the staged thumbprint and the phase of `build_rollover` against the credentials and the time.
The number of days is counted from whole seconds, the status from the exact instants: they agree unless a
certificate expired within the last second. -/

namespace Sso

/-! ## Dates -/

/-- Of two rows the first expires no earlier; an undated row comes last. -/
def NoEarlier (a b : SigningCert) : Prop := ∀ e ∈ b.endDateTime, ∃ d ∈ a.endDateTime, e ≤ d

theorem newestFirst_iff {a b : SigningCert} : newestFirst a b = true ↔ NoEarlier a b := by
  unfold newestFirst NoEarlier
  cases a.endDateTime <;> cases b.endDateTime <;> simp

theorem newestFirst_trans (a b c : SigningCert) (hab : newestFirst a b = true)
    (hbc : newestFirst b c = true) : newestFirst a c = true := by
  rw [newestFirst_iff] at hab hbc ⊢
  intro e he
  obtain ⟨d, hd, hed⟩ := hbc e he
  obtain ⟨d', hd', hdd'⟩ := hab d hd
  exact ⟨d', hd', hed.trans hdd'⟩

theorem newestFirst_total (a b : SigningCert) : (newestFirst a b || newestFirst b a) = true := by
  unfold newestFirst
  cases a.endDateTime with
  | none => cases b.endDateTime <;> rfl
  | some d =>
    cases b.endDateTime with
    | none => rfl
    | some e =>
      rw [Bool.or_eq_true, decide_eq_true_eq, decide_eq_true_eq]
      exact le_total e d

/-- Whole seconds are negative from the first second on. -/
theorem days_neg_iff (nanos : Int) : numSeconds nanos / 86400 < 0 ↔ nanos ≤ -1000000000 := by
  unfold numSeconds
  have hsplit := Int.tmod_add_tdiv_mul nanos 1000000000
  have hlt := Int.tmod_lt_of_pos nanos (show (0 : Int) < 1000000000 by decide)
  have hgt := Int.lt_tmod_of_pos nanos (show (0 : Int) < 1000000000 by decide)
  rcases le_or_gt 0 nanos with hpos | hneg
  · have hmod := Int.tmod_nonneg 1000000000 hpos
    omega
  · have hmod := Int.tmod_nonneg 1000000000 (show 0 ≤ -nanos by omega)
    rw [Int.neg_tmod] at hmod
    omega

theorem isExpired_iff {now : Int} {d : Option Int} : isExpired now d = true ↔ ∃ e, d = some e ∧ e ≤ now := by
  unfold isExpired
  cases d <;> simp

/-! ## The rows before they are sorted -/

variable {row : SigningCert}

section Rows

variable (preferred : Option Text) (now : Int) (creds : List KeyCredential)

theorem collectCerts_nodup : ((collectCerts preferred now creds).map (·.thumbprint)).Nodup := by
  induction creds using List.reverseRecOn with
  | nil => exact List.nodup_nil
  | append_singleton creds e ih =>
    unfold collectCerts at ih ⊢
    rw [List.foldl_append, List.foldl_cons, List.foldl_nil]
    cases hthumb : e.thumbprint with
    | none => exact ih
    | some t =>
      dsimp only
      split
      · exact ih
      · next hnone =>
        rw [List.map_append, List.map_singleton, List.nodup_append]
        refine ⟨ih, List.nodup_singleton _, ?_⟩
        intro s hs t' ht' heq
        obtain ⟨row, hrow, rfl⟩ := List.mem_map.1 hs
        have hsame : row.thumbprint = t := heq.trans (List.mem_singleton.1 ht')
        apply hnone
        refine List.any_eq_true.2 ⟨row, hrow, ?_⟩
        rw [hsame]
        exact Text.eqIgnoreAsciiCase_refl t

/-- A certificate's row is made of its first entry. -/
theorem mem_collectCerts : row ∈ collectCerts preferred now creds ↔
    ∃ e, firstEntry creds row.thumbprint = some e ∧ row = rowOf preferred now e row.thumbprint := by
  obtain ⟨hrows, hall⟩ := collectCerts_rows preferred now creds
  constructor
  · exact hrows row
  · rintro ⟨e, he, hrow⟩
    obtain ⟨hmem, hthumb⟩ := firstEntry_eq_some he
    obtain ⟨row', hrow', ht⟩ := hall e hmem _ hthumb
    obtain ⟨e', he', heq'⟩ := hrows row' hrow'
    rw [ht] at he' heq'
    obtain rfl := Option.some.inj (he.symm.trans he')
    rw [hrow, ← heq']
    exact hrow'

/-- There is one active row at most. -/
theorem active_unique {row row' : SigningCert} (hrow : row ∈ collectCerts preferred now creds)
    (hrow' : row' ∈ collectCerts preferred now creds) (h : row.isActive = true) (h' : row'.isActive = true) :
    row = row' := by
  obtain ⟨e, he, heq⟩ := (mem_collectCerts preferred now creds).1 hrow
  obtain ⟨e', he', heq'⟩ := (mem_collectCerts preferred now creds).1 hrow'
  rw [heq] at h
  rw [heq'] at h'
  change isActiveRow preferred row.thumbprint = true at h
  change isActiveRow preferred row'.thumbprint = true at h'
  unfold isActiveRow at h h'
  obtain ⟨p, rfl, hsame⟩ := (Option.any_eq_true _ _).1 h
  obtain ⟨p', hp', hsame'⟩ := (Option.any_eq_true _ _).1 h'
  obtain rfl := Option.some.inj hp'
  have hthumb : row.thumbprint = row'.thumbprint := by
    rw [← eqIgnoreAsciiCase_hex (KeyCredential.thumbprint_hex (firstEntry_eq_some he).2)
      (KeyCredential.thumbprint_hex (firstEntry_eq_some he').2), Text.eqIgnoreAsciiCase_iff]
    exact (Text.eqIgnoreAsciiCase_iff.1 hsame).symm.trans (Text.eqIgnoreAsciiCase_iff.1 hsame')
  rw [hthumb] at he heq
  obtain rfl := Option.some.inj (he.symm.trans he')
  rw [heq, ← heq']

/-- The expiry the statuses turn on. -/
def activeEnd : Option Int :=
  ((collectCerts preferred now creds).find? (·.isActive)).bind (·.endDateTime)

theorem activeEnd_eq_some_iff {a : Int} : activeEnd preferred now creds = some a ↔
    ∃ cert ∈ collectCerts preferred now creds, cert.isActive = true ∧ cert.endDateTime = some a := by
  unfold activeEnd
  constructor
  · intro h
    obtain ⟨cert, hfind, hend⟩ := Option.bind_eq_some_iff.1 h
    exact ⟨cert, List.mem_of_find?_eq_some hfind, List.find?_some hfind, hend⟩
  · rintro ⟨cert, hcert, hactive, hend⟩
    cases hfind : (collectCerts preferred now creds).find? (·.isActive) with
    | none => exact absurd hactive (by simpa using List.find?_eq_none.1 hfind cert hcert)
    | some cert' =>
      rw [active_unique preferred now creds (List.mem_of_find?_eq_some hfind) hcert
        (List.find?_some hfind) hactive]
      exact hend

def withStatus (activeEnd : Option Int) (cert : SigningCert) : SigningCert :=
  { cert with status := statusOf now activeEnd cert }

theorem certRows_perm : (certRows preferred now creds).Perm
    ((collectCerts preferred now creds).map (withStatus now (activeEnd preferred now creds))) :=
  List.mergeSort_perm _ _

theorem certRows_sorted : (certRows preferred now creds).Pairwise NoEarlier :=
  (List.pairwise_mergeSort newestFirst_trans newestFirst_total _).imp newestFirst_iff.1

theorem mem_certRows : row ∈ certRows preferred now creds ↔
    ∃ cert ∈ collectCerts preferred now creds, withStatus now (activeEnd preferred now creds) cert = row := by
  rw [(certRows_perm preferred now creds).mem_iff, List.mem_map]

end Rows

/-! ## Statuses -/

section Status

variable {now : Int} {activeEnd : Option Int} {cert : SigningCert}

theorem statusOf_expired_iff : statusOf now activeEnd cert = .expired ↔
    ∃ e, cert.endDateTime = some e ∧ e ≤ now := by
  rw [← isExpired_iff]
  unfold statusOf
  split_ifs with hexpired <;> simp [hexpired]

theorem statusOf_active (h : statusOf now activeEnd cert ≠ .expired) :
    statusOf now activeEnd cert = .active ↔ cert.isActive = true := by
  unfold statusOf at h ⊢
  split_ifs at h ⊢ with hexpired hactive <;> simp_all

/-- A valid row that does not sign is superseded by an active one that does not expire before it. -/
theorem statusOf_superseded_iff (h : statusOf now activeEnd cert ≠ .expired)
    (hactive : cert.isActive = false) : statusOf now activeEnd cert = .superseded ↔
      ∃ a, activeEnd = some a ∧ now < a ∧ ∀ e ∈ cert.endDateTime, e ≤ a := by
  have hexpired : ¬ isExpired now cert.endDateTime = true := by
    intro hexpired
    exact h (statusOf_expired_iff.2 (isExpired_iff.1 hexpired))
  unfold statusOf
  rw [if_neg hexpired, if_neg (by rw [hactive]; exact Bool.false_ne_true)]
  cases activeEnd with
  | none => simp
  | some a =>
    cases hend : cert.endDateTime with
    | none => simp [isExpired]
    | some e => simp [isExpired]

theorem statusOf_staged (h : statusOf now activeEnd cert ≠ .expired) (hactive : cert.isActive = false)
    (hsuper : statusOf now activeEnd cert ≠ .superseded) : statusOf now activeEnd cert = .staged := by
  cases hstatus : statusOf now activeEnd cert with
  | active =>
    rw [(statusOf_active h).1 hstatus] at hactive
    exact Bool.noConfusion hactive
  | staged => rfl
  | superseded => exact absurd hstatus hsuper
  | expired => exact absurd hstatus h

end Status

/-! ## The order of the entries -/

/-- What the view shows of its rows: all but the key, of which each half has its own. -/
def shown (row : SigningCert) : SigningCert := { row with keyId := [] }

def SigningCertRollover.shown (roll : SigningCertRollover) : SigningCertRollover :=
  { roll with certs := roll.certs.map Sso.shown }

/-- The entries of one certificate carry the same date. -/
def HalvesAgree (creds : List KeyCredential) : Prop :=
  ∀ e ∈ creds, ∀ e' ∈ creds, ∀ t, e.thumbprint = some t → e'.thumbprint = some t →
    e.endDateTime = e'.endDateTime

/-- Those of two certificates do not. -/
def ExpiriesDistinct (creds : List KeyCredential) : Prop :=
  ∀ e ∈ creds, ∀ e' ∈ creds, ∀ t t', e.thumbprint = some t → e'.thumbprint = some t' → t ≠ t' →
    e.endDateTime ≠ e'.endDateTime

section Order

variable {preferred : Option Text} {now : Int} {creds creds' : List KeyCredential}

theorem firstEntry_isSome_of_mem {e : KeyCredential} {t : Text} (he : e ∈ creds)
    (ht : e.thumbprint = some t) : ∃ first, firstEntry creds t = some first := by
  cases hfirst : firstEntry creds t with
  | none => exact absurd ht (firstEntry_eq_none.1 hfirst e he)
  | some first => exact ⟨first, rfl⟩

/-- Without their keys the rows are the same in every order. -/
theorem mem_shown_of_perm (hperm : creds.Perm creds') (hhalves : HalvesAgree creds)
    (h : row ∈ (collectCerts preferred now creds).map shown) :
    row ∈ (collectCerts preferred now creds').map shown := by
  obtain ⟨cert, hcert, rfl⟩ := List.mem_map.1 h
  obtain ⟨e, he, heq⟩ := (mem_collectCerts preferred now creds).1 hcert
  obtain ⟨hmem, hthumb⟩ := firstEntry_eq_some he
  obtain ⟨e', he'⟩ := firstEntry_isSome_of_mem (hperm.subset hmem) hthumb
  obtain ⟨hmem', hthumb'⟩ := firstEntry_eq_some he'
  have hend := hhalves e hmem e' (hperm.mem_iff.2 hmem') _ hthumb hthumb'
  refine List.mem_map.2 ⟨rowOf preferred now e' cert.thumbprint,
    (mem_collectCerts preferred now creds').2 ⟨e', he', rfl⟩, ?_⟩
  rw [heq]
  simp [shown, rowOf, hend]

theorem halvesAgree_of_perm (hperm : creds.Perm creds') (hhalves : HalvesAgree creds) : HalvesAgree creds' :=
  fun e he e' he' => hhalves e (hperm.mem_iff.2 he) e' (hperm.mem_iff.2 he')

theorem collectCerts_shown_perm (hperm : creds.Perm creds') (hhalves : HalvesAgree creds) :
    ((collectCerts preferred now creds).map shown).Perm ((collectCerts preferred now creds').map shown) := by
  have hnodup : ∀ creds, ((collectCerts preferred now creds).map shown).Nodup := by
    intro creds
    have hthumbs := collectCerts_nodup preferred now creds
    refine List.Nodup.of_map (·.thumbprint) ?_
    rw [List.map_map]
    exact hthumbs
  rw [List.perm_ext_iff_of_nodup (hnodup creds) (hnodup creds')]
  exact fun row => ⟨mem_shown_of_perm hperm hhalves,
    mem_shown_of_perm hperm.symm (halvesAgree_of_perm hperm hhalves)⟩

theorem activeEnd_of_perm (hperm : creds.Perm creds') (hhalves : HalvesAgree creds) :
    activeEnd preferred now creds = activeEnd preferred now creds' := by
  have hsame : ∀ creds (a : Int), activeEnd preferred now creds = some a ↔
      ∃ row ∈ (collectCerts preferred now creds).map shown, row.isActive = true ∧ row.endDateTime = some a := by
    intro creds a
    rw [activeEnd_eq_some_iff]
    constructor
    · rintro ⟨cert, hcert, h⟩
      exact ⟨shown cert, List.mem_map_of_mem hcert, h⟩
    · rintro ⟨row, hrow, h⟩
      obtain ⟨cert, hcert, rfl⟩ := List.mem_map.1 hrow
      exact ⟨cert, hcert, h⟩
  apply Option.ext
  intro a
  rw [hsame creds a, hsame creds' a]
  exact exists_congr fun row =>
    and_congr_left fun _ => (collectCerts_shown_perm hperm hhalves).mem_iff

theorem certRows_shown_of_perm (hperm : creds.Perm creds') (hhalves : HalvesAgree creds)
    (hdistinct : ExpiriesDistinct creds) :
    (certRows preferred now creds).map shown = (certRows preferred now creds').map shown := by
  have hmap : ∀ creds, ((certRows preferred now creds).map shown).Perm
      (((collectCerts preferred now creds).map shown).map
        (withStatus now (activeEnd preferred now creds))) := by
    intro creds
    have h := (certRows_perm preferred now creds).map shown
    rw [List.map_map] at h ⊢
    exact h
  have hrows := hmap creds'
  rw [← activeEnd_of_perm hperm hhalves] at hrows
  have hall := ((hmap creds).trans ((collectCerts_shown_perm hperm hhalves).map _)).trans hrows.symm
  have hsorted : ∀ creds, ((certRows preferred now creds).map shown).Pairwise NoEarlier :=
    fun creds => List.pairwise_map.2 (certRows_sorted preferred now creds)
  refine hall.eq_of_pairwise ?_ (hsorted creds) (hsorted creds')
  intro a b ha hb hab hba
  have hb' := hall.mem_iff.2 hb
  obtain ⟨row, hrow, rfl⟩ := List.mem_map.1 ha
  obtain ⟨row', hrow', rfl⟩ := List.mem_map.1 hb'
  obtain ⟨cert, hcert, rfl⟩ := (mem_certRows preferred now creds).1 hrow
  obtain ⟨cert', hcert', rfl⟩ := (mem_certRows preferred now creds).1 hrow'
  obtain ⟨e, he, heq⟩ := (mem_collectCerts preferred now creds).1 hcert
  obtain ⟨e', he', heq'⟩ := (mem_collectCerts preferred now creds).1 hcert'
  have hends : e.endDateTime = e'.endDateTime := by
    rw [heq] at hab hba
    rw [heq'] at hab hba
    change ∀ d ∈ e'.endDateTime, ∃ d' ∈ e.endDateTime, d ≤ d' at hab
    change ∀ d ∈ e.endDateTime, ∃ d' ∈ e'.endDateTime, d ≤ d' at hba
    cases h : e.endDateTime with
    | none =>
      cases h' : e'.endDateTime with
      | none => rfl
      | some d => simp [h, h'] at hab
    | some d =>
      cases h' : e'.endDateTime with
      | none => simp [h, h'] at hba
      | some d' =>
        simp only [h, h', Option.mem_some, forall_eq', exists_eq_left'] at hab hba
        rw [le_antisymm hba hab]
  have hthumb : cert.thumbprint = cert'.thumbprint := by
    by_contra hne
    exact hdistinct e (firstEntry_eq_some he).1 e' (firstEntry_eq_some he').1 _ _
      (firstEntry_eq_some he).2 (firstEntry_eq_some he').2 hne hends
  rw [hthumb] at he heq
  obtain rfl := Option.some.inj (he.symm.trans he')
  rw [heq, ← heq']

end Order

/-! ## The view -/

/-- What the view of a service principal says at a time. -/
structure ViewHolds (sp : ServicePrincipal) (now : Int) : Prop where
  oneRow : ((buildRollover sp now).certs.map (·.thumbprint)).Nodup ∧ ∀ t,
    (∃ row ∈ (buildRollover sp now).certs, row.thumbprint = t) ↔
      ∃ e ∈ sp.keyCredentials, e.thumbprint = some t
  newest : (buildRollover sp now).certs.Pairwise NoEarlier
  oneActive : ∀ row ∈ (buildRollover sp now).certs, ∀ row' ∈ (buildRollover sp now).certs,
    row.isActive = true → row'.isActive = true → row = row'
  expired : ∀ row ∈ (buildRollover sp now).certs,
    row.status = .expired ↔ ∃ e, row.endDateTime = some e ∧ e ≤ now
  /-- A dated row has a number of days, negative exactly when it is expired. -/
  days : ∀ row ∈ (buildRollover sp now).certs, row.endDateTime.isSome = true →
    ∃ days, row.daysToExpiry = some days ∧ (days < 0 ↔ row.status = .expired)
  superseded : ∀ row ∈ (buildRollover sp now).certs, row.status ≠ .expired → row.isActive = false →
    (row.status = .superseded ↔ ∃ active ∈ (buildRollover sp now).certs, active.isActive = true ∧
      ∃ a, active.endDateTime = some a ∧ now < a ∧ ∀ e ∈ row.endDateTime, e ≤ a) ∧
    (row.status ≠ .superseded → row.status = .staged)
  staged : (∀ t, (buildRollover sp now).stagedThumbprint = some t →
      ∃ row ∈ (buildRollover sp now).certs, row.thumbprint = t ∧ row.status = .staged ∧
        ∀ other ∈ (buildRollover sp now).certs, other.status = .staged → NoEarlier row other) ∧
    ((buildRollover sp now).stagedThumbprint = none →
      ∀ row ∈ (buildRollover sp now).certs, row.status ≠ .staged)
  phase : (buildRollover sp now).phase = .steady ∨ (buildRollover sp now).phase = .pendingRetire →
    (buildRollover sp now).stagedThumbprint = none ∧
      ∃ row ∈ (buildRollover sp now).certs, row.isActive = true ∧ row.status ≠ .expired
  order : ∀ creds, creds.Perm sp.keyCredentials → HalvesAgree creds → ExpiriesDistinct creds →
    (buildRollover { sp with keyCredentials := creds } now).shown = (buildRollover sp now).shown

/-- No certificate has expired within the second before, or expires now. -/
def NotJustExpired (sp : ServicePrincipal) (now : Int) : Prop :=
  ∀ t e stop, firstEntry sp.keyCredentials t = some e → e.endDateTime = some stop →
    ¬ (now - 1000000000 < stop ∧ stop ≤ now)

section View

variable (sp : ServicePrincipal) (now : Int)

theorem certs_eq : (buildRollover sp now).certs =
    certRows (preferredThumbprint sp) now sp.keyCredentials := rfl

theorem view_oneRow : ((buildRollover sp now).certs.map (·.thumbprint)).Nodup ∧ ∀ t,
    (∃ row ∈ (buildRollover sp now).certs, row.thumbprint = t) ↔
      ∃ e ∈ sp.keyCredentials, e.thumbprint = some t := by
  rw [certs_eq]
  refine ⟨?_, ?_⟩
  · rw [((certRows_perm _ now _).map _).nodup_iff, List.map_map]
    exact collectCerts_nodup _ now _
  · intro t
    constructor
    · rintro ⟨row, hrow, rfl⟩
      obtain ⟨cert, hcert, rfl⟩ := (mem_certRows _ now _).1 hrow
      obtain ⟨e, he, -⟩ := (mem_collectCerts _ now _).1 hcert
      exact ⟨e, firstEntry_eq_some he⟩
    · rintro ⟨e, he, ht⟩
      obtain ⟨cert, hcert, hthumb⟩ := (collectCerts_rows _ now _).2 e he t ht
      exact ⟨_, (mem_certRows _ now _).2 ⟨cert, hcert, rfl⟩, hthumb⟩

theorem view_oneActive {row row' : SigningCert} (hrow : row ∈ (buildRollover sp now).certs)
    (hrow' : row' ∈ (buildRollover sp now).certs) (h : row.isActive = true) (h' : row'.isActive = true) :
    row = row' := by
  obtain ⟨cert, hcert, rfl⟩ := (mem_certRows _ now _).1 hrow
  obtain ⟨cert', hcert', rfl⟩ := (mem_certRows _ now _).1 hrow'
  rw [active_unique _ now _ hcert hcert' h h']

theorem view_expired (hrow : row ∈ (buildRollover sp now).certs) :
    row.status = .expired ↔ ∃ e, row.endDateTime = some e ∧ e ≤ now := by
  obtain ⟨cert, hcert, rfl⟩ := (mem_certRows _ now _).1 hrow
  exact statusOf_expired_iff

/-- The days of a row are counted from the expiry of its first entry. -/
theorem view_days (hrow : row ∈ (buildRollover sp now).certs) :
    row.daysToExpiry = row.endDateTime.map (fun e => numSeconds (e - now) / 86400) ∧
      ∃ e, firstEntry sp.keyCredentials row.thumbprint = some e ∧ row.endDateTime = e.endDateTime := by
  obtain ⟨cert, hcert, rfl⟩ := (mem_certRows _ now _).1 hrow
  obtain ⟨e, he, heq⟩ := (mem_collectCerts _ now _).1 hcert
  have hdays : cert.daysToExpiry = cert.endDateTime.map (fun e => numSeconds (e - now) / 86400) := by
    rw [heq]
    rfl
  have hend : cert.endDateTime = e.endDateTime := by
    rw [heq]
    rfl
  exact ⟨hdays, e, he, hend⟩

theorem view_superseded (hrow : row ∈ (buildRollover sp now).certs)
    (hexpired : row.status ≠ .expired) (hactive : row.isActive = false) :
    (row.status = .superseded ↔ ∃ active ∈ (buildRollover sp now).certs, active.isActive = true ∧
      ∃ a, active.endDateTime = some a ∧ now < a ∧ ∀ e ∈ row.endDateTime, e ≤ a) ∧
    (row.status ≠ .superseded → row.status = .staged) := by
  obtain ⟨cert, hcert, rfl⟩ := (mem_certRows _ now _).1 hrow
  refine ⟨(statusOf_superseded_iff hexpired hactive).trans ?_, statusOf_staged hexpired hactive⟩
  constructor
  · rintro ⟨a, ha, hlt, hle⟩
    obtain ⟨active, hmem, hisActive, hend⟩ := (activeEnd_eq_some_iff _ now _).1 ha
    exact ⟨_, (mem_certRows _ now _).2 ⟨active, hmem, rfl⟩, hisActive, a, hend, hlt, hle⟩
  · rintro ⟨active, hmem, hisActive, a, hend, hlt, hle⟩
    obtain ⟨active', hmem', rfl⟩ := (mem_certRows _ now _).1 hmem
    exact ⟨a, (activeEnd_eq_some_iff _ now _).2 ⟨active', hmem', hisActive, hend⟩, hlt, hle⟩

/-- The first staged row is the one that expires last. -/
theorem view_staged : (∀ t, (buildRollover sp now).stagedThumbprint = some t →
      ∃ row ∈ (buildRollover sp now).certs, row.thumbprint = t ∧ row.status = .staged ∧
        ∀ other ∈ (buildRollover sp now).certs, other.status = .staged → NoEarlier row other) ∧
    ((buildRollover sp now).stagedThumbprint = none →
      ∀ row ∈ (buildRollover sp now).certs, row.status ≠ .staged) := by
  have hstaged : (buildRollover sp now).stagedThumbprint =
      ((buildRollover sp now).certs.find? (fun c => c.status = .staged)).map (·.thumbprint) := rfl
  have hsorted : (buildRollover sp now).certs.Pairwise NoEarlier := certRows_sorted _ now _
  rw [hstaged]
  generalize (buildRollover sp now).certs = certs at hsorted
  constructor
  · intro t ht
    obtain ⟨row, hfind, rfl⟩ := Option.map_eq_some_iff.1 ht
    obtain ⟨hstatus, before, after, rfl, hbefore⟩ := List.find?_eq_some_iff_append.1 hfind
    refine ⟨row, by simp, rfl, of_decide_eq_true hstatus, ?_⟩
    intro other hother hotherStatus
    rcases List.mem_append.1 hother with hother | hother
    · exact absurd hotherStatus (by simpa using hbefore other hother)
    · rcases List.mem_cons.1 hother with rfl | hother
      · exact fun e he => ⟨e, he, le_rfl⟩
      · exact (List.pairwise_cons.1 (List.pairwise_append.1 hsorted).2.1).1 other hother
  · intro hnone row hrow
    simpa using List.find?_eq_none.1 (Option.map_eq_none_iff.1 hnone) row hrow

theorem view_phase (h : (buildRollover sp now).phase = .steady ∨
      (buildRollover sp now).phase = .pendingRetire) :
    (buildRollover sp now).stagedThumbprint = none ∧
      ∃ row ∈ (buildRollover sp now).certs, row.isActive = true ∧ row.status ≠ .expired := by
  have hphase : (buildRollover sp now).phase =
      if (preferredThumbprint sp).isNone || (buildRollover sp now).certs.isEmpty then .unconfigured
      else if (buildRollover sp now).stagedThumbprint.isSome then .staged
      else if !(buildRollover sp now).certs.any (fun c => c.status = .active) then .unconfigured
      else if (buildRollover sp now).certs.any (fun c => c.status = .superseded) then .pendingRetire
      else .steady := rfl
  rw [hphase] at h
  split_ifs at h with hnone hstaged hactive
  · simp at h
  · simp at h
  · simp at h
  all_goals
    have hany : (buildRollover sp now).certs.any (fun c => c.status = .active) = true := by
      simpa using hactive
    obtain ⟨row, hrow, hstatus⟩ := List.any_eq_true.1 hany
    have hstatus' : row.status = .active := of_decide_eq_true hstatus
    obtain ⟨e, hfacts⟩ := certRows_facts sp now hrow
    refine ⟨Option.not_isSome_iff_eq_none.1 hstaged, row, hrow, hfacts.signing hstatus', ?_⟩
    rw [hstatus']
    exact CertStatus.noConfusion

/-- The rest of the view is made of what the rows show. -/
theorem shown_eq_of_rows {sp' : ServicePrincipal} (happ : sp'.appId = sp.appId)
    (hpreferred : preferredThumbprint sp' = preferredThumbprint sp)
    (hrows : (buildRollover sp' now).certs.map shown = (buildRollover sp now).certs.map shown) :
    (buildRollover sp' now).shown = (buildRollover sp now).shown := by
  have hfind : ∀ (p : SigningCert → Bool) (certs : List SigningCert), (∀ c, p (shown c) = p c) →
      (certs.map shown).find? p = (certs.find? p).map shown := by
    intro p certs hp
    rw [List.find?_map]
    congr 2
    funext c
    exact hp c
  have hview : ∀ sp : ServicePrincipal, (buildRollover sp now).shown =
      let rows := (buildRollover sp now).certs.map shown
      let stagedThumbprint := (rows.find? (fun c => c.status = .staged)).map (·.thumbprint)
      let phase :=
        if (preferredThumbprint sp).isNone || rows.isEmpty then .unconfigured
        else if stagedThumbprint.isSome then .staged
        else if !rows.any (fun c => c.status = .active) then .unconfigured
        else if rows.any (fun c => c.status = .superseded) then .pendingRetire
        else .steady
      { appId := sp.appId
        certs := rows
        activeThumbprint := preferredThumbprint sp
        stagedThumbprint := stagedThumbprint
        phase := phase
        autoPromoteDeadline :=
          if phase = .staged then (rows.find? (·.isActive)).bind (·.endDateTime) else none } := by
    intro sp
    have hactive := fun certs => hfind (·.isActive) certs (fun _ => rfl)
    have hstaged := fun certs => hfind (fun c => c.status = .staged) certs (fun _ => rfl)
    simp only [hactive, hstaged, List.any_map, List.isEmpty_map, Option.map_map, Option.bind_map]
    rfl
  rw [hview sp', hview sp, hrows, happ, hpreferred]

end View

/-- The view is right exactly if no certificate expired within the last second. -/
theorem rollover_view_iff (sp : ServicePrincipal) (now : Int) : ViewHolds sp now ↔ NotJustExpired sp now := by
  constructor
  · intro h t e stop he hstop hjust
    obtain ⟨hmem, hthumb⟩ := firstEntry_eq_some he
    obtain ⟨row, hrow, rfl⟩ := (view_oneRow sp now).2 t |>.2 ⟨e, hmem, hthumb⟩
    obtain ⟨hdays, e', he', hend⟩ := view_days sp now hrow
    obtain rfl := Option.some.inj (he.symm.trans he')
    rw [hstop] at hend
    obtain ⟨days, hsome, hneg⟩ := h.days row hrow (by rw [hend]; rfl)
    rw [hdays, hend, Option.map_some] at hsome
    obtain rfl := Option.some.inj hsome
    have hexpired := (view_expired sp now hrow).2 ⟨stop, hend, hjust.2⟩
    have hlate := (days_neg_iff _).1 (hneg.2 hexpired)
    omega
  · intro h
    refine ⟨view_oneRow sp now, certRows_sorted _ now _, fun row hrow row' hrow' => view_oneActive sp now hrow hrow',
      fun row hrow => view_expired sp now hrow, ?_, fun row hrow => view_superseded sp now hrow,
      view_staged sp now, view_phase sp now, ?_⟩
    · intro row hrow hdated
      obtain ⟨stop, hend⟩ := Option.isSome_iff_exists.1 hdated
      obtain ⟨hdays, e, he, hend'⟩ := view_days sp now hrow
      have hnot := h row.thumbprint e stop he (hend'.symm.trans hend)
      refine ⟨_, by rw [hdays, hend, Option.map_some], ?_⟩
      rw [days_neg_iff, view_expired sp now hrow, hend]
      simp only [Option.some.injEq, exists_eq_left']
      omega
    · intro creds hperm hhalves hdistinct
      exact shown_eq_of_rows sp now rfl rfl (certRows_shown_of_perm hperm hhalves hdistinct)

/-- A certificate that expires at this very moment has no day left to lose, and is expired. -/
theorem expires_now_is_day_zero : ¬ ∀ (sp : ServicePrincipal) (now : Int), ViewHolds sp now := by
  intro hclaim
  have h := (rollover_view_iff
    ⟨[], none, [⟨[], some "AAAA".toList, some 0⟩], []⟩ 0).1 (hclaim _ 0)
  exact h "000000".toList ⟨[], some "AAAA".toList, some 0⟩ 0 (by decide) rfl (by decide)

end Sso
