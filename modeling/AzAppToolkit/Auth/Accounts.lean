import AzAppToolkit.Auth.Discipline
import AzAppToolkit.Auth.Replays

set_option autoImplicit false

/-! # No account is served another's token

The slots of the token cache are keyed by the tenant, so what keeps two accounts apart is the session
epoch: who may store under it, and who is swept when it moves. The proof follows, for the current
epoch, the account of the sign-in that opened it and the account that a restore or re-authentication
claimed it for.

The source breaks the claim where the two differ: a sign-in moves the epoch and sweeps, and only later
replaces the registration; a re-authentication of the account it replaces can read the new epoch in
between and register it, and silent acquisitions then fill slots that the sign-in never sweeps again. -/

namespace Auth

open Prog

/-! ## The record -/

/-- What is recorded beside the service. -/
structure AccountLog where
  /-- The account registered last. -/
  lastRegistered : Option Text
  /-- The account of the sign-in that opened the current epoch. -/
  opening : Option Text
  /-- The account a restore or a re-authentication read the current epoch for. -/
  claimant : Option Text
  /-- The accounts registered so far, with the epochs they were registered under. -/
  underEpoch : List (Nat × Text)

def openingAfter (opening : Option Text) : Exchanged ServiceAnswer → Option Text
  | ⟨.startSession tenant, _⟩ => some tenant.accountOid
  | ⟨.deleteRefreshTokenThen _, .ok _⟩ => none
  | _ => opening

def claimantAfter (claimant : Option Text) : Exchanged ServiceAnswer → Option Text
  | ⟨.startSession _, _⟩ => none
  | ⟨.deleteRefreshTokenThen _, .ok _⟩ => none
  | ⟨.captureRestore tenant, .inr _⟩ => some tenant.accountOid
  | ⟨.captureReauthenticate tenant, some _⟩ => some tenant.accountOid
  | _ => claimant

def AccountLog.note (g : AccountLog) (e : Exchanged ServiceAnswer) (s' : Service) : AccountLog where
  lastRegistered := (s'.registered.map TenantContext.accountOid).or g.lastRegistered
  opening := openingAfter g.opening e
  claimant := claimantAfter g.claimant e
  underEpoch := (s'.registered.map (fun t => (s'.epoch, t.accountOid))).toList ++ g.underEpoch

/-- The service with its record. -/
abbrev Watched := Service × AccountLog

/-- Nothing is registered or cached yet, and the keyring keeps accounts apart. -/
structure Service.Fresh (s : Service) : Prop where
  registered : s.registered = none
  cache : s.cache = ∅
  keyring : ∀ account token, s.keyring.lookup account = some token → token.mintedFor = account

def Service.watched (s : Service) : Watched := (s, ⟨none, none, none, []⟩)

/-- The account a restore or a re-authentication is asked for. -/
def askedFor : Exchanged ServiceAnswer → Option Text
  | ⟨.captureRestore tenant, _⟩ => some tenant.accountOid
  | ⟨.captureReauthenticate tenant, _⟩ => some tenant.accountOid
  | _ => none

/-- The account that the current epoch is read for by a restore or a re-authentication, or stored
    under by a sign-in. -/
def broughtIn : Exchanged ServiceAnswer → Option Text
  | ⟨.captureRestore tenant, .inr _⟩ => some tenant.accountOid
  | ⟨.captureReauthenticate tenant, some _⟩ => some tenant.accountOid
  | ⟨.commit tenant _ _ _ .replace, true⟩ => some tenant.accountOid
  | _ => none

/-- A restore or a re-authentication is asked for the account registered last, if there is one. -/
def AskedForLast (s : Watched) (e : Exchanged ServiceAnswer) : Prop :=
  ∀ account ∈ askedFor e, ∀ a ∈ s.2.lastRegistered, account = a

/-- When an account is brought in, no restore or re-authentication has read the current epoch for
    another. -/
def OneAccountAnEpoch (s : Watched) (e : Exchanged ServiceAnswer) : Prop :=
  ∀ account ∈ broughtIn e, ∀ a ∈ s.2.claimant, a = account

instance (s : Watched) (e : Exchanged ServiceAnswer) : Decidable (AskedForLast s e) :=
  inferInstanceAs (Decidable (∀ account ∈ askedFor e, ∀ a ∈ s.2.lastRegistered, account = a))

instance (s : Watched) (e : Exchanged ServiceAnswer) : Decidable (OneAccountAnEpoch s e) :=
  inferInstanceAs (Decidable (∀ account ∈ broughtIn e, ∀ a ∈ s.2.claimant, a = account))

/-- The service, where restores and re-authentications are asked as they should be. -/
def askedWorld : World ServiceAnswer Watched :=
  (World.recorded serviceWorld AccountLog.note).when AskedForLast

/-- Moreover, no two accounts meet under one epoch. -/
def undividedWorld : World ServiceAnswer Watched := World.when askedWorld OneAccountAnEpoch

/-! ## The invariant -/

namespace Watched

/-- Whatever is served under the current epoch is the account's. -/
def Holds (s : Watched) (account : Text) : Prop :=
  s.2.lastRegistered = some account ∧
    ∀ b, s.2.opening = some b → b = account ∨ s.2.claimant = some account

theorem Holds.unique {s : Watched} {a b : Text} (ha : s.Holds a) (hb : s.Holds b) : a = b :=
  Option.some.inj (ha.1.symm.trans hb.1)

/-- The account was registered under the epoch or an earlier one. -/
def KnownBy (s : Watched) (epoch : Nat) (account : Text) : Prop :=
  ∃ e ≤ epoch, (e, account) ∈ s.2.underEpoch

structure Sound (s : Watched) : Prop where
  registered : ∀ t, s.1.registered = some t →
    s.Holds t.accountOid ∧ (s.1.epoch, t.accountOid) ∈ s.2.underEpoch
  cached : ∀ slot token, s.1.cache.lookup slot = some token →
    s.Holds token.mintedFor ∧ s.KnownBy s.1.epoch token.mintedFor
  logged : ∀ e a, (e, a) ∈ s.2.underEpoch → e ≤ s.1.epoch ∧ (e = s.1.epoch → s.Holds a)
  claimed : ∀ a, s.2.claimant = some a → ∀ b, s.2.lastRegistered = some b → b = a
  keyring : ∀ account token, s.1.keyring.lookup account = some token → token.mintedFor = account

/-- What every step keeps of the epochs. -/
structure Advances (s s' : Watched) : Prop where
  epoch : s.1.epoch ≤ s'.1.epoch
  kept : ∀ x ∈ s.2.underEpoch, x ∈ s'.2.underEpoch
  added : ∀ x ∈ s'.2.underEpoch, x ∈ s.2.underEpoch ∨ x.1 = s'.1.epoch
  holds : s.1.epoch = s'.1.epoch → ∀ a, s.Holds a → s'.Holds a
  opening : s.1.epoch = s'.1.epoch → s'.2.opening = s.2.opening
  claimant : s.1.epoch = s'.1.epoch → ∀ a, s.2.claimant = some a → s'.2.claimant = some a

end Watched

/-- The exchange moves neither the epoch's opener nor its claimant. -/
def KeepsOwners (g : AccountLog) (e : Exchanged ServiceAnswer) : Prop :=
  openingAfter g.opening e = g.opening ∧ claimantAfter g.claimant e = g.claimant

/-- The step registers nothing, caches nothing and stays in the epoch. -/
structure Calm (s : Watched) (e : Exchanged ServiceAnswer) (s' : Service) : Prop where
  epoch : s'.epoch = s.1.epoch
  registered : s'.registered = s.1.registered ∨ s'.registered = none
  cached : ∀ slot token, s'.cache.lookup slot = some token → s.1.cache.lookup slot = some token
  owners : KeepsOwners s.2 e
  keyring : ∀ account token, s'.keyring.lookup account = some token → token.mintedFor = account

variable {account : Text} {registration : Registration}

section Steps

variable {s : Watched} {e : Exchanged ServiceAnswer} {s' : Service}

theorem lastRegistered_note_of_calm (hs : s.Sound)
    (hreg : s'.registered = s.1.registered ∨ s'.registered = none) :
    (s.2.note e s').lastRegistered = s.2.lastRegistered := by
  show (s'.registered.map TenantContext.accountOid).or s.2.lastRegistered = _
  rcases hreg with hreg | hreg
  · rw [hreg]
    cases hr : s.1.registered with
    | none => rfl
    | some t => exact (hs.registered t hr).1.1.symm
  · rw [hreg]
    rfl

theorem sound_of_calm (hs : s.Sound) (hcalm : Calm s e s') :
    Watched.Sound (s', s.2.note e s') ∧ Watched.Advances s (s', s.2.note e s') := by
  have hlast := lastRegistered_note_of_calm (e := e) hs hcalm.registered
  have hholds : ∀ a, s.Holds a ↔ Watched.Holds (s', s.2.note e s') a := by
    intro a
    unfold Watched.Holds
    rw [hlast]
    show _ ↔ _ ∧ ∀ b, openingAfter s.2.opening e = some b → b = a ∨
      claimantAfter s.2.claimant e = some a
    rw [hcalm.owners.1, hcalm.owners.2]
  have hadded : ∀ x ∈ (s.2.note e s').underEpoch, x ∈ s.2.underEpoch := by
    intro x hx
    rcases List.mem_append.1 hx with hx | hx
    · rcases hcalm.registered with hreg | hreg
      · rw [Option.mem_toList, hreg, Option.map_eq_some_iff] at hx
        obtain ⟨t, ht, rfl⟩ := hx
        rw [hcalm.epoch]
        exact (hs.registered t ht).2
      · rw [hreg] at hx
        exact absurd hx (by simp)
    · exact hx
  have hkept : ∀ x ∈ s.2.underEpoch, x ∈ (s.2.note e s').underEpoch :=
    fun x hx => List.mem_append_right _ hx
  refine ⟨⟨?_, ?_, ?_, ?_, hcalm.keyring⟩, ⟨hcalm.epoch.symm.le, hkept, fun x hx => .inl (hadded x hx),
    fun _ a => (hholds a).1, fun _ => hcalm.owners.1, fun _ a ha => hcalm.owners.2.trans ha⟩⟩
  · intro t ht
    rcases hcalm.registered with hreg | hreg
    · obtain ⟨hh, hmem⟩ := hs.registered t (hreg ▸ ht)
      refine ⟨(hholds _).1 hh, ?_⟩
      show (s'.epoch, _) ∈ _
      rw [hcalm.epoch]
      exact hkept _ hmem
    · exact absurd (hreg.symm.trans ht) (by simp)
  · intro slot token ht
    obtain ⟨hh, n, hn, hmem⟩ := hs.cached slot token (hcalm.cached slot token ht)
    exact ⟨(hholds _).1 hh, n, hn.trans hcalm.epoch.symm.le, hkept _ hmem⟩
  · intro n a hmem
    obtain ⟨hle, hh⟩ := hs.logged n a (hadded _ hmem)
    exact ⟨hle.trans hcalm.epoch.symm.le, fun hn => (hholds a).1 (hh (hn.trans hcalm.epoch))⟩
  · intro a ha b hb
    rw [hlast] at hb
    exact hs.claimed a (hcalm.owners.2.symm.trans ha) b hb

/-- A sign-in opens an epoch with nothing in it. -/
theorem sound_startSession (hs : s.Sound) (tenant : TenantContext) (r : Nat) :
    Watched.Sound (s.1.swept.bumped, s.2.note ⟨.startSession tenant, r⟩ s.1.swept.bumped) ∧
      Watched.Advances s (s.1.swept.bumped, s.2.note ⟨.startSession tenant, r⟩ s.1.swept.bumped) := by
  have hne : s.1.epoch ≠ s.1.epoch + 1 := by omega
  refine ⟨⟨?_, ?_, ?_, ?_, hs.keyring⟩, ⟨Nat.le_succ _, fun x hx => hx, fun x hx => .inl hx, ?_, ?_, ?_⟩⟩
  · intro t ht
    exact absurd ht (by simp [Service.swept, Service.bumped])
  · intro slot token ht
    exact absurd ht (by simp [Service.swept, Service.bumped])
  · intro n a hmem
    have hle := (hs.logged n a hmem).1
    refine ⟨hle.trans (Nat.le_succ _), fun hn => ?_⟩
    have hn' : n = s.1.epoch + 1 := hn
    omega
  · intro a ha
    exact absurd ha (by simp [AccountLog.note, claimantAfter])
  · exact fun heq => absurd heq hne
  · exact fun heq => absurd heq hne
  · exact fun heq => absurd heq hne

/-- A sign-out moves the epoch over what is left of the session. -/
theorem sound_deleteRefreshTokenThen (hs : s.Sound) (account : Text) (n : Nat) :
    Watched.Sound ((s.1.erased account).bumped,
        s.2.note ⟨.deleteRefreshTokenThen account, .ok n⟩ (s.1.erased account).bumped) ∧
      Watched.Advances s ((s.1.erased account).bumped,
        s.2.note ⟨.deleteRefreshTokenThen account, .ok n⟩ (s.1.erased account).bumped) := by
  have hne : s.1.epoch ≠ s.1.epoch + 1 := by omega
  have hlast : (s.2.note ⟨.deleteRefreshTokenThen account, .ok n⟩ (s.1.erased account).bumped).lastRegistered
      = s.2.lastRegistered := lastRegistered_note_of_calm hs (.inl rfl)
  have hholds : ∀ a, s.Holds a → Watched.Holds ((s.1.erased account).bumped,
      s.2.note ⟨.deleteRefreshTokenThen account, .ok n⟩ (s.1.erased account).bumped) a := by
    intro a ha
    refine ⟨hlast.trans ha.1, fun b hb => ?_⟩
    exact absurd hb (by simp [AccountLog.note, openingAfter])
  refine ⟨⟨?_, ?_, ?_, ?_, ?_⟩, ⟨Nat.le_succ _, fun x hx => List.mem_append_right _ hx, ?_, ?_, ?_, ?_⟩⟩
  · intro t ht
    refine ⟨hholds _ (hs.registered t ht).1, List.mem_append_left _ ?_⟩
    rw [Option.mem_toList, Option.map_eq_some_iff]
    exact ⟨t, ht, rfl⟩
  · intro slot token ht
    obtain ⟨hh, e, he, hmem⟩ := hs.cached slot token ht
    exact ⟨hholds _ hh, e, he.trans (Nat.le_succ _), List.mem_append_right _ hmem⟩
  · intro e a hmem
    rcases List.mem_append.1 hmem with hmem | hmem
    · rw [Option.mem_toList, Option.map_eq_some_iff] at hmem
      obtain ⟨t, ht, heq⟩ := hmem
      obtain ⟨rfl, rfl⟩ := Prod.mk.inj heq
      exact ⟨le_refl _, fun _ => hholds _ (hs.registered t ht).1⟩
    · have hle := (hs.logged e a hmem).1
      refine ⟨hle.trans (Nat.le_succ _), fun he => ?_⟩
      have he' : e = s.1.epoch + 1 := he
      omega
  · intro a ha
    exact absurd ha (by simp [AccountLog.note, claimantAfter])
  · intro a token ht
    have ht' : (s.1.keyring.erase account).lookup a = some token := ht
    rw [AList.lookup_erase_eq] at ht'
    split at ht'
    · exact absurd ht' (by simp)
    · exact hs.keyring a token ht'
  · intro x hx
    rcases List.mem_append.1 hx with hx | hx
    · rw [Option.mem_toList, Option.map_eq_some_iff] at hx
      obtain ⟨t, ht, rfl⟩ := hx
      exact .inr rfl
    · exact .inl hx
  · exact fun heq => absurd heq hne
  · exact fun heq => absurd heq hne
  · exact fun heq => absurd heq hne

/-- A restore or a re-authentication reads the epoch for the account. -/
theorem sound_claim (hs : s.Sound) (hclaimant : claimantAfter s.2.claimant e = some account)
    (hopening : openingAfter s.2.opening e = s.2.opening)
    (hlast : ∀ a, s.2.lastRegistered = some a → account = a)
    (hone : ∀ a, s.2.claimant = some a → a = account) :
    Watched.Sound (s.1, s.2.note e s.1) ∧ Watched.Advances s (s.1, s.2.note e s.1) := by
  have hsame : (s.2.note e s.1).lastRegistered = s.2.lastRegistered :=
    lastRegistered_note_of_calm hs (.inl rfl)
  have hholds : ∀ a, s.Holds a → Watched.Holds (s.1, s.2.note e s.1) a := by
    intro a ha
    refine ⟨hsame.trans ha.1, fun b hb => ?_⟩
    rcases ha.2 b (hopening.symm.trans hb) with h | h
    · exact .inl h
    · exact .inr (hclaimant.trans (congrArg some (hone a h)).symm)
  have hlog : ∀ x ∈ (s.2.note e s.1).underEpoch, x ∈ s.2.underEpoch := by
    intro x hx
    rcases List.mem_append.1 hx with hx | hx
    · rw [Option.mem_toList, Option.map_eq_some_iff] at hx
      obtain ⟨t, ht, rfl⟩ := hx
      exact (hs.registered t ht).2
    · exact hx
  have hkept : ∀ x ∈ s.2.underEpoch, x ∈ (s.2.note e s.1).underEpoch :=
    fun x hx => List.mem_append_right _ hx
  refine ⟨⟨?_, ?_, ?_, ?_, hs.keyring⟩, ⟨le_refl _, hkept, fun x hx => .inl (hlog x hx),
    fun _ => hholds, fun _ => hopening, ?_⟩⟩
  · exact fun t ht => ⟨hholds _ (hs.registered t ht).1, hkept _ (hs.registered t ht).2⟩
  · intro slot token ht
    obtain ⟨hh, n, hn, hmem⟩ := hs.cached slot token ht
    exact ⟨hholds _ hh, n, hn, hkept _ hmem⟩
  · intro n a hmem
    obtain ⟨hle, hh⟩ := hs.logged n a (hlog _ hmem)
    exact ⟨hle, fun hn => hholds a (hh hn)⟩
  · intro a ha b hb
    obtain rfl : account = a := Option.some.inj (hclaimant.symm.trans ha)
    exact (hlast b (hsame.symm.trans hb)).symm
  · intro _ a ha
    exact hclaimant.trans (congrArg some (hone a ha)).symm

/-- A `keep` store, for the account the epoch is held by. -/
theorem sound_keep (hs : s.Sound) {tenant : TenantContext} {slot : Slot} {access : AccessToken}
    {fence : Nat} (hholds : s.Holds access.mintedFor)
    (hknown : (s.1.epoch, access.mintedFor) ∈ s.2.underEpoch) :
    Watched.Sound (s.1.seeded tenant slot access .keep,
        s.2.note ⟨.commit tenant slot access fence .keep, true⟩ (s.1.seeded tenant slot access .keep)) ∧
      Watched.Advances s (s.1.seeded tenant slot access .keep,
        s.2.note ⟨.commit tenant slot access fence .keep, true⟩ (s.1.seeded tenant slot access .keep)) := by
  -- all but the new row is as after a calm step
  have hcalm : Calm s ⟨.commit tenant slot access fence .keep, true⟩ s.1 :=
    ⟨rfl, .inl rfl, fun _ _ h => h, ⟨rfl, rfl⟩, hs.keyring⟩
  obtain ⟨hsound, hadv⟩ := sound_of_calm hs hcalm
  refine ⟨⟨hsound.registered, ?_, hsound.logged, hsound.claimed, hsound.keyring⟩,
    ⟨hadv.epoch, hadv.kept, hadv.added, hadv.holds, hadv.opening, hadv.claimant⟩⟩
  intro slot' token ht
  have ht' : (s.1.cache.insert slot access).lookup slot' = some token := ht
  rw [AList.lookup_insert_eq] at ht'
  split at ht'
  · obtain rfl := Option.some.inj ht'
    exact ⟨hadv.holds rfl _ hholds, s.1.epoch, le_refl _, hadv.kept _ hknown⟩
  · exact hsound.cached slot' token ht'

/-- A store that registers its account, which nothing else under the epoch belongs to. -/
theorem sound_register (hs : s.Sound) {tenant : TenantContext} {slot : Slot} {access : AccessToken}
    {fence : Nat} (hreg : registration ≠ .keep) (hminted : access.mintedFor = tenant.accountOid)
    (hopening : ∀ b, s.2.opening = some b → b = tenant.accountOid ∨
      s.2.claimant = some tenant.accountOid) (hclaimant : ∀ a, s.2.claimant = some a → a = tenant.accountOid)
    (honly : ∀ a, s.Holds a → a = tenant.accountOid) :
    Watched.Sound (s.1.seeded tenant slot access registration,
        s.2.note ⟨.commit tenant slot access fence registration, true⟩
          (s.1.seeded tenant slot access registration)) ∧
      Watched.Advances s (s.1.seeded tenant slot access registration,
        s.2.note ⟨.commit tenant slot access fence registration, true⟩
          (s.1.seeded tenant slot access registration)) := by
  have hr : (s.1.seeded tenant slot access registration).registered = some tenant := if_neg hreg
  have hlast : (s.2.note ⟨.commit tenant slot access fence registration, true⟩
      (s.1.seeded tenant slot access registration)).lastRegistered = some tenant.accountOid := by
    unfold AccountLog.note
    rw [hr]
    rfl
  have hlog : (s.2.note ⟨.commit tenant slot access fence registration, true⟩
      (s.1.seeded tenant slot access registration)).underEpoch =
        (s.1.epoch, tenant.accountOid) :: s.2.underEpoch := by
    unfold AccountLog.note
    rw [hr]
    rfl
  have hnew : Watched.Holds (s.1.seeded tenant slot access registration,
      s.2.note ⟨.commit tenant slot access fence registration, true⟩
        (s.1.seeded tenant slot access registration)) tenant.accountOid := ⟨hlast, hopening⟩
  have hholds : ∀ a, s.Holds a → Watched.Holds (s.1.seeded tenant slot access registration,
      s.2.note ⟨.commit tenant slot access fence registration, true⟩
        (s.1.seeded tenant slot access registration)) a := by
    intro a ha
    rw [honly a ha]
    exact hnew
  refine ⟨⟨?_, ?_, ?_, ?_, hs.keyring⟩, ⟨le_refl _, ?_, ?_, fun _ => hholds, fun _ => rfl,
    fun _ a ha => ha⟩⟩
  · intro t ht
    obtain rfl : tenant = t := Option.some.inj (hr.symm.trans ht)
    exact ⟨hnew, by rw [hlog]; exact List.mem_cons_self⟩
  · intro slot' token ht
    have ht' : (s.1.cache.insert slot access).lookup slot' = some token := ht
    rw [AList.lookup_insert_eq] at ht'
    unfold Watched.KnownBy
    rw [hlog]
    split at ht'
    · obtain rfl := Option.some.inj ht'
      rw [hminted]
      exact ⟨hnew, s.1.epoch, le_refl _, List.mem_cons_self⟩
    · obtain ⟨hh, n, hn, hmem⟩ := hs.cached slot' token ht'
      exact ⟨hholds _ hh, n, hn, List.mem_cons_of_mem _ hmem⟩
  · intro n a hmem
    rw [hlog] at hmem
    rcases List.mem_cons.1 hmem with heq | hmem
    · obtain ⟨rfl, rfl⟩ := Prod.mk.inj heq
      exact ⟨le_refl _, fun _ => hnew⟩
    · obtain ⟨hle, hh⟩ := hs.logged n a hmem
      exact ⟨hle, fun hn => hholds a (hh hn)⟩
  · intro a ha b hb
    obtain rfl : tenant.accountOid = b := Option.some.inj (hlast.symm.trans hb)
    exact (hclaimant a ha).symm
  · intro x hx
    rw [hlog]
    exact List.mem_cons_of_mem _ hx
  · intro x hx
    rw [hlog] at hx
    rcases List.mem_cons.1 hx with rfl | hx
    · exact .inr rfl
    · exact .inl hx

end Steps

/-! ## What a flow knows -/

variable {e : Exchanged ServiceAnswer}

namespace Watched

/-- The flow may store for the account under the current epoch. -/
def Entitles (s : Watched) (account : Text) : Registration → Prop
  | .keep => s.Holds account ∧ (s.1.epoch, account) ∈ s.2.underEpoch
  | .claim => s.2.claimant = some account
  | .replace => s.2.opening = some account

/-- Who is served under the epoch: nobody but the account was or, while it lasts, is going to be. -/
structure Serves (s : Watched) (epoch : Nat) (account : Text) : Prop where
  past : epoch ≤ s.1.epoch
  only : ∀ a, (epoch, a) ∈ s.2.underEpoch → a = account
  lasting : epoch = s.1.epoch → s.Holds account
  known : s.KnownBy epoch account

/-- What the history of a flow tells about the present. -/
structure Knows (s : Watched) (h : FlowHistory) : Prop where
  entered : ∀ registration account fence, Entered h registration account fence →
    fence < s.1.epoch ∨ (fence = s.1.epoch ∧ s.Entitles account registration)
  epochs : ∀ epoch, ⟨.sessionEpoch, epoch⟩ ∈ h → epoch ≤ s.1.epoch
  handed : ∀ h₁ e h₂ epoch account, h = h₁ ++ e :: h₂ → ⟨.sessionEpoch, epoch⟩ ∈ h₁ →
    Yields account e → epoch < s.1.epoch ∨ s.Serves epoch account
  confirmed : ∀ epoch account, Confirmed h epoch account → s.Serves epoch account

theorem Advances.knownBy {s s' : Watched} (hadv : s.Advances s') {epoch : Nat}
    (h : s.KnownBy epoch account) : s'.KnownBy epoch account := by
  obtain ⟨e, he, hmem⟩ := h
  exact ⟨e, he, hadv.kept _ hmem⟩

theorem Advances.serves {s s' : Watched} (hadv : s.Advances s') (hs' : s'.Sound) {epoch : Nat}
    (h : s.Serves epoch account) : s'.Serves epoch account := by
  have hlasting : epoch = s'.1.epoch → s'.Holds account := by
    intro heq
    have hsame : s.1.epoch = s'.1.epoch := by
      have := h.past
      have := hadv.epoch
      omega
    exact hadv.holds hsame account (h.lasting (heq.trans hsame.symm))
  refine ⟨h.past.trans hadv.epoch, fun a hmem => ?_, hlasting, hadv.knownBy h.known⟩
  rcases hadv.added _ hmem with hmem' | hnow
  · exact h.only a hmem'
  · exact ((hs'.logged epoch a hmem).2 hnow).unique (hlasting hnow)

theorem Advances.entitles {s s' : Watched} (hadv : s.Advances s') (hsame : s.1.epoch = s'.1.epoch)
    (h : s.Entitles account registration) : s'.Entitles account registration := by
  cases registration with
  | keep => exact ⟨hadv.holds hsame account h.1, by rw [← hsame]; exact hadv.kept _ h.2⟩
  | claim => exact hadv.claimant hsame account h
  | replace => exact (hadv.opening hsame).trans h

/-- No step of another flow takes back what a flow knows. -/
theorem Advances.knows {s s' : Watched} (hadv : s.Advances s') (hs' : s'.Sound) {h : FlowHistory}
    (hk : s.Knows h) : s'.Knows h := by
  refine ⟨fun registration account fence hin => ?_, fun epoch hmem => (hk.epochs epoch hmem).trans hadv.epoch,
    fun h₁ e h₂ epoch account heq hmem hyields => ?_, fun epoch account hc =>
      hadv.serves hs' (hk.confirmed epoch account hc)⟩
  · rcases hk.entered registration account fence hin with hlt | ⟨heq, hent⟩
    · exact .inl (hlt.trans_le hadv.epoch)
    · by_cases hsame : s.1.epoch = s'.1.epoch
      · exact .inr ⟨heq.trans hsame, hadv.entitles hsame hent⟩
      · exact .inl (by have := hadv.epoch; omega)
  · rcases hk.handed h₁ e h₂ epoch account heq hmem hyields with hlt | hserves
    · exact .inl (hlt.trans_le hadv.epoch)
    · exact .inr (hadv.serves hs' hserves)

/-- What the flow that makes the step learns from it. -/
theorem Advances.learns {s s' : Watched} (hadv : s.Advances s') (hs' : s'.Sound) {h : FlowHistory}
    (hk : s.Knows h) (henters : ∀ registration account fence, Enters registration account fence e →
      fence = s'.1.epoch ∧ s'.Entitles account registration)
    (hepoch : ∀ epoch, e = ⟨.sessionEpoch, epoch⟩ → epoch = s'.1.epoch)
    (hyields : ∀ account, Yields account e → s'.Holds account ∧ s'.KnownBy s'.1.epoch account) :
    s'.Knows (h ++ [e]) := by
  have hk' := hadv.knows hs' hk
  refine ⟨fun registration account fence hin => ?_, fun epoch hmem => ?_,
    fun h₁ e' h₂ epoch account heq hmem hy => ?_, fun epoch account hc => ?_⟩
  · obtain ⟨e', he', hent⟩ := hin
    rcases List.mem_append.1 he' with he' | he'
    · exact hk'.entered registration account fence ⟨e', he', hent⟩
    · rw [List.mem_singleton.1 he'] at hent
      exact .inr (henters registration account fence hent)
  · rcases List.mem_append.1 hmem with hmem | hmem
    · exact hk'.epochs epoch hmem
    · exact (hepoch epoch (List.mem_singleton.1 hmem).symm).le
  · rcases List.eq_nil_or_concat h₂ with rfl | ⟨h₃, e'', rfl⟩
    · -- the token was handed over in this step
      obtain ⟨rfl, he⟩ := List.append_inj' heq rfl
      obtain rfl : e = e' := by simpa using he
      obtain ⟨hholds, hknown⟩ := hyields account hy
      rcases Nat.lt_or_ge epoch s'.1.epoch with hlt | hge
      · exact .inl hlt
      · obtain rfl : epoch = s'.1.epoch := le_antisymm (hk'.epochs epoch hmem) hge
        exact .inr ⟨le_refl _, fun a ha => ((hs'.logged _ a ha).2 rfl).unique hholds,
          fun _ => hholds, hknown⟩
    · have heq' : h ++ [e] = (h₁ ++ e' :: h₃) ++ [e''] := by simpa using heq
      obtain ⟨rfl, -⟩ := List.append_inj' heq' rfl
      exact hk'.handed h₁ e' h₃ epoch account rfl hmem hy
  · obtain ⟨h₁, e', h₂, h₃, heq, hmem, hy⟩ := hc
    rcases List.eq_nil_or_concat h₃ with rfl | ⟨h₄, e'', rfl⟩
    · -- this step is the second check: the epoch has not moved since the token was handed over
      obtain ⟨rfl, he⟩ := List.append_inj' heq rfl
      have hnow : epoch = s'.1.epoch := hepoch epoch (by simpa using he)
      rcases hk'.handed h₁ e' h₂ epoch account rfl hmem hy with hlt | hserves
      · omega
      · exact hserves
    · have heq' : h ++ [e] = (h₁ ++ e' :: h₂ ++ ⟨.sessionEpoch, epoch⟩ :: h₄) ++ [e''] := by
        simpa using heq
      obtain ⟨rfl, -⟩ := List.append_inj' heq' rfl
      exact hk'.confirmed epoch account ⟨h₁, e', h₂, h₄, rfl, hmem, hy⟩

end Watched

/-! ## Every step -/

section Step

variable {s s' : Watched} {h : FlowHistory}

theorem calm_of_keyringOnly (hs : s.Sound) (hok : Allowed h e.1)
    {t : Service} (hkeyring : KeyringOnly s.1 e.1 t) (howners : KeepsOwners s.2 e) : Calm s e t := by
  refine ⟨hkeyring.epoch, .inl hkeyring.registered, fun slot token hl => ?_, howners,
    fun account token hl => ?_⟩
  · rw [← hkeyring.cache]
    exact hl
  · rcases hkeyring.keyring account token hl with hold | ⟨refresh, registration, -, hsave, rfl⟩
    · exact hs.keyring account token hold
    · rw [hsave] at hok
      exact hok.2

/-- The store of a flow that entered the account under the current epoch. -/
theorem sound_commit (hs : s.Sound) {tenant : TenantContext} {slot : Slot} {access : AccessToken}
    {fence : Nat} (hminted : access.mintedFor = tenant.accountOid)
    (hentitled : s.Entitles tenant.accountOid registration)
    (hone : OneAccountAnEpoch s ⟨.commit tenant slot access fence registration, true⟩) :
    Watched.Sound (s.1.seeded tenant slot access registration,
        s.2.note ⟨.commit tenant slot access fence registration, true⟩
          (s.1.seeded tenant slot access registration)) ∧
      Watched.Advances s (s.1.seeded tenant slot access registration,
        s.2.note ⟨.commit tenant slot access fence registration, true⟩
          (s.1.seeded tenant slot access registration)) := by
  cases registration with
  | keep =>
    rw [← hminted] at hentitled
    exact sound_keep hs hentitled.1 hentitled.2
  | claim =>
    refine sound_register hs (by simp) hminted (fun _ _ => .inr hentitled) (fun a ha => ?_)
      (fun a ha => hs.claimed _ hentitled a ha.1)
    exact Option.some.inj (ha.symm.trans hentitled)
  | replace =>
    refine sound_register hs (by simp) hminted (fun b hb => ?_) (hone _ rfl) (fun a ha => ?_)
    · exact .inl (Option.some.inj (hb.symm.trans hentitled))
    · rcases ha.2 _ hentitled with heq | hclaimed
      · exact heq.symm
      · exact hone _ rfl a hclaimed

/-- Only the steps that touch the session and the claims move the owners of the epoch. -/
theorem owners_or_claim (g : AccountLog) (e : Exchanged ServiceAnswer) (he : touchesSession e = false) :
    KeepsOwners g e ∨ (∃ tenant fence, e = ⟨.captureRestore tenant, .inr fence⟩) ∨
      ∃ tenant fence, e = ⟨.captureReauthenticate tenant, some fence⟩ := by
  by_cases hopening : openingAfter g.opening e = g.opening
  · by_cases hclaimant : claimantAfter g.claimant e = g.claimant
    · exact .inl ⟨hopening, hclaimant⟩
    · unfold claimantAfter at hclaimant
      split at hclaimant
      · exact absurd he (by simp [touchesSession])
      · exact absurd he (by simp [touchesSession])
      · exact .inr (.inl ⟨_, _, rfl⟩)
      · exact .inr (.inr ⟨_, _, rfl⟩)
      · exact absurd rfl hclaimant
  · unfold openingAfter at hopening
    split at hopening
    · exact absurd he (by simp [touchesSession])
    · exact absurd he (by simp [touchesSession])
    · exact absurd rfl hopening

/-- Every step keeps the invariant. -/
theorem sound_step (hw : undividedWorld s e.1 e.2 s') (hs : s.Sound)
    (hk : s.Knows h) (hok : Allowed h e.1) : s'.Sound ∧ s.Advances s' := by
  obtain ⟨t, g⟩ := s'
  obtain ⟨⟨⟨hw, hnote⟩, hasked⟩, hone⟩ := hw
  obtain rfl : g = s.2.note e t := hnote
  have hstep : SessionStep s.1 e t := sessionStep_of_world hw
  have hcalm : ∀ {e : Exchanged ServiceAnswer}, KeepsOwners s.2 e → Calm s e s.1 :=
    fun howners => ⟨rfl, .inl rfl, fun _ _ hl => hl, howners, hs.keyring⟩
  have hswept : ∀ {e : Exchanged ServiceAnswer}, KeepsOwners s.2 e → Calm s e s.1.swept :=
    fun howners => ⟨rfl, .inr rfl, fun _ _ hl => absurd hl (by simp [Service.swept]), howners, hs.keyring⟩
  cases hstep with
  | keyring htouch honly =>
    rcases owners_or_claim s.2 e htouch with howners | ⟨tenant, fence, rfl⟩ | ⟨tenant, fence, rfl⟩
    · exact sound_of_calm hs (calm_of_keyringOnly hs hok honly howners)
    · obtain rfl : t = s.1 := hw.2.2
      exact sound_claim hs rfl rfl (hasked _ rfl) (hone _ rfl)
    · obtain rfl : t = s.1 := hw.2
      exact sound_claim hs rfl rfl (hasked _ rfl) (hone _ rfl)
  | cleared r =>
    exact sound_of_calm hs ⟨rfl, .inl rfl, fun _ _ hl => absurd hl (by simp), ⟨rfl, rfl⟩, hs.keyring⟩
  | started tenant => exact sound_startSession hs tenant _
  | stored tenant slot access registration hfree =>
    rcases hk.entered _ _ _ hok.1 with hlt | ⟨-, hentitled⟩
    · omega
    · exact sound_commit hs hok.2 hentitled hone
  | refused tenant slot access fence registration => exact sound_of_calm hs (hcalm ⟨rfl, rfl⟩)
  | dropped sent account r => exact sound_of_calm hs (hswept ⟨rfl, rfl⟩)
  | keptDrop hmoved sent account r => exact sound_of_calm hs (hcalm ⟨rfl, rfl⟩)
  | swept deleted r => exact sound_of_calm hs (hswept ⟨rfl, rfl⟩)
  | keptSweep hmoved deleted r => exact sound_of_calm hs (hcalm ⟨rfl, rfl⟩)
  | signedOut account => exact sound_deleteRefreshTokenThen hs account _

/-- A flow that enters an account is entitled to its stores. -/
theorem entitles_of_enters (hw : undividedWorld s e.1 e.2 s') (hs' : s'.Sound) {fence : Nat}
    (henters : Enters registration account fence e) :
    fence = s'.1.epoch ∧ s'.Entitles account registration := by
  obtain ⟨⟨⟨hw, hnote⟩, -⟩, -⟩ := hw
  unfold Enters at henters
  split at henters
  · obtain ⟨tenant, rfl, rfl⟩ := henters
    obtain ⟨hr, heq⟩ := hw
    obtain ⟨t, ht, hpair⟩ := Option.map_eq_some_iff.1 hr.symm
    obtain ⟨rfl, rfl⟩ := Prod.mk.inj hpair
    refine ⟨by rw [heq], hs'.registered t ?_⟩
    rw [heq]
    exact ht
  · obtain ⟨rfl, rfl⟩ := henters
    refine ⟨by rw [hw.2.1, hw.2.2], ?_⟩
    show s'.2.claimant = _
    rw [hnote]
    rfl
  · obtain ⟨rfl, rfl⟩ := henters
    obtain ⟨hr, heq⟩ := hw
    refine ⟨?_, ?_⟩
    · split at hr
      · exact absurd hr (by simp)
      · rw [heq]
        exact Option.some.inj hr
    · show s'.2.claimant = _
      rw [hnote]
      rfl
  · obtain ⟨rfl, rfl⟩ := henters
    refine ⟨hw.1.trans (by rw [hw.2]; rfl), ?_⟩
    show s'.2.opening = _
    rw [hnote]
    rfl
  · exact henters.elim

/-- A token that is handed over is in the cache. -/
theorem cached_of_yields (hw : undividedWorld s e.1 e.2 s') (hyields : Yields account e) :
    ∃ slot token, s'.1.cache.lookup slot = some token ∧ token.mintedFor = account := by
  obtain ⟨⟨⟨hw, -⟩, -⟩, -⟩ := hw
  unfold Yields at hyields
  split at hyields
  · next slot r =>
    obtain ⟨token, rfl, hminted⟩ := hyields
    refine ⟨slot, token, ?_, hminted⟩
    rw [hw.2]
    exact hw.1.symm
  · next tenant slot access fence registration r =>
    obtain ⟨rfl, hminted⟩ := hyields
    refine ⟨slot, access, ?_, hminted⟩
    rw [hw.2]
    exact AList.lookup_insert s.1.cache
  · exact hyields.elim

theorem epoch_of_sessionEpoch (hw : undividedWorld s e.1 e.2 s')
    {epoch : Nat} (he : e = ⟨.sessionEpoch, epoch⟩) : epoch = s'.1.epoch := by
  obtain ⟨⟨⟨hw, -⟩, -⟩, -⟩ := hw
  subst he
  rw [hw.2]
  exact hw.1

theorem knows_step (hw : undividedWorld s e.1 e.2 s')
    (hs' : s'.Sound) (hadv : s.Advances s') (hk : s.Knows h) : s'.Knows (h ++ [e]) := by
  refine hadv.learns hs' hk (fun registration account fence => entitles_of_enters hw hs')
    (fun epoch => epoch_of_sessionEpoch hw) (fun account hyields => ?_)
  obtain ⟨slot, token, hl, rfl⟩ := cached_of_yields hw hyields
  exact hs'.cached slot token hl

end Step

/-! ## Runs -/

theorem sound_watched {s : Service} (hs : s.Fresh) : s.watched.Sound := by
  refine ⟨fun t ht => ?_, fun slot token hl => ?_, fun e a hmem => ?_, fun a ha => ?_, hs.keyring⟩
  · exact absurd (hs.registered.symm.trans ht) (by simp)
  · exact absurd (hs.cache ▸ hl : (∅ : Table Slot AccessToken).lookup slot = some token) (by simp)
  · exact absurd hmem (List.not_mem_nil)
  · exact absurd ha (by simp [Service.watched])

theorem knows_nil (s : Watched) : s.Knows [] := by
  refine ⟨fun registration account fence hin => ?_, fun epoch hmem => ?_,
    fun h₁ e h₂ epoch account heq => ?_, fun epoch account hc => ?_⟩
  · obtain ⟨e, he, -⟩ := hin
    exact absurd he List.not_mem_nil
  · exact absurd hmem List.not_mem_nil
  · exact absurd heq (by simp)
  · obtain ⟨h₁, e, h₂, h₃, heq, -⟩ := hc
    exact absurd heq (by simp)

theorem sound_run {cfg : ServiceConfig} {s : Service} (hs : s.Fresh) {tr : List FlowEvent}
    {pool : FlowPool Watched}
    (hrun : Run (Pool.Step (ServiceFlow cfg) undividedWorld) ⟨s.watched, []⟩ tr pool) :
    pool.shared.Sound ∧ ∀ i p, pool.threads[i]? = some p →
      Meets (trusted Honest) Allowed Ended (Pool.exchangesOf i tr) p ∧
        pool.shared.Knows (Pool.exchangesOf i tr) := by
  have hrun' : Run (fun s e t => Pool.Step (ServiceFlow cfg) undividedWorld s e t ∧ True)
      ⟨s.watched, []⟩ tr pool := hrun.mono (fun _ _ _ hstep => ⟨hstep, trivial⟩)
  refine Pool.disciplined Watched.Sound (fun s h _ => s.Knows h)
    (fun p hp => flow_disciplined cfg hp) (fun s p _ _ => knows_nil s) ?_ ?_ (sound_watched hs) hrun'
  · intro pool i h c r s' hturn
    obtain ⟨next, -, hk⟩ := hturn.known
    obtain ⟨hsound, hadv⟩ := sound_step (e := ⟨c, r⟩) hturn.world hturn.shared hk hturn.allowed
    exact ⟨honest_of_tagged (e := ⟨c, r⟩) hturn.shared.keyring hturn.world.1.1.1, hsound,
      fun p _ => knows_step hturn.world hsound hadv hk⟩
  · intro pool i h c r s' j h' p hturn _ _ hk'
    obtain ⟨next, -, hk⟩ := hturn.known
    obtain ⟨hsound, hadv⟩ := sound_step (e := ⟨c, r⟩) hturn.world hturn.shared hk hturn.allowed
    exact hadv.knows hsound hk'

/-- As long as no two accounts meet under one epoch, whoever is registered finds only tokens of their
    own in the cache, and what an adapter returns was minted for the account registered under the
    epoch it was built in. -/
theorem tokens_stay_with_their_account {cfg : ServiceConfig} {s : Service} (hs : s.Fresh)
    {tr : List FlowEvent} {pool : FlowPool Watched}
    (hrun : Run (Pool.Step (ServiceFlow cfg) undividedWorld) ⟨s.watched, []⟩ tr pool) :
    (∀ tenant slot token, pool.shared.1.registered = some tenant →
      pool.shared.1.cache.lookup slot = some token → token.mintedFor = tenant.accountOid) ∧
    (∀ (i builtUnder : Nat) (token : AccessToken),
      pool.threads[i]? = some (.done (.ok (.bearer builtUnder token))) →
      (∀ account, (builtUnder, account) ∈ pool.shared.2.underEpoch → token.mintedFor = account) ∧
        ∃ e ≤ builtUnder, (e, token.mintedFor) ∈ pool.shared.2.underEpoch) := by
  obtain ⟨hsound, hthreads⟩ := sound_run hs hrun
  refine ⟨fun tenant slot token htenant htoken => ?_, fun i builtUnder token hdone => ?_⟩
  · exact (hsound.cached slot token htoken).1.unique (hsound.registered tenant htenant).1
  · obtain ⟨hended, hknows⟩ := hthreads i _ hdone
    have hserves := hknows.confirmed builtUnder token.mintedFor hended
    exact ⟨fun account hmem => (hserves.only account hmem).symm, hserves.known⟩

/-! ## Where two accounts meet -/

theorem emptyService_fresh : emptyService.Fresh :=
  ⟨rfl, rfl, fun account token hl => absurd hl (by simp [emptyService])⟩

/-- `a` signs in, `b` starts to, `a` is re-authenticated and takes an Exchange token meanwhile. -/
def crossing : List (Steps (Except AuthError FlowResult)) :=
  [(FlowResult.session <$> signIn soleTenant).run,
   (FlowResult.session <$> signIn soleTenant).run,
   (FlowResult.session <$> reauthenticate soleTenant (contextOf ['a'])).run,
   (FlowResult.token <$> accessTokenForScopes [['x']]).run]

def crossingOperator : Nat → Outside
  | 1 => operator ['b']
  | _ => operator ['a']

def askedServe (o : Outside) : Watched → (c : ServiceCall) → Option (ServiceAnswer c × Watched) :=
  World.servedWhen (World.servedRecorded (Service.serve o) AccountLog.note) AskedForLast

theorem askedWorld_of_serve {o : Outside} (ho : o.Proper) (s : Watched) (c : ServiceCall)
    (r : ServiceAnswer c) (s' : Watched) (h : askedServe o s c = some (r, s')) :
    askedWorld s c r s' :=
  World.when_of_served (World.recorded_of_served (Service.world_of_serve ho) AccountLog.note)
    AskedForLast s c r s' h

theorem crossing_flows : ∀ p ∈ crossing, ServiceFlow soleTenant p := by
  intro p hp
  fin_cases hp
  · exact .signIn
  · exact .signIn
  · exact .reauthenticate _
  · exact .accessToken _

/-- The re-authentication of `a` reads the epoch `b`'s sign-in has opened, and `b`'s session is handed
    `a`'s Exchange token. -/
theorem reauthentication_mixes_accounts : ∃ tr pool tenant slot token,
    emptyService.Fresh ∧
    Run (Pool.Step (ServiceFlow soleTenant) askedWorld) ⟨emptyService.watched, []⟩ tr pool ∧
    pool.shared.1.registered = some tenant ∧ pool.shared.1.cache.lookup slot = some token ∧
    token.mintedFor ≠ tenant.accountOid := by
  have hplay : (Pool.play (fun i => askedServe (crossingOperator i))
      [0, 0, 0, 0, 0, 0, 1, 1, 1, 2, 2, 2, 2, 2, 3, 3, 3, 3, 3, 3, 3, 3, 3, 1, 1, 1]
      ⟨emptyService.watched, crossing⟩).map (fun pool =>
        (pool.shared.1.registered.map TenantContext.accountOid,
          (pool.shared.1.cache.lookup (['x'], false)).map AccessToken.mintedFor)) =
      some (some ['b'], some ['a']) := by
    decide +kernel
  obtain ⟨tr, pool, hrun, -, hview⟩ := Pool.exists_run_of_replay
    (fun i => askedWorld_of_serve (by unfold crossingOperator; split <;> exact operator_proper _))
    crossing_flows hplay
  obtain ⟨hregistered, hcached⟩ := Prod.mk.inj hview
  obtain ⟨tenant, htenant, haccount⟩ := Option.map_eq_some_iff.1 hregistered
  obtain ⟨token, htoken, hminted⟩ := Option.map_eq_some_iff.1 hcached
  refine ⟨tr, pool, tenant, _, token, emptyService_fresh, hrun, htenant, htoken, ?_⟩
  rw [haccount, hminted]
  decide

def undividedServe (o : Outside) : Watched → (c : ServiceCall) → Option (ServiceAnswer c × Watched) :=
  World.servedWhen (askedServe o) OneAccountAnEpoch

/-- The token an adapter has returned, with the epoch it was built under. -/
def bearerOf : Steps (Except AuthError FlowResult) → Option (Nat × AccessToken)
  | .done (.ok (.bearer builtUnder token)) => some (builtUnder, token)
  | _ => none

theorem done_of_bearerOf {p : Steps (Except AuthError FlowResult)} {builtUnder : Nat}
    {token : AccessToken} (h : bearerOf p = some (builtUnder, token)) :
    p = .done (.ok (.bearer builtUnder token)) := by
  unfold bearerOf at h
  split at h
  · obtain ⟨rfl, rfl⟩ := Prod.mk.inj (Option.some.inj h)
    rfl
  · exact absurd h (by simp)

/-- A sign-in, and a token taken from an adapter that was built after it. -/
def signedIn : List (Steps (Except AuthError FlowResult)) :=
  [(FlowResult.session <$> signIn soleTenant).run, (takeBearer soleTenant [['r']] true).run]

theorem signedIn_flows : ∀ p ∈ signedIn, ServiceFlow soleTenant p := by
  intro p hp
  fin_cases hp
  · exact .signIn
  · exact .bearer _ _

theorem tokens_stay_after_sign_in : ∃ tr pool token,
    Run (Pool.Step (ServiceFlow soleTenant) undividedWorld) ⟨emptyService.watched, []⟩ tr pool ∧
    pool.threads[1]? = some (.done (.ok (.bearer 1 token))) ∧
    (1, ['a']) ∈ pool.shared.2.underEpoch ∧ token.mintedFor = ['a'] := by
  have hplay : (Pool.play (fun _ => undividedServe (operator ['a'])) [0, 0, 0, 0, 0, 0, 1, 1, 1, 1, 1]
      ⟨emptyService.watched, signedIn⟩).map (fun pool =>
        ((pool.threads[1]?.bind bearerOf).map Prod.fst,
          decide ((1, ['a']) ∈ pool.shared.2.underEpoch))) = some (some 1, true) := by
    decide +kernel
  obtain ⟨tr, pool, hrun, -, hview⟩ := Pool.exists_run_of_replay
    (fun _ => World.when_of_served (askedWorld_of_serve (operator_proper ['a'])) OneAccountAnEpoch)
    signedIn_flows hplay
  obtain ⟨hthread, hlogged⟩ := Prod.mk.inj hview
  obtain ⟨⟨n, token⟩, hbearer, hn⟩ := Option.map_eq_some_iff.1 hthread
  obtain ⟨p, hp, hdone⟩ := Option.bind_eq_some_iff.1 hbearer
  obtain rfl : n = 1 := hn
  rw [done_of_bearerOf hdone] at hp
  have hmem := of_decide_eq_true hlogged
  exact ⟨tr, pool, token, hrun, hp, hmem,
    ((tokens_stay_with_their_account emptyService_fresh hrun).2 1 1 token hp).1 _ hmem⟩

end Auth
