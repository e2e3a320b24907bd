import AzAppToolkit.Auth.Sessions

set_option autoImplicit false

/-! # A service that can be run

One of the services `serviceWorld` allows, as a function: the keyring never fails, the browser flow
ends as the operator decides, and Entra rejects the refresh tokens it is told to. Runs of the flows
over it are runs over the service, so that a single run can be looked at. -/

namespace Auth

open Prog

/-- What the outside does in a flow: who completes the browser flow, and what is rejected. -/
structure Outside where
  token : TokenResponse
  claims : IdClaims
  rejects : StoredToken → Bool

/-- The id token names the account the token is minted for. -/
def Outside.Proper (o : Outside) : Prop := ∀ oid, o.claims.oid = some oid → o.token.mintedFor = oid

/-- What Entra makes of a refresh token. -/
def Outside.redeem (o : Outside) (sent : StoredToken) : Except AuthError TokenResponse :=
  if o.rejects sent then .error (.invalidGrant [])
  else .ok { o.token with mintedFor := sent.mintedFor, refreshToken := none, idClaims := none }

namespace Service

/-- What the compare-and-delete does. -/
def purged (s : Service) (account : Text) (rejected : StoredToken) : PurgeOutcome × Service :=
  match s.keyring.lookup account with
  | none => (.alreadyGone, s)
  | some current =>
    if current.secret = rejected.secret then (.deleted, s.erased account) else (.superseded, s)

def serve (o : Outside) (s : Service) : (c : ServiceCall) → Option (ServiceAnswer c × Service)
  | .now => some (0, s)
  | .cacheGet slot => some (s.cache.lookup slot, s)
  | .cacheInvalidateTenant => some ((), { s with cache := ∅ })
  | .sessionEpoch => some (s.epoch, s)
  | .captureRegistered => some (s.registered.map (fun t => (t, s.epoch)), s)
  | .captureRestore _ =>
    match s.registered with
    | some live => some (.inl live, s)
    | none => some (.inr s.epoch, s)
  | .captureReauthenticate tenant =>
    some (if s.heldByAnotherAccount tenant then none else some s.epoch, s)
  | .startSession _ => some (s.epoch + 1, s.swept.bumped)
  | .commit tenant slot access fence registration =>
    some (s.admits tenant fence registration,
      if s.admits tenant fence registration then s.seeded tenant slot access registration else s)
  | .dropSession fence _ _ => some ((), if s.epoch = fence then s.swept else s)
  | .signOutAccount tenant => some (s.accountToSignOut tenant, s)
  | .sweepAfterSignOut bumped _ => some ((), if s.epoch = bumped then s.swept else s)
  | .tenantContext => some (s.registered, s)
  | .ensureCredentialStore => some (.ok (), s)
  | .loadRefreshToken account => some (.ok (s.keyring.lookup account), s)
  | .saveRefreshTokenIf account refresh fence _ =>
    if s.epoch = fence then some (.ok true, s.stored account refresh) else some (.ok false, s)
  | .deleteRefreshToken account => some (.ok (), s.erased account)
  | .deleteRefreshTokenIf account fence =>
    if s.epoch = fence then some (.ok true, s.erased account) else some (.ok false, s)
  | .deleteRefreshTokenIfCurrent account rejected =>
    some (.ok (s.purged account rejected).1, (s.purged account rejected).2)
  | .deleteRefreshTokenThen account => some (.ok (s.epoch + 1), (s.erased account).bumped)
  | .postToken sent _ _ => some (o.redeem sent, s)
  | .runAuthCodeFlow _ _ _ _ => some (.ok (o.token, o.claims), s)

theorem world_of_purged (s : Service) (account : Text) (rejected : StoredToken) :
    serviceWorld s (.deleteRefreshTokenIfCurrent account rejected) (.ok (s.purged account rejected).1)
      (s.purged account rejected).2 := by
  unfold purged
  split
  · next hnone => exact ⟨hnone, rfl⟩
  · next current hcurrent =>
    split
    · next heq => exact ⟨⟨current, hcurrent, heq⟩, rfl⟩
    · next hne => exact ⟨⟨current, hcurrent, hne⟩, rfl⟩

theorem world_of_redeem {o : Outside} (s : Service) (sent : StoredToken) (scopes : List Text)
    (claims : Option Text) : serviceWorld s (.postToken sent scopes claims) (o.redeem sent) s := by
  unfold Outside.redeem
  split
  · rfl
  · exact ⟨rfl, rfl⟩

theorem world_of_serve {o : Outside} (ho : o.Proper) (s : Service) (c : ServiceCall)
    (r : ServiceAnswer c) (s' : Service) (h : s.serve o c = some (r, s')) : serviceWorld s c r s' := by
  cases c with
  | now =>
    obtain ⟨rfl, rfl⟩ := Prod.mk.inj (Option.some.inj h)
    rfl
  | cacheGet slot =>
    obtain ⟨rfl, rfl⟩ := Prod.mk.inj (Option.some.inj h)
    exact ⟨rfl, rfl⟩
  | cacheInvalidateTenant =>
    obtain ⟨rfl, rfl⟩ := Prod.mk.inj (Option.some.inj h)
    rfl
  | sessionEpoch | captureRegistered =>
    obtain ⟨rfl, rfl⟩ := Prod.mk.inj (Option.some.inj h)
    exact ⟨rfl, rfl⟩
  | captureRestore tenant =>
    unfold serve at h
    dsimp only at h
    split at h
    · next live hlive =>
      obtain ⟨rfl, rfl⟩ := Prod.mk.inj (Option.some.inj h)
      exact ⟨hlive, rfl⟩
    · next hnone =>
      obtain ⟨rfl, rfl⟩ := Prod.mk.inj (Option.some.inj h)
      exact ⟨hnone, rfl, rfl⟩
  | captureReauthenticate tenant | startSession tenant | commit tenant slot access fence registration =>
    obtain ⟨rfl, rfl⟩ := Prod.mk.inj (Option.some.inj h)
    exact ⟨rfl, rfl⟩
  | dropSession fence sent account =>
    obtain ⟨rfl, rfl⟩ := Prod.mk.inj (Option.some.inj h)
    rfl
  | signOutAccount tenant =>
    obtain ⟨rfl, rfl⟩ := Prod.mk.inj (Option.some.inj h)
    exact ⟨rfl, rfl⟩
  | sweepAfterSignOut bumped deleted =>
    obtain ⟨rfl, rfl⟩ := Prod.mk.inj (Option.some.inj h)
    rfl
  | tenantContext =>
    obtain ⟨rfl, rfl⟩ := Prod.mk.inj (Option.some.inj h)
    exact ⟨rfl, rfl⟩
  | ensureCredentialStore =>
    obtain ⟨rfl, rfl⟩ := Prod.mk.inj (Option.some.inj h)
    rfl
  | loadRefreshToken account =>
    obtain ⟨rfl, rfl⟩ := Prod.mk.inj (Option.some.inj h)
    exact ⟨rfl, rfl⟩
  | saveRefreshTokenIf account refresh fence registration =>
    unfold serve at h
    dsimp only at h
    split at h
    · next hfence =>
      obtain ⟨rfl, rfl⟩ := Prod.mk.inj (Option.some.inj h)
      exact ⟨hfence, rfl⟩
    · next hmoved =>
      obtain ⟨rfl, rfl⟩ := Prod.mk.inj (Option.some.inj h)
      exact ⟨hmoved, rfl⟩
  | deleteRefreshToken account =>
    obtain ⟨rfl, rfl⟩ := Prod.mk.inj (Option.some.inj h)
    rfl
  | deleteRefreshTokenIf account fence =>
    unfold serve at h
    dsimp only at h
    split at h
    · next hfence =>
      obtain ⟨rfl, rfl⟩ := Prod.mk.inj (Option.some.inj h)
      exact ⟨hfence, rfl⟩
    · next hmoved =>
      obtain ⟨rfl, rfl⟩ := Prod.mk.inj (Option.some.inj h)
      exact ⟨hmoved, rfl⟩
  | deleteRefreshTokenIfCurrent account rejected =>
    obtain ⟨rfl, rfl⟩ := Prod.mk.inj (Option.some.inj h)
    exact world_of_purged s account rejected
  | deleteRefreshTokenThen account =>
    obtain ⟨rfl, rfl⟩ := Prod.mk.inj (Option.some.inj h)
    exact ⟨rfl, rfl⟩
  | postToken sent scopes claims =>
    obtain ⟨rfl, rfl⟩ := Prod.mk.inj (Option.some.inj h)
    exact world_of_redeem s sent scopes claims
  | runAuthCodeFlow scopes prompt loginHint cae =>
    obtain ⟨rfl, rfl⟩ := Prod.mk.inj (Option.some.inj h)
    exact ⟨ho, rfl⟩

end Service

/-! ## People and places -/

/-- Someone at the browser, with a refresh token of theirs. -/
def operator (account : Text) : Outside where
  token := ⟨account, some account, 3600, none, none, account⟩
  claims := ⟨some ['t'], some account, none, none⟩
  rejects := fun _ => false

theorem operator_proper (account : Text) : (operator account).Proper := by
  intro oid hoid
  exact Option.some.inj hoid

def soleTenant : ServiceConfig := ⟨['t'], ['g'], [['r']], fun _ => []⟩

def contextOf (account : Text) : TenantContext := ⟨['t'], account, none, none⟩

def emptyService : Service := ⟨0, none, ∅, ∅, 0⟩

/-- `a`'s session, with a refresh token in the keyring. -/
def liveSession : Service :=
  ⟨0, some (contextOf ['a']), ∅, (∅ : Table Text StoredToken).insert ['a'] ⟨⟨['s'], ['a']⟩, 0⟩, 1⟩

theorem liveSession_tagged : liveSession.Tagged := by
  intro account token hl
  have hl' : ((∅ : Table Text StoredToken).insert ['a'] ⟨⟨['s'], ['a']⟩, 0⟩).lookup account =
      some token := hl
  rw [AList.lookup_insert_eq] at hl'
  split at hl'
  · next heq => rw [← Option.some.inj hl', heq]
  · exact absurd hl' (by simp)

end Auth
