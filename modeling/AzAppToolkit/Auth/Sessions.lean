import AzAppToolkit.Auth.Service

set_option autoImplicit false

/-! # What the flows of the sign-in service share

The registry, the token cache, the session epoch and the keyring, what each step of a flow does to
them, and which answers it may get. -/

namespace Auth

open Prog

/-! ## State -/

structure Service where
  epoch : Nat
  registered : Option TenantContext
  cache : Table Slot AccessToken
  /-- The refresh tokens that load, by account. -/
  keyring : Table Text StoredToken
  /-- The number of tokens stored so far. -/
  stamp : Nat

namespace Service

/-- Another account than the context's holds the tenant. -/
def heldByAnotherAccount (s : Service) (tenant : TenantContext) : Bool :=
  s.registered.any (fun live => live.accountOid ≠ tenant.accountOid)

/-- Drop the cached tokens and the registration. -/
def swept (s : Service) : Service := { s with cache := ∅, registered := none }

def bumped (s : Service) : Service := { s with epoch := s.epoch + 1 }

def erased (s : Service) (accountOid : Text) : Service :=
  { s with keyring := s.keyring.erase accountOid }

def stored (s : Service) (accountOid : Text) (refresh : RefreshGrant) : Service :=
  { s with
    keyring := s.keyring.insert accountOid ⟨refresh, s.stamp⟩
    stamp := s.stamp + 1 }

/-- Seed the slot, and register the context unless the store is a `keep`. -/
def seeded (s : Service) (tenant : TenantContext) (slot : Slot) (access : AccessToken)
    (registration : Registration) : Service :=
  { s with
    cache := s.cache.insert slot access
    registered := if registration = .keep then s.registered else some tenant }

/-- The store may be made: the epoch is the fence, and no other account is in the way. -/
def admits (s : Service) (tenant : TenantContext) (fence : Nat) (registration : Registration) : Bool :=
  decide (s.epoch = fence) && (decide (registration = .replace) || !s.heldByAnotherAccount tenant)

/-- Whose token a sign-out deletes. -/
def accountToSignOut (s : Service) (tenant : TenantContext) : Text :=
  match s.registered with
  | some live => live.accountOid
  | none => tenant.accountOid

end Service

/-! ## Steps -/

/-- A deletion that failed may have been made all the same. -/
def MayErase (s : Service) (accountOid : Text) (s' : Service) : Prop :=
  s' = s ∨ s' = s.erased accountOid

/-- A write that failed may have left the old token, a torn set, or the new token. -/
def MayStore (s : Service) (accountOid : Text) (refresh : RefreshGrant) (s' : Service) : Prop :=
  s' = s ∨ s' = s.erased accountOid ∨ s' = s.stored accountOid refresh

def serviceWorld : World ServiceAnswer Service
  | s, .now, _, s' => s' = s
  | s, .cacheGet slot, r, s' => r = s.cache.lookup slot ∧ s' = s
  | s, .cacheInvalidateTenant, _, s' => s' = { s with cache := ∅ }
  | s, .sessionEpoch, r, s' => r = s.epoch ∧ s' = s
  | s, .captureRegistered, r, s' => r = s.registered.map (fun t => (t, s.epoch)) ∧ s' = s
  | s, .captureRestore _, .inl live, s' => s.registered = some live ∧ s' = s
  | s, .captureRestore _, .inr fence, s' => s.registered = none ∧ fence = s.epoch ∧ s' = s
  | s, .captureReauthenticate tenant, r, s' =>
    r = (if s.heldByAnotherAccount tenant then none else some s.epoch) ∧ s' = s
  | s, .startSession _, r, s' => r = s.epoch + 1 ∧ s' = s.swept.bumped
  | s, .commit tenant slot access fence registration, r, s' =>
    r = s.admits tenant fence registration ∧
      s' = if r then s.seeded tenant slot access registration else s
  | s, .dropSession fence _ _, _, s' => s' = if s.epoch = fence then s.swept else s
  | s, .signOutAccount tenant, r, s' => r = s.accountToSignOut tenant ∧ s' = s
  | s, .sweepAfterSignOut bumped _, _, s' => s' = if s.epoch = bumped then s.swept else s
  | s, .tenantContext, r, s' => r = s.registered ∧ s' = s
  | s, .ensureCredentialStore, _, s' => s' = s
  | s, .loadRefreshToken accountOid, .ok r, s' => r = s.keyring.lookup accountOid ∧ s' = s
  | s, .loadRefreshToken _, .error _, s' => s' = s
  | s, .saveRefreshTokenIf accountOid refresh fence _, .ok true, s' =>
    s.epoch = fence ∧ s' = s.stored accountOid refresh
  | s, .saveRefreshTokenIf _ _ fence _, .ok false, s' => s.epoch ≠ fence ∧ s' = s
  | s, .saveRefreshTokenIf accountOid refresh fence _, .error _, s' =>
    s' = s ∨ (s.epoch = fence ∧ MayStore s accountOid refresh s')
  | s, .deleteRefreshToken accountOid, .ok (), s' => s' = s.erased accountOid
  | s, .deleteRefreshToken accountOid, .error _, s' => MayErase s accountOid s'
  | s, .deleteRefreshTokenIf accountOid fence, .ok true, s' =>
    s.epoch = fence ∧ s' = s.erased accountOid
  | s, .deleteRefreshTokenIf _ fence, .ok false, s' => s.epoch ≠ fence ∧ s' = s
  | s, .deleteRefreshTokenIf accountOid fence, .error _, s' =>
    s' = s ∨ (s.epoch = fence ∧ MayErase s accountOid s')
  | s, .deleteRefreshTokenIfCurrent accountOid rejected, .ok .superseded, s' =>
    (∃ current, s.keyring.lookup accountOid = some current ∧ current.secret ≠ rejected.secret) ∧
      s' = s
  | s, .deleteRefreshTokenIfCurrent accountOid rejected, .ok .deleted, s' =>
    (∃ current, s.keyring.lookup accountOid = some current ∧ current.secret = rejected.secret) ∧
      s' = s.erased accountOid
  | s, .deleteRefreshTokenIfCurrent accountOid _, .ok .alreadyGone, s' =>
    s.keyring.lookup accountOid = none ∧ s' = s
  | s, .deleteRefreshTokenIfCurrent accountOid rejected, .error _, s' =>
    s' = s ∨ ((∃ current, s.keyring.lookup accountOid = some current ∧
      current.secret = rejected.secret) ∧ s' = s.erased accountOid)
  | s, .deleteRefreshTokenThen accountOid, .ok r, s' =>
    r = s.epoch + 1 ∧ s' = (s.erased accountOid).bumped
  | s, .deleteRefreshTokenThen accountOid, .error _, s' => MayErase s accountOid s'
  -- Entra mints for the account of the token that was sent
  | s, .postToken sent _ _, .ok token, s' => token.mintedFor = sent.mintedFor ∧ s' = s
  | s, .postToken _ _ _, .error _, s' => s' = s
  -- and names the account in the id token
  | s, .runAuthCodeFlow _ _ _ _, .ok (token, claims), s' =>
    (∀ oid, claims.oid = some oid → token.mintedFor = oid) ∧ s' = s
  | s, .runAuthCodeFlow _ _ _ _, .error _, s' => s' = s

/-- The keyring's tokens carry the account they are stored for. -/
def Service.Tagged (s : Service) : Prop :=
  ∀ account token, s.keyring.lookup account = some token → token.mintedFor = account

/-! ## Steps that only touch the keyring -/

/-- The exchange may change the epoch, the registration or the cache. -/
def touchesSession : Exchanged ServiceAnswer → Bool
  | ⟨.cacheInvalidateTenant, _⟩ => true
  | ⟨.startSession _, _⟩ => true
  | ⟨.commit _ _ _ _ _, _⟩ => true
  | ⟨.dropSession _ _ _, _⟩ => true
  | ⟨.sweepAfterSignOut _ _, _⟩ => true
  | ⟨.deleteRefreshTokenThen _, .ok _⟩ => true
  | _ => false

/-- A token in the keyring was there before, or this step stored it. -/
structure KeyringOnly (s : Service) (c : ServiceCall) (s' : Service) : Prop where
  epoch : s'.epoch = s.epoch
  registered : s'.registered = s.registered
  cache : s'.cache = s.cache
  stamp : s.stamp ≤ s'.stamp
  keyring : ∀ account token, s'.keyring.lookup account = some token →
    s.keyring.lookup account = some token ∨ ∃ refresh registration, s'.stamp = s.stamp + 1 ∧
      c = .saveRefreshTokenIf account refresh s.epoch registration ∧ token = ⟨refresh, s.stamp⟩

section KeyringOnly

variable {s s' : Service} {c : ServiceCall}

theorem KeyringOnly.same : KeyringOnly s c s := ⟨rfl, rfl, rfl, le_refl _, fun _ _ h => .inl h⟩

theorem keyringOnly_of_eq (h : s' = s) : KeyringOnly s c s' := h ▸ .same

theorem lookup_erased {account a : Text} {token : StoredToken}
    (h : (s.erased account).keyring.lookup a = some token) :
    a ≠ account ∧ s.keyring.lookup a = some token := by
  unfold Service.erased at h
  rw [AList.lookup_erase_eq] at h
  split at h
  · exact absurd h (by simp)
  · next hne => exact ⟨hne, h⟩

theorem keyringOnly_of_mayErase {account : Text} (h : MayErase s account s') : KeyringOnly s c s' := by
  rcases h with rfl | rfl
  · exact .same
  · exact ⟨rfl, rfl, rfl, le_refl _, fun a token hl => .inl (lookup_erased hl).2⟩

theorem keyringOnly_stored (account : Text) (refresh : RefreshGrant) (registration : Registration) :
    KeyringOnly s (.saveRefreshTokenIf account refresh s.epoch registration)
      (s.stored account refresh) := by
  refine ⟨rfl, rfl, rfl, Nat.le_succ _, fun a token hl => ?_⟩
  have hl' : (s.keyring.insert account ⟨refresh, s.stamp⟩).lookup a = some token := hl
  rw [AList.lookup_insert_eq] at hl'
  split at hl'
  · next heq => exact .inr ⟨refresh, registration, rfl, by rw [heq], (Option.some.inj hl').symm⟩
  · exact .inl hl'

theorem keyringOnly_of_save {account : Text} {refresh : RefreshGrant} {fence : Nat}
    {registration : Registration} {r : Except KeyringError Bool}
    (hw : serviceWorld s (.saveRefreshTokenIf account refresh fence registration) r s') :
    KeyringOnly s (.saveRefreshTokenIf account refresh fence registration) s' := by
  match r, hw with
  | .ok true, ⟨hfence, hw⟩ =>
    rw [hw, ← hfence]
    exact keyringOnly_stored account refresh registration
  | .ok false, hw => exact keyringOnly_of_eq hw.2
  | .error _, .inl hw => exact keyringOnly_of_eq hw
  | .error _, .inr ⟨_, .inl hw⟩ => exact keyringOnly_of_eq hw
  | .error _, .inr ⟨_, .inr (.inl hw)⟩ => exact keyringOnly_of_mayErase (.inr hw)
  | .error _, .inr ⟨hfence, .inr (.inr hw)⟩ =>
    rw [hw, ← hfence]
    exact keyringOnly_stored account refresh registration

theorem keyringOnly_of_purge {account : Text} {rejected : StoredToken} {r : Except KeyringError PurgeOutcome}
    (hw : serviceWorld s (.deleteRefreshTokenIfCurrent account rejected) r s') :
    KeyringOnly s c s' := by
  match r, hw with
  | .ok .superseded, hw => exact keyringOnly_of_eq hw.2
  | .ok .deleted, hw => exact keyringOnly_of_mayErase (.inr hw.2)
  | .ok .alreadyGone, hw => exact keyringOnly_of_eq hw.2
  | .error _, .inl hw => exact keyringOnly_of_eq hw
  | .error _, .inr hw => exact keyringOnly_of_mayErase (.inr hw.2)

theorem keyringOnly_of_deleteIf {account : Text} {fence : Nat} {r : Except KeyringError Bool}
    (hw : serviceWorld s (.deleteRefreshTokenIf account fence) r s') : KeyringOnly s c s' := by
  match r, hw with
  | .ok true, hw => exact keyringOnly_of_mayErase (.inr hw.2)
  | .ok false, hw => exact keyringOnly_of_eq hw.2
  | .error _, .inl hw => exact keyringOnly_of_eq hw
  | .error _, .inr hw => exact keyringOnly_of_mayErase hw.2

end KeyringOnly

/-! ## Every step -/

/-- What a step does to the session: nothing, or one of these. -/
inductive SessionStep (s : Service) : Exchanged ServiceAnswer → Service → Prop
  | keyring {e : Exchanged ServiceAnswer} {s' : Service} (he : touchesSession e = false)
      (honly : KeyringOnly s e.1 s') : SessionStep s e s'
  | cleared (r : Unit) : SessionStep s ⟨.cacheInvalidateTenant, r⟩ { s with cache := ∅ }
  | started (tenant : TenantContext) :
      SessionStep s ⟨.startSession tenant, s.epoch + 1⟩ s.swept.bumped
  | stored (tenant : TenantContext) (slot : Slot) (access : AccessToken) (registration : Registration)
      (hfree : registration = .replace ∨ s.heldByAnotherAccount tenant = false) :
      SessionStep s ⟨.commit tenant slot access s.epoch registration, true⟩
        (s.seeded tenant slot access registration)
  | refused (tenant : TenantContext) (slot : Slot) (access : AccessToken) (fence : Nat)
      (registration : Registration) : SessionStep s ⟨.commit tenant slot access fence registration, false⟩ s
  | dropped (sent : StoredToken) (account : Text) (r : Unit) :
      SessionStep s ⟨.dropSession s.epoch sent account, r⟩ s.swept
  | keptDrop {fence : Nat} (hmoved : s.epoch ≠ fence) (sent : StoredToken) (account : Text) (r : Unit) :
      SessionStep s ⟨.dropSession fence sent account, r⟩ s
  | swept (deleted : Text) (r : Unit) : SessionStep s ⟨.sweepAfterSignOut s.epoch deleted, r⟩ s.swept
  | keptSweep {bumped : Nat} (hmoved : s.epoch ≠ bumped) (deleted : Text) (r : Unit) :
      SessionStep s ⟨.sweepAfterSignOut bumped deleted, r⟩ s
  | signedOut (account : Text) :
      SessionStep s ⟨.deleteRefreshTokenThen account, .ok (s.epoch + 1)⟩ (s.erased account).bumped

theorem sessionStep_of_commit {s s' : Service} {tenant : TenantContext} {slot : Slot}
    {access : AccessToken} {fence : Nat} {registration : Registration} {r : Bool}
    (hw : serviceWorld s (.commit tenant slot access fence registration) r s') :
    SessionStep s ⟨.commit tenant slot access fence registration, r⟩ s' := by
  obtain ⟨hr, hs'⟩ := hw
  cases r with
  | false =>
    rw [hs']
    exact .refused tenant slot access fence registration
  | true =>
    rw [hs']
    have hadmits : s.admits tenant fence registration = true := hr.symm
    unfold Service.admits at hadmits
    rw [Bool.and_eq_true, decide_eq_true_iff, Bool.or_eq_true, decide_eq_true_iff,
      Bool.not_eq_true'] at hadmits
    obtain ⟨rfl, hfree⟩ := hadmits
    exact .stored tenant slot access registration hfree

/-- Say once what a step can do. -/
theorem sessionStep_of_world {s s' : Service} {c : ServiceCall} {r : ServiceAnswer c}
    (hw : serviceWorld s c r s') : SessionStep s ⟨c, r⟩ s' := by
  cases c with
  | now => exact .keyring rfl (keyringOnly_of_eq hw)
  | cacheGet slot => exact .keyring rfl (keyringOnly_of_eq hw.2)
  | cacheInvalidateTenant =>
    obtain rfl : s' = { s with cache := ∅ } := hw
    exact .cleared r
  | sessionEpoch | captureRegistered => exact .keyring rfl (keyringOnly_of_eq hw.2)
  | captureRestore tenant =>
    cases r with
    | inl live => exact .keyring rfl (keyringOnly_of_eq hw.2)
    | inr fence => exact .keyring rfl (keyringOnly_of_eq hw.2.2)
  | captureReauthenticate tenant => exact .keyring rfl (keyringOnly_of_eq hw.2)
  | startSession tenant =>
    obtain ⟨rfl, rfl⟩ : r = s.epoch + 1 ∧ s' = s.swept.bumped := hw
    exact .started tenant
  | commit tenant slot access fence registration => exact sessionStep_of_commit hw
  | dropSession fence sent account =>
    have hs' : s' = if s.epoch = fence then s.swept else s := hw
    split at hs'
    · next hfence =>
      rw [hs', ← hfence]
      exact .dropped sent account r
    · next hmoved =>
      rw [hs']
      exact .keptDrop hmoved sent account r
  | signOutAccount tenant => exact .keyring rfl (keyringOnly_of_eq hw.2)
  | sweepAfterSignOut bumped deleted =>
    have hs' : s' = if s.epoch = bumped then s.swept else s := hw
    split at hs'
    · next hfence =>
      rw [hs', ← hfence]
      exact .swept deleted r
    · next hmoved =>
      rw [hs']
      exact .keptSweep hmoved deleted r
  | tenantContext => exact .keyring rfl (keyringOnly_of_eq hw.2)
  | ensureCredentialStore => exact .keyring rfl (keyringOnly_of_eq hw)
  | loadRefreshToken account =>
    cases r with
    | ok loaded => exact .keyring rfl (keyringOnly_of_eq hw.2)
    | error e => exact .keyring rfl (keyringOnly_of_eq hw)
  | saveRefreshTokenIf account refresh fence registration => exact .keyring rfl (keyringOnly_of_save hw)
  | deleteRefreshToken account =>
    cases r with
    | ok u => exact .keyring rfl (keyringOnly_of_mayErase (.inr hw))
    | error e => exact .keyring rfl (keyringOnly_of_mayErase hw)
  | deleteRefreshTokenIf account fence => exact .keyring rfl (keyringOnly_of_deleteIf hw)
  | deleteRefreshTokenIfCurrent account rejected => exact .keyring rfl (keyringOnly_of_purge hw)
  | deleteRefreshTokenThen account =>
    cases r with
    | ok n =>
      obtain ⟨rfl, rfl⟩ : n = s.epoch + 1 ∧ s' = (s.erased account).bumped := hw
      exact .signedOut account
    | error e => exact .keyring rfl (keyringOnly_of_mayErase hw)
  | postToken sent scopes claims =>
    cases r with
    | ok token => exact .keyring rfl (keyringOnly_of_eq hw.2)
    | error e => exact .keyring rfl (keyringOnly_of_eq hw)
  | runAuthCodeFlow scopes prompt loginHint cae =>
    cases r with
    | ok answer => exact .keyring rfl (keyringOnly_of_eq hw.2)
    | error e => exact .keyring rfl (keyringOnly_of_eq hw)

/-! ## Flows -/

inductive FlowResult where
  | session (tenant : TenantContext)
  | token (token : AccessToken)
  /-- A bearer token, from an adapter built under the epoch. -/
  | bearer (builtUnder : Nat) (token : AccessToken)
  | finished

/-- Build an adapter and, some time later, take a token from it. -/
def takeBearer (cfg : ServiceConfig) (scopes : List Text) (cae : Bool) : Flow FlowResult := do
  let adapter ← newAdapter scopes cae
  let token ← adapter.bearer cfg
  pure (.bearer adapter.epoch token)

def takeBearerWithClaims (cfg : ServiceConfig) (scopes : List Text) (cae : Bool) (claims : Text) :
    Flow FlowResult := do
  let adapter ← newAdapter scopes cae
  let token ← adapter.bearerWithClaims cfg claims
  pure (.bearer adapter.epoch token)

/-- The programs that run over the service. -/
inductive ServiceFlow (cfg : ServiceConfig) : Steps (Except AuthError FlowResult) → Prop
  | signIn : ServiceFlow cfg (FlowResult.session <$> signIn cfg).run
  | signOut (tenant : TenantContext) :
      ServiceFlow cfg ((fun _ => FlowResult.finished) <$> signOut tenant).run
  | restoreSession (tenant : TenantContext) :
      ServiceFlow cfg (FlowResult.session <$> restoreSession cfg tenant).run
  | reauthenticate (tenant : TenantContext) :
      ServiceFlow cfg (FlowResult.session <$> reauthenticate cfg tenant).run
  | consent (scopes : List Text) :
      ServiceFlow cfg ((fun _ => FlowResult.finished) <$> consentForScopes cfg scopes).run
  | stepUp (scopes : List Text) :
      ServiceFlow cfg ((fun _ => FlowResult.finished) <$> stepUpForScopes cfg scopes).run
  | stepUpWhereRequired (scopes : List Text) :
      ServiceFlow cfg ((fun _ => FlowResult.finished) <$> stepUpWhereRequired cfg scopes).run
  | refreshSession : ServiceFlow cfg ((fun _ => FlowResult.finished) <$> refreshSession cfg).run
  | forgetPreviousAccount (accountOid : Text) :
      ServiceFlow cfg ((fun _ => FlowResult.finished) <$> forgetPreviousAccount accountOid).run
  | accessToken (scopes : List Text) :
      ServiceFlow cfg (FlowResult.token <$> accessTokenForScopes scopes).run
  | accessTokenCae (scopes : List Text) (challenge : Option Text) :
      ServiceFlow cfg (FlowResult.token <$> accessTokenForScopesCae cfg scopes challenge).run
  | bearer (scopes : List Text) (cae : Bool) : ServiceFlow cfg (takeBearer cfg scopes cae).run
  | bearerWithClaims (scopes : List Text) (cae : Bool) (claims : Text) :
      ServiceFlow cfg (takeBearerWithClaims cfg scopes cae claims).run

/-- The flows of the service, over any world. -/
abbrev FlowPool (σ : Type) := Pool ServiceAnswer (Except AuthError FlowResult) σ

abbrev FlowEvent := Pool.Event ServiceAnswer (Except AuthError FlowResult)

end Auth
