import AzAppToolkit.Auth.Keyring

set_option autoImplicit false

/-! # The sign-in service

`EntraAuthService` of `azapptoolkit-auth/src/service/mod.rs`, with the token adapter of
`token_adapter.rs`: every flow that yields tokens, as a program over the steps the others see as one.

Modelling choices:
* the service runs for one tenant, so the registry holds at most one context and the cache only the
  slots of that tenant;
* under the chunk-set lock a stored token is read and replaced as a whole (`Auth.stored_token_is_whole`);
  a write that fails may have left the old token, the new one, or a torn set, which loads as none;
* the refresh locks are left out: they only make flows of one scope set wait for each other;
* tokens carry the account they were minted for, and stored ones the number of the store. These tags
  are for the proofs, nothing reads them. -/

namespace Auth

open Prog

/-! ## Data -/

structure TenantContext where
  tenantId : Text
  accountOid : Text
  username : Option Text
  displayName : Option Text
deriving DecidableEq

inductive AuthError where
  | notSignedIn
  | refreshTokenMissing (tenantId : Text)
  | invalidGrant (reason : Text)
  | consentRequired (reason : Text)
  | interactionRequired (reason : Text)
  | tokenExchange (detail : Text)
  | authorization (detail : Text)
  | cancelled
  | keyring (message : Text)
  | keyringUnavailable (message : Text)
  /-- The failures of a request that no flow tells apart. -/
  | transport (detail : Text)

def AuthError.ofKeyring : KeyringError → AuthError
  | .keyringUnavailable message => .keyringUnavailable message
  | .keyring message => .keyring message

/-- An access token in memory; times are in nanoseconds. -/
structure AccessToken where
  token : Text
  expiresAt : Int
  scopes : List Text
  mintedFor : Text

/-- A refresh token, as Entra hands it out. -/
structure RefreshGrant where
  secret : Text
  mintedFor : Text
deriving DecidableEq

/-- A refresh token in the keyring. -/
structure StoredToken extends RefreshGrant where
  stamp : Nat
deriving DecidableEq

structure IdClaims where
  tid : Option Text
  oid : Option Text
  preferredUsername : Option Text
  name : Option Text

/-- A `/token` response; `idClaims` is what parsing its id token gives, if it has one. -/
structure TokenResponse where
  accessToken : Text
  refreshToken : Option Text
  expiresIn : Nat
  scope : Option Text
  idClaims : Option (Except AuthError IdClaims)
  mintedFor : Text

inductive RefreshTokenSave where
  | required
  | bestEffort

/-- What a store does with the registration. -/
inductive Registration where
  | keep
  | claim
  | replace
deriving DecidableEq

/-- A slot of the token cache: the canonical scope set, and whether the token is a CAE one. -/
abbrev Slot := Text × Bool

def scopeKey (scopes : List Text) : Text := Text.join [' '] (Text.dedup (Text.sort scopes))

def refreshLeewaySecs : Int := 60

def maxTokenTtlSecs : Nat := 2 * 24 * 60 * 60

def nanosPerSec : Int := 1000000000

/-- `needs_refresh`, at the time `now`. -/
def AccessToken.needsRefresh (t : AccessToken) (now : Int) : Bool :=
  decide ((t.expiresAt - now).tdiv nanosPerSec < refreshLeewaySecs)

/-- `parse_scopes`. -/
def parseScopes (raw : Option Text) (fallback : List Text) : List Text :=
  match raw with
  | some s => (Text.splitOn isWhitespace s).filter (fun part => !part.isEmpty)
  | none => fallback

/-- What of the configuration the flows read. -/
structure ServiceConfig where
  tenantId : Text
  graphResource : Text
  defaultGraphReadScopes : List Text
  /-- `build_cae_claims`: the claims a CAE request sends. -/
  buildCaeClaims : Option Text → Text

def reservedScopes : List Text := ["offline_access", "openid", "profile"].map String.toList

def ServiceConfig.isGraphScopeSet (cfg : ServiceConfig) (scopes : List Text) : Bool :=
  let resourceScopes := scopes.filter (fun s => !reservedScopes.contains s)
  !resourceScopes.isEmpty && resourceScopes.all (fun s => (cfg.graphResource ++ ['/']).isPrefixOf s)

/-! ## Identity -/

def ensureSameIdentity (claims : IdClaims) (tenant : TenantContext) (action : String) :
    Except AuthError Unit :=
  if claims.tid ≠ some tenant.tenantId then
    .error (.authorization
      (action ++ " completed for a different tenant — use Sign Out to switch").toList)
  else if claims.oid ≠ some tenant.accountOid then
    .error (.authorization
      (action ++ " completed with a different account — use Sign Out to switch").toList)
  else .ok ()

/-- The context a restored session runs under. -/
def restoredContext (remembered : TenantContext) (claims : Option (Except AuthError IdClaims)) :
    Except AuthError TenantContext :=
  match claims with
  | none => .ok remembered
  | some (.error e) => .error e
  | some (.ok claims) =>
    match ensureSameIdentity claims remembered "session restore" with
    | .error e => .error e
    | .ok () => .ok { remembered with
        username := claims.preferredUsername.or remembered.username
        displayName := claims.name.or remembered.displayName }

/-! ## Steps -/

inductive ServiceCall where
  /-- `Utc::now`. -/
  | now
  | cacheGet (slot : Slot)
  | cacheInvalidateTenant
  | sessionEpoch
  /-- The registered context and the epoch, read together. -/
  | captureRegistered
  /-- `restore_session`: the live context, or the epoch when there is none. -/
  | captureRestore (tenant : TenantContext)
  /-- `reauthenticate`: the epoch, unless another account holds the tenant. -/
  | captureReauthenticate (tenant : TenantContext)
  /-- `sign_in`: sweep the tenant and move the epoch. -/
  | startSession (tenant : TenantContext)
  /-- The registry section of `store_token_outcome`. -/
  | commit (tenant : TenantContext) (slot : Slot) (access : AccessToken) (fence : Nat)
      (registration : Registration)
  /-- The registry section of the `invalid_grant` purge, with the token that was sent. -/
  | dropSession (fence : Nat) (sent : StoredToken) (accountOid : Text)
  /-- `sign_out`: whose token to delete. -/
  | signOutAccount (tenant : TenantContext)
  /-- The sweep of a sign-out, with the account whose token it deleted. -/
  | sweepAfterSignOut (bumped : Nat) (deleted : Text)
  /-- `tenant_context` and `forget_previous_account`. -/
  | tenantContext
  | ensureCredentialStore
  | loadRefreshToken (accountOid : Text)
  /-- The save of a store, with what the store does with the registration. -/
  | saveRefreshTokenIf (accountOid : Text) (refresh : RefreshGrant) (fence : Nat)
      (registration : Registration)
  | deleteRefreshToken (accountOid : Text)
  | deleteRefreshTokenIf (accountOid : Text) (fence : Nat)
  | deleteRefreshTokenIfCurrent (accountOid : Text) (rejected : StoredToken)
  /-- Delete and move the epoch. -/
  | deleteRefreshTokenThen (accountOid : Text)
  /-- The `refresh_token` grant. -/
  | postToken (sent : StoredToken) (scopes : List Text) (claims : Option Text)
  | runAuthCodeFlow (scopes : List Text) (prompt : String) (loginHint : Option Text) (cae : Bool)

abbrev ServiceAnswer : ServiceCall → Type
  | .now => Int
  | .cacheGet _ => Option AccessToken
  | .cacheInvalidateTenant => Unit
  | .sessionEpoch => Nat
  | .captureRegistered => Option (TenantContext × Nat)
  | .captureRestore _ => TenantContext ⊕ Nat
  | .captureReauthenticate _ => Option Nat
  | .startSession _ => Nat
  | .commit _ _ _ _ _ => Bool
  | .dropSession _ _ _ => Unit
  | .signOutAccount _ => Text
  | .sweepAfterSignOut _ _ => Unit
  | .tenantContext => Option TenantContext
  | .ensureCredentialStore => Except KeyringError Unit
  | .loadRefreshToken _ => Except KeyringError (Option StoredToken)
  | .saveRefreshTokenIf _ _ _ _ => Except KeyringError Bool
  | .deleteRefreshToken _ => Except KeyringError Unit
  | .deleteRefreshTokenIf _ _ => Except KeyringError Bool
  | .deleteRefreshTokenIfCurrent _ _ => Except KeyringError PurgeOutcome
  | .deleteRefreshTokenThen _ => Except KeyringError Nat
  | .postToken _ _ _ => Except AuthError TokenResponse
  | .runAuthCodeFlow _ _ _ _ => Except AuthError (TokenResponse × IdClaims)

/-- A program over the steps of the service. -/
abbrev Steps (α : Type) := Prog ServiceAnswer α

/-- A flow: a program that may fail. -/
abbrev Flow (α : Type) := ExceptT AuthError (Prog ServiceAnswer) α

/-- A step that is answered. -/
def step (c : ServiceCall) : Flow (ServiceAnswer c) := ExceptT.lift (call c)

/-- A result that ends the flow if it is an error. -/
def ofResult {α : Type} (r : Except AuthError α) : Flow α := ExceptT.mk (pure r)

def now : Flow Int := step ServiceCall.now

def cacheGet (slot : Slot) : Flow (Option AccessToken) := step (ServiceCall.cacheGet slot)

def sessionEpoch : Flow Nat := step ServiceCall.sessionEpoch

def captureRegistered : Flow (Option (TenantContext × Nat)) := step ServiceCall.captureRegistered

def saveRefreshTokenStep (accountOid : Text) (refresh : RefreshGrant) (fence : Nat)
    (registration : Registration) : Flow (Except KeyringError Bool) :=
  step (ServiceCall.saveRefreshTokenIf accountOid refresh fence registration)

def loadRefreshTokenStep (accountOid : Text) : Flow (Except KeyringError (Option StoredToken)) :=
  step (ServiceCall.loadRefreshToken accountOid)

def postToken (sent : StoredToken) (scopes : List Text) (claims : Option Text) :
    Flow (Except AuthError TokenResponse) := step (ServiceCall.postToken sent scopes claims)

def purgeStep (accountOid : Text) (rejected : StoredToken) : Flow (Except KeyringError PurgeOutcome) :=
  step (ServiceCall.deleteRefreshTokenIfCurrent accountOid rejected)

def commit (tenant : TenantContext) (slot : Slot) (access : AccessToken) (fence : Nat)
    (registration : Registration) : Flow Bool :=
  step (ServiceCall.commit tenant slot access fence registration)

def runAuthCodeFlow (scopes : List Text) (prompt : String) (loginHint : Option Text) (cae : Bool) :
    Flow (TokenResponse × IdClaims) := do
  let r : Except AuthError (TokenResponse × IdClaims) ←
    step (ServiceCall.runAuthCodeFlow scopes prompt loginHint cae)
  ofResult r

/-! ## Storing a token -/

/-- What a store makes of the keyring's answer. -/
def settleSave (save : RefreshTokenSave) : Except KeyringError Bool → Except AuthError Unit
  | .ok false => .error .notSignedIn
  | .ok true => .ok ()
  | .error (.keyring message) =>
    match save with
    | .bestEffort => .ok ()
    | .required => .error (.keyring message)
  | .error (.keyringUnavailable message) => .error (.keyringUnavailable message)

/-- The rotated refresh token goes to the keyring. -/
def saveRotated (tenant : TenantContext) (save : RefreshTokenSave) (fence : Nat)
    (registration : Registration) (token : TokenResponse) : Flow Unit :=
  match token.refreshToken with
  | none => pure ()
  | some refresh => do
      let saved ← saveRefreshTokenStep tenant.accountOid ⟨refresh, token.mintedFor⟩ fence
        registration
      ofResult (settleSave save saved)

def accessOf (token : TokenResponse) (now : Int) (scopeFallback : List Text) : AccessToken :=
  ⟨token.accessToken, now + min token.expiresIn maxTokenTtlSecs * nanosPerSec,
    parseScopes token.scope scopeFallback, token.mintedFor⟩

def storeTokenOutcome (tenant : TenantContext) (cacheScopes scopeFallback : List Text) (cae : Bool)
    (save : RefreshTokenSave) (fence : Nat) (registration : Registration) (token : TokenResponse) :
    Flow AccessToken := do
  let time ← now
  saveRotated tenant save fence registration token
  let access := accessOf token time scopeFallback
  let stored ← commit tenant (scopeKey cacheScopes, cae) access fence registration
  if stored then pure access else throw .notSignedIn

/-! ## Signing in -/

def missingClaim (claim : String) : AuthError :=
  .tokenExchange ("id token missing " ++ claim).toList

def signIn (cfg : ServiceConfig) : Flow TenantContext := do
  if cfg.tenantId.any (· == '.') then
    throw (.tokenExchange ("configured tenant ".toList ++ cfg.tenantId ++ (" is a domain; azapptoolkit " ++
      "needs the Directory (tenant) ID GUID from the app registration's Overview page").toList))
  let ready : Except KeyringError Unit ← step ServiceCall.ensureCredentialStore
  ofResult (ready.mapError AuthError.ofKeyring)
  let (token, claims) ← runAuthCodeFlow cfg.defaultGraphReadScopes "select_account" none true
  let some tid := claims.tid | throw (missingClaim "tid")
  if tid ≠ cfg.tenantId then
    throw (.tokenExchange ("id token tid ".toList ++ tid ++ " does not match configured tenant ".toList
      ++ cfg.tenantId))
  let some oid := claims.oid | throw (missingClaim "oid")
  let tenant : TenantContext := ⟨tid, oid, claims.preferredUsername, claims.name⟩
  let fence : Nat ← step (ServiceCall.startSession tenant)
  let _ ← storeTokenOutcome tenant cfg.defaultGraphReadScopes [] true .required fence .replace token
  pure tenant

/-! ## Consent and step-up -/

/-- The scopes, with the reserved ones a round trip needs. -/
def withReservedScopes (scopes : List Text) : List Text :=
  scopes ++ reservedScopes.filter (fun s => !scopes.contains s)

def interactiveForScopes (cfg : ServiceConfig) (scopes : List Text) (prompt action : String) :
    Flow Unit := do
  let some (tenant, fence) ← captureRegistered | throw .notSignedIn
  let cae := cfg.isGraphScopeSet scopes
  let (token, claims) ← runAuthCodeFlow (withReservedScopes scopes) prompt tenant.username cae
  ofResult (ensureSameIdentity claims tenant action)
  let _ ← storeTokenOutcome tenant scopes scopes cae .required fence .keep token
  pure ()

def consentForScopes (cfg : ServiceConfig) (scopes : List Text) : Flow Unit :=
  interactiveForScopes cfg scopes "consent" "consent"

def stepUpForScopes (cfg : ServiceConfig) (scopes : List Text) : Flow Unit :=
  interactiveForScopes cfg scopes "login" "verification"

/-! ## Silent acquisition -/

/-- What the keyring holds for the account. -/
def loadRefreshSecret (tenant : TenantContext) : Flow StoredToken := do
  match ← loadRefreshTokenStep tenant.accountOid with
  | .error e => throw (.ofKeyring e)
  | .ok none => throw (.refreshTokenMissing tenant.tenantId)
  | .ok (some secret) => pure secret

/-- One refresh: the response, or the token that was rejected with `invalid_grant`. -/
def redeemOnce (tenant : TenantContext) (scopes : List Text) (claims : Option Text) :
    Flow (TokenResponse ⊕ StoredToken) := do
  let secret ← loadRefreshSecret tenant
  match ← postToken secret scopes claims with
  | .ok token => pure (.inl token)
  | .error (.invalidGrant _) => pure (.inr secret)
  | .error e => throw e

/-- After `invalid_grant`: it returns only if the token was replaced meanwhile, under the same
    epoch. -/
def purgeRejected (tenant : TenantContext) (fence : Nat) (rejected : StoredToken) : Flow Unit := do
  match ← purgeStep tenant.accountOid rejected with
  | .ok .superseded => do
      let epoch ← sessionEpoch
      if epoch ≠ fence then throw .notSignedIn
  | _ => do
      step (ServiceCall.dropSession fence rejected tenant.accountOid)
      throw (.refreshTokenMissing tenant.tenantId)

/-- The loop of `acquire_token`, with the retries it has left. -/
def redeem (tenant : TenantContext) (fence : Nat) (scopes : List Text) (claims : Option Text) :
    Nat → Flow TokenResponse
  | 0 => do
      match ← redeemOnce tenant scopes claims with
      | .inl token => pure token
      | .inr rejected => do
          purgeRejected tenant fence rejected
          throw (.refreshTokenMissing tenant.tenantId)
  | retries + 1 => do
      match ← redeemOnce tenant scopes claims with
      | .inl token => pure token
      | .inr rejected => do
          purgeRejected tenant fence rejected
          redeem tenant fence scopes claims retries

/-- A cached token that serves, at the time `time`. -/
def usable (cached : Option AccessToken) (time : Int) : Option AccessToken :=
  cached.filter (fun t => !t.needsRefresh time)

/-- The slot as it was before the refresh lock, and the token if it serves at once. -/
def firstLook (slot : Slot) (bypassCache : Bool) : Flow (Option AccessToken × Option AccessToken) := do
  let before ← cacheGet slot
  let time ← now
  pure (before, if bypassCache then none else usable before time)

/-- The look under the refresh lock: a challenge takes only a token minted since. -/
def secondLook (slot : Slot) (bypassCache : Bool) (before : Option AccessToken) :
    Flow (Option AccessToken) := do
  let fresh ← cacheGet slot
  let time ← now
  pure ((usable fresh time).filter (fun t =>
    !bypassCache || before.all (fun b => b.expiresAt ≠ t.expiresAt)))

/-- The grant and the store of a silent acquisition, for the session held. -/
def refreshAndStore (tenant : TenantContext) (fence : Nat) (scopes : List Text)
    (claims : Option Text) : Flow AccessToken := do
  let token ← redeem tenant fence scopes claims 1
  storeTokenOutcome tenant scopes scopes claims.isSome .bestEffort fence .keep token

def acquireRefreshed (scopes : List Text) (claims : Option Text) : Flow AccessToken := do
  let some (tenant, fence) ← captureRegistered | throw .notSignedIn
  refreshAndStore tenant fence scopes claims

/-- `acquire_token` for a registered tenant (`access_token_inner`). -/
def accessTokenInner (scopes : List Text) (claims : Option Text) (bypassCache : Bool) :
    Flow AccessToken := do
  let slot := (scopeKey scopes, claims.isSome)
  let (before, existing) ← firstLook slot bypassCache
  match existing with
  | some existing => pure existing
  | none => do
      match ← secondLook slot bypassCache before with
      | some fresh => pure fresh
      | none => acquireRefreshed scopes claims

/-- `acquire_token` for a restore: no cached token, the remembered account, and the context the
    refresh proved. -/
def acquireRestoring (remembered : TenantContext) (fence : Nat) (scopes : List Text)
    (claims : Option Text) : Flow TenantContext := do
  let token ← redeem remembered fence scopes claims 1
  let owner ← ofResult (restoredContext remembered token.idClaims)
  let _ ← storeTokenOutcome owner scopes scopes claims.isSome .bestEffort fence .claim token
  pure owner

def accessTokenForScopes (scopes : List Text) : Flow AccessToken :=
  accessTokenInner scopes none false

def accessTokenForScopesCae (cfg : ServiceConfig) (scopes : List Text) (challenge : Option Text) :
    Flow AccessToken :=
  accessTokenInner scopes (some (cfg.buildCaeClaims challenge)) challenge.isSome

def stepUpWhereRequired (cfg : ServiceConfig) (scopes : List Text) : Flow Unit :=
  if cfg.isGraphScopeSet scopes then stepUpForScopes cfg cfg.defaultGraphReadScopes
  else do
    let acquired : Except AuthError AccessToken ← ExceptT.lift (accessTokenForScopes scopes).run
    match acquired with
    | .error (.interactionRequired _) => stepUpForScopes cfg scopes
    | .error e => throw e
    | .ok _ => pure ()

/-! ## Ending, refreshing and reviving a session -/

def signOutAccount (tenant : TenantContext) : Flow Text := step (ServiceCall.signOutAccount tenant)

def deleteRefreshTokenThen (accountOid : Text) : Flow Nat := do
  let deleted : Except KeyringError Nat ← step (ServiceCall.deleteRefreshTokenThen accountOid)
  ofResult (deleted.mapError AuthError.ofKeyring)

def signOut (tenant : TenantContext) : Flow Unit := do
  let accountOid ← signOutAccount tenant
  let bumped ← deleteRefreshTokenThen accountOid
  step (ServiceCall.sweepAfterSignOut bumped accountOid)

def refreshSession (cfg : ServiceConfig) : Flow Unit := do
  step ServiceCall.cacheInvalidateTenant
  let _ ← accessTokenForScopesCae cfg cfg.defaultGraphReadScopes none
  pure ()

def captureRestore (tenant : TenantContext) : Flow (TenantContext ⊕ Nat) :=
  step (ServiceCall.captureRestore tenant)

/-- What a restore does about a failure: only a proven mismatch deletes the stored token. -/
def settleRestore (tenant : TenantContext) (fence : Nat) (err : AuthError) : Flow TenantContext :=
  match err with
  | .authorization detail => do
      let epoch ← sessionEpoch
      if epoch ≠ fence then throw .notSignedIn
      let _ : Except KeyringError Bool ←
        step (ServiceCall.deleteRefreshTokenIf tenant.accountOid fence)
      throw (.authorization detail)
  | err => throw err

def restoreUnregistered (cfg : ServiceConfig) (tenant : TenantContext) (fence : Nat) :
    Flow TenantContext := do
  let acquired : Except AuthError TenantContext ← ExceptT.lift (acquireRestoring tenant fence
    cfg.defaultGraphReadScopes (some (cfg.buildCaeClaims none))).run
  match acquired with
  | .ok fresh => pure fresh
  | .error err => settleRestore tenant fence err

def restoreSession (cfg : ServiceConfig) (tenant : TenantContext) : Flow TenantContext := do
  match ← captureRestore tenant with
  | .inl live => pure live
  | .inr fence => restoreUnregistered cfg tenant fence

def tenantContext : Flow (Option TenantContext) := step ServiceCall.tenantContext

def forgetPreviousAccount (accountOid : Text) : Flow Unit := do
  let live ← tenantContext
  if live.any (fun t => t.accountOid == accountOid) then pure ()
  else do
    let deleted : Except KeyringError Unit ← step (ServiceCall.deleteRefreshToken accountOid)
    ofResult (deleted.mapError AuthError.ofKeyring)

def captureReauthenticate (tenant : TenantContext) : Flow (Option Nat) :=
  step (ServiceCall.captureReauthenticate tenant)

def otherAccountRefused : AuthError :=
  .authorization ("re-authentication was asked for an account other than the one signed in — use " ++
    "Sign Out to switch").toList

def reauthenticate (cfg : ServiceConfig) (tenant : TenantContext) : Flow TenantContext := do
  let some fence ← captureReauthenticate tenant | throw otherAccountRefused
  let (token, claims) ← runAuthCodeFlow cfg.defaultGraphReadScopes "login" tenant.username true
  ofResult (ensureSameIdentity claims tenant "re-authentication")
  let _ ← storeTokenOutcome tenant cfg.defaultGraphReadScopes cfg.defaultGraphReadScopes true
    .required fence .claim token
  pure tenant

/-! ## The token adapter -/

structure ScopedTokenAdapter where
  scopes : List Text
  epoch : Nat
  cae : Bool

/-- `ScopedTokenAdapter::new` and `new_cae`. -/
def newAdapter (scopes : List Text) (cae : Bool) : Flow ScopedTokenAdapter := do
  let epoch ← sessionEpoch
  pure ⟨scopes, epoch, cae⟩

def ScopedTokenAdapter.requireLiveSession (adapter : ScopedTokenAdapter) : Flow Unit := do
  let epoch ← sessionEpoch
  if epoch = adapter.epoch then pure () else throw .notSignedIn

def ScopedTokenAdapter.acquire (adapter : ScopedTokenAdapter) (cfg : ServiceConfig) :
    Flow AccessToken :=
  if adapter.cae then accessTokenForScopesCae cfg adapter.scopes none
  else accessTokenForScopes adapter.scopes

def ScopedTokenAdapter.bearer (adapter : ScopedTokenAdapter) (cfg : ServiceConfig) :
    Flow AccessToken := do
  adapter.requireLiveSession
  let token ← adapter.acquire cfg
  adapter.requireLiveSession
  pure token

def ScopedTokenAdapter.bearerWithClaims (adapter : ScopedTokenAdapter) (cfg : ServiceConfig)
    (claims : Text) : Flow AccessToken :=
  if adapter.cae then do
    adapter.requireLiveSession
    let token ← accessTokenForScopesCae cfg adapter.scopes (some claims)
    adapter.requireLiveSession
    pure token
  else adapter.bearer cfg

end Auth
