import AzAppToolkit.Auth.Sessions
import AzAppToolkit.Lib.Duties

set_option autoImplicit false

/-! # The commands around a session, and the clients it uses

The sign-in commands of `commands/auth.rs` and the per-tenant client maps of `state.rs`. A client is
known by its token adapters, and an adapter by the epoch it was built under: that is all
`ScopedTokenAdapter` looks at before it mints. `build` runs while the lock of its map is held, so that
`forget_tenant` waits for it; the epoch itself is read without that lock.

Left out of `forget_tenant`: the cancel flags, the single-flight gates and the data caches, which hold
no client; and what the commands answer to the webview. -/

namespace App

open Prog Auth

inductive ClientMap where
  | graph
  | exchange
  | keyVault
  | arm
  | logAnalytics
deriving DecidableEq

inductive AppCall where
  /-- A step of the sign-in service. -/
  | auth (c : ServiceCall)
  | rememberedAccount
  | rememberAccount (tenant : TenantContext)
  | forgetAccount
  /-- Take the lock of a client map, and look for the client. -/
  | lockClients (map : ClientMap) (key : Text)
  /-- Build a token adapter under the lock. -/
  | buildAdapter (map : ClientMap)
  /-- Insert the client made of the adapters built, and release the lock. -/
  | insertClient (map : ClientMap) (key : Text)
  | releaseClients (map : ClientMap)
  /-- `forget_tenant`, for one map. -/
  | forgetClients (map : ClientMap)

abbrev AppAnswer : AppCall → Type
  | .auth c => ServiceAnswer c
  | .rememberedAccount => Option TenantContext
  | .rememberAccount _ => Unit
  | .forgetAccount => Unit
  | .lockClients _ _ => Bool
  | .buildAdapter _ => Nat
  | .insertClient _ _ => Unit
  | .releaseClients _ => Unit
  | .forgetClients _ => Unit

/-- A program over the steps of the app. -/
abbrev AppSteps (α : Type) := Prog AppAnswer α

abbrev Command (α : Type) := ExceptT AuthError (Prog AppAnswer) α

/-! ## Commands -/

/-- A program of the service, in the app. -/
def onAuth {α : Type} : Steps α → AppSteps α
  | .done a => .done a
  | .ask c next => .ask (.auth c) (fun r => onAuth (next r))

def service {α : Type} (f : Flow α) : Command α := ExceptT.mk (onAuth f.run)

def appStep (c : AppCall) : Command (AppAnswer c) := ExceptT.lift (call c)

def forgetTenant : Command Unit := do
  appStep (AppCall.forgetClients .graph)
  appStep (AppCall.forgetClients .exchange)
  appStep (AppCall.forgetClients .keyVault)
  appStep (AppCall.forgetClients .arm)
  appStep (AppCall.forgetClients .logAnalytics)

/-- Delete what the account before left in the keyring, if it is another. -/
def forgetPrevious (previous : Option TenantContext) (tenant : TenantContext) : Command Unit :=
  match previous with
  | none => pure ()
  | some previous =>
    if previous.tenantId = tenant.tenantId ∧ previous.accountOid ≠ tenant.accountOid then do
      let _ : Except AuthError Unit ←
        ExceptT.lift (onAuth (forgetPreviousAccount previous.accountOid).run)
      pure ()
    else pure ()

/-- The tail of the `sign_in` command. -/
def finishSignIn (previous : Option TenantContext) (tenant : TenantContext) : Command Unit := do
  forgetPrevious previous tenant
  appStep (AppCall.rememberAccount tenant)
  forgetTenant

def signInCommand (cfg : ServiceConfig) : Command Unit := do
  let previous ← appStep AppCall.rememberedAccount
  let tenant ← service (signIn cfg)
  finishSignIn previous tenant

def signOutCommand (tenant : TenantContext) : Command Unit := do
  service (signOut tenant)
  appStep AppCall.forgetAccount
  forgetTenant

/-- What the `restore_session` command makes of the service's answer. -/
def settleRestored (tenant : TenantContext) : Except AuthError TenantContext → Command Unit
  | .ok fresh => if fresh ≠ tenant then appStep (AppCall.rememberAccount fresh) else pure ()
  | .error (.authorization _) => appStep AppCall.forgetAccount
  | .error _ => pure ()

def restoreRemembered (cfg : ServiceConfig) (tenant : TenantContext) : Command Unit := do
  let restored : Except AuthError TenantContext ←
    ExceptT.lift (onAuth (restoreSession cfg tenant).run)
  settleRestored tenant restored

def restoreSessionCommand (cfg : ServiceConfig) : Command Unit := do
  let remembered : Option TenantContext ← appStep AppCall.rememberedAccount
  match remembered with
  | none => pure ()
  | some tenant => restoreRemembered cfg tenant

def reauthenticateCommand (cfg : ServiceConfig) (tenant : TenantContext) : Command Unit := do
  let _ ← service (reauthenticate cfg tenant)
  pure ()

/-! ## Client factories -/

def buildAdapters (map : ClientMap) : Nat → Command Unit
  | 0 => pure ()
  | n + 1 => do
      let _ : Nat ← appStep (AppCall.buildAdapter map)
      buildAdapters map n

/-- `try_get_or_build`, for a client of so many adapters; `valid` says whether it can be built. -/
def tryGetOrBuild (map : ClientMap) (key : Text) (adapters : Nat) (valid : Bool) : Command Unit := do
  let present : Bool ← appStep (AppCall.lockClients map key)
  if present then appStep (AppCall.releaseClients map)
  else do
    buildAdapters map adapters
    if valid then appStep (AppCall.insertClient map key)
    else appStep (AppCall.releaseClients map)

def getOrBuild (map : ClientMap) (key : Text) (adapters : Nat) : Command Unit :=
  tryGetOrBuild map key adapters true

/-- Read, write, sync, audit log, policy, risky principals, policy write, SharePoint and group
    membership tokens. -/
def graphFor : Command Unit := getOrBuild .graph [] 9

def exchangeFor : Command Unit := getOrBuild .exchange [] 1

def kvFor (vaultName : Text) (valid : Bool) : Command Unit := tryGetOrBuild .keyVault vaultName 1 valid

def armFor : Command Unit := getOrBuild .arm [] 1

def logAnalyticsFor : Command Unit := getOrBuild .logAnalytics [] 1

/-! ## State -/

structure AppState where
  service : Service
  remembered : Option TenantContext
  /-- Each client held, by the epochs its adapters were built under. -/
  clients : Table (ClientMap × Text) (List Nat)
  /-- The maps whose lock is held, with the epochs of the adapters built under it. -/
  building : ClientMap → Option (List Nat)

/-- The client maps without those of one map. -/
def AppState.dropClients (s : AppState) (map : ClientMap) : AppState :=
  { s with clients := s.clients.retain (fun k _ => k.1 ≠ map) }

def AppState.setBuilding (s : AppState) (map : ClientMap) (epochs : Option (List Nat)) : AppState :=
  { s with building := Function.update s.building map epochs }

def appWorld : World AppAnswer AppState
  | s, .auth c, r, s' => ∃ t, serviceWorld s.service c r t ∧ s' = { s with service := t }
  | s, .rememberedAccount, r, s' => r = s.remembered ∧ s' = s
  -- settings are written as well as it goes
  | s, .rememberAccount tenant, _, s' => s' = s ∨ s' = { s with remembered := some tenant }
  | s, .forgetAccount, _, s' => s' = s ∨ s' = { s with remembered := none }
  | s, .lockClients map key, r, s' => s.building map = none ∧
      r = (s.clients.lookup (map, key)).isSome ∧ s' = s.setBuilding map (some [])
  | s, .buildAdapter map, r, s' => r = s.service.epoch ∧ ∃ epochs, s.building map = some epochs ∧
      s' = s.setBuilding map (some (epochs ++ [r]))
  | s, .insertClient map key, _, s' => ∃ epochs, s.building map = some epochs ∧
      s' = { s.setBuilding map none with clients := s.clients.insert (map, key) epochs }
  | s, .releaseClients map, _, s' => s' = s.setBuilding map none
  | s, .forgetClients map, _, s' => s.building map = none ∧ s' = s.dropClients map

/-- The commands that move the epoch. -/
inductive SessionCommand (cfg : ServiceConfig) : AppSteps (Except AuthError Unit) → Prop
  | signIn : SessionCommand cfg (signInCommand cfg).run
  | signOut (tenant : TenantContext) : SessionCommand cfg (signOutCommand tenant).run

/-- The commands that do not. -/
inductive OtherCommand (cfg : ServiceConfig) : AppSteps (Except AuthError Unit) → Prop
  | restoreSession : OtherCommand cfg (restoreSessionCommand cfg).run
  | reauthenticate (tenant : TenantContext) : OtherCommand cfg (reauthenticateCommand cfg tenant).run
  | graphFor : OtherCommand cfg graphFor.run
  | exchangeFor : OtherCommand cfg exchangeFor.run
  | kvFor (vaultName : Text) (valid : Bool) : OtherCommand cfg (kvFor vaultName valid).run
  | armFor : OtherCommand cfg armFor.run
  | logAnalyticsFor : OtherCommand cfg logAnalyticsFor.run

def AppCommand (cfg : ServiceConfig) (p : AppSteps (Except AuthError Unit)) : Prop :=
  SessionCommand cfg p ∨ OtherCommand cfg p

end App
