import AzAppToolkit.App.Clients
import AzAppToolkit.Auth.Replays

set_option autoImplicit false

/-! # Clients and the session they serve

A command that moves the epoch leaves every client of before unusable until it has dropped the client
maps. It owes that: `forget_tenant` comes at the end of the command, and is reached whenever the tail
of the command succeeds. The one way it does not is the keyring's: `sign_in` moves the epoch, then
gives up when its refresh token cannot be saved. -/

namespace App

open Prog Auth

/-! ## Flows that move the epoch -/

/-- The epoch the exchange has opened. -/
def movesTo : Exchanged ServiceAnswer → Option Nat
  | ⟨.startSession _, n⟩ => some n
  | ⟨.deleteRefreshTokenThen _, .ok n⟩ => some n
  | _ => none

/-- While the epoch is `n`: the keyring saves what a sign-in that opened it brings, and the session
    is registered. -/
def fairUnder (n : Nat) : Exchanged ServiceAnswer → Prop
  | ⟨.saveRefreshTokenIf _ _ fence .replace, r⟩ => fence = n → r = .ok true
  | ⟨.commit _ _ _ fence .replace, r⟩ => fence = n → r = true
  | _ => True

def Succeeds {α : Type} (r : Except AuthError α) : Prop := ∃ a, r = .ok a

/-- Once it has moved the epoch, the flow succeeds if it is fairly answered. -/
def Carries {α : Type} : Steps (Except AuthError α) → Prop :=
  Dutiful (fun e q => ∀ n, movesTo e = some n → Ends (fairUnder n) Succeeds q)

/-- The call does not move the epoch. -/
def isCalm : ServiceCall → Prop
  | .startSession _ => False
  | .deleteRefreshTokenThen _ => False
  | _ => True

theorem movesTo_of_isCalm {c : ServiceCall} (hc : isCalm c) (r : ServiceAnswer c) :
    movesTo ⟨c, r⟩ = none := by
  cases c with
  | startSession tenant | deleteRefreshTokenThen account => exact hc.elim
  | _ => rfl

section Calm

variable {α β : Type}

/-- A flow that leaves the epoch as it is. -/
def Calm (f : Flow α) : Prop := Only isCalm f.run

theorem Calm.ask {c : ServiceCall} {f : ServiceAnswer c → Flow α} (hc : isCalm c)
    (hf : ∀ r, Calm (f r)) : Calm (step c >>= f) := ⟨hc, hf⟩

theorem Calm.only {c : ServiceCall} (hc : isCalm c) : Calm (step c) := ⟨hc, fun _ => trivial⟩

theorem Calm.andThen {p : Flow β} {f : β → Flow α} (hp : Calm p) (hf : ∀ b, Calm (f b)) :
    Calm (p >>= f) := Only.tryBind hp hf

theorem Calm.caught {p : Flow β} {f : Except AuthError β → Flow α} (hp : Calm p)
    (hf : ∀ r, Calm (f r)) : Calm ((ExceptT.lift p.run : Flow (Except AuthError β)) >>= f) :=
  Calm.andThen (Only.lift hp) hf

theorem calm_ofResult (r : Except AuthError α) : Calm (ofResult r) := trivial

theorem calm_runAuthCodeFlow (scopes : List Text) (prompt : String) (loginHint : Option Text)
    (cae : Bool) : Calm (runAuthCodeFlow scopes prompt loginHint cae) :=
  Calm.ask trivial calm_ofResult

theorem calm_storeTokenOutcome (tenant : TenantContext) (cacheScopes scopeFallback : List Text)
    (cae : Bool) (save : RefreshTokenSave) (fence : Nat) (registration : Registration)
    (token : TokenResponse) :
    Calm (storeTokenOutcome tenant cacheScopes scopeFallback cae save fence registration token) := by
  refine Calm.ask trivial (fun time => Calm.andThen ?_ (fun _ => ?_))
  · unfold saveRotated
    split
    · trivial
    · exact Calm.ask trivial (fun saved => calm_ofResult _)
  · refine Calm.ask trivial (fun stored => ?_)
    cases stored with
    | false | true => trivial

theorem calm_redeemOnce (tenant : TenantContext) (scopes : List Text) (claims : Option Text) :
    Calm (redeemOnce tenant scopes claims) := by
  refine Calm.andThen ?_ (fun secret => ?_)
  · refine Calm.ask trivial (fun loaded => ?_)
    match loaded with
    | .error _ => trivial
    | .ok none => trivial
    | .ok (some _) => trivial
  · refine Calm.ask trivial (fun answer => ?_)
    split
    · trivial
    · trivial
    · trivial

theorem calm_purgeRejected (tenant : TenantContext) (fence : Nat) (rejected : StoredToken) :
    Calm (purgeRejected tenant fence rejected) := by
  refine Calm.ask trivial (fun outcome => ?_)
  split
  · refine Calm.ask trivial (fun epoch => ?_)
    split
    · trivial
    · trivial
  · exact Calm.ask trivial (fun _ => trivial)

theorem calm_redeem (tenant : TenantContext) (fence : Nat) (scopes : List Text)
    (claims : Option Text) (retries : Nat) : Calm (redeem tenant fence scopes claims retries) := by
  induction retries with
  | zero =>
    refine Calm.andThen (calm_redeemOnce tenant scopes claims) (fun r => ?_)
    cases r with
    | inl token => trivial
    | inr rejected => exact Calm.andThen (calm_purgeRejected tenant fence rejected) (fun _ => trivial)
  | succ retries ih =>
    refine Calm.andThen (calm_redeemOnce tenant scopes claims) (fun r => ?_)
    cases r with
    | inl token => trivial
    | inr rejected => exact Calm.andThen (calm_purgeRejected tenant fence rejected) (fun _ => ih)

theorem calm_settleRestore (tenant : TenantContext) (fence : Nat) (err : AuthError) :
    Calm (settleRestore tenant fence err) := by
  unfold settleRestore
  split
  · refine Calm.ask trivial (fun epoch => ?_)
    split
    · trivial
    · exact Calm.ask trivial (fun _ => trivial)
  · trivial

theorem calm_restoreSession (cfg : ServiceConfig) (tenant : TenantContext) :
    Calm (restoreSession cfg tenant) := by
  refine Calm.ask trivial (fun captured => ?_)
  cases captured with
  | inl live => trivial
  | inr fence =>
    refine Calm.caught ?_ (fun acquired => ?_)
    · refine Calm.andThen (calm_redeem _ _ _ _ 1) (fun token => ?_)
      refine Calm.andThen (calm_ofResult _) (fun owner => ?_)
      exact Calm.andThen (calm_storeTokenOutcome _ _ _ _ _ _ _ _) (fun _ => trivial)
    · cases acquired with
      | ok fresh => trivial
      | error err => exact calm_settleRestore tenant fence err

theorem calm_reauthenticate (cfg : ServiceConfig) (tenant : TenantContext) :
    Calm (reauthenticate cfg tenant) := by
  refine Calm.ask trivial (fun captured => ?_)
  cases captured with
  | none => trivial
  | some fence =>
    refine Calm.andThen (calm_runAuthCodeFlow _ _ _ _) (fun answer => ?_)
    refine Calm.andThen (calm_ofResult _) (fun _ => ?_)
    exact Calm.andThen (calm_storeTokenOutcome _ _ _ _ _ _ _ _) (fun _ => trivial)

theorem calm_forgetPreviousAccount (account : Text) : Calm (forgetPreviousAccount account) := by
  refine Calm.ask trivial (fun live => ?_)
  split
  · trivial
  · exact Calm.ask trivial (fun deleted => calm_ofResult _)

theorem Calm.carries {f : Flow α} (h : Calm f) : Carries f.run :=
  Dutiful.of_only h (fun c hc r q n hn => absurd (movesTo_of_isCalm hc r ▸ hn) (by simp))

theorem Carries.andThen {p : Flow β} {f : β → Flow α} (hp : Calm p) (hf : ∀ b, Carries (f b).run) :
    Carries (p >>= f).run := by
  refine Dutiful.bind_of_only hp
    (fun c hc r q n hn => absurd (movesTo_of_isCalm hc r ▸ hn) (by simp)) (fun r => ?_)
  cases r with
  | ok b => exact hf b
  | error e => trivial

/-- The epoch is moved, and not again. -/
theorem Carries.moved {c : ServiceCall} {f : ServiceAnswer c → Flow α}
    (hends : ∀ r n, movesTo ⟨c, r⟩ = some n → Ends (fairUnder n) Succeeds (f r).run)
    (hf : ∀ r, Calm (f r)) : Carries (step c >>= f).run :=
  fun r => ⟨hends r, (hf r).carries⟩

end Calm

theorem ends_step {α : Type} {fair : Exchanged ServiceAnswer → Prop} {post : Except AuthError α → Prop}
    {c : ServiceCall} {f : ServiceAnswer c → Flow α}
    (hf : ∀ r, fair ⟨c, r⟩ → Ends fair post (f r).run) : Ends fair post (step c >>= f).run := hf

/-- A part that succeeds. -/
theorem ends_andThen {α β : Type} {fair : Exchanged ServiceAnswer → Prop}
    {post : Except AuthError α → Prop} {p : Flow β} {f : β → Flow α} (hp : Ends fair Succeeds p.run)
    (hf : ∀ b, Ends fair post (f b).run) : Ends fair post (p >>= f).run := by
  refine Ends.bind hp (fun r hr => ?_)
  obtain ⟨b, rfl⟩ := hr
  exact hf b

theorem saveRotated_ends (tenant : TenantContext) (save : RefreshTokenSave) (n : Nat)
    (token : TokenResponse) :
    Ends (fairUnder n) Succeeds (saveRotated tenant save n .replace token).run := by
  unfold saveRotated
  split
  · exact ⟨(), rfl⟩
  · refine ends_step (fun saved hsaved => ?_)
    obtain rfl : saved = .ok true := hsaved rfl
    exact ⟨(), rfl⟩

/-- The store of a sign-in succeeds. -/
theorem storeTokenOutcome_ends (tenant : TenantContext) (cacheScopes scopeFallback : List Text)
    (cae : Bool) (save : RefreshTokenSave) (n : Nat) (token : TokenResponse) :
    Ends (fairUnder n) Succeeds
      (storeTokenOutcome tenant cacheScopes scopeFallback cae save n .replace token).run := by
  refine ends_step (fun time _ => ?_)
  refine ends_andThen (saveRotated_ends tenant save n token) (fun _ => ?_)
  refine ends_step (fun stored hstored => ?_)
  obtain rfl : stored = true := hstored rfl
  exact ⟨_, rfl⟩

theorem carries_signIn (cfg : ServiceConfig) : Carries (signIn cfg).run := by
  unfold signIn
  split
  · trivial
  refine Carries.andThen (Calm.only trivial) (fun ready => ?_)
  refine Carries.andThen (calm_ofResult _) (fun _ => ?_)
  refine Carries.andThen (calm_runAuthCodeFlow _ _ _ _) (fun answer => ?_)
  dsimp only
  split
  · split
    · trivial
    · split
      · refine Carries.moved (fun n m hm => ?_) (fun n => ?_)
        · obtain rfl : n = m := Option.some.inj hm
          exact ends_andThen (storeTokenOutcome_ends _ _ _ _ _ _ _) (fun _ => ⟨_, rfl⟩)
        · exact Calm.andThen (calm_storeTokenOutcome _ _ _ _ _ _ _ _) (fun _ => trivial)
      · trivial
  · trivial

theorem carries_signOut (tenant : TenantContext) : Carries (signOut tenant).run := by
  refine Carries.andThen (Calm.only trivial) (fun account => ?_)
  intro deleted
  cases deleted with
  | error e => exact ⟨fun n hn => absurd hn (by simp [movesTo]), trivial⟩
  | ok n => exact ⟨fun m _ u _ => ⟨u, rfl⟩, (Calm.only (c := .sweepAfterSignOut n account) trivial).carries⟩

/-! ## Commands that drop the clients -/

def appMovesTo : Exchanged AppAnswer → Option Nat
  | ⟨.auth c, r⟩ => movesTo ⟨c, r⟩
  | _ => none

def appFair (n : Nat) : Exchanged AppAnswer → Prop
  | ⟨.auth c, r⟩ => fairUnder n ⟨c, r⟩
  | _ => True

/-- The command will drop the clients of the map, if it is fairly answered while the epoch is `n`. -/
def WillForget {α : Type} (n : Nat) (map : ClientMap) : AppSteps α → Prop :=
  Reaches (appFair n) (fun c => c = .forgetClients map)

/-- What a command owes that has moved the epoch. -/
def forgetDuty {α : Type} (e : Exchanged AppAnswer) (q : AppSteps α) : Prop :=
  ∀ n, appMovesTo e = some n → ∀ map, WillForget n map q

def appCalm : AppCall → Prop
  | .auth c => isCalm c
  | _ => True

theorem appMovesTo_of_appCalm {c : AppCall} (hc : appCalm c) (r : AppAnswer c) :
    appMovesTo ⟨c, r⟩ = none := by
  cases c with
  | auth c => exact movesTo_of_isCalm hc r
  | _ => rfl

theorem forgetDuty_of_appCalm {α : Type} {c : AppCall} (hc : appCalm c) (r : AppAnswer c)
    (q : AppSteps α) : forgetDuty ⟨c, r⟩ q :=
  fun n hn => absurd (appMovesTo_of_appCalm hc r ▸ hn) (by simp)

section OnAuth

variable {α : Type}

theorem onAuth_ends {n : Nat} {post : α → Prop} {p : Steps α} (h : Ends (fairUnder n) post p) :
    Ends (appFair n) post (onAuth p) := by
  induction p with
  | done a => exact h
  | ask c next ih => exact fun r hr => ih r (h r hr)

theorem onAuth_only {p : Steps α} (h : Only isCalm p) : Only appCalm (onAuth p) := by
  induction p with
  | done a => trivial
  | ask c next ih => exact ⟨h.1, fun r => ih r (h.2 r)⟩

theorem onAuth_carries {p : Steps (Except AuthError α)} (h : Carries p) :
    Dutiful (fun e q => ∀ n, appMovesTo e = some n → Ends (appFair n) Succeeds q) (onAuth p) := by
  induction p with
  | done a => trivial
  | ask c next ih => exact fun r => ⟨fun n hn => onAuth_ends ((h r).1 n hn), ih r (h r).2⟩

end OnAuth

section Commands

variable {α β : Type} {n : Nat} {map : ClientMap}

/-- A command that leaves the epoch as it is. -/
def CalmCommand (p : Command α) : Prop := Only appCalm p.run

theorem CalmCommand.andThen {p : Command β} {f : β → Command α} (hp : CalmCommand p)
    (hf : ∀ b, CalmCommand (f b)) : CalmCommand (p >>= f) := Only.tryBind hp hf

theorem calm_appStep {c : AppCall} (hc : appCalm c) : CalmCommand (appStep c) := ⟨hc, fun _ => trivial⟩

theorem calm_caught {f : Flow β} (hf : Calm f) :
    CalmCommand (ExceptT.lift (onAuth f.run) : Command (Except AuthError β)) :=
  Only.lift (onAuth_only hf)

theorem calm_service {f : Flow β} (hf : Calm f) : CalmCommand (service f) := onAuth_only hf

theorem calm_forgetTenant : CalmCommand forgetTenant :=
  .andThen (calm_appStep trivial) fun _ => .andThen (calm_appStep trivial) fun _ =>
    .andThen (calm_appStep trivial) fun _ => .andThen (calm_appStep trivial) fun _ =>
      calm_appStep trivial

theorem calm_forgetPrevious (previous : Option TenantContext) (tenant : TenantContext) :
    CalmCommand (forgetPrevious previous tenant) := by
  unfold forgetPrevious
  split
  · trivial
  · split
    · exact .andThen (calm_caught (calm_forgetPreviousAccount _)) (fun _ => trivial)
    · trivial

theorem calm_finishSignIn (previous : Option TenantContext) (tenant : TenantContext) :
    CalmCommand (finishSignIn previous tenant) :=
  .andThen (calm_forgetPrevious previous tenant) fun _ =>
    .andThen (calm_appStep trivial) fun _ => calm_forgetTenant

theorem calm_restoreSessionCommand (cfg : ServiceConfig) : CalmCommand (restoreSessionCommand cfg) := by
  refine .andThen (calm_appStep trivial) (fun remembered => ?_)
  cases remembered with
  | none => trivial
  | some tenant =>
    refine .andThen (calm_caught (calm_restoreSession cfg tenant)) (fun restored => ?_)
    unfold settleRestored
    split
    · split
      · exact calm_appStep trivial
      · trivial
    · exact calm_appStep trivial
    · trivial

theorem calm_reauthenticateCommand (cfg : ServiceConfig) (tenant : TenantContext) :
    CalmCommand (reauthenticateCommand cfg tenant) :=
  .andThen (calm_service (calm_reauthenticate cfg tenant)) (fun _ => trivial)

theorem calm_buildAdapters (map : ClientMap) (count : Nat) : CalmCommand (buildAdapters map count) := by
  induction count with
  | zero => trivial
  | succ count ih => exact .andThen (calm_appStep trivial) (fun _ => ih)

theorem calm_tryGetOrBuild (map : ClientMap) (key : Text) (adapters : Nat) (valid : Bool) :
    CalmCommand (tryGetOrBuild map key adapters valid) := by
  refine .andThen (calm_appStep trivial) (fun present => ?_)
  split
  · exact calm_appStep trivial
  · refine .andThen (calm_buildAdapters map adapters) (fun _ => ?_)
    split
    · exact calm_appStep trivial
    · exact calm_appStep trivial

theorem calm_of_otherCommand {cfg : ServiceConfig} {p : AppSteps (Except AuthError Unit)}
    (h : OtherCommand cfg p) : Only appCalm p := by
  cases h with
  | restoreSession => exact calm_restoreSessionCommand cfg
  | reauthenticate tenant => exact calm_reauthenticateCommand cfg tenant
  | graphFor | exchangeFor | kvFor vaultName valid | armFor | logAnalyticsFor =>
    exact calm_tryGetOrBuild _ _ _ _

/-- A part that succeeds, on the way. -/
theorem willForget_andThen {p : Command β} {f : β → Command α}
    (hp : Ends (appFair n) Succeeds p.run) (hf : ∀ b, WillForget n map (f b).run) :
    WillForget n map (p >>= f).run := by
  refine Ends.reaches hp (fun r hr => ?_)
  obtain ⟨b, rfl⟩ := hr
  exact hf b

theorem ends_appStep (c : AppCall) : Ends (appFair n) Succeeds (appStep c).run := fun r _ => ⟨r, rfl⟩

theorem willForget_forgetTenant (n : Nat) (map : ClientMap) : WillForget n map forgetTenant.run := by
  cases map with
  | graph => exact .inl rfl
  | exchange => exact .inr (fun _ _ => .inl rfl)
  | keyVault => exact .inr (fun _ _ => .inr (fun _ _ => .inl rfl))
  | arm => exact .inr (fun _ _ => .inr (fun _ _ => .inr (fun _ _ => .inl rfl)))
  | logAnalytics =>
    exact .inr (fun _ _ => .inr (fun _ _ => .inr (fun _ _ => .inr (fun _ _ => .inl rfl))))

theorem forgetPrevious_ends (previous : Option TenantContext) (tenant : TenantContext) :
    Ends (appFair n) Succeeds (forgetPrevious previous tenant).run := by
  unfold forgetPrevious
  split
  · exact ⟨(), rfl⟩
  · split
    · refine Ends.bind (Ends.bind Ends.anyhow (fun r _ => ?_)) (fun r hr => hr)
      exact ⟨(), rfl⟩
    · exact ⟨(), rfl⟩

theorem willForget_finishSignIn (n : Nat) (map : ClientMap) (previous : Option TenantContext)
    (tenant : TenantContext) : WillForget n map (finishSignIn previous tenant).run :=
  willForget_andThen (forgetPrevious_ends previous tenant) fun _ =>
    willForget_andThen (ends_appStep _) fun _ => willForget_forgetTenant n map

/-- A flow that may move the epoch, and what the command does after it. -/
theorem dutiful_service {f : Flow β} {g : β → Command α} (hf : Carries f.run)
    (hg : ∀ b, CalmCommand (g b)) (hforget : ∀ b n map, WillForget n map (g b).run) :
    Dutiful forgetDuty (service f >>= g).run := by
  refine Dutiful.bind (onAuth_carries hf) (fun e q hq n hn map => ?_) (fun r => ?_)
  · exact willForget_andThen (p := ExceptT.mk q) (hq n hn) (fun b => hforget b n map)
  · cases r with
    | ok b => exact Dutiful.of_only (hg b) (fun c hc r q => forgetDuty_of_appCalm hc r q)
    | error e => trivial

theorem dutiful_of_sessionCommand {cfg : ServiceConfig} {p : AppSteps (Except AuthError Unit)}
    (h : SessionCommand cfg p) : Dutiful forgetDuty p := by
  cases h with
  | signIn =>
    refine fun previous => ⟨@forgetDuty_of_appCalm _ .rememberedAccount trivial _ _, ?_⟩
    exact dutiful_service (carries_signIn cfg) (calm_finishSignIn previous)
      (fun tenant n map => willForget_finishSignIn n map previous tenant)
  | signOut tenant =>
    refine dutiful_service (carries_signOut tenant) (fun _ => ?_) (fun _ n map => ?_)
    · exact .andThen (calm_appStep trivial) (fun _ => calm_forgetTenant)
    · exact willForget_andThen (ends_appStep _) (fun _ => willForget_forgetTenant n map)

end Commands

/-! ## Runs -/

/-- The clients of the map, and the one being built, are of the current epoch. -/
def AppState.Fresh (s : AppState) (map : ClientMap) : Prop :=
  (∀ key epochs, s.clients.lookup (map, key) = some epochs → ∀ e ∈ epochs, e = s.service.epoch) ∧
    ∀ epochs, s.building map = some epochs → ∀ e ∈ epochs, e = s.service.epoch

/-- The save of a sign-in does not fail while the epoch is the one the sign-in opened. -/
def SavesSignIn : Pool AppAnswer (Except AuthError Unit) AppState →
    Pool.Event AppAnswer (Except AuthError Unit) → Prop
  | pool, .call _ ⟨.auth (.saveRefreshTokenIf _ _ fence .replace), .error _⟩ =>
    pool.shared.service.epoch ≠ fence
  | _, _ => True

def CommandStep (cfg : ServiceConfig) (pool : Pool AppAnswer (Except AuthError Unit) AppState)
    (e : Pool.Event AppAnswer (Except AuthError Unit))
    (pool' : Pool AppAnswer (Except AuthError Unit) AppState) : Prop :=
  Pool.Step (AppCommand cfg) appWorld pool e pool' ∧ SavesSignIn pool e

section Steps

variable {s s' : AppState} {c : AppCall} {r : AppAnswer c}

theorem epoch_of_serviceWorld {s s' : Service} {c : ServiceCall} {r : ServiceAnswer c}
    (hw : serviceWorld s c r s') : s'.epoch = s.epoch ∨ movesTo ⟨c, r⟩ = some s'.epoch := by
  generalize he : (⟨c, r⟩ : Exchanged ServiceAnswer) = e
  have hstep : SessionStep s e s' := he ▸ sessionStep_of_world hw
  cases hstep with
  | keyring htouch honly => exact .inl honly.epoch
  | started tenant | signedOut account => exact .inr rfl
  | cleared r | stored tenant slot access registration hfree | refused tenant slot access fence registration
  | dropped sent account r | keptDrop hmoved sent account r | swept deleted r | keptSweep hmoved deleted r =>
    exact .inl rfl

theorem epoch_of_appWorld (hw : appWorld s c r s') :
    s'.service.epoch = s.service.epoch ∨ appMovesTo ⟨c, r⟩ = some s'.service.epoch := by
  cases c with
  | auth c =>
    obtain ⟨t, ht, rfl⟩ := hw
    exact epoch_of_serviceWorld ht
  | rememberedAccount => exact .inl (by rw [hw.2])
  | rememberAccount tenant | forgetAccount => exact .inl (by rcases hw with rfl | rfl <;> rfl)
  | lockClients map key => exact .inl (by rw [hw.2.2]; rfl)
  | buildAdapter map =>
    obtain ⟨-, epochs, -, rfl⟩ := hw
    exact .inl rfl
  | insertClient map key =>
    obtain ⟨epochs, -, rfl⟩ := hw
    exact .inl rfl
  | releaseClients map => exact .inl (by rw [show s' = _ from hw]; rfl)
  | forgetClients map => exact .inl (by rw [hw.2]; rfl)

/-- Fair answers are those that come. -/
theorem fairUnder_of_serviceWorld {s s' : Service} {c : ServiceCall} {r : ServiceAnswer c}
    (hw : serviceWorld s c r s') (hsaves : ∀ account refresh fence e,
      (⟨c, r⟩ : Exchanged ServiceAnswer) = ⟨.saveRefreshTokenIf account refresh fence .replace, .error e⟩ →
      s.epoch ≠ fence) : fairUnder s.epoch ⟨c, r⟩ := by
  unfold fairUnder
  split
  · next account refresh fence saved heq =>
    cases heq
    intro hfence
    match saved, hw with
    | .ok true, _ => rfl
    | .ok false, hw => exact absurd hfence.symm hw.1
    | .error e, _ => exact absurd hfence.symm (hsaves account refresh fence e rfl)
  · next tenant slot access fence stored heq =>
    cases heq
    intro hfence
    rw [hw.1]
    simp [Service.admits, hfence]
  · trivial

theorem appFair_of_appWorld {pool : Pool AppAnswer (Except AuthError Unit) AppState} {i : Nat}
    (hw : appWorld pool.shared c r s') (hok : SavesSignIn pool (.call i ⟨c, r⟩)) :
    appFair pool.shared.service.epoch ⟨c, r⟩ := by
  cases c with
  | auth c =>
    obtain ⟨t, ht, rfl⟩ := hw
    refine fairUnder_of_serviceWorld ht (fun account refresh fence e heq => ?_)
    cases heq
    exact hok
  | _ => trivial

/-- The client that is being built goes on in the current epoch. -/
theorem AppState.Fresh.setBuilding {map map' : ClientMap} {epochs : Option (List Nat)}
    (h : s.Fresh map) (hnew : map = map' → ∀ l, epochs = some l → ∀ e ∈ l, e = s.service.epoch) :
    (s.setBuilding map' epochs).Fresh map := by
  refine ⟨h.1, fun l hl => ?_⟩
  have hl' : Function.update s.building map' epochs map = some l := hl
  rw [Function.update_apply] at hl'
  split at hl'
  · next hmap => exact hnew hmap l hl'
  · exact h.2 l hl'

theorem AppState.Fresh.insertClient {map map' : ClientMap} {key : Text} {epochs : List Nat}
    (h : s.Fresh map) (hbuilt : s.building map' = some epochs) :
    AppState.Fresh { s.setBuilding map' none with clients := s.clients.insert (map', key) epochs } map := by
  refine ⟨fun k l hl => ?_, (h.setBuilding (fun _ l hl => absurd hl (by simp))).2⟩
  have hl' : (s.clients.insert (map', key) epochs).lookup (map, k) = some l := hl
  rw [AList.lookup_insert_eq] at hl'
  split at hl'
  · next heq =>
    obtain ⟨rfl, rfl⟩ := Prod.mk.inj heq
    obtain rfl := Option.some.inj hl'
    exact h.2 epochs hbuilt
  · exact h.1 k l hl'

/-- A step that leaves the epoch alone leaves the clients in it. -/
theorem fresh_of_appWorld {map : ClientMap} (hw : appWorld s c r s')
    (hepoch : s'.service.epoch = s.service.epoch) (h : s.Fresh map) : s'.Fresh map := by
  cases c with
  | auth c =>
    obtain ⟨t, -, rfl⟩ := hw
    have hfresh : (∀ key epochs, s.clients.lookup (map, key) = some epochs →
        ∀ e ∈ epochs, e = t.epoch) ∧ ∀ epochs, s.building map = some epochs →
        ∀ e ∈ epochs, e = t.epoch := by
      rw [show t.epoch = s.service.epoch from hepoch]
      exact h
    exact hfresh
  | rememberedAccount => exact hw.2 ▸ h
  | rememberAccount tenant | forgetAccount =>
    rcases hw with rfl | rfl
    · exact h
    · exact h
  | lockClients map' key =>
    rw [hw.2.2]
    refine h.setBuilding (fun _ l hl => ?_)
    rw [← Option.some.inj hl]
    simp
  | buildAdapter map' =>
    obtain ⟨hr, epochs, hbuilding, rfl⟩ := hw
    refine h.setBuilding (fun hmap l hl e he => ?_)
    rw [← Option.some.inj hl] at he
    rcases List.mem_append.1 he with he | he
    · exact h.2 epochs (hmap ▸ hbuilding) e he
    · rw [List.mem_singleton.1 he, hr]
  | insertClient map' key =>
    obtain ⟨epochs, hbuilding, rfl⟩ := hw
    exact h.insertClient hbuilding
  | releaseClients map' =>
    obtain rfl : s' = s.setBuilding map' none := hw
    exact h.setBuilding (fun _ l hl => absurd hl (by simp))
  | forgetClients map' =>
    obtain ⟨-, rfl⟩ := hw
    refine ⟨fun key epochs hl => ?_, h.2⟩
    have hl' : (s.clients.retain (fun k _ => k.1 ≠ map')).lookup (map, key) = some epochs := hl
    rw [AList.lookup_retain] at hl'
    exact h.1 key epochs (Option.filter_eq_some_iff.1 hl').1

/-- A map that was dropped holds nothing. -/
theorem fresh_of_forgetClients {map : ClientMap} {r : Unit} (hw : appWorld s (.forgetClients map) r s') :
    s'.Fresh map := by
  obtain ⟨hnone, rfl⟩ := hw
  refine ⟨fun key epochs hl => ?_, fun epochs hl => ?_⟩
  · have hl' : (s.clients.retain (fun k _ => k.1 ≠ map)).lookup (map, key) = some epochs := hl
    rw [AList.lookup_retain] at hl'
    exact absurd (Option.filter_eq_some_iff.1 hl').2 (by simp)
  · have hl' : s.building map = some epochs := hl
    rw [hnone] at hl'
    exact absurd hl' (by simp)

/-- A call of a command: the clients of a map stay fresh, or the caller will drop them. -/
theorem accounts_of_call {cfg : ServiceConfig} (map : ClientMap)
    {pool : Pool AppAnswer (Except AuthError Unit) AppState} {i : Nat}
    {next : AppAnswer c → AppSteps (Except AuthError Unit)} {p₀ : AppSteps (Except AuthError Unit)}
    {h : List (Exchanged AppAnswer)} (hw : appWorld pool.shared c r s')
    (hok : SavesSignIn pool (.call i ⟨c, r⟩)) (hp₀ : AppCommand cfg p₀) (hf : Follows p₀ h (.ask c next)) :
    Pool.Accounts (fun s => s.Fresh map) (fun s p => WillForget s.service.epoch map p)
      (SessionCommand cfg) p₀ pool.shared s' (.ask c next) (next r) := by
  have hmoves : s'.service.epoch = pool.shared.service.epoch ∨
      SessionCommand cfg p₀ ∧ WillForget s'.service.epoch map (next r) := by
    rcases epoch_of_appWorld hw with hsame | hmoved
    · exact .inl hsame
    · rcases hp₀ with hsession | hother
      · have hduty := ((dutiful_of_sessionCommand hsession).follows hf) r
        exact .inr ⟨hsession, hduty.1 _ hmoved map⟩
      · have hcalm := ((calm_of_otherCommand hother).follows hf).1
        exact absurd (appMovesTo_of_appCalm hcalm r ▸ hmoved) (by simp)
  refine ⟨fun hfresh => ?_, fun howes => ?_, fun p howes => ?_⟩
  · exact hmoves.imp_left (fun hsame => fresh_of_appWorld hw hsame hfresh)
  · rcases hmoves with hsame | ⟨-, hwill⟩
    · rcases howes with rfl | hrest
      · exact .inl (fresh_of_forgetClients hw)
      · exact .inr (hsame ▸ hrest r (appFair_of_appWorld hw hok))
    · exact .inr hwill
  · rcases hmoves with hsame | hwill
    · exact .inl (hsame ▸ howes)
    · exact .inr (.inr hwill)

end Steps

/-- A live session has usable clients: in every run of the commands in which no sign-in fails to save
    its refresh token under the epoch it opened, while no sign-in and no sign-out is under way, every
    adapter of every client is of the current epoch and finds its session live. -/
theorem clients_follow_the_session {cfg : ServiceConfig} {s : AppState} (hs : ∀ map, s.Fresh map)
    {tr : List (Pool.Event AppAnswer (Except AuthError Unit))}
    {pool : Pool AppAnswer (Except AuthError Unit) AppState} (hrun : Run (CommandStep cfg) ⟨s, []⟩ tr pool)
    (hidle : ∀ (i : Nat) p, (Pool.startsOf tr)[i]? = some p → SessionCommand cfg p →
      ∃ r, pool.threads[i]? = some (.done r)) {map : ClientMap} {key : Text} {epochs : List Nat}
    (hclient : pool.shared.clients.lookup (map, key) = some epochs) (adapter : ScopedTokenAdapter)
    (hadapter : adapter.epoch ∈ epochs) :
    adapter.epoch = pool.shared.service.epoch ∧ ∀ r t,
      Exec serviceWorld pool.shared.service adapter.requireLiveSession.run t r → r = .ok () := by
  have hfresh : pool.shared.Fresh map := by
    rcases Pool.settled_or_owed (fun s => s.Fresh map)
      (fun s p => WillForget s.service.epoch map p) (SessionCommand cfg)
      (fun pool i c next r s' p₀ h hw hok hp₀ hf => accounts_of_call map hw hok hp₀ hf)
      (hs map) hrun with hfresh | ⟨i, p₀, p, hstart, hbound, hp, howes⟩
    · exact hfresh
    · obtain ⟨r, hr⟩ := hidle i p₀ hstart hbound
      obtain rfl : p = .done r := Option.some.inj (hp.symm.trans hr)
      exact howes.elim
  have hepoch := hfresh.1 key epochs hclient _ hadapter
  refine ⟨hepoch, fun r t hexec => ?_⟩
  have hmeets : Meets serviceWorld (fun _ _ => True) (fun _ r => r = .ok ()) pool.shared.service
      adapter.requireLiveSession.run := by
    refine ⟨trivial, fun e t ht => ?_⟩
    obtain ⟨rfl, rfl⟩ := ht
    show Meets _ _ _ _ (if _ = adapter.epoch then pure () else throw .notSignedIn : Flow Unit).run
    rw [if_pos hepoch.symm]
    rfl
  exact hmeets.sound hexec

/-! ## Runs that can be looked at -/

/-- The service, with a keyring that may have stopped to save. -/
def serveAuth (o : Outside) (broken : Bool) (s : Service) (c : ServiceCall) :
    Option (ServiceAnswer c × Service) :=
  match c with
  | .saveRefreshTokenIf account refresh fence registration =>
    if broken then some (.error (.keyring []), s)
    else s.serve o (.saveRefreshTokenIf account refresh fence registration)
  | c => s.serve o c

def AppState.serve (o : Outside) (broken : Bool) (s : AppState) :
    (c : AppCall) → Option (AppAnswer c × AppState)
  | .auth c => (serveAuth o broken s.service c).map (fun a => (a.1, { s with service := a.2 }))
  | .rememberedAccount => some (s.remembered, s)
  | .rememberAccount tenant => some ((), { s with remembered := some tenant })
  | .forgetAccount => some ((), { s with remembered := none })
  | .lockClients map key =>
    if (s.building map).isSome then none
    else some ((s.clients.lookup (map, key)).isSome, s.setBuilding map (some []))
  | .buildAdapter map => (s.building map).map (fun epochs =>
    (s.service.epoch, s.setBuilding map (some (epochs ++ [s.service.epoch]))))
  | .insertClient map key => (s.building map).map (fun epochs =>
    ((), { s.setBuilding map none with clients := s.clients.insert (map, key) epochs }))
  | .releaseClients map => some ((), s.setBuilding map none)
  | .forgetClients map => if (s.building map).isSome then none else some ((), s.dropClients map)

theorem world_of_serveAuth {o : Outside} (ho : o.Proper) {broken : Bool} {s s' : Service}
    {c : ServiceCall} {r : ServiceAnswer c} (h : serveAuth o broken s c = some (r, s')) :
    serviceWorld s c r s' := by
  unfold serveAuth at h
  split at h
  · split at h
    · obtain ⟨rfl, rfl⟩ := Prod.mk.inj (Option.some.inj h)
      exact .inl rfl
    · exact Service.world_of_serve ho s _ r s' h
  · exact Service.world_of_serve ho s _ r s' h

theorem world_of_appServe {o : Outside} (ho : o.Proper) (broken : Bool) (s : AppState) (c : AppCall)
    (r : AppAnswer c) (s' : AppState) (h : s.serve o broken c = some (r, s')) :
    appWorld s c r s' := by
  cases c with
  | auth c =>
    obtain ⟨⟨r', t⟩, hanswer, heq⟩ := Option.map_eq_some_iff.1 h
    obtain ⟨rfl, rfl⟩ := Prod.mk.inj heq
    exact ⟨t, world_of_serveAuth ho hanswer, rfl⟩
  | rememberedAccount =>
    obtain ⟨rfl, rfl⟩ := Prod.mk.inj (Option.some.inj h)
    exact ⟨rfl, rfl⟩
  | rememberAccount tenant | forgetAccount =>
    obtain ⟨rfl, rfl⟩ := Prod.mk.inj (Option.some.inj h)
    exact .inr rfl
  | lockClients map key =>
    unfold AppState.serve at h
    dsimp only at h
    split at h
    · exact absurd h (by simp)
    · next hfree =>
      obtain ⟨rfl, rfl⟩ := Prod.mk.inj (Option.some.inj h)
      exact ⟨by simpa using hfree, rfl, rfl⟩
  | buildAdapter map =>
    obtain ⟨epochs, hbuilding, heq⟩ := Option.map_eq_some_iff.1 h
    obtain ⟨rfl, rfl⟩ := Prod.mk.inj heq
    exact ⟨rfl, epochs, hbuilding, rfl⟩
  | insertClient map key =>
    obtain ⟨epochs, hbuilding, heq⟩ := Option.map_eq_some_iff.1 h
    obtain ⟨-, rfl⟩ := Prod.mk.inj heq
    exact ⟨epochs, hbuilding, rfl⟩
  | releaseClients map =>
    obtain ⟨-, rfl⟩ := Prod.mk.inj (Option.some.inj h)
    rfl
  | forgetClients map =>
    unfold AppState.serve at h
    dsimp only at h
    split at h
    · exact absurd h (by simp)
    · next hfree =>
      obtain ⟨-, rfl⟩ := Prod.mk.inj (Option.some.inj h)
      exact ⟨by simpa using hfree, rfl⟩

/-- With a keyring that saves, every sign-in keeps its token. -/
theorem savesSignIn_of_appServe {o : Outside} {s s' : AppState} {c : AppCall} {r : AppAnswer c}
    (h : s.serve o false c = some (r, s')) (i : Nat) (ts : List (AppSteps (Except AuthError Unit))) :
    SavesSignIn ⟨s, ts⟩ (.call i ⟨c, r⟩) := by
  unfold SavesSignIn
  split
  · next pool j account refresh fence e hevent =>
    cases hevent
    obtain ⟨⟨r', t⟩, hanswer, heq⟩ := Option.map_eq_some_iff.1 h
    obtain ⟨rfl, -⟩ := Prod.mk.inj heq
    have hserve : s.service.serve o (.saveRefreshTokenIf account refresh fence .replace) =
      some (.error e, t) := hanswer
    unfold Service.serve at hserve
    dsimp only at hserve
    split at hserve
    · exact absurd hserve (by simp)
    · exact absurd hserve (by simp)
  · trivial

/-- The app as it starts. -/
def startedApp : AppState := ⟨emptyService, none, ∅, fun _ => none⟩

theorem startedApp_fresh (map : ClientMap) : startedApp.Fresh map :=
  ⟨fun key epochs hl => absurd hl (by simp [startedApp]), fun epochs hl => absurd hl (by simp [startedApp])⟩

/-- Sign in and use a client; sign in again, with a keyring that no longer saves; re-authenticate. -/
def brokenKeyring : List (AppSteps (Except AuthError Unit)) :=
  [(signInCommand soleTenant).run, graphFor.run, (signInCommand soleTenant).run,
   (reauthenticateCommand soleTenant (contextOf ['a'])).run]

theorem brokenKeyring_commands : ∀ p ∈ brokenKeyring, AppCommand soleTenant p := by
  intro p hp
  fin_cases hp
  · exact .inl .signIn
  · exact .inr .graphFor
  · exact .inl .signIn
  · exact .inr (.reauthenticate _)

def isDone {α : Type} : AppSteps α → Bool
  | .done _ => true
  | .ask _ _ => false

theorem exists_done_of_isDone {α : Type} {p : AppSteps α} (h : isDone p = true) : ∃ r, p = .done r := by
  cases p with
  | done r => exact ⟨r, rfl⟩
  | ask c next => exact absurd h (by simp [isDone])

/-- The operator is signed in under the second epoch, with a client of the first. -/
theorem failed_save_strands_clients : ∃ tr pool,
    Run (Pool.Step (AppCommand soleTenant) appWorld) ⟨startedApp, []⟩ tr pool ∧
    (∀ p ∈ pool.threads, ∃ r, p = .done r) ∧
    pool.shared.service.registered ≠ none ∧
    ∃ epochs, pool.shared.clients.lookup (.graph, []) = some epochs ∧
      ∃ e ∈ epochs, e ≠ pool.shared.service.epoch := by
  have hplay : (Pool.play (fun i => AppState.serve (operator ['a']) (i == 2))
      (List.replicate 13 0 ++ List.replicate 11 1 ++ List.replicate 6 2 ++ List.replicate 5 3)
      ⟨startedApp, brokenKeyring⟩).map
      (fun pool => (pool.threads.all isDone, pool.shared.service.registered.isSome,
        (pool.shared.clients.lookup (.graph, [])).map (fun epochs => (epochs.head?,
          pool.shared.service.epoch)))) = some (true, true, some (some 1, 2)) := by
    decide
  obtain ⟨tr, pool, hrun, -, hview⟩ := Pool.exists_run_of_replay
    (fun i => world_of_appServe (operator_proper ['a']) (i == 2)) brokenKeyring_commands hplay
  obtain ⟨hdone, hrest⟩ := Prod.mk.inj hview
  obtain ⟨hregistered, hclient⟩ := Prod.mk.inj hrest
  obtain ⟨epochs, hlookup, hepochs⟩ := Option.map_eq_some_iff.1 hclient
  obtain ⟨hhead, hepoch⟩ := Prod.mk.inj hepochs
  refine ⟨tr, pool, hrun, fun p hp => ?_, fun hnone => ?_, epochs, hlookup, 1, ?_, ?_⟩
  · exact exists_done_of_isDone (List.all_eq_true.1 hdone p hp)
  · rw [hnone] at hregistered
    exact absurd hregistered (by simp)
  · exact List.mem_of_mem_head? hhead
  · rw [hepoch]
    exact (by decide)

/-- Sign in and ask for a client. -/
def signInThenGraph : List (AppSteps (Except AuthError Unit)) :=
  [(signInCommand soleTenant).run, graphFor.run]

theorem signInThenGraph_commands : ∀ p ∈ signInThenGraph, AppCommand soleTenant p := by
  intro p hp
  fin_cases hp
  · exact .inl .signIn
  · exact .inr .graphFor

/-- The client of a session that was signed in is of its epoch. -/
theorem signed_in_client_is_usable : ∃ tr pool,
    Run (CommandStep soleTenant) ⟨startedApp, []⟩ tr pool ∧
    pool.shared.service.registered ≠ none ∧
    ∃ epochs, pool.shared.clients.lookup (.graph, []) = some epochs ∧ 1 ∈ epochs ∧
      1 = pool.shared.service.epoch := by
  have hplay : (Pool.play (fun _ => AppState.serve (operator ['a']) false)
      (List.replicate 13 0 ++ List.replicate 11 1) ⟨startedApp, signInThenGraph⟩).map
      (fun pool => (pool.threads.map isDone, pool.shared.service.registered.isSome,
        (pool.shared.clients.lookup (.graph, [])).map (fun epochs => epochs.head?))) =
      some ([true, true], true, some (some 1)) := by
    decide
  obtain ⟨tr, pool, hrun, hstarts, hview⟩ := Pool.exists_run_of_replay_ok SavesSignIn
    (fun _ _ => trivial) (fun i s c r s' hr =>
      ⟨world_of_appServe (operator_proper ['a']) false s c r s' hr, savesSignIn_of_appServe hr i⟩)
    signInThenGraph_commands hplay
  obtain ⟨hdone, hrest⟩ := Prod.mk.inj hview
  obtain ⟨hregistered, hclient⟩ := Prod.mk.inj hrest
  obtain ⟨epochs, hlookup, hhead⟩ := Option.map_eq_some_iff.1 hclient
  have hidle : ∀ (i : Nat) p, (Pool.startsOf tr)[i]? = some p → SessionCommand soleTenant p →
      ∃ r, pool.threads[i]? = some (.done r) := by
    intro i p hp _
    have hi : i < 2 := by
      rw [hstarts] at hp
      exact (List.getElem?_eq_some_iff.1 hp).1
    have hlen : pool.threads.length = 2 := by
      rw [← List.length_map (f := isDone), hdone]
      rfl
    have hthread : pool.threads[i]? = some pool.threads[i] := List.getElem?_eq_getElem (hlen ▸ hi)
    have hall : ∀ b ∈ pool.threads.map isDone, b = true := by
      rw [hdone]
      simp
    obtain ⟨r, hr⟩ := exists_done_of_isDone
      (hall _ (List.mem_map_of_mem (List.mem_of_getElem? hthread)))
    exact ⟨r, hr ▸ hthread⟩
  have hmem : 1 ∈ epochs := List.mem_of_mem_head? hhead
  refine ⟨tr, pool, hrun, fun hnone => ?_, epochs, hlookup, hmem, ?_⟩
  · rw [hnone] at hregistered
    exact absurd hregistered (by simp)
  · exact (clients_follow_the_session startedApp_fresh hrun hidle hlookup ⟨[], 1, true⟩ hmem).1

end App
