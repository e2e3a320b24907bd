import AzAppToolkit.Auth.Sessions

set_option autoImplicit false

/-! # What a flow knows when it takes a step

Every flow of the service keeps one discipline over its own history: it stores only for an account it
entered, under the fence it read there, tokens minted for that account; it purges only the token that
was rejected, and drops the session only when the purge found no other; it sends at most two refresh
tokens. The claims about interleavings rest on this and on what the shared state makes of each step,
never on the program text. -/

namespace Auth

open Prog

abbrev FlowHistory := List (Exchanged ServiceAnswer)

/-! ## The discipline -/

/-- The answers a flow relies on: Entra and the keyring keep accounts apart. -/
def Honest : Exchanged ServiceAnswer → Prop
  | ⟨.loadRefreshToken accountOid, .ok (some secret)⟩ => secret.mintedFor = accountOid
  | ⟨.postToken sent _ _, .ok token⟩ => token.mintedFor = sent.mintedFor
  | ⟨.runAuthCodeFlow _ _ _ _, .ok (token, claims)⟩ =>
    ∀ oid, claims.oid = some oid → token.mintedFor = oid
  | _ => True

/-- The service answers so, as long as its keyring keeps accounts apart. -/
theorem honest_of_tagged {s s' : Service} {e : Exchanged ServiceAnswer} (hs : s.Tagged)
    (hw : serviceWorld s e.1 e.2 s') : Honest e := by
  unfold Honest
  split
  · exact hs _ _ hw.1.symm
  · exact hw.1
  · exact hw.1
  · trivial

/-- The exchange that entitles a flow to stores of the kind, for the account and under the fence. -/
def Enters : Registration → Text → Nat → Exchanged ServiceAnswer → Prop
  | .keep, account, fence, ⟨.captureRegistered, r⟩ =>
    ∃ tenant : TenantContext, r = some (tenant, fence) ∧ tenant.accountOid = account
  | .claim, account, fence, ⟨.captureRestore tenant, r⟩ =>
    r = .inr fence ∧ tenant.accountOid = account
  | .claim, account, fence, ⟨.captureReauthenticate tenant, r⟩ =>
    r = some fence ∧ tenant.accountOid = account
  | .replace, account, fence, ⟨.startSession tenant, r⟩ => r = fence ∧ tenant.accountOid = account
  | _, _, _, _ => False

/-- The flow has entered the account's session. -/
def Entered (h : FlowHistory) (registration : Registration) (account : Text) (fence : Nat) : Prop :=
  ∃ e ∈ h, Enters registration account fence e

def isPostToken : Exchanged ServiceAnswer → Bool
  | ⟨.postToken _ _ _, _⟩ => true
  | _ => false

/-- The refresh tokens sent so far. -/
def posts (h : FlowHistory) : Nat := h.countP isPostToken

/-- The last exchange was the rejection of the token. -/
def Rejected (h : FlowHistory) (rejected : StoredToken) : Prop := ∃ scopes claims reason,
  h.getLast? = some ⟨.postToken rejected scopes claims, .error (.invalidGrant reason)⟩

/-- What a flow may ask, given its history. -/
def Allowed (h : FlowHistory) : ServiceCall → Prop
  | .commit tenant _ access fence registration =>
    Entered h registration tenant.accountOid fence ∧ access.mintedFor = tenant.accountOid
  | .saveRefreshTokenIf accountOid refresh fence registration =>
    Entered h registration accountOid fence ∧ refresh.mintedFor = accountOid
  | .postToken _ _ _ => posts h < 2
  | .deleteRefreshTokenIfCurrent _ rejected => Rejected h rejected
  | .dropSession _ sent accountOid => Rejected h.dropLast sent ∧ ∃ outcome,
      outcome ≠ .ok .superseded ∧
        h.getLast? = some ⟨.deleteRefreshTokenIfCurrent accountOid sent, outcome⟩
  | .deleteRefreshTokenThen accountOid => ∃ tenant, h.getLast? = some ⟨.signOutAccount tenant, accountOid⟩
  | .sweepAfterSignOut bumped deleted =>
    h.getLast? = some ⟨.deleteRefreshTokenThen deleted, .ok bumped⟩
  | _ => True

/-- The exchange hands the flow an access token of the account. -/
def Yields (account : Text) : Exchanged ServiceAnswer → Prop
  | ⟨.cacheGet _, r⟩ => ∃ token : AccessToken, r = some token ∧ token.mintedFor = account
  | ⟨.commit _ _ access _ _, r⟩ => r = true ∧ access.mintedFor = account
  | _ => False

/-- The flow was handed a token of the account between two reads of the epoch, and both found
    `epoch`. -/
def Confirmed (h : FlowHistory) (epoch : Nat) (account : Text) : Prop :=
  ∃ h₁ e h₂ h₃, h = h₁ ++ e :: h₂ ++ ⟨.sessionEpoch, epoch⟩ :: h₃ ∧ ⟨.sessionEpoch, epoch⟩ ∈ h₁ ∧
    Yields account e

/-- How a flow ends: an adapter returns only tokens it confirmed. -/
def Ended (h : FlowHistory) : Except AuthError FlowResult → Prop
  | .ok (.bearer builtUnder token) => Confirmed h builtUnder token.mintedFor
  | _ => True

/-! ## The keyring keeps accounts apart -/

variable {account : Text}

section Tagged

variable {s s' : Service} {h : FlowHistory} {e : Exchanged ServiceAnswer}

/-- A token in the keyring was there before, or was saved in this step. -/
theorem stored_or_saved (hw : serviceWorld s e.1 e.2 s') {token : StoredToken}
    (hl : s'.keyring.lookup account = some token) :
    s.keyring.lookup account = some token ∨ ∃ refresh fence registration, s' ≠ s ∧
      e.1 = .saveRefreshTokenIf account refresh fence registration ∧ token = ⟨refresh, s.stamp⟩ := by
  have hstep : SessionStep s e s' := sessionStep_of_world hw
  cases hstep with
  | keyring htouch honly =>
    rcases honly.keyring account token hl with hold | ⟨refresh, registration, hstamp, hsave, rfl⟩
    · exact .inl hold
    · refine .inr ⟨refresh, s.epoch, registration, fun heq => ?_, hsave, rfl⟩
      rw [heq] at hstamp
      omega
  | cleared r | started tenant | stored tenant slot access registration hfree
  | refused tenant slot access fence registration | dropped sent a r | keptDrop hmoved sent a r
  | swept deleted r | keptSweep hmoved deleted r => exact .inl hl
  | signedOut a => exact .inl (lookup_erased hl).2

theorem tagged_step (hw : serviceWorld s e.1 e.2 s') (hs : s.Tagged) (hok : Allowed h e.1) : s'.Tagged := by
  intro account token hl
  rcases stored_or_saved hw hl with hold | ⟨refresh, fence, registration, -, hsave, rfl⟩
  · exact hs account token hold
  · rw [hsave] at hok
    exact hok.2

end Tagged

/-! ## Rules -/

/-- The flow keeps the discipline from here on. -/
def Keeps {α : Type} (post : FlowHistory → Except AuthError α → Prop) (h : FlowHistory) (p : Flow α) :
    Prop := Meets (trusted Honest) Allowed post h p.run

section Rules

variable {α β : Type} {post : FlowHistory → Except AuthError α → Prop} {h : FlowHistory}

theorem Keeps.step {c : ServiceCall} {f : ServiceAnswer c → Flow α} (hok : Allowed h c)
    (hf : ∀ r, Honest ⟨c, r⟩ → Keeps post (h ++ [⟨c, r⟩]) (f r)) : Keeps post h (step c >>= f) :=
  Meets.liftBind (Meets.trust hok hf)

/-- The last step of a flow. -/
theorem Keeps.lastStep {c : ServiceCall} {post : FlowHistory → Except AuthError (ServiceAnswer c) → Prop}
    (hok : Allowed h c) (hpost : ∀ r, Honest ⟨c, r⟩ → post (h ++ [⟨c, r⟩]) (.ok r)) :
    Keeps post h (Auth.step c) :=
  Meets.lift (Meets.trust hok hpost)

theorem Keeps.pure {a : α} (hpost : post h (.ok a)) : Keeps post h (pure a) := hpost

theorem Keeps.throw {e : AuthError} (hpost : post h (.error e)) : Keeps post h (throw e) := hpost

/-- A flow inside a flow, by what it leaves behind when it succeeds. -/
theorem Keeps.andThen {p : Flow β} {f : β → Flow α} {good : FlowHistory → β → Prop}
    (hp : Keeps (OnResult good (fun _ _ => True)) h p) (hbad : ∀ h e, post h (.error e))
    (hgood : ∀ h b, good h b → Keeps post h (f b)) : Keeps post h (p >>= f) :=
  Meets.tryThen hp (fun h e _ => hbad h e) hgood

theorem Keeps.ofResult {r : Except AuthError β} {f : β → Flow α} (hbad : ∀ h e, post h (.error e))
    (hgood : ∀ b, r = .ok b → Keeps post h (f b)) : Keeps post h (ofResult r >>= f) := by
  cases r with
  | ok b => exact hgood b rfl
  | error e => exact hbad h e

theorem Keeps.mono {post' : FlowHistory → Except AuthError α → Prop} {p : Flow α}
    (hp : Keeps post h p) (hpost : ∀ h r, post h r → post' h r) : Keeps post' h p :=
  Meets.mono hp hpost

/-- A flow whose failure is looked at. -/
theorem Keeps.lift {p : Flow β} {f : Except AuthError β → Flow α}
    (hp : Keeps (fun h r => Keeps post h (f r)) h p) :
    Keeps post h (ExceptT.lift p.run >>= f) :=
  Meets.liftBind hp

end Rules

theorem Entered.mono {h h' : FlowHistory} {registration : Registration} {fence : Nat}
    (hsub : h <+: h') (hin : Entered h registration account fence) :
    Entered h' registration account fence := by
  obtain ⟨e, he, henters⟩ := hin
  exact ⟨e, hsub.subset he, henters⟩

theorem Entered.snoc {h : FlowHistory} {registration : Registration} {fence : Nat}
    (e : Exchanged ServiceAnswer) (hin : Entered h registration account fence) :
    Entered (h ++ [e]) registration account fence :=
  hin.mono (List.prefix_append h [e])

theorem entered_last {h : FlowHistory} {registration : Registration} {fence : Nat}
    {e : Exchanged ServiceAnswer} (henters : Enters registration account fence e) :
    Entered (h ++ [e]) registration account fence :=
  ⟨e, by simp, henters⟩

theorem posts_snoc (h : FlowHistory) (e : Exchanged ServiceAnswer) :
    posts (h ++ [e]) = posts h + if isPostToken e then 1 else 0 := by
  simp [posts, List.countP_append, List.countP_cons]

/-! ## Storing a token -/

/-- Since `h`, the flow was handed a token of the account. -/
def HandedSince (h h' : FlowHistory) (account : Text) : Prop :=
  ∃ h₁ e h₂, h' = h₁ ++ e :: h₂ ∧ h <+: h₁ ∧ Yields account e

theorem HandedSince.last {h h' : FlowHistory} {e : Exchanged ServiceAnswer}
    (hsub : h <+: h') (hyields : Yields account e) : HandedSince h (h' ++ [e]) account :=
  ⟨h', e, [], rfl, hsub, hyields⟩

theorem HandedSince.mono {h h₁ h' h'' : FlowHistory} (hlo : h <+: h₁)
    (hhi : h' <+: h'') (hin : HandedSince h₁ h' account) : HandedSince h h'' account := by
  obtain ⟨a, e, b, rfl, ha, hyields⟩ := hin
  obtain ⟨more, rfl⟩ := hhi
  exact ⟨a, e, b ++ more, by simp, hlo.trans ha, hyields⟩

/-- No condition on a failure. -/
abbrev Then {α : Type} (good : FlowHistory → α → Prop) : FlowHistory → Except AuthError α → Prop :=
  OnResult good (fun _ _ => True)

theorem then_error {α : Type} (good : FlowHistory → α → Prop) (h : FlowHistory) (e : AuthError) :
    Then good h (.error e) := trivial

theorem prefix_snoc {h h' : FlowHistory} (hsub : h <+: h') (e : Exchanged ServiceAnswer) :
    h <+: h' ++ [e] := hsub.trans (List.prefix_append h' [e])

section Storing

variable {h : FlowHistory} {tenant : TenantContext} {fence : Nat} {registration : Registration}
  {token : TokenResponse}

theorem keeps_saveRotated (save : RefreshTokenSave) (hin : Entered h registration tenant.accountOid fence)
    (hminted : token.mintedFor = tenant.accountOid) :
    Keeps (Then (fun h' _ => h <+: h')) h (saveRotated tenant save fence registration token) := by
  unfold saveRotated
  cases token.refreshToken with
  | none => exact Keeps.pure (List.prefix_refl h)
  | some refresh =>
    refine Keeps.step ⟨hin, hminted⟩ (fun saved _ => ?_)
    show Then _ _ (settleSave save saved)
    cases settleSave save saved with
    | ok u => exact List.prefix_append h _
    | error e => trivial

theorem keeps_storeTokenOutcome (cacheScopes scopeFallback : List Text) (cae : Bool)
    (save : RefreshTokenSave) (hin : Entered h registration tenant.accountOid fence)
    (hminted : token.mintedFor = tenant.accountOid) :
    Keeps (Then (fun h' access => HandedSince h h' access.mintedFor)) h
      (storeTokenOutcome tenant cacheScopes scopeFallback cae save fence registration token) := by
  refine Keeps.step trivial (fun time _ => ?_)
  refine Keeps.andThen (keeps_saveRotated save (hin.snoc _) hminted) (then_error _) (fun h' _ hsub => ?_)
  have hsub' : h <+: h' := (List.prefix_append h _).trans hsub
  refine Keeps.step ⟨hin.mono hsub', hminted⟩ (fun stored _ => ?_)
  cases stored with
  | true => exact Keeps.pure (.last hsub' ⟨rfl, rfl⟩)
  | false => exact Keeps.throw trivial

end Storing

/-! ## Interactive flows -/

section Interactive

variable {h : FlowHistory}

/-- What a flow that only has to end keeps. -/
abbrev Anyhow {α : Type} : FlowHistory → Except AuthError α → Prop := fun _ _ => True

/-- The browser flow, with an identity check after it, yields a token of the account checked. -/
theorem keeps_runAuthCodeFlow {α : Type} {post : FlowHistory → Except AuthError α → Prop}
    {scopes : List Text} {prompt : String} {loginHint : Option Text} {cae : Bool}
    {f : TokenResponse × IdClaims → Flow α} (hbad : ∀ h e, post h (.error e))
    (hf : ∀ e token claims, (∀ oid, claims.oid = some oid → token.mintedFor = oid) →
      Keeps post (h ++ [e]) (f (token, claims))) :
    Keeps post h (runAuthCodeFlow scopes prompt loginHint cae >>= f) := by
  have hflow : Keeps (Then (fun h' r => ∃ e, h' = h ++ [e] ∧
      ∀ oid, r.2.oid = some oid → r.1.mintedFor = oid)) h
      (runAuthCodeFlow scopes prompt loginHint cae) := by
    refine Keeps.step trivial (fun r hr => ?_)
    cases r with
    | error e => trivial
    | ok r => exact ⟨_, rfl, hr⟩
  refine Keeps.andThen hflow hbad ?_
  rintro h' ⟨token, claims⟩ ⟨e, rfl, hclaims⟩
  exact hf e token claims hclaims

theorem oid_of_ensureSameIdentity {claims : IdClaims} {tenant : TenantContext} {action : String}
    (hok : ensureSameIdentity claims tenant action = .ok ()) : claims.oid = some tenant.accountOid := by
  unfold ensureSameIdentity at hok
  split at hok
  · exact absurd hok (by simp)
  · split at hok
    · exact absurd hok (by simp)
    · next hoid => exact not_not.1 hoid

theorem keeps_signIn (cfg : ServiceConfig) : Keeps Anyhow h (signIn cfg) := by
  unfold signIn
  split
  · trivial
  refine Keeps.step trivial (fun ready _ => ?_)
  refine Keeps.ofResult (fun _ _ => trivial) (fun _ _ => ?_)
  refine keeps_runAuthCodeFlow (fun _ _ => trivial) (fun e token claims hclaims => ?_)
  dsimp only
  split
  · split
    · trivial
    · split
      · next oid hoid =>
        refine Keeps.step trivial (fun fence _ => ?_)
        refine Keeps.andThen (keeps_storeTokenOutcome _ _ _ _ (entered_last ⟨rfl, rfl⟩)
          (hclaims oid hoid)) (fun _ _ => trivial) (fun _ _ _ => trivial)
      · trivial
  · trivial

theorem keeps_interactiveForScopes (cfg : ServiceConfig) (scopes : List Text) (prompt action : String) :
    Keeps Anyhow h (interactiveForScopes cfg scopes prompt action) := by
  refine Keeps.step trivial (fun r _ => ?_)
  cases r with
  | none => trivial
  | some r =>
    obtain ⟨tenant, fence⟩ := r
    refine keeps_runAuthCodeFlow (fun _ _ => trivial) (fun e token claims hclaims => ?_)
    refine Keeps.ofResult (fun _ _ => trivial) (fun _ hsame => ?_)
    have hminted := hclaims _ (oid_of_ensureSameIdentity hsame)
    have hin : Entered (h ++ [⟨.captureRegistered, some (tenant, fence)⟩]) .keep tenant.accountOid
        fence := entered_last ⟨tenant, rfl, rfl⟩
    exact Keeps.andThen (keeps_storeTokenOutcome _ _ _ _ (hin.snoc e) hminted)
      (fun _ _ => trivial) (fun _ _ _ => trivial)

theorem keeps_reauthenticate (cfg : ServiceConfig) (tenant : TenantContext) :
    Keeps Anyhow h (reauthenticate cfg tenant) := by
  refine Keeps.step trivial (fun r _ => ?_)
  cases r with
  | none => trivial
  | some fence =>
    refine keeps_runAuthCodeFlow (fun _ _ => trivial) (fun e token claims hclaims => ?_)
    refine Keeps.ofResult (fun _ _ => trivial) (fun _ hsame => ?_)
    have hminted := hclaims _ (oid_of_ensureSameIdentity hsame)
    have hin : Entered (h ++ [⟨.captureReauthenticate tenant, some fence⟩]) .claim
        tenant.accountOid fence := entered_last ⟨rfl, rfl⟩
    exact Keeps.andThen (keeps_storeTokenOutcome _ _ _ _ (hin.snoc e) hminted)
      (fun _ _ => trivial) (fun _ _ _ => trivial)

end Interactive

/-! ## Silent acquisition -/

section Silent

variable {h : FlowHistory} {tenant : TenantContext}

theorem keeps_loadRefreshSecret :
    Keeps (Then (fun h' secret => ∃ e, h' = h ++ [e] ∧ isPostToken e = false ∧
      secret.mintedFor = tenant.accountOid)) h (loadRefreshSecret tenant) := by
  refine Keeps.step trivial (fun r hr => ?_)
  match r, hr with
  | .error e, _ => trivial
  | .ok none, _ => trivial
  | .ok (some secret), hr => exact ⟨_, rfl, rfl, hr⟩

/-- What one refresh leaves: a token of the account, or a rejection. -/
def Redeemed (h : FlowHistory) (account : Text) (h' : FlowHistory) :
    TokenResponse ⊕ StoredToken → Prop
  | .inl token => h <+: h' ∧ posts h' = posts h + 1 ∧ token.mintedFor = account
  | .inr rejected => h <+: h' ∧ posts h' = posts h + 1 ∧ Rejected h' rejected

theorem keeps_redeemOnce (scopes : List Text) (claims : Option Text) (hposts : posts h < 2) :
    Keeps (Then (Redeemed h tenant.accountOid)) h (redeemOnce tenant scopes claims) := by
  refine Keeps.andThen keeps_loadRefreshSecret (then_error _) ?_
  rintro h' secret ⟨e, rfl, he, hminted⟩
  have hload : posts (h ++ [e]) = posts h := by rw [posts_snoc, if_neg (by simp [he]), Nat.add_zero]
  refine Keeps.step (by show posts _ < 2; rw [hload]; exact hposts) (fun r hr => ?_)
  have hsub : ∀ e', h <+: h ++ [e] ++ [e'] := fun e' => prefix_snoc (List.prefix_append h [e]) e'
  have hsent : posts (h ++ [e] ++ [⟨.postToken secret scopes claims, r⟩]) = posts h + 1 := by
    rw [posts_snoc, hload]
    rfl
  split
  · next token => exact ⟨hsub _, hsent, hr.trans hminted⟩
  · next reason => exact ⟨hsub _, hsent, scopes, claims, reason, List.getLast?_concat⟩
  · trivial

theorem keeps_purgeRejected (fence : Nat) {rejected : StoredToken} (hlast : Rejected h rejected) :
    Keeps (Then (fun h' _ => h <+: h' ∧ posts h' = posts h)) h
      (purgeRejected tenant fence rejected) := by
  refine Keeps.step hlast (fun r _ => ?_)
  split
  · refine Keeps.step trivial (fun epoch _ => ?_)
    split
    · trivial
    · refine Keeps.pure ⟨prefix_snoc (List.prefix_append h _) _, ?_⟩
      rw [posts_snoc, posts_snoc]
      rfl
  · next hne =>
    have hrejected : ∀ e, Rejected (h ++ [e]).dropLast rejected := by
      intro e
      rwa [List.dropLast_concat]
    exact Keeps.step ⟨hrejected _, r, fun heq => hne heq, List.getLast?_concat⟩ (fun _ _ => trivial)

theorem keeps_redeem (fence : Nat) (scopes : List Text) (claims : Option Text) (retries : Nat)
    (hposts : posts h + retries < 2) :
    Keeps (Then (fun h' token => h <+: h' ∧ token.mintedFor = tenant.accountOid)) h
      (redeem tenant fence scopes claims retries) := by
  induction retries generalizing h with
  | zero =>
    refine Keeps.andThen (keeps_redeemOnce scopes claims (by omega)) (then_error _) (fun h' r hr => ?_)
    cases r with
    | inl token => exact Keeps.pure ⟨hr.1, hr.2.2⟩
    | inr rejected =>
      exact Keeps.andThen (keeps_purgeRejected fence hr.2.2) (then_error _) (fun _ _ _ => trivial)
  | succ retries ih =>
    refine Keeps.andThen (keeps_redeemOnce scopes claims (by omega)) (then_error _) (fun h' r hr => ?_)
    cases r with
    | inl token => exact Keeps.pure ⟨hr.1, hr.2.2⟩
    | inr rejected =>
      obtain ⟨hsub, hsent, hlast⟩ := hr
      refine Keeps.andThen (keeps_purgeRejected fence hlast) (then_error _) ?_
      rintro h'' u ⟨hsub', hsame⟩
      refine (ih (by omega)).mono (fun h₃ r hr => ?_)
      cases r with
      | ok token => exact ⟨(hsub.trans hsub').trans hr.1, hr.2⟩
      | error e => trivial

theorem keeps_acquireRefreshed (scopes : List Text) (claims : Option Text) (hposts : posts h = 0) :
    Keeps (Then (fun h' access => HandedSince h h' access.mintedFor)) h
      (acquireRefreshed scopes claims) := by
  refine Keeps.step trivial (fun r _ => ?_)
  cases r with
  | none => trivial
  | some r =>
    obtain ⟨tenant, fence⟩ := r
    have hin : Entered (h ++ [⟨.captureRegistered, some (tenant, fence)⟩]) .keep tenant.accountOid
        fence := entered_last ⟨tenant, rfl, rfl⟩
    have hcount : posts (h ++ [⟨.captureRegistered, some (tenant, fence)⟩]) + 1 < 2 := by
      rw [posts_snoc, hposts]
      exact Nat.lt_succ_self 1
    refine Keeps.andThen (keeps_redeem fence scopes claims 1 hcount) (then_error _) ?_
    rintro h' token ⟨hsub, hminted⟩
    refine (keeps_storeTokenOutcome _ _ _ _ (hin.mono hsub) hminted).mono (fun h'' r hr => ?_)
    cases r with
    | ok access => exact hr.mono ((List.prefix_append h _).trans hsub) (List.prefix_refl _)
    | error e => trivial

theorem mem_of_usable {cached : Option AccessToken} {time : Int} {token : AccessToken}
    (hu : usable cached time = some token) : cached = some token :=
  (Option.filter_eq_some_iff.1 hu).1

/-- A look at the slot hands over what it returns. -/
theorem keeps_firstLook (slot : Slot) (bypassCache : Bool) :
    Keeps (Then (fun h' r => h <+: h' ∧ posts h' = posts h ∧
      ∀ t, r.2 = some t → HandedSince h h' t.mintedFor)) h (firstLook slot bypassCache) := by
  refine Keeps.step trivial (fun before _ => ?_)
  refine Keeps.step trivial (fun time _ => ?_)
  refine Keeps.pure ⟨prefix_snoc (List.prefix_append h _) _, ?_, ?_⟩
  · rw [posts_snoc, posts_snoc]
    rfl
  · intro t ht
    split at ht
    · exact absurd ht (by simp)
    · exact ⟨h, _, _, List.append_assoc _ _ _, List.prefix_refl h, t, mem_of_usable ht, rfl⟩

theorem keeps_secondLook (slot : Slot) (bypassCache : Bool) (before : Option AccessToken) :
    Keeps (Then (fun h' r => h <+: h' ∧ posts h' = posts h ∧
      ∀ t, r = some t → HandedSince h h' t.mintedFor)) h (secondLook slot bypassCache before) := by
  refine Keeps.step trivial (fun fresh _ => ?_)
  refine Keeps.step trivial (fun time _ => ?_)
  refine Keeps.pure ⟨prefix_snoc (List.prefix_append h _) _, ?_, ?_⟩
  · rw [posts_snoc, posts_snoc]
    rfl
  · intro t ht
    have hfresh := mem_of_usable (Option.filter_eq_some_iff.1 ht).1
    exact ⟨h, _, _, List.append_assoc _ _ _, List.prefix_refl h, t, hfresh, rfl⟩

theorem keeps_accessTokenInner (scopes : List Text) (claims : Option Text) (bypassCache : Bool)
    (hposts : posts h = 0) :
    Keeps (Then (fun h' access => HandedSince h h' access.mintedFor)) h
      (accessTokenInner scopes claims bypassCache) := by
  refine Keeps.andThen (keeps_firstLook _ _) (then_error _) ?_
  rintro h₁ ⟨before, existing⟩ ⟨hsub₁, hposts₁, hhanded₁⟩
  cases existing with
  | some existing => exact Keeps.pure (hhanded₁ existing rfl)
  | none =>
    refine Keeps.andThen (keeps_secondLook _ _ _) (then_error _) ?_
    rintro h₂ fresh ⟨hsub₂, hposts₂, hhanded₂⟩
    cases fresh with
    | some fresh => exact Keeps.pure ((hhanded₂ fresh rfl).mono hsub₁ (List.prefix_refl _))
    | none =>
      have hnone : posts h₂ = 0 := by omega
      refine (keeps_acquireRefreshed scopes claims hnone).mono (fun h' r hr => ?_)
      cases r with
      | ok access => exact hr.mono (hsub₁.trans hsub₂) (List.prefix_refl _)
      | error e => trivial

theorem keeps_acquireRestoring (fence : Nat) (scopes : List Text) (claims : Option Text)
    (hin : Entered h .claim tenant.accountOid fence) (hposts : posts h = 0) :
    Keeps Anyhow h (acquireRestoring tenant fence scopes claims) := by
  refine Keeps.andThen (keeps_redeem fence scopes claims 1 (by omega)) (fun _ _ => trivial) ?_
  rintro h' token ⟨hsub, hminted⟩
  refine Keeps.ofResult (fun _ _ => trivial) (fun owner howner => ?_)
  have hsame : owner.accountOid = tenant.accountOid := by
    unfold restoredContext at howner
    split at howner
    · rw [← Except.ok.inj howner]
    · exact absurd howner (by simp)
    · split at howner
      · exact absurd howner (by simp)
      · rw [← Except.ok.inj howner]
  refine Keeps.andThen (keeps_storeTokenOutcome _ _ _ _ ?_ (hminted.trans hsame.symm))
    (fun _ _ => trivial) (fun _ _ _ => trivial)
  rw [hsame]
  exact hin.mono hsub

end Silent

/-! ## Every flow -/

section Flows

variable {h : FlowHistory} (cfg : ServiceConfig)

theorem Keeps.anyhow {α : Type} {post : FlowHistory → Except AuthError α → Prop} {p : Flow α}
    (hp : Keeps post h p) : Keeps Anyhow h p := hp.mono (fun _ _ _ => trivial)

theorem keeps_stepUpWhereRequired (scopes : List Text) (hposts : posts h = 0) :
    Keeps Anyhow h (stepUpWhereRequired cfg scopes) := by
  unfold stepUpWhereRequired
  split
  · exact keeps_interactiveForScopes cfg _ _ _
  · refine Keeps.lift ((keeps_accessTokenInner scopes none false hposts).mono (fun h' r _ => ?_))
    split
    · exact keeps_interactiveForScopes cfg _ _ _
    · trivial
    · trivial

theorem keeps_signOut (tenant : TenantContext) : Keeps Anyhow h (signOut tenant) := by
  refine Keeps.step trivial (fun account _ => ?_)
  have hdelete : Keeps (Then (fun h' bumped =>
    h'.getLast? = some ⟨.deleteRefreshTokenThen account, .ok bumped⟩))
    (h ++ [⟨.signOutAccount tenant, account⟩]) (deleteRefreshTokenThen account) := by
    refine Keeps.step ⟨tenant, List.getLast?_concat⟩ (fun r _ => ?_)
    cases r with
    | error e => trivial
    | ok bumped => exact List.getLast?_concat
  refine Keeps.andThen hdelete (fun _ _ => trivial) (fun h' bumped hlast => ?_)
  exact Keeps.lastStep hlast (fun _ _ => trivial)

theorem keeps_settleRestore (tenant : TenantContext) (fence : Nat) (err : AuthError) :
    Keeps Anyhow h (settleRestore tenant fence err) := by
  unfold settleRestore
  split
  · refine Keeps.step trivial (fun epoch _ => ?_)
    split
    · trivial
    · exact Keeps.step trivial (fun _ _ => trivial)
  · trivial

theorem keeps_restoreSession (tenant : TenantContext) (hposts : posts h = 0) :
    Keeps Anyhow h (restoreSession cfg tenant) := by
  refine Keeps.step trivial (fun r _ => ?_)
  cases r with
  | inl live => trivial
  | inr fence =>
    have hin : Entered (h ++ [⟨.captureRestore tenant, .inr fence⟩]) .claim tenant.accountOid fence :=
      entered_last ⟨rfl, rfl⟩
    have hcount : posts (h ++ [⟨.captureRestore tenant, .inr fence⟩]) = 0 := by
      rw [posts_snoc, hposts]
      rfl
    refine Keeps.lift ((keeps_acquireRestoring fence _ _ hin hcount).mono (fun h' r _ => ?_))
    cases r with
    | ok fresh => trivial
    | error err => exact keeps_settleRestore tenant fence err

theorem keeps_forgetPreviousAccount (accountOid : Text) :
    Keeps Anyhow h (forgetPreviousAccount accountOid) := by
  refine Keeps.step trivial (fun live _ => ?_)
  split
  · trivial
  · exact Keeps.step trivial (fun r _ => trivial)

theorem keeps_refreshSession (hposts : posts h = 0) : Keeps Anyhow h (refreshSession cfg) := by
  refine Keeps.step trivial (fun _ _ => ?_)
  have hcount : posts (h ++ [⟨.cacheInvalidateTenant, ()⟩]) = 0 := by
    rw [posts_snoc, hposts]
    rfl
  exact Keeps.andThen (keeps_accessTokenInner _ _ _ hcount) (fun _ _ => trivial)
    (fun _ _ _ => trivial)

/-- A token taken between two checks of the session is confirmed. -/
theorem keeps_betweenChecks (adapter : ScopedTokenAdapter) {acquire : Flow AccessToken}
    (hacquire : ∀ h, posts h = 0 →
      Keeps (Then (fun h' access => HandedSince h h' access.mintedFor)) h acquire)
    (hposts : posts h = 0) :
    Keeps (Then (fun h' access => Confirmed h' adapter.epoch access.mintedFor)) h
      (do
        adapter.requireLiveSession
        let token ← acquire
        adapter.requireLiveSession
        pure token) := by
  have hcheck : ∀ h, Keeps (Then (fun h' _ => h' = h ++ [⟨.sessionEpoch, adapter.epoch⟩])) h
      adapter.requireLiveSession := by
    intro h
    refine Keeps.step trivial (fun epoch _ => ?_)
    split
    · next hsame =>
      subst hsame
      exact Keeps.pure rfl
    · trivial
  refine Keeps.andThen (hcheck h) (then_error _) ?_
  rintro h₁ u rfl
  have hcount : posts (h ++ [⟨.sessionEpoch, adapter.epoch⟩]) = 0 := by
    rw [posts_snoc, hposts]
    rfl
  refine Keeps.andThen (hacquire _ hcount) (then_error _) (fun h₂ token hhanded => ?_)
  refine Keeps.andThen (hcheck h₂) (then_error _) ?_
  rintro h₃ u rfl
  obtain ⟨a, e, b, rfl, hsub, hyields⟩ := hhanded
  exact Keeps.pure ⟨a, e, b, [], rfl, hsub.subset (by simp), hyields⟩

theorem keeps_bearer (adapter : ScopedTokenAdapter) (hposts : posts h = 0) :
    Keeps (Then (fun h' access => Confirmed h' adapter.epoch access.mintedFor)) h
      (adapter.bearer cfg) := by
  refine keeps_betweenChecks adapter (fun h hposts => ?_) hposts
  unfold ScopedTokenAdapter.acquire
  split
  · exact keeps_accessTokenInner _ _ _ hposts
  · exact keeps_accessTokenInner _ _ _ hposts

theorem keeps_bearerWithClaims (adapter : ScopedTokenAdapter) (claims : Text) (hposts : posts h = 0) :
    Keeps (Then (fun h' access => Confirmed h' adapter.epoch access.mintedFor)) h
      (adapter.bearerWithClaims cfg claims) := by
  unfold ScopedTokenAdapter.bearerWithClaims
  split
  · exact keeps_betweenChecks adapter (fun h hposts => keeps_accessTokenInner _ _ _ hposts) hposts
  · exact keeps_bearer cfg adapter hposts

/-- A flow that returns no bearer token has nothing to confirm. -/
theorem ended_map {α : Type} {p : Flow α} {f : α → FlowResult} (hp : Keeps Anyhow [] p)
    (hf : ∀ a e token, f a ≠ .bearer e token) :
    Meets (trusted Honest) Allowed Ended [] (f <$> p).run := by
  refine Meets.bind (hp.mono (fun h r _ => ?_))
  cases r with
  | error e => trivial
  | ok a =>
    show Ended h (.ok (f a))
    unfold Ended
    split
    · next builtUnder token heq => exact absurd (Except.ok.inj heq) (hf a builtUnder token)
    · trivial

theorem ended_takeBearer {take : ScopedTokenAdapter → Flow AccessToken} (scopes : List Text)
    (cae : Bool) (htake : ∀ h adapter, posts h = 0 →
      Keeps (Then (fun h' access => Confirmed h' adapter.epoch access.mintedFor)) h (take adapter)) :
    Keeps Ended [] (do
      let adapter ← newAdapter scopes cae
      let token ← take adapter
      pure (.bearer adapter.epoch token)) := by
  have hnew : Keeps (Then (fun h' (_ : ScopedTokenAdapter) => posts h' = 0)) []
      (newAdapter scopes cae) := by
    refine Keeps.step trivial (fun epoch _ => ?_)
    exact Keeps.pure rfl
  refine Keeps.andThen hnew (fun _ _ => trivial) (fun h adapter hposts => ?_)
  exact Keeps.andThen (htake h adapter hposts) (fun _ _ => trivial) (fun h' token hc => Keeps.pure hc)

theorem flow_disciplined {p : Steps (Except AuthError FlowResult)} (hp : ServiceFlow cfg p) :
    Meets (trusted Honest) Allowed Ended [] p := by
  cases hp with
  | signIn => exact ended_map (keeps_signIn cfg) (by simp)
  | signOut tenant => exact ended_map (keeps_signOut tenant) (by simp)
  | restoreSession tenant => exact ended_map (keeps_restoreSession cfg tenant rfl) (by simp)
  | reauthenticate tenant => exact ended_map (keeps_reauthenticate cfg tenant) (by simp)
  | consent scopes | stepUp scopes => exact ended_map (keeps_interactiveForScopes cfg _ _ _) (by simp)
  | stepUpWhereRequired scopes => exact ended_map (keeps_stepUpWhereRequired cfg scopes rfl) (by simp)
  | refreshSession => exact ended_map (keeps_refreshSession cfg rfl) (by simp)
  | forgetPreviousAccount account => exact ended_map (keeps_forgetPreviousAccount account) (by simp)
  | accessToken scopes => exact ended_map (keeps_accessTokenInner _ _ _ rfl).anyhow (by simp)
  | accessTokenCae scopes challenge =>
    exact ended_map (keeps_accessTokenInner _ _ _ rfl).anyhow (by simp)
  | bearer scopes cae =>
    exact ended_takeBearer scopes cae (fun h adapter hposts => keeps_bearer cfg adapter hposts)
  | bearerWithClaims scopes cae claims =>
    exact ended_takeBearer scopes cae
      (fun h adapter hposts => keeps_bearerWithClaims cfg adapter claims hposts)

end Flows

end Auth
