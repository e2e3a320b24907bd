import AzAppToolkit.Auth.Discipline
import AzAppToolkit.Auth.Replays

set_option autoImplicit false

/-! # A rejected refresh token

A silent acquisition whose refresh token is rejected deletes that token under the keyring's lock and
then, under the registry's, drops the session. The compare in the delete spares a token that replaced
the rejected one; the drop looks at the epoch alone, which a re-authentication does not move. So a
session re-established between the two is dropped, and one is dropped when the delete fails over a
newer token. -/

namespace Auth

open Prog

/-! ## The condition -/

/-- The flow's next step drops the session of the account. -/
def AboutToDrop (account : Text) (p : Steps (Except AuthError FlowResult)) : Prop :=
  ∃ fence sent next, p = .ask (.dropSession fence sent account) next

/-- No flow is between its compare-and-delete and its drop when a token of the account is saved, and a
    compare-and-delete that fails leaves no newer token behind. -/
def Undisturbed (pool : FlowPool Service) : FlowEvent → Prop
  | .call _ ⟨.saveRefreshTokenIf account _ _ _, r⟩ =>
    r = .ok false ∨ ∀ p ∈ pool.threads, ¬ AboutToDrop account p
  | .call _ ⟨.deleteRefreshTokenIfCurrent account sent, .error _⟩ =>
    ∀ t, pool.shared.keyring.lookup account = some t → t.stamp ≤ sent.stamp
  | _ => True

/-! ## Steps -/

section Steps

variable {s s' : Service} {h : FlowHistory} {e : Exchanged ServiceAnswer}

/-- After a compare-and-delete that found no other token, none stored later is there. -/
theorem nothing_newer_of_purge {account : Text} {sent : StoredToken}
    {outcome : Except KeyringError PurgeOutcome} (hne : outcome ≠ .ok .superseded)
    (hw : serviceWorld s (.deleteRefreshTokenIfCurrent account sent) outcome s')
    (hfail : ∀ err, outcome = .error err →
      ∀ t, s.keyring.lookup account = some t → t.stamp ≤ sent.stamp) :
    ∀ t, s'.keyring.lookup account = some t → t.stamp ≤ sent.stamp := by
  intro t ht
  have herased : s' ≠ s.erased account := by
    rintro rfl
    exact (lookup_erased ht).1 rfl
  match outcome, hw, hne, hfail with
  | .ok .superseded, _, hne, _ => exact absurd rfl hne
  | .ok .deleted, hw, _, _ => exact absurd hw.2 herased
  | .ok .alreadyGone, hw, _, _ =>
    rw [hw.2, hw.1] at ht
    exact absurd ht (by simp)
  | .error err, .inl hw, _, hfail =>
    rw [hw] at ht
    exact hfail err rfl t ht
  | .error _, .inr hw, _, _ => exact absurd hw.2 herased

/-- A compare-and-delete removes the rejected token or nothing. -/
theorem erased_of_purge {account : Text} {rejected : StoredToken} {outcome : Except KeyringError PurgeOutcome}
    (hw : serviceWorld s (.deleteRefreshTokenIfCurrent account rejected) outcome s')
    (hchanged : s'.keyring ≠ s.keyring) :
    (∃ current, s.keyring.lookup account = some current ∧ current.secret = rejected.secret) ∧
      s' = s.erased account := by
  match outcome, hw with
  | .ok .superseded, hw => exact absurd (by rw [hw.2]) hchanged
  | .ok .deleted, hw => exact hw
  | .ok .alreadyGone, hw => exact absurd (by rw [hw.2]) hchanged
  | .error _, .inl hw => exact absurd (by rw [hw]) hchanged
  | .error _, .inr hw => exact hw

end Steps

/-! ## Runs -/

/-- What holds of a flow that is about to drop a session. -/
def NothingNewer (s : Service) (p : Steps (Except AuthError FlowResult)) : Prop :=
  ∀ fence sent account next, p = .ask (.dropSession fence sent account) next →
    ∀ t, s.keyring.lookup account = some t → t.stamp ≤ sent.stamp

/-- The steps of an undisturbed pool. -/
abbrev UndisturbedStep (cfg : ServiceConfig) (pool : FlowPool Service) (e : FlowEvent)
    (pool' : FlowPool Service) : Prop :=
  Pool.Step (ServiceFlow cfg) serviceWorld pool e pool' ∧ Undisturbed pool e

theorem nothingNewer_of_flow {cfg : ServiceConfig} {p : Steps (Except AuthError FlowResult)}
    (hp : ServiceFlow cfg p) (s : Service) : NothingNewer s p := by
  intro fence sent account next heq
  have hmeets := flow_disciplined cfg hp
  rw [heq] at hmeets
  obtain ⟨-, outcome, -, hlast⟩ := hmeets.1
  exact absurd hlast (by simp)

theorem posts_step {h : FlowHistory} {e : Exchanged ServiceAnswer} (hok : Allowed h e.1)
    (hposts : posts h ≤ 2) : posts (h ++ [e]) ≤ 2 := by
  rw [posts_snoc]
  split
  · next hpost =>
    unfold isPostToken at hpost
    split at hpost
    · have hlt : posts h < 2 := hok
      omega
    · exact absurd hpost (by simp)
  · exact hposts

theorem purge_run {cfg : ServiceConfig} {s : Service} (hs : s.Tagged) {tr : List FlowEvent}
    {pool : FlowPool Service} (hrun : Run (UndisturbedStep cfg) ⟨s, []⟩ tr pool) :
    pool.shared.Tagged ∧ ∀ i p, pool.threads[i]? = some p →
      Meets (trusted Honest) Allowed Ended (Pool.exchangesOf i tr) p ∧
        NothingNewer pool.shared p ∧ posts (Pool.exchangesOf i tr) ≤ 2 := by
  refine Pool.disciplined Service.Tagged (fun s h p => NothingNewer s p ∧ posts h ≤ 2)
    (fun p hp => flow_disciplined cfg hp)
    (fun s p hp _ => ⟨nothingNewer_of_flow hp s, Nat.zero_le 2⟩) ?_ ?_ hs hrun
  · intro pool i h c r s' hturn
    obtain ⟨next, -, -, hposts⟩ := hturn.known
    refine ⟨honest_of_tagged (e := ⟨c, r⟩) hturn.shared hturn.world,
      tagged_step (e := ⟨c, r⟩) hturn.world hturn.shared hturn.allowed,
      fun p hmeets => ⟨?_, posts_step (e := ⟨c, r⟩) hturn.allowed hposts⟩⟩
    rintro fence sent account next rfl
    -- the flow drops next, so this step was its compare-and-delete
    obtain ⟨-, outcome, hne, hlast⟩ := hmeets.1
    rw [List.getLast?_concat] at hlast
    cases Option.some.inj hlast
    refine nothing_newer_of_purge hne hturn.world (fun err herr => ?_)
    have hok := hturn.ok
    subst herr
    exact hok
  · rintro pool i h c r s' j h' p hturn hij hp ⟨hknown, hposts⟩
    refine ⟨?_, hposts⟩
    rintro fence sent account next rfl t ht
    rcases stored_or_saved (e := ⟨c, r⟩) hturn.world ht with hold | ⟨refresh, fence', registration, hne, hsave, rfl⟩
    · exact hknown fence sent account next rfl t hold
    · -- a save that stored would have disturbed this flow
      cases (show c = _ from hsave)
      rcases hturn.ok with hr | hnone
      · subst hr
        exact absurd hturn.world.2 hne
      · exact absurd ⟨fence, sent, next, rfl⟩ (hnone _ (List.mem_of_getElem? hp))

/-- The flow has sent the token, and it was rejected. -/
def SentAndRejected (tr : List FlowEvent) (i : Nat) (token : StoredToken) : Prop :=
  ∃ scopes claims reason, .call i ⟨.postToken token scopes claims, .error (.invalidGrant reason)⟩ ∈ tr

/-- What a flow's step may do about a rejected token: delete it, if it is the one it sent; drop the
    session, if no token stored after the one it sent is there. And it has sent two at most. -/
structure SparesNewer (tr : List FlowEvent) (i : Nat) (e : Exchanged ServiceAnswer)
    (s s' : Service) : Prop where
  deletes : ∀ account rejected, e.1 = .deleteRefreshTokenIfCurrent account rejected →
    s'.keyring ≠ s.keyring → SentAndRejected tr i rejected ∧ s' = s.erased account ∧
      ∃ current, s.keyring.lookup account = some current ∧ current.secret = rejected.secret
  drops : ∀ fence sent account, e.1 = .dropSession fence sent account → s' ≠ s →
    SentAndRejected tr i sent ∧ ∀ t, s.keyring.lookup account = some t → t.stamp ≤ sent.stamp
  requests : posts (Pool.exchangesOf i (tr ++ [.call i e])) ≤ 2

/-- Undisturbed, no rejected refresh token takes a re-established session down with it. -/
theorem rejected_token_spares_newer_session {cfg : ServiceConfig} {s : Service} (hs : s.Tagged)
    {tr : List FlowEvent} {pool pool' : FlowPool Service} {i : Nat} {e : Exchanged ServiceAnswer}
    (hrun : Run (UndisturbedStep cfg) ⟨s, []⟩ tr pool) (hstep : UndisturbedStep cfg pool (.call i e) pool') :
    SparesNewer tr i e pool.shared pool'.shared := by
  obtain ⟨-, hthreads⟩ := purge_run hs hrun
  have hsent : ∀ {h : FlowHistory} {token : StoredToken}, h ⊆ Pool.exchangesOf i tr →
      Rejected h token → SentAndRejected tr i token := by
    rintro h token hsub ⟨scopes, claims, reason, hlast⟩
    exact ⟨scopes, claims, reason,
      Pool.mem_of_mem_exchangesOf (hsub (List.mem_of_getLast? hlast))⟩
  obtain ⟨hcall, hok⟩ := hstep
  cases hcall with
  | @call t t' ts i c next r hthread hworld =>
    obtain ⟨hmeets, hnewer, hposts⟩ := hthreads i _ hthread
    refine ⟨?_, ?_, ?_⟩
    · rintro account rejected rfl hchanged
      obtain ⟨hcurrent, herased⟩ := erased_of_purge hworld hchanged
      exact ⟨hsent (List.Subset.refl _) hmeets.1, herased, hcurrent⟩
    · rintro fence sent account rfl -
      exact ⟨hsent (List.dropLast_subset _) hmeets.1.1, hnewer fence sent account next rfl⟩
    · rw [Pool.exchangesOf_own]
      exact posts_step (e := ⟨c, r⟩) hmeets.1 hposts

/-! ## A session that is dropped all the same -/

/-- `a` is signed in; a silent acquisition has its token rejected while `a` re-authenticates. -/
def overtaken : List (Steps (Except AuthError FlowResult)) :=
  [(FlowResult.session <$> signIn soleTenant).run,
   (FlowResult.token <$> accessTokenForScopes [['x']]).run,
   (FlowResult.session <$> reauthenticate soleTenant (contextOf ['a'])).run]

theorem overtaken_flows : ∀ p ∈ overtaken, ServiceFlow soleTenant p := by
  intro p hp
  fin_cases hp
  · exact .signIn
  · exact .accessToken _
  · exact .reauthenticate _

def rejecting (account : Text) : Outside := { operator account with rejects := fun _ => true }

/-- The drop a flow is about to make. -/
def dropOf : Steps (Except AuthError FlowResult) → Option (Nat × StoredToken × Text)
  | .ask (.dropSession fence sent account) _ => some (fence, sent, account)
  | _ => none

theorem ask_of_dropOf {p : Steps (Except AuthError FlowResult)} {fence : Nat} {sent : StoredToken}
    {account : Text} (h : dropOf p = some (fence, sent, account)) :
    ∃ next, p = .ask (.dropSession fence sent account) next := by
  unfold dropOf at h
  split at h
  · next next =>
    obtain ⟨rfl, hrest⟩ := Prod.mk.inj (Option.some.inj h)
    obtain ⟨rfl, rfl⟩ := Prod.mk.inj hrest
    exact ⟨next, rfl⟩
  · exact absurd h (by simp)

/-- The re-authentication stores its token between the compare-and-delete and the drop. -/
theorem reauthenticated_session_is_dropped : ∃ tr pool pool' i e,
    emptyService.Tagged ∧
    Run (Pool.Step (ServiceFlow soleTenant) serviceWorld) ⟨emptyService, []⟩ tr pool ∧
    Pool.Step (ServiceFlow soleTenant) serviceWorld pool (.call i e) pool' ∧
    ¬ SparesNewer tr i e pool.shared pool'.shared := by
  have hplay : (Pool.play (fun _ s => s.serve (rejecting ['a']))
      [0, 0, 0, 0, 0, 0, 1, 1, 1, 1, 1, 1, 1, 1, 2, 2, 2, 2] ⟨emptyService, overtaken⟩).map
      (fun pool => (pool.threads[1]?.bind dropOf, pool.shared.epoch,
        pool.shared.registered.isSome, pool.shared.keyring.lookup ['a'])) =
      some (some (1, ⟨⟨['a'], ['a']⟩, 0⟩, ['a']), 1, true, some ⟨⟨['a'], ['a']⟩, 1⟩) := by
    decide +kernel
  obtain ⟨tr, pool, hrun, -, hview⟩ := Pool.exists_run_of_replay
    (fun _ => Service.world_of_serve (o := rejecting ['a']) (operator_proper ['a'])) overtaken_flows hplay
  obtain ⟨hdrop, hview⟩ := Prod.mk.inj hview
  obtain ⟨hepoch, hview⟩ := Prod.mk.inj hview
  obtain ⟨hregistered, hkeyring⟩ := Prod.mk.inj hview
  obtain ⟨p, hp, hask⟩ := Option.bind_eq_some_iff.1 hdrop
  obtain ⟨next, rfl⟩ := ask_of_dropOf hask
  have hswept : pool.shared.swept = if pool.shared.epoch = 1 then pool.shared.swept else pool.shared := by
    rw [if_pos hepoch]
  refine ⟨tr, pool, ⟨pool.shared.swept, pool.threads.set 1 (next ())⟩, 1, _, ?_, hrun,
    .call hp hswept, fun hspares => ?_⟩
  · exact fun account token hl => absurd hl (by simp [emptyService])
  · have hchanged : pool.shared.swept ≠ pool.shared := by
      intro heq
      rw [← heq] at hregistered
      exact absurd hregistered (by simp [Service.swept])
    exact absurd ((hspares.drops _ _ _ rfl hchanged).2 _ hkeyring) (by decide)

def isSave : Exchanged ServiceAnswer → Bool
  | ⟨.saveRefreshTokenIf _ _ _ _, _⟩ => true
  | _ => false

/-- A service over which nothing is saved. -/
def readOnlyServe (o : Outside) : Service → (c : ServiceCall) → Option (ServiceAnswer c × Service) :=
  World.servedWhen (fun s => s.serve o) (fun _ e => isSave e = false)

theorem undisturbed_of_readOnlyServe {o : Outside} (ho : o.Proper) (i : Nat) (s : Service)
    (c : ServiceCall) (r : ServiceAnswer c) (s' : Service) (h : readOnlyServe o s c = some (r, s')) :
    serviceWorld s c r s' ∧ ∀ ts, Undisturbed ⟨s, ts⟩ (.call i ⟨c, r⟩) := by
  obtain ⟨hserve, hsave⟩ := Option.filter_eq_some_iff.1 h
  refine ⟨Service.world_of_serve ho s c r s' hserve, fun ts => ?_⟩
  unfold Undisturbed
  split
  · next heq =>
    cases heq
    exact absurd hsave (by simp [isSave])
  · next account sent err heq =>
    cases heq
    have hpurge : some (Except.ok (s.purged account sent).1, (s.purged account sent).2) =
        some (Except.error err, s') := hserve
    exact absurd hpurge (by simp)
  · trivial

/-- The silent acquisition that finds the token out. -/
theorem stale_session_is_dropped : ∃ tr pool pool' e,
    Run (UndisturbedStep soleTenant) ⟨liveSession, []⟩ tr pool ∧
    UndisturbedStep soleTenant pool (.call 0 e) pool' ∧ pool'.shared ≠ pool.shared ∧
    SparesNewer tr 0 e pool.shared pool'.shared := by
  have hplay : (Pool.play (fun _ => readOnlyServe (rejecting ['a'])) [0, 0, 0, 0, 0, 0, 0, 0]
      ⟨liveSession, [(FlowResult.token <$> accessTokenForScopes [['x']]).run]⟩).map
      (fun pool => (pool.threads[0]?.bind dropOf, pool.shared.epoch, pool.shared.registered.isSome)) =
      some (some (0, ⟨⟨['s'], ['a']⟩, 0⟩, ['a']), 0, true) := by
    decide
  have hflow : ∀ p ∈ [(FlowResult.token <$> accessTokenForScopes [['x']]).run],
      ServiceFlow soleTenant p := by
    intro p hp
    rw [List.mem_singleton.1 hp]
    exact .accessToken _
  obtain ⟨tr, pool, hrun, -, hview⟩ := Pool.exists_run_of_replay_ok Undisturbed (fun _ _ => trivial)
    (undisturbed_of_readOnlyServe (o := rejecting ['a']) (operator_proper ['a'])) hflow hplay
  obtain ⟨hdrop, hview⟩ := Prod.mk.inj hview
  obtain ⟨hepoch, hregistered⟩ := Prod.mk.inj hview
  obtain ⟨p, hp, hask⟩ := Option.bind_eq_some_iff.1 hdrop
  obtain ⟨next, rfl⟩ := ask_of_dropOf hask
  have hswept : pool.shared.swept = if pool.shared.epoch = 0 then pool.shared.swept else pool.shared := by
    rw [if_pos hepoch]
  have hstep : UndisturbedStep soleTenant pool (.call 0 ⟨.dropSession 0 _ _, ()⟩)
      ⟨pool.shared.swept, pool.threads.set 0 (next ())⟩ := ⟨.call hp hswept, trivial⟩
  refine ⟨tr, pool, _, _, hrun, hstep, fun heq => ?_,
    rejected_token_spares_newer_session liveSession_tagged hrun hstep⟩
  rw [← heq] at hregistered
  exact absurd hregistered (by simp [Service.swept])

end Auth
