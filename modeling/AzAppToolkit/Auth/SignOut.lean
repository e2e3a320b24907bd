import AzAppToolkit.Auth.Discipline
import AzAppToolkit.Auth.Replays

set_option autoImplicit false

/-! # Signing out

A sign-out reads whose token to delete, deletes it and moves the epoch under the keyring's lock, and
sweeps the tenant under the registry's if no later move overtook it. Stores of flows that read their
fence before the move are refused from then on. Two races are left: a flow that reads its fence
between the move and the sweep may store under it after both; and a session of another account that is
registered between the read of the account and the delete is swept with it. -/

namespace Auth

open Prog

abbrev ServiceStep (cfg : ServiceConfig) : FlowPool Service → FlowEvent → FlowPool Service → Prop :=
  Pool.Step (ServiceFlow cfg) serviceWorld

/-! ## What the steps of a flow are to a sign-out -/

/-- The first step of a restore or a re-authentication that goes on. -/
def revives : Exchanged ServiceAnswer → Bool
  | ⟨.captureRestore _, .inr _⟩ => true
  | ⟨.captureReauthenticate _, some _⟩ => true
  | _ => false

/-- The flow takes the epoch as the fence of its stores. -/
def readsFence : Exchanged ServiceAnswer → Bool
  | ⟨.captureRegistered, some _⟩ => true
  | e => revives e

/-- A save of a token of the account that was not refused. -/
def savesFor (account : Text) : Exchanged ServiceAnswer → Bool
  | ⟨.saveRefreshTokenIf _ _ _ _, .ok false⟩ => false
  | ⟨.saveRefreshTokenIf a _ _ _, _⟩ => decide (a = account)
  | _ => false

/-- The access token goes to the cache. -/
def seeds : Exchanged ServiceAnswer → Bool
  | ⟨.commit _ _ _ _ _, r⟩ => r
  | _ => false

/-- A session of another account is registered. -/
def registersOther (account : Text) : Exchanged ServiceAnswer → Bool
  | ⟨.commit tenant _ _ _ registration, r⟩ =>
    r && decide (registration ≠ .keep) && decide (tenant.accountOid ≠ account)
  | _ => false

/-- Between the move of a sign-out and its sweep no other sign-out moves the epoch; no sign-in moves
    it after the move, and nothing is revived after the sweep; and a flow that read its fence between
    the two stores nothing under it that the sweep leaves. -/
structure Unhindered (account : Text) (between since : List FlowEvent) : Prop where
  oneMove : ∀ j a n, .call j ⟨.deleteRefreshTokenThen a, .ok n⟩ ∉ between
  noSignIn : ∀ j tenant n, .call j ⟨.startSession tenant, n⟩ ∉ between ++ since
  notRevived : ∀ j e, .call j e ∈ since → revives e = false
  noLateSave : ∀ j e e', .call j e ∈ between → readsFence e = true →
    .call j e' ∈ between ++ since → savesFor account e' = false
  noLateSeed : ∀ j e e', .call j e ∈ between → readsFence e = true →
    .call j e' ∈ since → seeds e' = false

/-- No session of another account is registered between a sign-out's read of the account and its move,
    nor after the move by a restore or re-authentication that started there. -/
structure NoneOther (account : Text) (reading between : List FlowEvent) : Prop where
  reading : ∀ j e, .call j e ∈ reading → registersOther account e = false
  between : ∀ j e e', .call j e ∈ between → revives e = true → .call j e' ∈ between →
    registersOther account e' = false

/-- Nothing of a session is there. -/
structure Service.Empty (s : Service) : Prop where
  registered : s.registered = none
  cache : ∀ slot, s.cache.lookup slot = none

section Steps

variable {s s' : Service} {e : Exchanged ServiceAnswer} {account : Text}

theorem epoch_le_of_world (hw : serviceWorld s e.1 e.2 s') : s.epoch ≤ s'.epoch := by
  have hstep : SessionStep s e s' := sessionStep_of_world hw
  cases hstep with
  | keyring htouch honly => exact honly.epoch.symm.le
  | started tenant | signedOut a => exact Nat.le_succ _
  | _ => exact le_refl _

/-- Only a sign-in and a sign-out move the epoch. -/
theorem epoch_moves (hw : serviceWorld s e.1 e.2 s') : s'.epoch = s.epoch ∨
    (∃ tenant n, e = ⟨.startSession tenant, n⟩) ∨
      ∃ account n, e = ⟨.deleteRefreshTokenThen account, .ok n⟩ := by
  have hstep : SessionStep s e s' := sessionStep_of_world hw
  cases hstep with
  | keyring htouch honly => exact .inl honly.epoch
  | started tenant => exact .inr (.inl ⟨tenant, _, rfl⟩)
  | signedOut a => exact .inr (.inr ⟨a, _, rfl⟩)
  | _ => exact .inl rfl

/-- A token that was not in the keyring is saved under the epoch. -/
theorem saved_under (hw : serviceWorld s e.1 e.2 s') (hnone : s.keyring.lookup account = none)
    (hsome : s'.keyring.lookup account ≠ none) : savesFor account e = true ∧
      ∃ refresh registration, e.1 = .saveRefreshTokenIf account refresh s.epoch registration := by
  obtain ⟨token, htoken⟩ := Option.ne_none_iff_exists'.1 hsome
  have hold : ∀ {t : Service}, t.keyring.lookup account = some token → s.keyring = t.keyring → False :=
    fun ht heq => absurd (hnone.symm.trans (heq ▸ ht)) (by simp)
  have hstep : SessionStep s e s' := sessionStep_of_world hw
  cases hstep with
  | keyring htouch honly =>
    rcases honly.keyring account token htoken with h | ⟨refresh, registration, hstamp, hsave, -⟩
    · exact (hold h rfl).elim
    · refine ⟨?_, refresh, registration, hsave⟩
      obtain ⟨c, r⟩ := e
      obtain rfl : c = _ := hsave
      unfold savesFor
      split
      · next heq =>
        cases heq
        obtain ⟨-, rfl⟩ : _ ∧ s' = s := hw
        omega
      · next heq =>
        cases heq
        exact decide_eq_true rfl
      · next hother => exact (hother _ _ _ _ _ rfl).elim
  | signedOut a => exact (hold (lookup_erased htoken).2 rfl).elim
  | _ => exact (hold htoken rfl).elim

/-- Only a store under the epoch puts something into an empty session. -/
theorem seeded_under (hw : serviceWorld s e.1 e.2 s') (hempty : s.Empty) (hnot : ¬ s'.Empty) :
    ∃ tenant slot access registration, e = ⟨.commit tenant slot access s.epoch registration, true⟩ := by
  have hstep : SessionStep s e s' := sessionStep_of_world hw
  cases hstep with
  | keyring htouch honly =>
    exact absurd ⟨honly.registered ▸ hempty.registered, honly.cache ▸ hempty.cache⟩ hnot
  | stored tenant slot access registration hfree => exact ⟨tenant, slot, access, registration, rfl⟩
  | cleared r => exact absurd ⟨hempty.registered, fun slot => AList.lookup_empty slot⟩ hnot
  | started _ | dropped _ _ _ | swept _ _ => exact absurd ⟨rfl, fun slot => AList.lookup_empty slot⟩ hnot
  | refused _ _ _ _ _ | keptDrop _ _ _ _ | keptSweep _ _ _ => exact absurd hempty hnot
  | signedOut a => exact absurd ⟨hempty.registered, hempty.cache⟩ hnot

/-- Only a store that is no `keep` registers. -/
theorem registers (hw : serviceWorld s e.1 e.2 s') {t : TenantContext}
    (ht : s'.registered = some t) : s.registered = some t ∨
      ∃ slot access registration, registration ≠ .keep ∧
        e = ⟨.commit t slot access s.epoch registration, true⟩ := by
  have hstep : SessionStep s e s' := sessionStep_of_world hw
  cases hstep with
  | keyring htouch honly => exact .inl (honly.registered ▸ ht)
  | stored tenant slot access registration hfree =>
    have ht' : (if registration = .keep then s.registered else some tenant) = some t := ht
    split at ht'
    · exact .inl ht'
    · next hne =>
      obtain rfl := Option.some.inj ht'
      exact .inr ⟨slot, access, registration, hne, rfl⟩
  | started _ | dropped _ _ _ | swept _ _ => exact absurd ht (by simp [Service.swept, Service.bumped])
  | _ => exact .inl ht

/-- The fence a flow enters under is the epoch. -/
theorem fence_of_enters (hw : serviceWorld s e.1 e.2 s') {registration : Registration} {fence : Nat}
    (henters : Enters registration account fence e) : fence = s'.epoch := by
  unfold Enters at henters
  split at henters
  · obtain ⟨tenant, rfl, rfl⟩ := henters
    obtain ⟨t, -, hpair⟩ := Option.map_eq_some_iff.1 hw.1.symm
    rw [hw.2]
    exact (Prod.mk.inj hpair).2.symm
  · obtain ⟨rfl, rfl⟩ := henters
    rw [hw.2.2]
    exact hw.2.1
  · obtain ⟨rfl, rfl⟩ := henters
    obtain ⟨hr, heq⟩ := hw
    split at hr
    · exact absurd hr (by simp)
    · rw [heq]
      exact Option.some.inj hr
  · obtain ⟨rfl, rfl⟩ := henters
    rw [hw.2]
    exact hw.1
  · exact henters.elim

/-- A flow enters with its read of a fence, or as a sign-in. -/
theorem readsFence_of_enters {registration : Registration} {fence : Nat}
    (henters : Enters registration account fence e) :
    (readsFence e = true ∧ (registration ≠ .keep → revives e = true)) ∨
      ∃ tenant, e = ⟨.startSession tenant, fence⟩ := by
  unfold Enters at henters
  split at henters
  · obtain ⟨tenant, rfl, -⟩ := henters
    exact .inl ⟨rfl, fun h => absurd rfl h⟩
  · obtain ⟨rfl, -⟩ := henters
    exact .inl ⟨rfl, fun _ => rfl⟩
  · obtain ⟨rfl, -⟩ := henters
    exact .inl ⟨rfl, fun _ => rfl⟩
  · obtain ⟨rfl, -⟩ := henters
    exact .inr ⟨_, rfl⟩
  · exact henters.elim

end Steps

/-! ## Fences along a run -/

section Fences

variable {cfg : ServiceConfig} {s : Service} {pool pool' pool₁ pool₂ : FlowPool Service}
  {tr tr₁ tr₂ : List FlowEvent} {i j : Nat} {e : Exchanged ServiceAnswer} {account : Text}
  {registration : Registration} {fence bumped : Nat}

theorem epoch_le_run (hrun : Run (ServiceStep cfg) pool tr pool') :
    pool.shared.epoch ≤ pool'.shared.epoch := by
  induction hrun with
  | nil => exact le_refl _
  | snoc hpre hs ih =>
    cases hs with
    | start hp => exact ih
    | call hthread hworld => exact ih.trans (epoch_le_of_world (e := ⟨_, _⟩) hworld)

/-- The fences of a run lie between its epochs, those of its sign-ins above the first. -/
theorem fence_le_run (hrun : Run (ServiceStep cfg) pool tr pool') (he : .call j e ∈ tr)
    (henters : Enters registration account fence e) : fence ≤ pool'.shared.epoch ∧
      ∀ tenant, e = ⟨.startSession tenant, fence⟩ → pool.shared.epoch < fence := by
  induction hrun with
  | nil => exact absurd he (by simp)
  | snoc hpre hs ih =>
    rcases List.mem_append.1 he with he | he
    · obtain ⟨hle, hsignIn⟩ := ih he
      exact ⟨hle.trans (epoch_le_run (Run.single hs)), hsignIn⟩
    · rw [← List.mem_singleton.1 he] at hs
      cases hs with
      | call hthread hworld =>
        refine ⟨(fence_of_enters hworld henters).le, fun tenant heq => ?_⟩
        cases heq
        obtain ⟨rfl, -⟩ : _ = _ + 1 ∧ _ := hworld
        exact Nat.lt_succ_of_le (epoch_le_run hpre)

theorem unconditional (hrun : Run (ServiceStep cfg) ⟨s, []⟩ tr pool) :
    Run (fun s e t => ServiceStep cfg s e t ∧ True) ⟨s, []⟩ tr pool :=
  hrun.mono (fun _ _ _ h => ⟨h, trivial⟩)

/-- A flow keeps the discipline at every step it takes. -/
theorem allowed_at (hs : s.Tagged) (hrun : Run (ServiceStep cfg) ⟨s, []⟩ tr pool)
    (hstep : ServiceStep cfg pool (.call j e) pool') :
    serviceWorld pool.shared e.1 e.2 pool'.shared ∧ Allowed (Pool.exchangesOf j tr) e.1 := by
  have hflows := (Pool.disciplined Service.Tagged (fun _ _ _ => True)
    (fun p hp => flow_disciplined cfg hp) (fun _ _ _ _ => trivial) (fun pool i h c r s' hturn => ?_)
    (fun _ _ _ _ _ _ _ _ _ _ _ _ _ => trivial) hs (unconditional hrun)).2
  · cases hstep with
    | call hthread hworld => exact ⟨hworld, (hflows j _ hthread).1.1⟩
  · exact ⟨honest_of_tagged (e := ⟨c, r⟩) hturn.shared hturn.world,
      tagged_step (e := ⟨c, r⟩) hturn.world hturn.shared hturn.allowed, fun _ _ => trivial⟩

/-- A flow that has entered under the epoch a sign-out opened did so after its move. -/
theorem entered_since (hrun : Run (ServiceStep cfg) ⟨s, []⟩ tr₁ pool₁)
    (hstep : ServiceStep cfg pool₁ (.call i ⟨.deleteRefreshTokenThen account, .ok bumped⟩) pool₂)
    {a : Text} (hentered : Entered (Pool.exchangesOf j
      (tr₁ ++ .call i ⟨.deleteRefreshTokenThen account, .ok bumped⟩ :: tr₂)) registration a fence)
    (hfence : bumped ≤ fence) : ∃ e, .call j e ∈ tr₂ ∧ Enters registration a fence e := by
  obtain ⟨e, he, henters⟩ := hentered
  rcases List.mem_append.1 (Pool.mem_of_mem_exchangesOf he) with he | he
  · have hle := (fence_le_run hrun he henters).1
    cases hstep with
    | call hthread hworld =>
      obtain ⟨rfl, -⟩ : bumped = _ + 1 ∧ _ := hworld
      exact absurd (hfence.trans hle) (Nat.not_succ_le_self _)
  · rcases List.mem_cons.1 he with he | he
    · cases he
      exact absurd henters (by simp [Enters])
    · exact ⟨e, he, henters⟩

end Fences

/-! ## The sign-out itself -/

def signOutFlow (tenant : TenantContext) : Steps (Except AuthError FlowResult) :=
  ((fun _ => FlowResult.finished) <$> signOut tenant).run

/-- A sign-out sweeps with the account it has read, and deleted the token of. -/
def SweepsDeleted (tenant : TenantContext) (h : FlowHistory) : ServiceCall → Prop
  | .sweepAfterSignOut bumped account =>
    h = [⟨.signOutAccount tenant, account⟩, ⟨.deleteRefreshTokenThen account, .ok bumped⟩]
  | _ => True

/-- How a sign-out ends: it has deleted and swept, or it has touched nothing of the session. -/
def SignOutEnds (tenant : TenantContext) (h : FlowHistory) : Except AuthError FlowResult → Prop
  | .ok _ => ∃ account bumped, h = [⟨.signOutAccount tenant, account⟩,
      ⟨.deleteRefreshTokenThen account, .ok bumped⟩, ⟨.sweepAfterSignOut bumped account, ()⟩]
  | .error _ => ∀ e ∈ h, touchesSession e = false

theorem signOut_ends (tenant : TenantContext) :
    Meets history (SweepsDeleted tenant) (SignOutEnds tenant) [] (signOutFlow tenant) := by
  refine Meets.bind (Meets.bind (Meets.bind (Meets.remember trivial (fun account => ?_))))
  refine Meets.bind (Meets.bind (Meets.bind (Meets.bind (Meets.remember trivial (fun r => ?_)))))
  cases r with
  | error err =>
    intro e he
    simp only [List.nil_append, List.mem_append, List.mem_singleton] at he
    rcases he with rfl | rfl
    · rfl
    · rfl
  | ok bumped => exact Meets.bind (Meets.remember rfl (fun u => ⟨account, bumped, rfl⟩))

/-- The first exchange of a flow, in the run. -/
theorem exists_first {i : Nat} {tr : List FlowEvent} {e : Exchanged ServiceAnswer} {h : FlowHistory}
    (heq : Pool.exchangesOf i tr = e :: h) :
    ∃ tr₁ tr₂, tr = tr₁ ++ .call i e :: tr₂ ∧ Pool.exchangesOf i tr₂ = h := by
  obtain ⟨tr₁, ev, tr₂, rfl, -, hev, hrest⟩ := List.filterMap_eq_cons_iff.1 heq
  refine ⟨tr₁, tr₂, ?_, hrest⟩
  cases ev with
  | start p => exact absurd hev (by simp [Pool.Event.of])
  | call j e' =>
    obtain ⟨rfl, rfl⟩ : j = i ∧ e' = e := by simpa [Pool.Event.of] using hev
    rfl

/-- The session as it was: epoch, registration and cached tokens. -/
def SameSession (s s' : Service) : Prop :=
  s'.epoch = s.epoch ∧ s'.registered = s.registered ∧ s'.cache = s.cache

theorem sameSession_of_untouched {s s' : Service} {e : Exchanged ServiceAnswer}
    (hw : serviceWorld s e.1 e.2 s') (he : touchesSession e = false) : SameSession s s' := by
  have hstep : SessionStep s e s' := sessionStep_of_world hw
  cases hstep with
  | keyring htouch honly => exact ⟨honly.epoch, honly.registered, honly.cache⟩
  | refused _ _ _ _ _ | keptDrop _ _ _ _ | keptSweep _ _ _ => exact ⟨rfl, rfl, rfl⟩
  | _ => exact absurd he (by simp [touchesSession])

/-! ## Between the move and the sweep, and after -/

section Phases

variable {cfg : ServiceConfig} {s : Service} {pool₁ pool₂ pool₃ pool₄ : FlowPool Service}
  {before reading between since : List FlowEvent} {i bumped : Nat} {account : Text}

/-- The epoch stays, and the token that was deleted does not come back. -/
theorem gone_between (hs : s.Tagged) (hbefore : Run (ServiceStep cfg) ⟨s, []⟩ before pool₁)
    (hmove : ServiceStep cfg pool₁ (.call i ⟨.deleteRefreshTokenThen account, .ok bumped⟩) pool₂)
    (hrun : Run (ServiceStep cfg) pool₂ between pool₃)
    (hone : ∀ j a n, .call j ⟨.deleteRefreshTokenThen a, .ok n⟩ ∉ between)
    (hsignIn : ∀ j tenant n, .call j ⟨.startSession tenant, n⟩ ∉ between)
    (hlate : ∀ j e e', .call j e ∈ between → readsFence e = true → .call j e' ∈ between →
      savesFor account e' = false) :
    pool₃.shared.epoch = bumped ∧ pool₃.shared.keyring.lookup account = none := by
  induction hrun with
  | nil =>
    cases hmove with
    | call hthread hworld =>
      obtain ⟨rfl, heq⟩ : bumped = _ + 1 ∧ _ := hworld
      rw [heq]
      exact ⟨rfl, AList.lookup_erase account _⟩
  | @snoc tr t u ev hpre hstep ih =>
    have hsub : ∀ {ev'}, ev' ∈ tr → ev' ∈ tr ++ [ev] := fun h => List.mem_append_left _ h
    obtain ⟨hepoch, hnone⟩ := ih (fun j a n h => hone j a n (hsub h))
      (fun j tenant n h => hsignIn j tenant n (hsub h))
      (fun j e e' he hr he' => hlate j e e' (hsub he) hr (hsub he'))
    have hlast : ev ∈ tr ++ [ev] := List.mem_append_right _ (List.mem_singleton_self ev)
    cases ev with
    | start p =>
      cases hstep with
      | start hp => exact ⟨hepoch, hnone⟩
    | call j e =>
      have hsofar := (hbefore.append (Run.single hmove)).append hpre
      rw [List.append_assoc] at hsofar
      obtain ⟨hworld, hallowed⟩ := allowed_at hs hsofar hstep
      refine ⟨?_, ?_⟩
      · rcases epoch_moves hworld with hsame | ⟨tenant, n, rfl⟩ | ⟨a, n, rfl⟩
        · exact hsame.trans hepoch
        · exact absurd hlast (hsignIn j tenant n)
        · exact absurd hlast (hone j a n)
      · by_contra hsome
        obtain ⟨hsaves, refresh, registration, hsave⟩ := saved_under hworld hnone hsome
        rw [hsave] at hallowed
        obtain ⟨e', he', henters⟩ := entered_since hbefore hmove hallowed.1 hepoch.ge
        rcases readsFence_of_enters henters with ⟨hreads, -⟩ | ⟨tenant, rfl⟩
        · exact absurd (hlate j e' e (hsub he') hreads hlast) (by simp [hsaves])
        · exact hsignIn j tenant _ (hsub he')

theorem Unhindered.earlier {rest : List FlowEvent} (h : Unhindered account between (since ++ rest)) :
    Unhindered account between since := by
  have hsub : ∀ {ev}, ev ∈ since → ev ∈ since ++ rest := List.mem_append_left _
  have hsub' : ∀ {ev}, ev ∈ between ++ since → ev ∈ between ++ (since ++ rest) := fun h => by
    rw [← List.append_assoc]
    exact List.mem_append_left _ h
  exact ⟨h.oneMove, fun j tenant n he => h.noSignIn j tenant n (hsub' he),
    fun j e he => h.notRevived j e (hsub he),
    fun j e e' he hr he' => h.noLateSave j e e' he hr (hsub' he'),
    fun j e e' he hr he' => h.noLateSeed j e e' he hr (hsub he')⟩

/-- Where nothing is registered, only a revival reads a fence. -/
theorem no_fence_read {s s' : Service} {e : Exchanged ServiceAnswer} (hw : serviceWorld s e.1 e.2 s')
    (hnone : s.registered = none) (he : revives e = false) : readsFence e = false := by
  by_contra hread
  unfold readsFence at hread
  split at hread
  · obtain ⟨heq, -⟩ : some _ = s.registered.map _ ∧ _ := hw
    rw [hnone] at heq
    exact absurd heq (by simp)
  · exact hread he

/-- Whoever may store after the sweep read its fence between the move and the sweep. -/
theorem read_between {j fence : Nat} {registration : Registration} {a : Text}
    (hbefore : Run (ServiceStep cfg) ⟨s, []⟩ before pool₁)
    (hmove : ServiceStep cfg pool₁ (.call i ⟨.deleteRefreshTokenThen account, .ok bumped⟩) pool₂)
    (hcalm : Unhindered account between since)
    (hreads : ∀ j e, .call j e ∈ since → readsFence e = false)
    (hentered : Entered (Pool.exchangesOf j
      (before ++ .call i ⟨.deleteRefreshTokenThen account, .ok bumped⟩ ::
        (between ++ .call i ⟨.sweepAfterSignOut bumped account, ()⟩ :: since))) registration a fence)
    (hfence : bumped ≤ fence) : ∃ e, .call j e ∈ between ∧ readsFence e = true := by
  obtain ⟨e, he, henters⟩ := entered_since hbefore hmove hentered hfence
  have hcases := readsFence_of_enters henters
  rcases List.mem_append.1 he with he | he
  · rcases hcases with ⟨hread, -⟩ | ⟨tenant, rfl⟩
    · exact ⟨e, he, hread⟩
    · exact absurd (List.mem_append_left _ he) (hcalm.noSignIn j tenant _)
  · rcases List.mem_cons.1 he with he | he
    · cases he
      exact absurd henters (by simp [Enters])
    · rcases hcases with ⟨hread, -⟩ | ⟨tenant, rfl⟩
      · exact absurd (hreads j e he) (by simp [hread])
      · exact absurd (List.mem_append_right _ he) (hcalm.noSignIn j tenant _)

/-- Swept and deleted, the session stays empty. -/
theorem empty_since (hs : s.Tagged) (hbefore : Run (ServiceStep cfg) ⟨s, []⟩ before pool₁)
    (hmove : ServiceStep cfg pool₁ (.call i ⟨.deleteRefreshTokenThen account, .ok bumped⟩) pool₂)
    (hbetween : Run (ServiceStep cfg) pool₂ between pool₃) {swept : FlowPool Service}
    (hsweep : ServiceStep cfg pool₃ (.call i ⟨.sweepAfterSignOut bumped account, ()⟩) swept)
    (hrun : Run (ServiceStep cfg) swept since pool₄) (hcalm : Unhindered account between since) :
    bumped ≤ pool₄.shared.epoch ∧ pool₄.shared.Empty ∧
      pool₄.shared.keyring.lookup account = none ∧
      ∀ j e, .call j e ∈ since → readsFence e = false := by
  induction hrun with
  | nil =>
    obtain ⟨hepoch, hnone⟩ := gone_between hs hbefore hmove hbetween hcalm.oneMove
      (fun j tenant n h => hcalm.noSignIn j tenant n (List.mem_append_left _ h))
      (fun j e e' he hr he' => hcalm.noLateSave j e e' he hr (List.mem_append_left _ he'))
    cases hsweep with
    | call hthread hworld =>
      have heq : _ = if _ = bumped then _ else _ := hworld
      rw [if_pos hepoch] at heq
      rw [heq]
      exact ⟨hepoch.ge, ⟨rfl, fun slot => AList.lookup_empty slot⟩, hnone, by simp⟩
  | @snoc tr t u ev hpre hstep ih =>
    obtain ⟨hepoch, hempty, hnone, hreads⟩ := ih hcalm.earlier
    have hlast : ev ∈ tr ++ [ev] := List.mem_append_right _ (List.mem_singleton_self ev)
    cases ev with
    | start p =>
      cases hstep with
      | start hp =>
        refine ⟨hepoch, hempty, hnone, fun j e he => ?_⟩
        rcases List.mem_append.1 he with he | he
        · exact hreads j e he
        · exact absurd (List.mem_singleton.1 he) (by simp)
    | call j e =>
      have hsofar : Run (ServiceStep cfg) ⟨s, []⟩
          (before ++ .call i ⟨.deleteRefreshTokenThen account, .ok bumped⟩ ::
            (between ++ .call i ⟨.sweepAfterSignOut bumped account, ()⟩ :: tr)) t := by
        simpa using ((hbefore.append (Run.single hmove)).append
          (hbetween.append (Run.single hsweep))).append hpre
      obtain ⟨hworld, hallowed⟩ := allowed_at hs hsofar hstep
      refine ⟨hepoch.trans (epoch_le_of_world hworld), ?_, ?_, fun k e' he' => ?_⟩
      · by_contra hfull
        obtain ⟨tenant, slot, access, registration, rfl⟩ := seeded_under hworld hempty hfull
        obtain ⟨e', he', hread⟩ := read_between hbefore hmove hcalm.earlier hreads hallowed.1 hepoch
        exact absurd (hcalm.noLateSeed j e' _ he' hread hlast) (by simp [seeds])
      · by_contra hsome
        obtain ⟨hsaves, refresh, registration, hsave⟩ := saved_under hworld hnone hsome
        rw [hsave] at hallowed
        obtain ⟨e', he', hread⟩ := read_between hbefore hmove hcalm.earlier hreads hallowed.1 hepoch
        exact absurd (hcalm.noLateSave j e' e he' hread (List.mem_append_right _ hlast))
          (by simp [hsaves])
      · rcases List.mem_append.1 he' with he' | he'
        · exact hreads k e' he'
        · cases List.mem_singleton.1 he'
          exact no_fence_read hworld hempty.registered (hcalm.notRevived j e hlast)

/-- What is registered is the account, as long as nothing registers another. -/
theorem account_stays {s s' : Service} {e : Exchanged ServiceAnswer} (hw : serviceWorld s e.1 e.2 s')
    (hone : ∀ t, s.registered = some t → t.accountOid = account)
    (he : registersOther account e = false) : ∀ t, s'.registered = some t → t.accountOid = account := by
  intro t ht
  rcases registers hw ht with hold | ⟨slot, access, registration, hne, rfl⟩
  · exact hone t hold
  · simpa [registersOther, hne] using he

theorem account_while_reading {tenant : TenantContext}
    (hread : ServiceStep cfg pool₁ (.call i ⟨.signOutAccount tenant, account⟩) pool₂)
    (hrun : Run (ServiceStep cfg) pool₂ reading pool₃)
    (hnone : ∀ j e, .call j e ∈ reading → registersOther account e = false) :
    ∀ t, pool₃.shared.registered = some t → t.accountOid = account := by
  induction hrun with
  | nil =>
    cases hread with
    | call hthread hworld =>
      obtain ⟨rfl, heq⟩ : account = Service.accountToSignOut _ tenant ∧ _ := hworld
      intro t ht
      rw [heq] at ht
      unfold Service.accountToSignOut
      rw [ht]
  | snoc hpre hstep ih =>
    have hold := ih (fun j e he => hnone j e (List.mem_append_left _ he))
    cases hstep with
    | start hp => exact hold
    | call hthread hworld =>
      exact account_stays (e := ⟨_, _⟩) hworld hold
        (hnone _ _ (List.mem_append_right _ (List.mem_singleton_self _)))

/-- Where the epoch has not moved again, only the account is registered. -/
theorem account_between (hs : s.Tagged) (hbefore : Run (ServiceStep cfg) ⟨s, []⟩ before pool₁)
    (hmove : ServiceStep cfg pool₁ (.call i ⟨.deleteRefreshTokenThen account, .ok bumped⟩) pool₂)
    (hone : ∀ t, pool₁.shared.registered = some t → t.accountOid = account)
    (hrun : Run (ServiceStep cfg) pool₂ between pool₃)
    (hnone : ∀ j e e', .call j e ∈ between → revives e = true → .call j e' ∈ between →
      registersOther account e' = false) :
    bumped ≤ pool₃.shared.epoch ∧ (pool₃.shared.epoch = bumped →
      ∀ t, pool₃.shared.registered = some t → t.accountOid = account) := by
  induction hrun with
  | nil =>
    cases hmove with
    | call hthread hworld =>
      obtain ⟨rfl, heq⟩ : bumped = _ + 1 ∧ _ := hworld
      rw [heq]
      exact ⟨le_refl _, fun _ => hone⟩
  | @snoc tr t u ev hpre hstep ih =>
    have hsub : ∀ {ev'}, ev' ∈ tr → ev' ∈ tr ++ [ev] := fun h => List.mem_append_left _ h
    obtain ⟨hle, hsofar⟩ := ih (fun j e e' he hr he' => hnone j e e' (hsub he) hr (hsub he'))
    have hepoch := hle.trans (epoch_le_run (Run.single hstep))
    refine ⟨hepoch, fun heq => ?_⟩
    have hsame : t.shared.epoch = bumped :=
      le_antisymm (heq ▸ epoch_le_run (Run.single hstep)) hle
    cases ev with
    | start p =>
      cases hstep with
      | start hp => exact hsofar hsame
    | call j e =>
      have hpast := (hbefore.append (Run.single hmove)).append hpre
      rw [List.append_assoc] at hpast
      obtain ⟨hworld, hallowed⟩ := allowed_at hs hpast hstep
      intro t' ht'
      rcases registers hworld ht' with hold | ⟨slot, access, registration, hne, rfl⟩
      · exact hsofar hsame t' hold
      · obtain ⟨e', he', henters⟩ := entered_since hbefore hmove hallowed.1 hsame.ge
        rcases readsFence_of_enters henters with ⟨-, hrevives⟩ | ⟨tenant, rfl⟩
        · have hown := hnone j e' _ (hsub he') (hrevives hne)
            (List.mem_append_right _ (List.mem_singleton_self _))
          simpa [registersOther, hne] using hown
        · -- a sign-in has moved the epoch
          have hmoved := (fence_le_run hpre he' henters).2 tenant rfl
          cases hmove with
          | call hthread hworld' =>
            obtain ⟨rfl, heq'⟩ : bumped = _ + 1 ∧ _ := hworld'
            rw [heq'] at hmoved
            exact absurd hsame hmoved.ne'

end Phases

/-- Signing out is final and exact. Once it has returned, the tenant is empty and the token deleted,
    in every run undisturbed since its move; its sweep takes only the registration of the account
    whose token it deleted, where none of another account came in between; and a sign-out that fails
    has changed nothing of the session. -/
theorem sign_out_is_final_and_exact {cfg : ServiceConfig} {s : Service} (hs : s.Tagged)
    {tr : List FlowEvent} {pool : FlowPool Service} (hrun : Run (ServiceStep cfg) ⟨s, []⟩ tr pool)
    {i : Nat} {tenant : TenantContext} (hstart : (Pool.startsOf tr)[i]? = some (signOutFlow tenant)) :
    (∀ r, pool.threads[i]? = some (.done (.ok r)) → ∃ account bumped before between since,
      tr = before ++ .call i ⟨.deleteRefreshTokenThen account, .ok bumped⟩ ::
        (between ++ .call i ⟨.sweepAfterSignOut bumped account, ()⟩ :: since) ∧
      (Unhindered account between since →
        pool.shared.Empty ∧ pool.shared.keyring.lookup account = none)) ∧
    (∀ bumped account pool' t,
      ServiceStep cfg pool (.call i ⟨.sweepAfterSignOut bumped account, ()⟩) pool' →
      pool.shared.registered = some t → pool'.shared.registered = none →
      ∃ before reading between, tr = before ++ .call i ⟨.signOutAccount tenant, account⟩ ::
          (reading ++ .call i ⟨.deleteRefreshTokenThen account, .ok bumped⟩ :: between) ∧
        (NoneOther account reading between → t.accountOid = account)) ∧
    (∀ err, pool.threads[i]? = some (.done (.error err)) →
      ∀ tr₁ e tr₂ pool₁ pool₂, tr = tr₁ ++ .call i e :: tr₂ →
        Run (ServiceStep cfg) ⟨s, []⟩ tr₁ pool₁ → ServiceStep cfg pool₁ (.call i e) pool₂ →
        SameSession pool₁.shared pool₂.shared) := by
  have hknown : ∀ p, pool.threads[i]? = some p →
      Meets history (SweepsDeleted tenant) (SignOutEnds tenant) (Pool.exchangesOf i tr) p := by
    intro p hp
    obtain ⟨q, hq, hfollows⟩ := (Pool.follows (unconditional hrun)).2 i p hp
    obtain rfl : signOutFlow tenant = q := Option.some.inj (hstart.symm.trans hq)
    exact (signOut_ends tenant).follows hfollows
  refine ⟨fun r hdone => ?_, fun bumped account pool' t hstep ht hgone => ?_, ?_⟩
  · obtain ⟨account, bumped, hread⟩ := hknown _ hdone
    obtain ⟨tr₁, tr₂, rfl, hmove⟩ := exists_first hread
    obtain ⟨reading, tr₃, rfl, hsweep⟩ := exists_first hmove
    obtain ⟨between, since, rfl, -⟩ := exists_first hsweep
    rw [List.append_cons, ← List.append_assoc] at hrun ⊢
    refine ⟨account, bumped, _, between, since, rfl, fun hcalm => ?_⟩
    obtain ⟨pool₁, pool₂, hbefore, hmove, hrest⟩ := hrun.cutAt
    obtain ⟨pool₃, swept, hbetween, hsweep, hsince⟩ := hrest.cutAt
    obtain ⟨-, hempty, hnone, -⟩ := empty_since hs hbefore hmove hbetween hsweep hsince hcalm
    exact ⟨hempty, hnone⟩
  · obtain ⟨hworld, next, hthread⟩ : serviceWorld pool.shared (.sweepAfterSignOut bumped account) ()
        pool'.shared ∧ ∃ next, pool.threads[i]? = some (.ask (.sweepAfterSignOut bumped account) next) := by
      cases hstep with
      | call hthread hworld => exact ⟨hworld, _, hthread⟩
    have hnow : pool.shared.epoch = bumped := by
      by_contra hmoved
      have heq : pool'.shared = if pool.shared.epoch = bumped then pool.shared.swept else pool.shared :=
        hworld
      rw [heq, if_neg hmoved, ht] at hgone
      exact absurd hgone (by simp)
    have heq : Pool.exchangesOf i tr = [⟨.signOutAccount tenant, account⟩,
      ⟨.deleteRefreshTokenThen account, .ok bumped⟩] := (hknown _ hthread).1
    obtain ⟨before, tr₂, rfl, hmove⟩ := exists_first heq
    obtain ⟨reading, between, rfl, -⟩ := exists_first hmove
    refine ⟨before, reading, between, rfl, fun hnone => ?_⟩
    obtain ⟨pool₁, pool₂, hbefore, hread, hrest⟩ := hrun.cutAt
    obtain ⟨pool₃, pool₄, hreading, hmove, hbetween⟩ := hrest.cutAt
    have hone := account_while_reading hread hreading hnone.reading
    have hsofar := hbefore.append ((Run.single hread).append hreading)
    exact (account_between hs hsofar hmove hone hbetween hnone.between).2 hnow t ht
  · rintro err hdone tr₁ e tr₂ pool₁ pool₂ rfl - hcall
    cases hcall with
    | @call u u' ts i c next r hthread hworld =>
      have hmem : (⟨c, r⟩ : Exchanged ServiceAnswer) ∈
          Pool.exchangesOf i (tr₁ ++ Pool.Event.call i ⟨c, r⟩ :: tr₂) := by
        simp [Pool.exchangesOf, Pool.Event.of]
      exact sameSession_of_untouched (e := ⟨c, r⟩) hworld (hknown _ hdone _ hmem)

/-! ## A sign-in that outlasts a sign-out -/

/-- `a` signs in and out again, while `b` is at the browser. -/
def overlapping : List (Steps (Except AuthError FlowResult)) :=
  [(FlowResult.session <$> signIn soleTenant).run,
   (FlowResult.session <$> signIn soleTenant).run,
   signOutFlow (contextOf ['a'])]

theorem overlapping_flows : ∀ p ∈ overlapping, ServiceFlow soleTenant p := by
  intro p hp
  fin_cases hp
  · exact .signIn
  · exact .signIn
  · exact .signOut _

def overlappingOperator : Nat → Outside
  | 1 => operator ['b']
  | _ => operator ['a']

theorem overlappingOperator_proper (i : Nat) : (overlappingOperator i).Proper := by
  unfold overlappingOperator
  split
  · exact operator_proper ['b']
  · exact operator_proper ['a']

def hasFinished : Steps (Except AuthError FlowResult) → Bool
  | .done (.ok .finished) => true
  | _ => false

theorem done_of_hasFinished {p : Steps (Except AuthError FlowResult)} (h : hasFinished p = true) :
    p = .done (.ok .finished) := by
  unfold hasFinished at h
  split at h
  · rfl
  · exact absurd h (by simp)

/-- `b`'s sign-in was under way before the sign-out returned, and registers `b` after it. -/
theorem overlapping_sign_in_outlasts_sign_out : ∃ tr₁ pool₁ tr₂ pool₂,
    Run (ServiceStep soleTenant) ⟨emptyService, []⟩ tr₁ pool₁ ∧
    (Pool.startsOf tr₁)[2]? = some (signOutFlow (contextOf ['a'])) ∧
    pool₁.threads[2]? = some (.done (.ok .finished)) ∧
    Run (fun s e t => ServiceStep soleTenant s e t ∧ ∀ p, e ≠ .start p) pool₁ tr₂ pool₂ ∧
    pool₂.shared.registered ≠ none := by
  have hplay : (Pool.play (fun i => Service.serve (overlappingOperator i))
      [0, 0, 0, 0, 0, 0, 1, 1, 2, 2, 2] ⟨emptyService, overlapping⟩).map
      (fun pool => (pool.threads[2]?.map hasFinished,
        (Pool.play (fun i => Service.serve (overlappingOperator i)) [1, 1, 1, 1] pool).map
          (fun pool => pool.shared.registered.isSome))) = some (some true, some true) := by
    decide
  obtain ⟨tr₁, pool₁, hrun₁, hstarts, hview⟩ := Pool.exists_run_of_replay
    (fun i => Service.world_of_serve (overlappingOperator_proper i)) overlapping_flows hplay
  obtain ⟨hthread, hlater⟩ := Prod.mk.inj hview
  obtain ⟨p, hp, hfinished⟩ := Option.map_eq_some_iff.1 hthread
  obtain ⟨pool₂, hplay₂, hregistered⟩ := Option.map_eq_some_iff.1 hlater
  obtain ⟨tr₂, hrun₂⟩ := Pool.run_of_play (ServiceFlow soleTenant) serviceWorld
    (fun _ e => ∀ p, e ≠ .start p) (fun i s c r s' hr =>
      ⟨Service.world_of_serve (overlappingOperator_proper i) s c r s' hr, fun _ => by simp⟩) hplay₂
  refine ⟨tr₁, pool₁, tr₂, pool₂, hrun₁, by rw [hstarts]; rfl, ?_, hrun₂, fun hnone => ?_⟩
  · rw [hp, done_of_hasFinished hfinished]
  · rw [hnone] at hregistered
    exact absurd hregistered (by simp)

/-! ## A consent that a sign-out overtakes -/

/-- `a` signs out, with a consent at the browser. -/
def overlapped : List (Steps (Except AuthError FlowResult)) :=
  [signOutFlow (contextOf ['a']),
   ((fun _ => FlowResult.finished) <$> consentForScopes soleTenant [['x']]).run]

theorem overlapped_flows : ∀ p ∈ overlapped, ServiceFlow soleTenant p := by
  intro p hp
  fin_cases hp
  · exact .signOut _
  · exact .consent _

/-- The epoch is opened and read only before the first move, which deletes `a`'s token. -/
def stirsEarly (s : Service) : Exchanged ServiceAnswer → Bool
  | ⟨.deleteRefreshTokenThen account, .ok _⟩ => decide (s.epoch = 0) && decide (account = ['a'])
  | ⟨.startSession _, _⟩ => decide (s.epoch = 0)
  | e => !readsFence e || decide (s.epoch = 0)

abbrev EarlyStep : FlowPool Service → FlowEvent → FlowPool Service → Prop :=
  Pool.Step (ServiceFlow soleTenant) (World.when serviceWorld (fun s e => stirsEarly s e = true))

theorem serviceStep_of_early {pool pool' : FlowPool Service} {e : FlowEvent} (h : EarlyStep pool e pool') :
    ServiceStep soleTenant pool e pool' := by
  cases h with
  | start hp => exact .start hp
  | call hthread hworld => exact .call hthread hworld.1

theorem calm_since {pool pool' : FlowPool Service} {tr : List FlowEvent}
    (hrun : Run EarlyStep pool tr pool') (hmoved : pool.shared.epoch ≠ 0) {j : Nat}
    {e : Exchanged ServiceAnswer} (he : .call j e ∈ tr) : ∃ s, s.epoch ≠ 0 ∧ stirsEarly s e = true := by
  obtain ⟨tr₁, tr₂, rfl⟩ := List.append_of_mem he
  obtain ⟨pool₁, pool₂, hpre, hstep, -⟩ := hrun.cutAt
  have hle := epoch_le_run (hpre.mono (fun _ _ _ => serviceStep_of_early))
  cases hstep with
  | call hthread hworld =>
    exact ⟨_, Nat.ne_of_gt ((Nat.pos_of_ne_zero hmoved).trans_le hle), hworld.2⟩

/-- The consent comes back from the browser after the sign-out, and stores nothing. -/
theorem sign_out_overtakes_consent : ∃ tr pool,
    Run (ServiceStep soleTenant) ⟨liveSession, []⟩ tr pool ∧ Pool.startsOf tr = overlapped ∧
    pool.threads.map hasFinished = [true, false] ∧
    pool.shared.Empty ∧ pool.shared.keyring.lookup ['a'] = none := by
  have hplay : (Pool.play (fun _ => World.servedWhen (Service.serve (operator ['a']))
      (fun s e => stirsEarly s e = true)) [1, 0, 0, 0, 1, 1, 1] ⟨liveSession, overlapped⟩).map
      (fun pool => pool.threads.map hasFinished) = some [true, false] := by decide
  obtain ⟨tr, pool, hearly, hstarts, hfinished⟩ := Pool.exists_run_of_replay
    (fun _ => World.when_of_served (Service.world_of_serve (operator_proper ['a'])) _) overlapped_flows hplay
  have hrun := hearly.mono (fun _ _ _ => serviceStep_of_early)
  obtain ⟨p, hp, hdone⟩ : ∃ p, pool.threads[0]? = some p ∧ hasFinished p = true := by
    have hfirst := congrArg (fun l : List Bool => l[0]?) hfinished
    rwa [List.getElem?_map, List.getElem?_cons_zero, Option.map_eq_some_iff] at hfirst
  rw [done_of_hasFinished hdone] at hp
  obtain ⟨account, bumped, before, between, since, rfl, hgone⟩ :=
    (sign_out_is_final_and_exact liveSession_tagged hrun (i := 0) (by rw [hstarts]; rfl)).1 _ hp
  obtain ⟨pool₁, pool₂, -, hmove, hrest⟩ := hearly.cutAt
  obtain ⟨hmoved, rfl⟩ : pool₂.shared.epoch ≠ 0 ∧ account = ['a'] := by
    cases hmove with
    | call hthread hworld =>
      obtain ⟨⟨-, heq⟩, hstirs⟩ := hworld
      rw [heq]
      exact ⟨Nat.succ_ne_zero _, (by simpa [stirsEarly] using hstirs : _ ∧ _).2⟩
  have hcalm : ∀ j e, .call j e ∈ between ++ since → ∃ s, s.epoch ≠ 0 ∧ stirsEarly s e = true :=
    fun j e he => calm_since hrest hmoved (by
      rcases List.mem_append.1 he with he | he
      · exact List.mem_append_left _ he
      · exact List.mem_append_right _ (List.mem_cons_of_mem _ he))
  have hunread : ∀ j e, .call j e ∈ between ++ since → readsFence e = false := by
    intro j e he
    obtain ⟨s, hs, hstirs⟩ := hcalm j e he
    unfold stirsEarly at hstirs
    split at hstirs
    · rfl
    · rfl
    · simpa [hs] using hstirs
  have hempty := hgone ⟨fun j a n he => ?_, fun j tenant n he => ?_, fun j e he => ?_,
    fun j e e' he hreads => ?_, fun j e e' he hreads => ?_⟩
  · exact ⟨_, pool, hrun, hstarts, hfinished, hempty.1, hempty.2⟩
  · obtain ⟨s, hs, hstirs⟩ := hcalm j _ (List.mem_append_left _ he)
    exact absurd hstirs (by simp [stirsEarly, hs])
  · obtain ⟨s, hs, hstirs⟩ := hcalm j _ he
    exact absurd hstirs (by simp [stirsEarly, hs])
  · have hread := hunread j e (List.mem_append_right _ he)
    unfold readsFence at hread
    split at hread
    · rfl
    · exact hread
  · exact absurd (hunread j e (List.mem_append_left _ he)) (by simp [hreads])
  · exact absurd (hunread j e (List.mem_append_left _ he)) (by simp [hreads])

end Auth
