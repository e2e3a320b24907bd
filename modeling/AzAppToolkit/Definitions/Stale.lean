import AzAppToolkit.Definitions.Runs

set_option autoImplicit false

/-! # What an edit leaves in the cache

Once an edit has changed the definitions, what the cache holds of them is dropped; unless it was a removal
that failed half way. -/

namespace Definitions

open Prog
open Tester (UiError)

variable {N : Type}

/-! ## Stale entries -/

/-- What the cache holds of the definitions that the command edits. -/
def Command.Tier (tenantId : Text) (kind : CacheKind) (key : Text) : Command → Prop
  | .upsertApiScope _ _ | .deleteApiScope _ _ =>
    kind = .lists ∧ (Tiers.appDetailPrefix tenantId).isPrefixOf key = true
  | .upsertEnterpriseAppRole _ _ _ | .deleteEnterpriseAppRole _ _ _ =>
    kind = .lists ∧
      ((Tiers.appDetailPrefix tenantId).isPrefixOf key = true ∨ key = Tiers.appRoleResourcesKey tenantId)
  | _ => False

/-- Where a PATCH of the command was applied, no entry of its tier is left from before it. -/
def NoneStale (tenantId : Text) (cmd : Command) (s s' : Tenant N) : Prop :=
  s.applied < s'.applied → ∀ kind key, cmd.Tier tenantId kind key →
    s'.cache.entries kind key ≠ none → s'.applied ≤ s'.storedAt kind key

/-- What the command is to remove is enabled. -/
def Command.RemovesEnabled (d : Directory N) : Command → Prop
  | .deleteApiScope objectId scopeId =>
    ∃ info target, d.api objectId = some info ∧
      (info.api.oauth2PermissionScopes.find? fun s => s.id == scopeId) = some target ∧
      target.enabled = true
  | .deleteEnterpriseAppRole servicePrincipalId appId id =>
    ∃ target, ((d.roles (d.target servicePrincipalId appId)).find? fun r => roleId r == some id) =
      some target ∧ isBuiltin target = false ∧ roleEnabled target = true
  | _ => False

/-- The next PATCH is applied, and the one after it is not. -/
def FailsHalfWay (applies : Nat → Bool) (s : Tenant N) : Prop :=
  applies s.sent = true ∧ applies (s.sent + 1) = false

/-! ## What an edit meets -/

section Meets

variable {tenantId : Text} {applies : Nat → Bool} {cmd : Command} {s₀ s : Tenant N}

/-- Nothing has been sent yet. -/
structure Before (s₀ s : Tenant N) : Prop where
  directory : s.directory = s₀.directory
  sent : s.sent = s₀.sent
  applied : s.applied = s₀.applied

theorem Before.refl (s : Tenant N) : Before s s := ⟨rfl, rfl, rfl⟩

theorem Before.drift {s' : Tenant N} (h : Before s₀ s) (hdrift : Drift s s') : Before s₀ s' :=
  ⟨hdrift.directory.trans h.directory, hdrift.sent.trans h.sent, hdrift.applied.trans h.applied⟩

def free (_ : Tenant N) (_ : Call N) : Prop := True

def Left (tenantId : Text) (cmd : Command) (s₀ s : Tenant N) (_ : Except UiError Unit) : Prop :=
  NoneStale tenantId cmd s₀ s

/-- Where nothing was applied, nothing is stale. -/
theorem noneStale_of_applied (h : s.applied = s₀.applied) : NoneStale tenantId cmd s₀ s :=
  fun hlt => absurd hlt (by omega)

/-- What is there of these entries was stored after the last PATCH. -/
def Recent (named : CacheKind → Text → Prop) (s : Tenant N) : Prop :=
  ∀ kind key, named kind key → s.cache.entries kind key ≠ none → s.storedAt kind key = s.applied

theorem Recent.noneStale (h : Recent (fun kind key => cmd.Tier tenantId kind key) s) :
    NoneStale tenantId cmd s₀ s :=
  fun _ kind key htier hpresent => (h kind key htier hpresent).ge

theorem Recent.drift {named : CacheKind → Text → Prop} {s' : Tenant N} (h : Recent named s)
    (hdrift : Drift s s') : Recent named s' := by
  intro kind key hnamed hpresent
  rcases hdrift.entries kind key hpresent with hnow | ⟨hbefore, hsame⟩
  · rw [hnow, hdrift.applied]
  · rw [hsame, hdrift.applied]
    exact h kind key hnamed hbefore

/-- Once dropped, an entry can only have been stored since. -/
theorem Recent.drops {named tier : CacheKind → Text → Prop} {cache : Tiers.AppCache} (h : Recent named s)
    (hdrops : Tiers.Drops s.cache cache tier) :
    Recent (fun kind key => named kind key ∨ tier kind key) { s with cache := cache } := by
  intro kind key hnamed hpresent
  by_cases htier : tier kind key
  · exact absurd ((hdrops kind key).1 htier) hpresent
  · refine h kind key (hnamed.resolve_right htier) ?_
    rw [← (hdrops kind key).2 htier]
    exact hpresent

theorem drops_appDetails (c : Tiers.AppCache) (tenantId : Text) :
    Tiers.Drops c (Tiers.invalidateAppDetails c tenantId) fun kind key =>
      (kind = .lists ∧ (Tiers.appDetailPrefix tenantId).isPrefixOf key = true) ∨
        (kind = .lists ∧ (Tiers.mailScopesPrefix tenantId).isPrefixOf key = true) :=
  (Tiers.drops_invalidatePrefix c .lists _).trans (Tiers.drops_invalidatePrefix _ .lists _)

theorem Recent.mono {named tier : CacheKind → Text → Prop} (h : Recent named s)
    (hsub : ∀ kind key, tier kind key → named kind key) : Recent tier s :=
  fun kind key htier => h kind key (hsub kind key htier)

/-- What has been dropped when the details are. -/
theorem recent_appDetails {s' : Tenant N}
    (hdrift : Drift { s with cache := Tiers.invalidateAppDetails s.cache tenantId } s') :
    Recent (fun kind key => kind = .lists ∧ (Tiers.appDetailPrefix tenantId).isPrefixOf key = true) s' := by
  have hnone : Recent (fun _ _ => False) s := fun _ _ hfalse => hfalse.elim
  exact ((hnone.drops (drops_appDetails s.cache tenantId)).drift hdrift).mono
    fun kind key htier => .inr (.inl htier)

/-- The last step of an edit of scopes. -/
theorem scope_forgets (htier : ∀ kind key, cmd.Tier tenantId kind key →
      kind = .lists ∧ (Tiers.appDetailPrefix tenantId).isPrefixOf key = true) (s : Tenant N) :
    Meets (graph tenantId applies) free (Left tenantId cmd s₀) s (tell .invalidateAppDetails).run :=
  Meets.lift ⟨trivial, fun _ _ (hdrift : Drift _ _) => ((recent_appDetails hdrift).mono htier).noneStale⟩

/-- The last steps of an edit of roles. -/
theorem role_forgets (htier : ∀ kind key, cmd.Tier tenantId kind key →
      (kind = .lists ∧ (Tiers.appDetailPrefix tenantId).isPrefixOf key = true) ∨
        (kind = .lists ∧ key = Tiers.appRoleResourcesKey tenantId)) (s : Tenant N) :
    Meets (graph tenantId applies) free (Left tenantId cmd s₀) s
      (tell .invalidateAppDetails >>= fun _ => tell .invalidateAppRoleResources).run := by
  refine meets_call trivial fun _ s₁ (hdrift₁ : Drift _ s₁) => ?_
  refine Meets.lift ⟨trivial, fun _ s₂ (hdrift₂ : Drift _ s₂) => ?_⟩
  have hdrops := Tiers.drops_invalidate s₁.cache .lists (Tiers.appRoleResourcesKey tenantId)
  exact ((((recent_appDetails hdrift₁).drops hdrops).drift hdrift₂).mono htier).noneStale

/-! ## PATCHes -/

/-- A PATCH was applied, or failed without effect. -/
def Sent (applies : Nat → Bool) (s : Tenant N) : Tenant N → Except UiError Unit → Prop :=
  OnResult
    (fun s' _ => applies s.sent = true ∧ s'.sent = s.sent + 1 ∧ s'.applied = s.applied + 1)
    (fun s' _ => applies s.sent = false ∧ s'.applied = s.applied)

theorem Patches.sent {next : Directory N} {r : Except UiError Unit} {s' : Tenant N}
    (h : Patches applies s next r s') : Sent applies s s' r := by
  unfold Patches at h
  split at h
  · next happlies =>
    obtain ⟨rfl, hdrift⟩ := h
    exact ⟨happlies, hdrift.sent, hdrift.applied⟩
  · next hfails =>
    obtain ⟨⟨e, rfl⟩, hdrift⟩ := h
    exact ⟨Bool.eq_false_iff.2 hfails, hdrift.applied⟩

/-- The step makes one PATCH. -/
def Writes (tenantId : Text) (applies : Nat → Bool) (p : Steps N Unit) : Prop :=
  ∀ s, Meets (graph tenantId applies) free (Sent applies s) s p.run

theorem patchExposeApi_writes (objectId : Text) (body : ApplicationExposeApiPatch) :
    Writes (N := N) tenantId applies (patchExposeApi objectId body) :=
  fun _ => ⟨trivial, fun _ _ h => Patches.sent h⟩

theorem writeRoles_writes (target : RoleTarget) (roles : List (Json N)) :
    Writes tenantId applies (writeRoles target roles) :=
  fun _ => ⟨trivial, fun _ _ h => Patches.sent h⟩

/-- One PATCH, and then everything is dropped. -/
theorem write_meets {write forget : Steps N Unit} (hwrite : Writes tenantId applies write)
    (hforget : ∀ s, Meets (graph tenantId applies) free (Left tenantId cmd s₀) s forget.run)
    (hs : s.applied = s₀.applied) :
    Meets (graph tenantId applies) free (Left tenantId cmd s₀) s (write >>= fun _ => forget).run :=
  Meets.tryThen (hwrite s) (fun _ _ h => noneStale_of_applied (h.2.trans hs)) fun s' _ _ => hforget s'

/-- Two PATCHes, of which not the second alone fails. -/
theorem two_writes_meet {disable write forget : Steps N Unit} (hdisable : Writes tenantId applies disable)
    (hwrite : Writes tenantId applies write)
    (hforget : ∀ s, Meets (graph tenantId applies) free (Left tenantId cmd s₀) s forget.run)
    (hs : Before s₀ s) (hwhole : ¬ FailsHalfWay applies s₀) :
    Meets (graph tenantId applies) free (Left tenantId cmd s₀) s
      (disable >>= fun _ => write >>= fun _ => forget).run := by
  refine Meets.tryThen (hdisable s) (fun _ _ h => noneStale_of_applied (h.2.trans hs.applied)) fun s₁ _ h => ?_
  obtain ⟨happlied, hsent, -⟩ := h
  refine Meets.tryThen (hwrite s₁) (fun s₂ _ h => ?_) fun s₂ _ _ => hforget s₂
  rw [hs.sent] at happlied
  rw [hsent, hs.sent] at h
  exact absurd ⟨happlied, h.1⟩ hwhole

/-! ## The commands -/

theorem upsertApiScope_leaves (s : Tenant N) (objectId : Text) (input : UpsertApiScopeInput) :
    Meets (graph tenantId applies) free (Left tenantId (.upsertApiScope objectId input) s) s
      (upsertApiScope objectId input).run := by
  refine meets_ofExcept (fun e _ => noneStale_of_applied rfl) fun _ _ => ?_
  refine meets_fetch trivial (fun s₁ e hdrift => noneStale_of_applied hdrift.applied)
    fun s₁ info hdrift₁ _ => ?_
  refine meets_givenOrNew trivial fun s₂ new hdrift₂ _ _ => ?_
  have hs₂ := ((Before.refl s).drift hdrift₁).drift hdrift₂
  refine meets_ofExcept (fun e _ => noneStale_of_applied hs₂.applied) fun scopes _ => ?_
  exact write_meets (patchExposeApi_writes objectId _) (scope_forgets fun kind key htier => htier) hs₂.applied

theorem deleteApiScope_leaves {objectId scopeId : Text}
    (hwhole : ¬ ((Command.deleteApiScope objectId scopeId).RemovesEnabled s.directory ∧
      FailsHalfWay applies s)) :
    Meets (graph tenantId applies) free (Left tenantId (.deleteApiScope objectId scopeId) s) s
      (deleteApiScope objectId scopeId).run := by
  refine meets_fetch trivial (fun s₁ e hdrift => noneStale_of_applied hdrift.applied)
    fun s₁ info hdrift hinfo => ?_
  have hs₁ := (Before.refl s).drift hdrift
  have hforget : ∀ s₂, Meets (graph tenantId applies) free
      (Left tenantId (.deleteApiScope objectId scopeId) s) s₂ (tell .invalidateAppDetails).run :=
    scope_forgets fun kind key htier => htier
  cases hplan : planScopeRemoval info.api scopeId with
  | none => exact noneStale_of_applied hs₁.applied
  | some plan =>
    obtain ⟨target, htarget, rfl⟩ := Option.map_eq_some_iff.1 hplan
    have hwrite : ∀ body, Writes (N := N) tenantId applies (patchExposeApi objectId body) :=
      patchExposeApi_writes objectId
    cases henabled : target.enabled with
    | true =>
      have hfull := fun hhalf => hwhole ⟨⟨info, target, hinfo, htarget, henabled⟩, hhalf⟩
      exact two_writes_meet (hwrite _) (hwrite _) hforget hs₁ hfull
    | false => exact write_meets (hwrite _) hforget hs₁.applied

theorem role_tier {kind : CacheKind} {key : Text} (h : kind = .lists ∧
      ((Tiers.appDetailPrefix tenantId).isPrefixOf key = true ∨ key = Tiers.appRoleResourcesKey tenantId)) :
    (kind = .lists ∧ (Tiers.appDetailPrefix tenantId).isPrefixOf key = true) ∨
      (kind = .lists ∧ key = Tiers.appRoleResourcesKey tenantId) :=
  h.2.imp (fun hkey => ⟨h.1, hkey⟩) fun hkey => ⟨h.1, hkey⟩

theorem upsertEnterpriseAppRole_leaves (s : Tenant N) (servicePrincipalId appId : Text)
    (input : AppRoleInput) :
    Meets (graph tenantId applies) free
      (Left tenantId (.upsertEnterpriseAppRole servicePrincipalId appId input) s) s
      (upsertEnterpriseAppRole servicePrincipalId appId input).run := by
  refine meets_ofExcept (fun e _ => noneStale_of_applied rfl) fun _ _ => ?_
  refine meets_resolve trivial (fun s₁ e hdrift => noneStale_of_applied hdrift.applied) fun s₁ hdrift₁ => ?_
  have hs₁ := (Before.refl s).drift hdrift₁
  refine meets_readRoles trivial
    (fun s₂ e hdrift => noneStale_of_applied (hs₁.drift hdrift).applied) fun s₂ hdrift₂ => ?_
  refine meets_givenOrNew trivial fun s₃ new hdrift₃ _ _ => ?_
  have hs₃ := (hs₁.drift hdrift₂).drift hdrift₃
  refine meets_ofExcept (fun e _ => noneStale_of_applied hs₃.applied) fun merged _ => ?_
  exact write_meets (writeRoles_writes _ merged) (role_forgets fun kind key => role_tier) hs₃.applied

theorem deleteEnterpriseAppRole_leaves {servicePrincipalId appId id : Text}
    (hwhole : ¬ ((Command.deleteEnterpriseAppRole servicePrincipalId appId id).RemovesEnabled s.directory ∧
      FailsHalfWay applies s)) :
    Meets (graph tenantId applies) free
      (Left tenantId (.deleteEnterpriseAppRole servicePrincipalId appId id) s) s
      (deleteEnterpriseAppRole servicePrincipalId appId id).run := by
  refine meets_resolve trivial (fun s₁ e hdrift => noneStale_of_applied hdrift.applied) fun s₁ hdrift₁ => ?_
  have hs₁ := (Before.refl s).drift hdrift₁
  refine meets_readRoles trivial
    (fun s₂ e hdrift => noneStale_of_applied (hs₁.drift hdrift).applied) fun s₂ hdrift₂ => ?_
  have hs₂ := hs₁.drift hdrift₂
  have hforget : ∀ s₃, Meets (graph tenantId applies) free
      (Left tenantId (.deleteEnterpriseAppRole servicePrincipalId appId id) s) s₃
      (tell .invalidateAppDetails >>= fun _ => tell .invalidateAppRoleResources).run :=
    role_forgets fun kind key => role_tier
  rw [hs₁.directory]
  generalize htarget : s.directory.target servicePrincipalId appId = target at hwhole ⊢
  have hwrite : ∀ roles, Writes (N := N) tenantId applies (writeRoles target roles) := writeRoles_writes target
  refine meets_ofExcept (fun e _ => noneStale_of_applied hs₂.applied) fun found hplan => ?_
  unfold planRoleRemoval at hplan
  split at hplan
  · obtain rfl := Except.ok.inj hplan
    exact noneStale_of_applied hs₂.applied
  · next role hrole =>
    split at hplan
    · cases hplan
    · next hcustom =>
      obtain rfl := Except.ok.inj hplan
      cases henabled : roleEnabled role with
      | true =>
        have hremoves : (Command.deleteEnterpriseAppRole servicePrincipalId appId id).RemovesEnabled
            s.directory := by
          refine ⟨role, ?_, Bool.eq_false_iff.2 hcustom, henabled⟩
          rw [htarget]
          exact hrole
        exact two_writes_meet (hwrite _) (hwrite _) hforget hs₂ fun hhalf => hwhole ⟨hremoves, hhalf⟩
      | false => exact write_meets (hwrite _) hforget hs₂.applied

theorem noneStale_of_whole {s' : Tenant N} (hwhole : ¬ (cmd.RemovesEnabled s.directory ∧ FailsHalfWay applies s))
    (h : Performs tenantId applies s cmd s') : NoneStale tenantId cmd s s' := by
  obtain ⟨r, hexec⟩ := h
  cases cmd with
  | upsertApiScope objectId input => exact (upsertApiScope_leaves s objectId input).sound hexec
  | deleteApiScope objectId scopeId => exact (deleteApiScope_leaves hwhole).sound hexec
  | upsertEnterpriseAppRole servicePrincipalId appId input =>
    exact (upsertEnterpriseAppRole_leaves s servicePrincipalId appId input).sound hexec
  | deleteEnterpriseAppRole servicePrincipalId appId id =>
    exact (deleteEnterpriseAppRole_leaves hwhole).sound hexec
  -- nothing that is cached holds what the others edit
  | _ => exact fun _ _ _ htier => htier.elim

end Meets

/-! ## Half way -/

section Half

variable {α β : Type} {tenantId : Text} {applies : Nat → Bool} {s s' s'' : Tenant N}

theorem exec_bind {w : World (Answer (N := N)) (Tenant N)} {p : Prog (Answer (N := N)) β}
    {f : β → Prog (Answer (N := N)) α} {b : β} {a : α} (hp : Exec w s p s' b)
    (hf : Exec w s' (f b) s'' a) : Exec w s (p >>= f) s'' a := by
  induction hp with
  | done s b => exact hf
  | ask hstep _ ih => exact .ask hstep (ih hf)

/-- `?`: an error ends the program, and anything else goes on. -/
theorem exec_then {w : World (Answer (N := N)) (Tenant N)} {p : Steps N β} {f : β → Steps N α} {b : β}
    {r : Except UiError α} (hp : Exec w s p.run s' (.ok b)) (hf : Exec w s' (f b).run s'' r) :
    Exec w s (p >>= f).run s'' r := exec_bind hp hf

theorem exec_stop {w : World (Answer (N := N)) (Tenant N)} {p : Steps N β} {f : β → Steps N α} {e : UiError}
    (hp : Exec w s p.run s' (.error e)) : Exec w s (p >>= f).run s' (.error e) :=
  exec_bind hp (.done s' _)

/-- Someone stores the details of an application. -/
def detailsStored (tenantId : Text) (s : Tenant N) : Tenant N where
  directory := s.directory
  sent := s.sent
  applied := s.applied
  cache :=
    ⟨s.cache.enabled, fun kind key =>
      if kind = .lists ∧ key = Tiers.appDetailPrefix tenantId then some ⟨true, .other⟩
      else s.cache.entries kind key⟩
  storedAt kind key :=
    if kind = .lists ∧ key = Tiers.appDetailPrefix tenantId then s.applied else s.storedAt kind key

theorem drift_detailsStored (tenantId : Text) (s : Tenant N) : Drift s (detailsStored tenantId s) := by
  refine ⟨rfl, rfl, rfl, fun kind key hpresent => ?_⟩
  by_cases hkey : kind = .lists ∧ key = Tiers.appDetailPrefix tenantId
  · exact .inl (if_pos hkey)
  · exact .inr ⟨by simpa [detailsStored, hkey] using hpresent, if_neg hkey⟩

/-- One PATCH of the directory is applied, and the next fails. -/
def halfDone (next : Directory N) (s : Tenant N) : Tenant N :=
  { s with directory := next, sent := s.sent + 2, applied := s.applied + 1 }

theorem patches_first (happlies : applies s.sent = true) (next : Directory N) :
    Patches applies s next (.ok ()) (s.patched next) := by
  unfold Patches
  rw [if_pos happlies]
  exact ⟨rfl, .refl _⟩

theorem patches_second (hfails : applies (s.sent + 1) = false) (first next : Directory N) (e : UiError) :
    Patches applies (s.patched first) next (.error e) (halfDone first s) := by
  unfold Patches
  rw [if_neg (by rw [Tenant.patched, hfails]; exact Bool.false_ne_true)]
  exact ⟨⟨e, rfl⟩, .refl _⟩

theorem not_noneStale_halfDone {cmd : Command} (next : Directory N)
    (htier : cmd.Tier tenantId .lists (Tiers.appDetailPrefix tenantId)) :
    ¬ NoneStale tenantId cmd s (halfDone next (detailsStored tenantId s)) := by
  intro hnone
  have hleft := hnone (Nat.lt_succ_self _) .lists _ htier (by simp [halfDone, detailsStored])
  have hstored : (halfDone next (detailsStored tenantId s)).storedAt .lists (Tiers.appDetailPrefix tenantId) =
      s.applied := if_pos ⟨rfl, rfl⟩
  rw [hstored] at hleft
  exact absurd hleft (Nat.not_succ_le_self _)

theorem prefix_refl (t : Text) : t.isPrefixOf t = true := List.isPrefixOf_iff_prefix.2 List.prefix_rfl

/-- A removal of what is enabled disables it, and fails. -/
theorem exists_half {cmd : Command} (hremoves : cmd.RemovesEnabled s.directory)
    (hhalf : FailsHalfWay applies s) :
    ∃ s', Performs tenantId applies s cmd s' ∧ ¬ NoneStale tenantId cmd s s' := by
  have happlies : applies (detailsStored tenantId s).sent = true := hhalf.1
  have hfails : applies ((detailsStored tenantId s).sent + 1) = false := hhalf.2
  have hdrift := drift_detailsStored tenantId s
  cases cmd with
  | deleteApiScope objectId scopeId =>
    obtain ⟨info, target, hinfo, htarget, henabled⟩ := hremoves
    have hread : Exec (graph tenantId applies) s (fetchExposeApi objectId).run (detailsStored tenantId s)
        (.ok info) :=
      .ask (r := .ok (some info)) ⟨hdrift, fun found hfound => by rw [hinfo, Except.ok.inj hfound]⟩
        (.done _ _)
    have htier : (Command.deleteApiScope objectId scopeId).Tier tenantId .lists
        (Tiers.appDetailPrefix tenantId) := ⟨rfl, prefix_refl _⟩
    refine ⟨_, ⟨.error ⟨[], []⟩, exec_then hread ?_⟩, not_noneStale_halfDone
      (s.directory.patchApi objectId ⟨none, some
        ⟨some (info.api.oauth2PermissionScopes.map (disabledScope scopeId)), none⟩⟩) htier⟩
    unfold planScopeRemoval
    rw [htarget]
    simp only [Option.map_some, henabled, if_true]
    refine exec_then (.ask (patches_first happlies _) (.done _ _)) (exec_stop ?_)
    exact .ask (patches_second hfails _ _ _) (.done _ _)
  | deleteEnterpriseAppRole servicePrincipalId appId id =>
    obtain ⟨target, htarget, hcustom, henabled⟩ := hremoves
    have hresolve : Exec (graph tenantId applies) s (resolveTarget servicePrincipalId appId).run
        (detailsStored tenantId s) (.ok (s.directory.target servicePrincipalId appId)) := by
      refine .ask (r := .ok (s.directory.registrations appId))
        ⟨hdrift, fun found hfound => (Except.ok.inj hfound).symm⟩ ?_
      unfold Directory.target
      cases s.directory.registrations appId with
      | none => exact .done _ _
      | some applicationId => exact .done _ _
    have hread : Exec (graph tenantId applies) (detailsStored tenantId s)
        (readRoles (s.directory.target servicePrincipalId appId)).run (detailsStored tenantId s)
        (.ok (s.directory.roles (s.directory.target servicePrincipalId appId))) :=
      .ask (r := .ok _) ⟨.refl _, fun roles hroles => (Except.ok.inj hroles).symm⟩ (.done _ _)
    have htier : (Command.deleteEnterpriseAppRole servicePrincipalId appId id).Tier tenantId .lists
        (Tiers.appDetailPrefix tenantId) := ⟨rfl, .inl (prefix_refl _)⟩
    refine ⟨_, ⟨.error ⟨[], []⟩, exec_then hresolve (exec_then hread ?_)⟩, not_noneStale_halfDone
      (s.directory.setRoles (s.directory.target servicePrincipalId appId)
        ((s.directory.roles (s.directory.target servicePrincipalId appId)).map (disabledRole id))) htier⟩
    unfold planRoleRemoval
    rw [htarget]
    simp only [hcustom, henabled, if_true, Bool.false_eq_true, if_false]
    refine exec_then (.done _ _) ?_
    refine exec_then (.ask (patches_first happlies _) (.done _ _)) (exec_stop ?_)
    exact .ask (patches_second hfails _ _ _) (.done _ _)
  | _ => exact hremoves.elim

/-- Whatever happens meanwhile, an edit leaves nothing of before its PATCHes in the cache, if and only if it
    does not fail between the two PATCHes that disable a definition and remove it. -/
theorem nothing_stale_iff (applies : Nat → Bool) (tenantId : Text) (cmd : Command) (s : Tenant N) :
    (∀ s', Performs tenantId applies s cmd s' → NoneStale tenantId cmd s s') ↔
      ¬ (cmd.RemovesEnabled s.directory ∧ FailsHalfWay applies s) := by
  constructor
  · rintro hnone ⟨hremoves, hhalf⟩
    obtain ⟨s', hperforms, hstale⟩ := exists_half hremoves hhalf
    exact hstale (hnone s' hperforms)
  · exact fun hwhole s' hperforms => noneStale_of_whole hwhole hperforms

/-- The scope is disabled and then not removed: the details stored before it was disabled stay. -/
theorem disabled_scope_leaves_details :
    ∃ s', Performs "t".toList (fun n => n == 0) (oneScope Nat) (.deleteApiScope "o".toList "1".toList) s' ∧
      ¬ NoneStale "t".toList (.deleteApiScope "o".toList "1".toList) (oneScope Nat) s' :=
  exists_half ⟨_, _, rfl, rfl, rfl⟩ ⟨rfl, rfl⟩

end Half

end Definitions
