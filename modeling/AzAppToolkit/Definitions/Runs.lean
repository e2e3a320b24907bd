import AzAppToolkit.Definitions.Commands

set_option autoImplicit false

/-! # Runs of the editors

A directory that is well formed stays so under every command, however its PATCHes fare, and each PATCH
changes what the command names and no more. -/

namespace Definitions

open Prog
open Text (eqIgnoreAsciiCase trim)
open Tester (UiError)

variable {N : Type}

/-! ## What a command may send -/

structure Directory.WellFormed (d : Directory N) : Prop where
  apis : ∀ objectId info, d.api objectId = some info → WellFormedApi info
  roles : ∀ target, WellFormedRoles (d.roles target)

/-- What the command makes of the API of an application is what it names, and no more. -/
def Command.NamedApi (cmd : Command) (objectId : Text) (info after : ApplicationExposeApi) : Prop :=
  match cmd with
  | .addIdentifierUri o _ =>
    objectId = o ∧ ∃ u, after = { info with identifierUris := info.identifierUris ++ [u] }
  | .removeIdentifierUri o uri =>
    objectId = o ∧ ∃ uris, after = { info with identifierUris := uris } ∧
      SameApart (fun u => eqIgnoreAsciiCase (trim u) (trim uri)) info.identifierUris uris
  | .upsertApiScope o input =>
    objectId = o ∧ ∃ scopes, after = info.withScopes scopes ∧
      match input.id with
      | none => ∃ id, scopes = info.api.oauth2PermissionScopes ++ [buildScope input id]
      | some id => SameApart (fun s => s.id == id) info.api.oauth2PermissionScopes scopes
  | .deleteApiScope o scopeId =>
    objectId = o ∧ ∃ scopes clients, after = { info with api := ⟨scopes, clients⟩ } ∧
      SameApart (fun s => s.id == scopeId) info.api.oauth2PermissionScopes scopes ∧
      (clients = info.api.preAuthorizedApplications ∨
        clients = stripped scopeId info.api.preAuthorizedApplications)
  | .setPreAuthorizedApp o input =>
    objectId = o ∧ ∃ clients, after = info.withClients clients ∧
      SameApart (fun p => eqIgnoreAsciiCase p.appId (trim input.clientAppId))
        info.api.preAuthorizedApplications clients
  | .removePreAuthorizedApp o clientAppId =>
    objectId = o ∧ ∃ clients, after = info.withClients clients ∧
      SameApart (fun p => eqIgnoreAsciiCase p.appId clientAppId) info.api.preAuthorizedApplications
        clients
  | .upsertEnterpriseAppRole _ _ _ | .deleteEnterpriseAppRole _ _ _ => False

def Command.NamedRoles (cmd : Command) (d : Directory N) (target : RoleTarget) (roles : List (Json N)) :
    Prop :=
  match cmd with
  | .upsertEnterpriseAppRole servicePrincipalId appId input =>
    target = d.target servicePrincipalId appId ∧ KeysKept inputKeys (d.roles target) roles ∧
      match input.id with
      | none => ∃ r, roles = d.roles target ++ [r]
      | some id => SameApart (fun r => roleId r == some id) (d.roles target) roles
  | .deleteEnterpriseAppRole servicePrincipalId appId id =>
    target = d.target servicePrincipalId appId ∧
      KeysKept ["isEnabled".toList] (d.roles target) roles ∧
      SameApart (fun r => roleId r == some id) (d.roles target) roles
  | _ => False

/-- A PATCH removes nothing that is enabled, and changes what the command names. -/
def Command.Proper (cmd : Command) (d : Directory N) : Call N → Prop
  | .patchExposeApi objectId body =>
    ∃ info, d.api objectId = some info ∧
      (∀ s ∈ info.api.oauth2PermissionScopes, s.enabled = true →
        s.id ∈ (info.patched body).api.oauth2PermissionScopes.map OAuth2PermissionScope.id) ∧
      cmd.NamedApi objectId info (info.patched body)
  | .setRoles target roles =>
    (∀ r ∈ d.roles target, roleEnabled r = true → roleId r ∈ roles.map roleId) ∧
      roles.filter isBuiltin = (d.roles target).filter isBuiltin ∧ cmd.NamedRoles d target roles
  | _ => True

/-! ## The directory after a PATCH -/

section Directories

variable {d : Directory N} {objectId : Text} {info : ApplicationExposeApi}

theorem Directory.WellFormed.patchApi (h : d.WellFormed) (hinfo : d.api objectId = some info)
    {body : ApplicationExposeApiPatch} (hafter : WellFormedApi (info.patched body)) :
    (d.patchApi objectId body).WellFormed := by
  refine ⟨fun o after ho => ?_, h.roles⟩
  by_cases heq : o = objectId
  · subst heq
    have hafter' : (d.patchApi o body).api o = some (info.patched body) := by
      simp [Directory.patchApi, hinfo]
    obtain rfl := Option.some.inj (hafter'.symm.trans ho)
    exact hafter
  · refine h.apis o after ?_
    rw [← ho]
    exact (if_neg heq).symm

theorem Directory.patchApi_api (hinfo : d.api objectId = some info) (body : ApplicationExposeApiPatch) :
    (d.patchApi objectId body).api objectId = some (info.patched body) := by
  simp [Directory.patchApi, hinfo]

theorem Directory.WellFormed.setRoles (h : d.WellFormed) {target : RoleTarget} {roles : List (Json N)}
    (hroles : WellFormedRoles roles) : (d.setRoles target roles).WellFormed := by
  refine ⟨h.apis, fun t => ?_⟩
  unfold Directory.setRoles
  dsimp only
  split
  · exact hroles
  · exact h.roles t

theorem Directory.setRoles_roles (target : RoleTarget) (roles : List (Json N)) :
    (d.setRoles target roles).roles target = roles := if_pos rfl

end Directories

/-! ## The commands, one by one -/

section Commands

variable {tenantId : Text} {applies : Nat → Bool} {cmd : Command} {s : Tenant N}

/-- Each call of the command is made of a well-formed directory, and is proper there. -/
def Command.Safe (cmd : Command) (s : Tenant N) (c : Call N) : Prop :=
  s.directory.WellFormed ∧ cmd.Proper s.directory c

/-- However it ends, the directory is well formed. -/
def Well (s : Tenant N) (_ : Except UiError Unit) : Prop := s.directory.WellFormed

theorem Drift.well {s' : Tenant N} (h : Drift s s') (hs : s.directory.WellFormed) :
    s'.directory.WellFormed := by
  rw [h.directory]
  exact hs

theorem meets_patchExposeApi {objectId : Text} {body : ApplicationExposeApiPatch}
    (hs : s.directory.WellFormed) (hproper : cmd.Proper s.directory (.patchExposeApi objectId body))
    (hnext : (s.directory.patchApi objectId body).WellFormed) :
    Meets (graph tenantId applies) cmd.Safe
      (OnResult (fun s' _ => s'.directory = s.directory.patchApi objectId body ∧ s'.directory.WellFormed)
        (fun s' _ => s'.directory.WellFormed)) s
      (patchExposeApi objectId body).run := by
  refine ⟨⟨hs, hproper⟩, fun r s' hr => ?_⟩
  change Patches _ _ _ _ _ at hr
  unfold Patches at hr
  split at hr
  · obtain ⟨rfl, hdrift⟩ := hr
    exact ⟨hdrift.directory, by rw [hdrift.directory]; exact hnext⟩
  · obtain ⟨⟨e, rfl⟩, hdrift⟩ := hr
    exact Drift.well hdrift hs

theorem meets_writeRoles {target : RoleTarget} {roles : List (Json N)} (hs : s.directory.WellFormed)
    (hproper : cmd.Proper s.directory (.setRoles target roles)) (hroles : WellFormedRoles roles) :
    Meets (graph tenantId applies) cmd.Safe
      (OnResult (fun s' _ => s'.directory = s.directory.setRoles target roles ∧ s'.directory.WellFormed)
        (fun s' _ => s'.directory.WellFormed)) s
      (writeRoles target roles).run := by
  refine ⟨⟨hs, hproper⟩, fun r s' hr => ?_⟩
  change Patches _ _ _ _ _ at hr
  unfold Patches at hr
  split at hr
  · obtain ⟨rfl, hdrift⟩ := hr
    exact ⟨hdrift.directory, by rw [hdrift.directory]; exact hs.setRoles hroles⟩
  · obtain ⟨⟨e, rfl⟩, hdrift⟩ := hr
    exact Drift.well hdrift hs

/-- A write at the end of a command. -/
theorem Meets.well {p : Steps N Unit} {P : Tenant N → Prop} (h : Meets (graph tenantId applies) cmd.Safe
      (OnResult (fun s' _ => P s' ∧ s'.directory.WellFormed) (fun s' _ => s'.directory.WellFormed)) s p.run) :
    Meets (graph tenantId applies) cmd.Safe Well s p.run := by
  refine h.mono fun s' r hr => ?_
  cases r with
  | ok _ => exact hr.2
  | error _ => exact hr

theorem addIdentifierUri_meets (hs : s.directory.WellFormed) (objectId uri : Text) :
    Meets (graph tenantId applies) (Command.addIdentifierUri objectId uri).Safe Well s
      (addIdentifierUri objectId uri).run := by
  refine meets_fetch ⟨hs, trivial⟩ (fun s' e hdrift => hdrift.well hs) fun s' info hdrift hinfo => ?_
  have hs' := hdrift.well hs
  rw [← hdrift.directory] at hinfo
  have hwf := hs'.apis objectId info hinfo
  refine meets_ofExcept (fun e _ => hs') fun uris huris => ?_
  obtain ⟨hkept, u, rfl⟩ := planUriAdd_kept huris hwf.uris
  have hproper : (Command.addIdentifierUri objectId uri).Proper s'.directory
      (.patchExposeApi objectId ⟨some (info.identifierUris ++ [u]), none⟩) :=
    ⟨info, hinfo, fun scope hscope _ => List.mem_map_of_mem hscope, rfl, u, rfl⟩
  refine Meets.well (meets_patchExposeApi hs' hproper (hs'.patchApi hinfo ?_))
  exact ⟨hwf.scopeIds, hwf.scopeIdsPresent, hwf.scopeValues, hwf.clients, hwf.grants, hkept⟩

theorem removeIdentifierUri_meets (hs : s.directory.WellFormed) (objectId uri : Text) :
    Meets (graph tenantId applies) (Command.removeIdentifierUri objectId uri).Safe Well s
      (removeIdentifierUri objectId uri).run := by
  refine meets_fetch ⟨hs, trivial⟩ (fun s' e hdrift => hdrift.well hs) fun s' info hdrift hinfo => ?_
  have hs' := hdrift.well hs
  rw [← hdrift.directory] at hinfo
  have hwf := hs'.apis objectId info hinfo
  cases hplan : planUriRemoval info.identifierUris uri with
  | none => exact hs'
  | some uris =>
    obtain ⟨hkept, hsame⟩ := planUriRemoval_kept hplan hwf.uris
    have hproper : (Command.removeIdentifierUri objectId uri).Proper s'.directory
        (.patchExposeApi objectId ⟨some uris, none⟩) :=
      ⟨info, hinfo, fun scope hscope _ => List.mem_map_of_mem hscope, rfl, uris, rfl, hsame⟩
    refine Meets.well (meets_patchExposeApi hs' hproper (hs'.patchApi hinfo ?_))
    exact ⟨hwf.scopeIds, hwf.scopeIdsPresent, hwf.scopeValues, hwf.clients, hwf.grants, hkept⟩

theorem upsertApiScope_meets (hs : s.directory.WellFormed) (objectId : Text) (input : UpsertApiScopeInput) :
    Meets (graph tenantId applies) (Command.upsertApiScope objectId input).Safe Well s
      (upsertApiScope objectId input).run := by
  refine meets_ofExcept (fun e _ => hs) fun _ _ => ?_
  refine meets_fetch ⟨hs, trivial⟩ (fun s₁ e hdrift => hdrift.well hs) fun s₁ info hdrift hinfo => ?_
  have hs₁ := hdrift.well hs
  rw [← hdrift.directory] at hinfo
  refine meets_givenOrNew ⟨hs₁, trivial⟩ fun s' new hdrift' hgiven hfresh => ?_
  have hs' := hdrift'.well hs₁
  rw [← hdrift'.directory] at hinfo
  have hwf := hs'.apis objectId info hinfo
  refine meets_ofExcept (fun e _ => hs') fun scopes hscopes => ?_
  -- a scope that is enabled is still there, whether the edit replaces one or adds one
  have hmerged : WellFormedApi (info.withScopes scopes) ∧
      (∀ scope ∈ info.api.oauth2PermissionScopes, scope.enabled = true →
        scope.id ∈ scopes.map OAuth2PermissionScope.id) ∧
      (Command.upsertApiScope objectId input).NamedApi objectId info (info.withScopes scopes) := by
    cases hid : input.id with
    | none =>
      rw [hid] at hscopes
      obtain ⟨hpresent, hnew, -⟩ := hfresh hid
      obtain ⟨hwf', rfl⟩ := mergeScope_new hscopes hwf hpresent (hnew objectId info hinfo)
      refine ⟨hwf', fun scope hscope _ => ?_, rfl, _, rfl, ?_⟩
      · rw [List.map_append]
        exact List.mem_append_left _ (List.mem_map_of_mem hscope)
      · rw [hid]
        exact ⟨new, rfl⟩
    | some given =>
      rw [hid] at hscopes
      obtain rfl := hgiven given hid
      obtain ⟨hwf', hids, hsame⟩ := mergeScope_edit hscopes hwf
      refine ⟨hwf', fun scope hscope _ => ?_, rfl, scopes, rfl, ?_⟩
      · rw [hids]
        exact List.mem_map_of_mem hscope
      · rw [hid]
        exact hsame
  obtain ⟨hwf', hkept, hnamed⟩ := hmerged
  refine Meets.tryThen (meets_patchExposeApi hs' ⟨info, hinfo, hkept, hnamed⟩ (hs'.patchApi hinfo hwf'))
    (fun s'' e h => h) fun s'' _ h => ?_
  exact Meets.lift ⟨⟨h.2, trivial⟩, fun r t (hr : Drift _ t) => hr.well h.2⟩

/-- The second half of a removal, once the scope is disabled. -/
theorem removeScope_meets {objectId scopeId : Text} {info : ApplicationExposeApi}
    {scopes : List OAuth2PermissionScope} {clients : List PreAuthorizedApplication}
    (hs : s.directory.WellFormed) (hinfo : s.directory.api objectId = some info)
    (hscopes : scopes = info.api.oauth2PermissionScopes.filter fun s => s.id != scopeId)
    (hclients : clients = stripped scopeId info.api.preAuthorizedApplications)
    (hoff : ∀ scope ∈ info.api.oauth2PermissionScopes, scope.id = scopeId → scope.enabled = false) :
    Meets (graph tenantId applies) (Command.deleteApiScope objectId scopeId).Safe Well s
      (patchExposeApi objectId ⟨none, some ⟨some scopes, some clients⟩⟩ >>=
        fun _ => tell .invalidateAppDetails).run := by
  have hproper : (Command.deleteApiScope objectId scopeId).Proper s.directory
      (.patchExposeApi objectId ⟨none, some ⟨some scopes, some clients⟩⟩) := by
    refine ⟨info, hinfo, fun scope hscope henabled => ?_, rfl, scopes, clients, rfl, ?_, .inr hclients⟩
    · change scope.id ∈ scopes.map _
      rw [hscopes]
      refine List.mem_map_of_mem (List.mem_filter.2 ⟨hscope, bne_iff_ne.2 fun hid => ?_⟩)
      rw [hoff scope hscope hid] at henabled
      cases henabled
    · rw [hscopes]
      exact sameApart_filter _ _
  have hnext : WellFormedApi { info with api := ⟨scopes, clients⟩ } := by
    rw [hscopes, hclients]
    exact wellFormed_removed (hs.apis objectId info hinfo) scopeId
  refine Meets.tryThen (meets_patchExposeApi hs hproper (hs.patchApi hinfo hnext))
    (fun s'' e h => h) fun s'' _ h => ?_
  exact Meets.lift ⟨⟨h.2, trivial⟩, fun r t (hr : Drift _ t) => hr.well h.2⟩

theorem deleteApiScope_meets (hs : s.directory.WellFormed) (objectId scopeId : Text) :
    Meets (graph tenantId applies) (Command.deleteApiScope objectId scopeId).Safe Well s
      (deleteApiScope objectId scopeId).run := by
  refine meets_fetch ⟨hs, trivial⟩ (fun s' e hdrift => hdrift.well hs) fun s' info hdrift hinfo => ?_
  have hs' := hdrift.well hs
  rw [← hdrift.directory] at hinfo
  have hwf := hs'.apis objectId info hinfo
  cases hplan : planScopeRemoval info.api scopeId with
  | none => exact hs'
  | some plan =>
    obtain ⟨hscopes, hclients, target, htarget, hid, hcase⟩ := planScopeRemoval_spec hplan
    obtain ⟨disableFirst, scopes, clients⟩ := plan
    obtain rfl : scopes = _ := hscopes
    obtain rfl : clients = _ := hclients
    rcases hcase with ⟨-, hdisable⟩ | ⟨hoff, hdisable⟩
    · obtain rfl : disableFirst = _ := hdisable
      have hkept : ∀ scope ∈ info.api.oauth2PermissionScopes, scope.enabled = true →
          scope.id ∈ (info.api.oauth2PermissionScopes.map (disabledScope scopeId)).map
            OAuth2PermissionScope.id := by
        intro scope hscope _
        rw [← disabledScope_id scopeId scope]
        exact List.mem_map_of_mem (List.mem_map_of_mem hscope)
      have hproper : (Command.deleteApiScope objectId scopeId).Proper s'.directory
          (.patchExposeApi objectId ⟨none, some
            ⟨some (info.api.oauth2PermissionScopes.map (disabledScope scopeId)), none⟩⟩) :=
        ⟨info, hinfo, hkept, rfl, _, _, rfl, sameApart_disabledScope scopeId _, .inl rfl⟩
      refine Meets.tryThen (meets_patchExposeApi hs' hproper
        (hs'.patchApi hinfo (wellFormed_disabled hwf scopeId))) (fun s'' e h => h) fun s'' _ h => ?_
      have hinfo' : s''.directory.api objectId = some
          (info.withScopes (info.api.oauth2PermissionScopes.map (disabledScope scopeId))) := by
        rw [h.1]
        exact Directory.patchApi_api hinfo _
      exact removeScope_meets h.2 hinfo' (sameApart_disabledScope scopeId _).symm rfl
        fun scope hscope => enabled_disabledScope hscope
    · obtain rfl : disableFirst = _ := hdisable
      refine removeScope_meets hs' hinfo rfl rfl fun scope hscope heq => ?_
      rw [List.inj_on_of_nodup_map hwf.scopeIds hscope htarget (heq.trans hid.symm)]
      exact hoff

theorem setPreAuthorizedApp_meets (hs : s.directory.WellFormed) (objectId : Text)
    (input : SetPreAuthorizedAppInput) :
    Meets (graph tenantId applies) (Command.setPreAuthorizedApp objectId input).Safe Well s
      (setPreAuthorizedApp objectId input).run := by
  refine meets_ofExcept (fun e _ => hs) fun _ hvalid => ?_
  refine meets_fetch ⟨hs, trivial⟩ (fun s' e hdrift => hdrift.well hs) fun s' info hdrift hinfo => ?_
  have hs' := hdrift.well hs
  rw [← hdrift.directory] at hinfo
  refine meets_ofExcept (fun e _ => hs') fun clients hclients => ?_
  obtain ⟨hwf, hsame⟩ := planPreAuthorized_kept hvalid hclients (hs'.apis objectId info hinfo)
  have hproper : (Command.setPreAuthorizedApp objectId input).Proper s'.directory
      (.patchExposeApi objectId ⟨none, some ⟨none, some clients⟩⟩) :=
    ⟨info, hinfo, fun scope hscope _ => List.mem_map_of_mem hscope, rfl, clients, rfl, hsame⟩
  exact Meets.well (meets_patchExposeApi hs' hproper (hs'.patchApi hinfo hwf))

theorem removePreAuthorizedApp_meets (hs : s.directory.WellFormed) (objectId clientAppId : Text) :
    Meets (graph tenantId applies) (Command.removePreAuthorizedApp objectId clientAppId).Safe Well s
      (removePreAuthorizedApp objectId clientAppId).run := by
  refine meets_fetch ⟨hs, trivial⟩ (fun s' e hdrift => hdrift.well hs) fun s' info hdrift hinfo => ?_
  have hs' := hdrift.well hs
  rw [← hdrift.directory] at hinfo
  cases hplan : planPreAuthorizedRemoval info.api.preAuthorizedApplications clientAppId with
  | none => exact hs'
  | some clients =>
    obtain ⟨hwf, hsame⟩ := planPreAuthorizedRemoval_kept hplan (hs'.apis objectId info hinfo)
    have hproper : (Command.removePreAuthorizedApp objectId clientAppId).Proper s'.directory
        (.patchExposeApi objectId ⟨none, some ⟨none, some clients⟩⟩) :=
      ⟨info, hinfo, fun scope hscope _ => List.mem_map_of_mem hscope, rfl, clients, rfl, hsame⟩
    exact Meets.well (meets_patchExposeApi hs' hproper (hs'.patchApi hinfo hwf))

/-! ## The commands on roles -/

/-- What the cache holds is dropped at the end of a command on roles. -/
theorem forget_meets (hs : s.directory.WellFormed) :
    Meets (graph tenantId applies) cmd.Safe Well s
      (tell .invalidateAppDetails >>= fun _ => tell .invalidateAppRoleResources).run := by
  refine meets_call ⟨hs, trivial⟩ fun _ s' (hdrift : Drift _ s') => ?_
  have hs' := hdrift.well hs
  exact Meets.lift ⟨⟨hs', trivial⟩, fun r t (hr : Drift _ t) => hr.well hs'⟩

theorem target_eq {s' : Tenant N} (h : Drift s s') (servicePrincipalId appId : Text) :
    s.directory.target servicePrincipalId appId = s'.directory.target servicePrincipalId appId := by
  rw [h.directory]

theorem upsertEnterpriseAppRole_meets (hs : s.directory.WellFormed) (servicePrincipalId appId : Text)
    (input : AppRoleInput) :
    Meets (graph tenantId applies) (Command.upsertEnterpriseAppRole servicePrincipalId appId input).Safe
      Well s (upsertEnterpriseAppRole servicePrincipalId appId input).run := by
  refine meets_ofExcept (fun e _ => hs) fun _ hvalid => ?_
  refine meets_resolve ⟨hs, trivial⟩ (fun s₁ e hdrift => hdrift.well hs) fun s₁ hdrift₁ => ?_
  have hs₁ := hdrift₁.well hs
  refine meets_readRoles ⟨hs₁, trivial⟩ (fun s₂ e hdrift => hdrift.well hs₁) fun s₂ hdrift₂ => ?_
  have hs₂ := hdrift₂.well hs₁
  refine meets_givenOrNew ⟨hs₂, trivial⟩ fun s' new hdrift₃ hgiven hfresh => ?_
  have hs' := hdrift₃.well hs₂
  rw [target_eq hdrift₁, target_eq hdrift₂, target_eq hdrift₃, ← hdrift₂.directory, ← hdrift₃.directory]
  generalize htarget : s'.directory.target servicePrincipalId appId = target
  refine meets_ofExcept (fun e _ => hs') fun merged hmerge => ?_
  have hmerged : RolesMerged input.id (s'.directory.roles target) merged := by
    cases hid : input.id with
    | none =>
      rw [hid] at hmerge
      exact mergeRole_new hvalid hmerge (hs'.roles target) ((hfresh hid).2.2 target)
    | some given =>
      rw [hid] at hmerge
      exact mergeRole_edit hvalid hmerge (hs'.roles target)
  have hproper : (Command.upsertEnterpriseAppRole servicePrincipalId appId input).Proper s'.directory
      (.setRoles target merged) :=
    ⟨fun r hr _ => hmerged.kept r hr, hmerged.builtins, htarget.symm, hmerged.keys, hmerged.others⟩
  exact Meets.tryThen (meets_writeRoles hs' hproper hmerged.wellFormed) (fun s'' e h => h)
    fun s'' _ h => forget_meets h.2

/-- The second half of a removal, once the role is disabled. -/
theorem removeRole_meets {servicePrincipalId appId id : Text} {roles : List (Json N)}
    (hs : s.directory.WellFormed) (target : RoleTarget)
    (htarget : s.directory.target servicePrincipalId appId = target)
    (hroles : roles = (s.directory.roles target).filter fun r => roleId r != some id)
    (hbuiltin : roles.filter isBuiltin = (s.directory.roles target).filter isBuiltin)
    (hoff : ∀ r ∈ s.directory.roles target, roleId r = some id → roleEnabled r = false) :
    Meets (graph tenantId applies) (Command.deleteEnterpriseAppRole servicePrincipalId appId id).Safe Well s
      (writeRoles target roles >>= fun _ =>
        tell .invalidateAppDetails >>= fun _ => tell .invalidateAppRoleResources).run := by
  have hkeys : KeysKept ["isEnabled".toList] (s.directory.roles target) roles := by
    intro r hr r' hr' heq key _
    rw [hroles] at hr'
    exact keysKept_refl (hs.roles target) [] r hr r' (List.mem_filter.1 hr').1 heq key List.not_mem_nil ▸ rfl
  have hproper : (Command.deleteEnterpriseAppRole servicePrincipalId appId id).Proper s.directory
      (.setRoles target roles) := by
    refine ⟨fun r hr henabled => ?_, hbuiltin, htarget.symm, hkeys, ?_⟩
    · rw [hroles]
      refine List.mem_map_of_mem (List.mem_filter.2 ⟨hr, bne_iff_ne.2 fun hid => ?_⟩)
      rw [hoff r hr hid] at henabled
      cases henabled
    · rw [hroles]
      exact sameApart_filter _ _
  have hnext : WellFormedRoles roles := by
    rw [hroles]
    exact wellFormed_removedRole (hs.roles target) id
  exact Meets.tryThen (meets_writeRoles hs hproper hnext) (fun s'' e h => h) fun s'' _ h => forget_meets h.2

theorem deleteEnterpriseAppRole_meets (hs : s.directory.WellFormed) (servicePrincipalId appId id : Text) :
    Meets (graph tenantId applies) (Command.deleteEnterpriseAppRole servicePrincipalId appId id).Safe Well s
      (deleteEnterpriseAppRole servicePrincipalId appId id).run := by
  refine meets_resolve ⟨hs, trivial⟩ (fun s₁ e hdrift => hdrift.well hs) fun s₁ hdrift₁ => ?_
  have hs₁ := hdrift₁.well hs
  refine meets_readRoles ⟨hs₁, trivial⟩ (fun s₂ e hdrift => hdrift.well hs₁) fun s' hdrift₂ => ?_
  have hs' := hdrift₂.well hs₁
  rw [target_eq hdrift₁, target_eq hdrift₂, ← hdrift₂.directory]
  generalize htarget : s'.directory.target servicePrincipalId appId = target
  have hwf := hs'.roles target
  refine meets_ofExcept (fun e _ => hs') fun found hplan => ?_
  cases found with
  | none => exact hs'
  | some plan =>
    obtain ⟨hroles, role, hrole, hid, hcustom, hcase⟩ := planRoleRemoval_spec hplan
    obtain ⟨disableFirst, roles⟩ := plan
    obtain rfl : roles = _ := hroles
    obtain ⟨hbuiltinMap, hbuiltinFilter⟩ := builtins_removal hwf hrole hid hcustom
    rcases hcase with ⟨-, hdisable⟩ | ⟨hoff, hdisable⟩
    · obtain rfl : disableFirst = _ := hdisable
      have hproper : (Command.deleteEnterpriseAppRole servicePrincipalId appId id).Proper s'.directory
          (.setRoles target ((s'.directory.roles target).map (disabledRole id))) := by
        refine ⟨fun r hr _ => ?_, hbuiltinMap, htarget.symm, ?_, ?_⟩
        · rw [← disabledRole_id id r]
          exact List.mem_map_of_mem (List.mem_map_of_mem hr)
        · intro r hr r' hr' heq key hkey
          obtain ⟨o, ho, rfl⟩ := List.mem_map.1 hr'
          rw [disabledRole_id] at heq
          rw [eq_of_roleId hwf ho hr heq]
          exact disabledRole_get id r (by simpa using hkey)
        · exact sameApart_disabledRole id _
      refine Meets.tryThen (meets_writeRoles hs' hproper (wellFormed_disabledRole hwf id))
        (fun s'' e h => h) fun s'' _ h => ?_
      have hnow : s''.directory.roles target = (s'.directory.roles target).map (disabledRole id) := by
        rw [h.1]
        exact Directory.setRoles_roles target _
      refine removeRole_meets h.2 target ?_ ?_ ?_ ?_
      · rw [h.1]
        exact htarget
      · rw [hnow]
        exact (sameApart_disabledRole id _).symm
      · rw [hnow, hbuiltinMap, hbuiltinFilter]
      · rw [hnow]
        intro r hr heq
        obtain ⟨o, ho, rfl⟩ := List.mem_map.1 hr
        rw [disabledRole_id] at heq
        exact roleEnabled_disabledRole heq
    · obtain rfl : disableFirst = _ := hdisable
      refine removeRole_meets hs' target htarget rfl hbuiltinFilter fun r hr heq => ?_
      rw [eq_of_roleId hwf hr hrole (heq.trans hid.symm)]
      exact hoff

/-! ## Runs -/

theorem command_meets (hs : s.directory.WellFormed) (cmd : Command) :
    Meets (graph tenantId applies) cmd.Safe Well s cmd.program := by
  cases cmd with
  | addIdentifierUri objectId uri => exact addIdentifierUri_meets hs objectId uri
  | removeIdentifierUri objectId uri => exact removeIdentifierUri_meets hs objectId uri
  | upsertApiScope objectId input => exact upsertApiScope_meets hs objectId input
  | deleteApiScope objectId scopeId => exact deleteApiScope_meets hs objectId scopeId
  | setPreAuthorizedApp objectId input => exact setPreAuthorizedApp_meets hs objectId input
  | removePreAuthorizedApp objectId clientAppId => exact removePreAuthorizedApp_meets hs objectId clientAppId
  | upsertEnterpriseAppRole servicePrincipalId appId input =>
    exact upsertEnterpriseAppRole_meets hs servicePrincipalId appId input
  | deleteEnterpriseAppRole servicePrincipalId appId id =>
    exact deleteEnterpriseAppRole_meets hs servicePrincipalId appId id

theorem performs_wellFormed {s' : Tenant N} (hs : s.directory.WellFormed)
    (h : Performs tenantId applies s cmd s') : s'.directory.WellFormed := by
  obtain ⟨r, hexec⟩ := h
  exact (command_meets hs cmd).sound hexec

theorem run_wellFormed {s₀ : Tenant N} {cmds : List Command} (hs₀ : s₀.directory.WellFormed)
    (hrun : Run (Performs tenantId applies) s₀ cmds s) : s.directory.WellFormed :=
  hrun.invariant (fun _ s => s.directory.WellFormed) hs₀ fun _ _ _ _ _ hs hstep => performs_wellFormed hs hstep

/-- After any commands, with any inputs and any of their PATCHes failed, the directory is well formed, and
    so it is at every call of the next; of the live definitions a PATCH removes nothing enabled, leaves the
    roles without a value alone, and changes only what its command names. -/
theorem definitions_kept {s₀ : Tenant N} {cmds : List Command} (hs₀ : s₀.directory.WellFormed)
    (hrun : Run (Performs tenantId applies) s₀ cmds s) :
    s.directory.WellFormed ∧
      ∀ (cmd : Command) (s' : Tenant N) (c : Call N), Asks (graph tenantId applies) s cmd.program s' c →
        s'.directory.WellFormed ∧ cmd.Proper s'.directory c := by
  have hs := run_wellFormed hs₀ hrun
  exact ⟨hs, fun cmd s' c hasks => (command_meets hs cmd).asked hasks⟩

end Commands

/-- One application with one scope, which a client is authorized for. -/
def oneScope (N : Type) : Tenant N where
  directory :=
    { api := fun objectId =>
      if objectId = "o".toList then
        some ⟨["api://o".toList],
          ⟨[⟨"1".toList, "read".toList, none, none, none, none, none, none⟩],
            [⟨"client".toList, ["1".toList]⟩]⟩⟩
      else none
      registrations := fun _ => none
      roles := fun _ => [] }
  sent := 0
  applied := 0
  cache := ⟨true, fun _ _ => none⟩
  storedAt _ _ := 0

theorem oneScope_wellFormed (N : Type) : (oneScope N).directory.WellFormed := by
  have hnone : WellFormedRoles ([] : List (Json N)) :=
    ⟨fun r hr => absurd hr List.not_mem_nil, List.nodup_nil, .nil⟩
  refine ⟨fun objectId info hinfo => ?_, fun target => hnone⟩
  change (if _ then _ else _) = _ at hinfo
  split at hinfo
  · obtain rfl := Option.some.inj hinfo
    constructor <;> decide
  · cases hinfo

/-- Graph where every PATCH is applied. -/
def serveGraph (s : Tenant Nat) : (c : Call Nat) → Option (Answer c × Tenant Nat)
  | .getExposeApi objectId => some (.ok (s.directory.api objectId), s)
  | .patchExposeApi objectId body => some (.ok (), s.patched (s.directory.patchApi objectId body))
  | .invalidateAppDetails => some ((), { s with cache := Tiers.invalidateAppDetails s.cache "t".toList })
  | _ => none

theorem graph_of_serveGraph (s : Tenant Nat) (c : Call Nat) (r : Answer c) (s' : Tenant Nat)
    (h : serveGraph s c = some (r, s')) : graph "t".toList (fun _ => true) s c r s' := by
  cases c with
  | getExposeApi objectId =>
    obtain ⟨rfl, rfl⟩ := Prod.mk.inj (Option.some.inj h)
    exact ⟨.refl s, fun info hinfo => (Except.ok.inj hinfo).symm⟩
  | patchExposeApi objectId body =>
    obtain ⟨rfl, rfl⟩ := Prod.mk.inj (Option.some.inj h)
    exact ⟨rfl, .refl _⟩
  | invalidateAppDetails =>
    obtain ⟨-, rfl⟩ := Prod.mk.inj (Option.some.inj h)
    exact Drift.refl _
  | _ => cases h

/-- The scope is removed, and the client that was authorized for nothing else with it. -/
theorem definitions_kept_removed :
    ∃ s : Tenant Nat, s.directory.api "o".toList = some ⟨["api://o".toList], ⟨[], []⟩⟩ ∧
      s.directory.WellFormed ∧
        ∀ (cmd : Command) (s' : Tenant Nat) (c : Call Nat),
          Asks (graph "t".toList fun _ => true) s cmd.program s' c →
            s'.directory.WellFormed ∧ cmd.Proper s'.directory c := by
  have hrun : ((Command.deleteApiScope "o".toList "1".toList).program.run serveGraph (oneScope Nat)).map
      (fun e => e.2.directory.api "o".toList) = some (some ⟨["api://o".toList], ⟨[], []⟩⟩) := by
    rfl
  obtain ⟨r, s, hexec, hview⟩ := exists_exec_of_run graph_of_serveGraph hrun
  exact ⟨s, hview, definitions_kept (oneScope_wellFormed Nat) (Run.single ⟨r, hexec⟩)⟩

end Definitions
