import AzAppToolkit.App.CacheTiers
import AzAppToolkit.Definitions.Kept

set_option autoImplicit false

/-! # The commands that edit definitions

The commands of `expose_api.rs` and `app_roles.rs`: read what is live, merge the change, write the whole
array back, and drop what the cache holds of it.

A PATCH is applied as a whole or fails without effect; `applies` says which, by its number. Others may
store entries in the cache, or drop them, at any time. When an entry was stored is kept beside the cache,
by the number of the PATCHes applied so far. -/

namespace Definitions

open Prog
open Tester (UiError)
open Tiers (AppCache)

variable {N : Type}

/-! ## Calls -/

structure ApiApplicationPatch where
  oauth2PermissionScopes : Option (List OAuth2PermissionScope)
  preAuthorizedApplications : Option (List PreAuthorizedApplication)

structure ApplicationExposeApiPatch where
  identifierUris : Option (List Text)
  api : Option ApiApplicationPatch

/-- Where the roles of an enterprise application live. -/
inductive RoleTarget where
  | application (id : Text)
  | servicePrincipal (id : Text)
deriving DecidableEq

inductive Call (N : Type) where
  | getExposeApi (objectId : Text)
  | patchExposeApi (objectId : Text) (body : ApplicationExposeApiPatch)
  | findApplication (appId : Text)
  | getRoles (target : RoleTarget)
  | setRoles (target : RoleTarget) (roles : List (Json N))
  | newGuid
  | invalidateAppDetails
  | invalidateAppRoleResources

/-- An error of a read or a PATCH is the `UiError` it becomes. -/
@[reducible] def Answer : Call N → Type
  | .getExposeApi _ => Except UiError (Option ApplicationExposeApi)
  | .patchExposeApi _ _ => Except UiError Unit
  | .findApplication _ => Except UiError (Option Text)
  | .getRoles _ => Except UiError (List (Json N))
  | .setRoles _ _ => Except UiError Unit
  | .newGuid => Text
  | .invalidateAppDetails | .invalidateAppRoleResources => Unit

abbrev Steps (N α : Type) := ExceptT UiError (Prog (Answer (N := N))) α

def ofExcept {α : Type} (r : Except UiError α) : Steps N α := ExceptT.mk (.done r)

def getExposeApi (objectId : Text) : Steps N (Option ApplicationExposeApi) :=
  ExceptT.mk (call (Call.getExposeApi objectId))

def patchExposeApi (objectId : Text) (body : ApplicationExposeApiPatch) : Steps N Unit :=
  ExceptT.mk (call (Call.patchExposeApi objectId body))

def findApplication (appId : Text) : Steps N (Option Text) := ExceptT.mk (call (Call.findApplication appId))

def readRoles (target : RoleTarget) : Steps N (List (Json N)) := ExceptT.mk (call (Call.getRoles target))

def writeRoles (target : RoleTarget) (roles : List (Json N)) : Steps N Unit :=
  ExceptT.mk (call (Call.setRoles target roles))

/-- A call that cannot fail. -/
def tell (c : Call N) : Steps N (Answer c) := ExceptT.lift (call c)

/-! ## Expose an API -/

def fetchExposeApi (objectId : Text) : Steps N ApplicationExposeApi := do
  match ← getExposeApi objectId with
  | some info => pure info
  | none => ofExcept (notFound "application" "application not found".toList)

def patchUris (objectId : Text) (uris : List Text) : Steps N Unit :=
  patchExposeApi objectId ⟨some uris, none⟩

def patchScopes (objectId : Text) (scopes : List OAuth2PermissionScope) : Steps N Unit :=
  patchExposeApi objectId ⟨none, some ⟨some scopes, none⟩⟩

def patchClients (objectId : Text) (clients : List PreAuthorizedApplication) : Steps N Unit :=
  patchExposeApi objectId ⟨none, some ⟨none, some clients⟩⟩

def addIdentifierUri (objectId uri : Text) : Steps N Unit := do
  let live ← fetchExposeApi objectId
  let uris ← ofExcept (planUriAdd live.identifierUris uri)
  patchUris objectId uris

def removeIdentifierUri (objectId uri : Text) : Steps N Unit := do
  let live ← fetchExposeApi objectId
  match planUriRemoval live.identifierUris uri with
  | none => pure ()
  | some uris => patchUris objectId uris

/-- `unwrap_or_else(new_v4_guid)`. -/
def givenOrNew (id : Option Text) : Steps N Text :=
  match id with
  | some id => pure id
  | none => tell .newGuid

def upsertApiScope (objectId : Text) (input : UpsertApiScopeInput) : Steps N Unit := do
  ofExcept (validateScopeInput input)
  let live ← fetchExposeApi objectId
  let id ← givenOrNew input.id
  let scopes ← ofExcept (mergeScope live.api.oauth2PermissionScopes (buildScope input id) input.id.isSome)
  patchScopes objectId scopes
  tell .invalidateAppDetails

def deleteApiScope (objectId scopeId : Text) : Steps N Unit := do
  let live ← fetchExposeApi objectId
  match planScopeRemoval live.api scopeId with
  | none => pure ()
  | some plan =>
    match plan.disableFirst with
    | some disabled => patchScopes objectId disabled
    | none => pure ()
    patchExposeApi objectId ⟨none, some ⟨some plan.scopes, some plan.preAuthorized⟩⟩
    tell .invalidateAppDetails

def setPreAuthorizedApp (objectId : Text) (input : SetPreAuthorizedAppInput) : Steps N Unit := do
  ofExcept (validatePreAuthorizedInput input)
  let live ← fetchExposeApi objectId
  let clients ← ofExcept (planPreAuthorized live.api input)
  patchClients objectId clients

def removePreAuthorizedApp (objectId clientAppId : Text) : Steps N Unit := do
  let live ← fetchExposeApi objectId
  match planPreAuthorizedRemoval live.api.preAuthorizedApplications clientAppId with
  | none => pure ()
  | some clients => patchClients objectId clients

/-! ## App roles -/

def resolveTarget (servicePrincipalId appId : Text) : Steps N RoleTarget := do
  match ← findApplication appId with
  | some id => pure (.application id)
  | none => pure (.servicePrincipal servicePrincipalId)

def upsertEnterpriseAppRole (servicePrincipalId appId : Text) (input : AppRoleInput) : Steps N Unit := do
  ofExcept (validateRoleInput input)
  let target ← resolveTarget servicePrincipalId appId
  let live ← readRoles target
  -- the GUID is drawn before the merge that may refuse the input
  let new ← givenOrNew input.id
  let merged ← ofExcept (mergeRole new live input input.id)
  writeRoles target merged
  tell .invalidateAppDetails
  tell .invalidateAppRoleResources

def deleteEnterpriseAppRole (servicePrincipalId appId roleId : Text) : Steps N Unit := do
  let target ← resolveTarget servicePrincipalId appId
  let live ← readRoles target
  match ← ofExcept (planRoleRemoval live roleId) with
  | none => pure ()
  | some plan =>
    match plan.disableFirst with
    | some disabled => writeRoles target disabled
    | none => pure ()
    writeRoles target plan.roles
    tell .invalidateAppDetails
    tell .invalidateAppRoleResources

inductive Command where
  | addIdentifierUri (objectId uri : Text)
  | removeIdentifierUri (objectId uri : Text)
  | upsertApiScope (objectId : Text) (input : UpsertApiScopeInput)
  | deleteApiScope (objectId scopeId : Text)
  | setPreAuthorizedApp (objectId : Text) (input : SetPreAuthorizedAppInput)
  | removePreAuthorizedApp (objectId clientAppId : Text)
  | upsertEnterpriseAppRole (servicePrincipalId appId : Text) (input : AppRoleInput)
  | deleteEnterpriseAppRole (servicePrincipalId appId roleId : Text)

def Command.program : Command → Prog (Answer (N := N)) (Except UiError Unit)
  | .addIdentifierUri objectId uri => (Definitions.addIdentifierUri objectId uri).run
  | .removeIdentifierUri objectId uri => (Definitions.removeIdentifierUri objectId uri).run
  | .upsertApiScope objectId input => (Definitions.upsertApiScope objectId input).run
  | .deleteApiScope objectId scopeId => (Definitions.deleteApiScope objectId scopeId).run
  | .setPreAuthorizedApp objectId input => (Definitions.setPreAuthorizedApp objectId input).run
  | .removePreAuthorizedApp objectId clientAppId =>
    (Definitions.removePreAuthorizedApp objectId clientAppId).run
  | .upsertEnterpriseAppRole servicePrincipalId appId input =>
    (Definitions.upsertEnterpriseAppRole servicePrincipalId appId input).run
  | .deleteEnterpriseAppRole servicePrincipalId appId roleId =>
    (Definitions.deleteEnterpriseAppRole servicePrincipalId appId roleId).run

/-! ## The tenant -/

/-- What Graph holds. -/
structure Directory (N : Type) where
  api : Text → Option ApplicationExposeApi
  /-- The application registered under an app id. -/
  registrations : Text → Option Text
  roles : RoleTarget → List (Json N)

def ApplicationExposeApi.patched (info : ApplicationExposeApi) (body : ApplicationExposeApiPatch) :
    ApplicationExposeApi where
  identifierUris := body.identifierUris.getD info.identifierUris
  api :=
    match body.api with
    | none => info.api
    | some api =>
      ⟨api.oauth2PermissionScopes.getD info.api.oauth2PermissionScopes,
        api.preAuthorizedApplications.getD info.api.preAuthorizedApplications⟩

def Directory.patchApi (d : Directory N) (objectId : Text) (body : ApplicationExposeApiPatch) :
    Directory N :=
  { d with api := fun o => if o = objectId then (d.api o).map fun info => info.patched body else d.api o }

def Directory.setRoles (d : Directory N) (target : RoleTarget) (roles : List (Json N)) : Directory N :=
  { d with roles := fun t => if t = target then roles else d.roles t }

structure Tenant (N : Type) where
  directory : Directory N
  /-- The PATCHes sent, and those of them that were applied. -/
  sent : Nat
  applied : Nat
  cache : AppCache
  storedAt : CacheKind → Text → Nat

/-- What others do meanwhile: an entry that is there was there, or is stored now. -/
structure Drift (s s' : Tenant N) : Prop where
  directory : s'.directory = s.directory
  sent : s'.sent = s.sent
  applied : s'.applied = s.applied
  entries : ∀ kind key, s'.cache.entries kind key ≠ none → s'.storedAt kind key = s.applied ∨
    (s.cache.entries kind key ≠ none ∧ s'.storedAt kind key = s.storedAt kind key)

def Tenant.patched (s : Tenant N) (next : Directory N) : Tenant N :=
  { s with directory := next, sent := s.sent + 1, applied := s.applied + 1 }

theorem Drift.refl (s : Tenant N) : Drift s s := ⟨rfl, rfl, rfl, fun _ _ h => .inr ⟨h, rfl⟩⟩

/-- Where the roles of an application are kept. -/
def Directory.target (d : Directory N) (servicePrincipalId appId : Text) : RoleTarget :=
  match d.registrations appId with
  | some id => .application id
  | none => .servicePrincipal servicePrincipalId

/-- A GUID that no scope and no role has. -/
def Directory.Fresh (d : Directory N) (id : Text) : Prop :=
  id ≠ [] ∧
    (∀ objectId info, d.api objectId = some info →
      id ∉ info.api.oauth2PermissionScopes.map OAuth2PermissionScope.id) ∧
    ∀ target, some id ∉ (d.roles target).map roleId

/-- A PATCH takes the directory to another, or fails. -/
def Patches (applies : Nat → Bool) (s : Tenant N) (next : Directory N) (r : Except UiError Unit)
    (s' : Tenant N) : Prop :=
  if applies s.sent then
    r = .ok () ∧ Drift (s.patched next) s'
  else (∃ e, r = .error e) ∧ Drift { s with sent := s.sent + 1 } s'

def graph (tenantId : Text) (applies : Nat → Bool) : World (Answer (N := N)) (Tenant N)
  | s, .getExposeApi objectId, r, s' => Drift s s' ∧ ∀ info, r = .ok info → info = s.directory.api objectId
  | s, .patchExposeApi objectId body, r, s' =>
    Patches applies s (s.directory.patchApi objectId body) r s'
  | s, .findApplication appId, r, s' =>
    Drift s s' ∧ ∀ found, r = .ok found → found = s.directory.registrations appId
  | s, .getRoles target, r, s' => Drift s s' ∧ ∀ roles, r = .ok roles → roles = s.directory.roles target
  | s, .setRoles target roles, r, s' => Patches applies s (s.directory.setRoles target roles) r s'
  | s, .newGuid, r, s' => Drift s s' ∧ s.directory.Fresh r
  | s, .invalidateAppDetails, _, s' =>
    Drift { s with cache := Tiers.invalidateAppDetails s.cache tenantId } s'
  | s, .invalidateAppRoleResources, _, s' =>
    Drift { s with cache := Tiers.invalidateAppRoleResources s.cache tenantId } s'

/-- A command is run from one state to another. -/
def Performs (tenantId : Text) (applies : Nat → Bool) (s : Tenant N) (cmd : Command) (s' : Tenant N) :
    Prop :=
  ∃ r, Exec (graph tenantId applies) s cmd.program s' r

/-! ## Rules for the calls -/

section Rules

variable {α β : Type} {tenantId : Text} {applies : Nat → Bool} {ok : Tenant N → Call N → Prop}
  {post : Tenant N → Except UiError α → Prop} {s : Tenant N}

theorem meets_fetch {objectId : Text} {f : ApplicationExposeApi → Steps N α}
    (hok : ok s (.getExposeApi objectId)) (hfail : ∀ s' e, Drift s s' → post s' (.error e))
    (h : ∀ s' info, Drift s s' → s.directory.api objectId = some info →
      Meets (graph tenantId applies) ok post s' (f info).run) :
    Meets (graph tenantId applies) ok post s (fetchExposeApi objectId >>= f).run := by
  refine Meets.tryBind (Meets.tryBind ⟨hok, fun r s' hr => ?_⟩)
  obtain ⟨hdrift, hr⟩ := hr
  cases r with
  | error e => exact hfail s' e hdrift
  | ok found =>
    cases found with
    | none => exact hfail s' _ hdrift
    | some info => exact h s' info hdrift (hr _ rfl).symm

theorem meets_ofExcept {r : Except UiError β} {f : β → Steps N α}
    (hfail : ∀ e, r = .error e → post s (.error e))
    (h : ∀ b, r = .ok b → Meets (graph tenantId applies) ok post s (f b).run) :
    Meets (graph tenantId applies) ok post s (ofExcept r >>= f).run := by
  refine Meets.tryBind ?_
  cases r with
  | error e => exact hfail e rfl
  | ok b => exact h b rfl

theorem meets_call {c : Call N} {f : Answer c → Steps N α} (hok : ok s c)
    (h : ∀ r s', graph tenantId applies s c r s' → Meets (graph tenantId applies) ok post s' (f r).run) :
    Meets (graph tenantId applies) ok post s (tell c >>= f).run :=
  Meets.liftBind ⟨hok, fun r s' hr => h r s' hr⟩

theorem meets_resolve {servicePrincipalId appId : Text} {f : RoleTarget → Steps N α}
    (hok : ok s (.findApplication appId)) (hfail : ∀ s' e, Drift s s' → post s' (.error e))
    (h : ∀ s', Drift s s' → Meets (graph tenantId applies) ok post s'
      (f (s.directory.target servicePrincipalId appId)).run) :
    Meets (graph tenantId applies) ok post s (resolveTarget servicePrincipalId appId >>= f).run := by
  refine Meets.tryBind (Meets.tryBind ⟨hok, fun r s' hr => ?_⟩)
  obtain ⟨hdrift, hr⟩ := hr
  cases r with
  | error e => exact hfail s' e hdrift
  | ok found =>
    have htarget := h s' hdrift
    unfold Directory.target at htarget
    rw [← hr found rfl] at htarget
    cases found with
    | none => exact htarget
    | some id => exact htarget

theorem meets_readRoles {target : RoleTarget} {f : List (Json N) → Steps N α}
    (hok : ok s (.getRoles target)) (hfail : ∀ s' e, Drift s s' → post s' (.error e))
    (h : ∀ s', Drift s s' → Meets (graph tenantId applies) ok post s' (f (s.directory.roles target)).run) :
    Meets (graph tenantId applies) ok post s (readRoles target >>= f).run := by
  refine Meets.tryBind ⟨hok, fun r s' hr => ?_⟩
  obtain ⟨hdrift, hr⟩ := hr
  cases r with
  | error e => exact hfail s' e hdrift
  | ok roles =>
    rw [hr roles rfl]
    exact h s' hdrift

/-- The GUID of an entry is the one given, or one that no other has. -/
theorem meets_givenOrNew {id : Option Text} {f : Text → Steps N α} (hok : ok s .newGuid)
    (h : ∀ s' new, Drift s s' → (∀ given, id = some given → new = given) →
      (id = none → s'.directory.Fresh new) → Meets (graph tenantId applies) ok post s' (f new).run) :
    Meets (graph tenantId applies) ok post s (givenOrNew id >>= f).run := by
  cases id with
  | some given => exact h s given (.refl s) (fun _ heq => Option.some.inj heq) (fun hnone => by cases hnone)
  | none =>
    refine meets_call hok fun new s' hr => ?_
    obtain ⟨hdrift, hfresh⟩ := hr
    refine h s' new hdrift (fun _ heq => by cases heq) fun _ => ?_
    rw [hdrift.directory]
    exact hfresh

end Rules

end Definitions
