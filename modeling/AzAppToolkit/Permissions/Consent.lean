import AzAppToolkit.Graph.Errors
import AzAppToolkit.Lib.Serve
import AzAppToolkit.Lib.Words

set_option autoImplicit false

/-! # Admin consent

`consent_with_sp` of `permissions/consent.rs` and `upsert_admin_oauth2_grant_in` of
`client/roles_grants.rs`, against a directory that keeps one grant for all principals for each resource
and rejects what is there already.

Both snapshots are read once, before the loop over the declared resources: the run grants what is
declared exactly if no role that is missing is declared twice, and the last block that adds scopes to a
resource brings all that its other blocks add. -/

namespace Permissions

open Prog
open Graph (GraphError)

/-! ## Data -/

structure ResourceAccess where
  id : Text
  type : Text

structure RequiredResourceAccess where
  resourceAppId : Text
  resourceAccess : List ResourceAccess

structure PermissionScope where
  id : Text
  value : Text

structure ServicePrincipal where
  id : Text
  oauth2PermissionScopes : List PermissionScope

structure AppRoleAssignment where
  principalId : Text
  resourceId : Text
  appRoleId : Text

structure OAuth2PermissionGrant where
  id : Option Text
  clientId : Text
  resourceId : Text
  consentType : Text
  principalId : Option Text
  scope : Text
deriving DecidableEq

structure SkippedRole where
  resourceAppId : Text
  appRoleId : Text
  reason : Text

structure ScopeGrantSummary where
  resourceAppId : Text
  grant : OAuth2PermissionGrant
  scopesAdded : List Text

structure GrantFailure where
  resourceAppId : Text
  permissionId : Option Text
  kind : Text
  message : Text

structure GrantResult where
  clientServicePrincipalId : Text
  roleAssignmentsCreated : List AppRoleAssignment
  roleAssignmentsSkipped : List SkippedRole
  scopeGrantsUpserted : List ScopeGrantSummary
  failures : List GrantFailure

def GrantResult.fail (result : GrantResult) (failure : GrantFailure) : GrantResult :=
  { result with failures := result.failures ++ [failure] }

/-- The texts of an error. -/
structure Wording where
  display : GraphError → Text
  grantFailureMessage : GraphError → Text

/-! ## Calls -/

inductive Call where
  | listAppRoleAssignments (clientSpId : Text)
  | listOauth2Grants (clientSpId : Text)
  | prewarmResourceSps (resourceAppIds : List Text)
  | resolveResourceSp (resourceAppId : Text)
  | grantAppRole (clientSpId resourceSpId appRoleId : Text)
  | createOauth2Grant (grant : OAuth2PermissionGrant)
  | updateOauth2GrantScope (grantId scope : Text)

abbrev Answer : Call → Type
  | .listAppRoleAssignments _ => Except GraphError (List AppRoleAssignment)
  | .listOauth2Grants _ => Except GraphError (List OAuth2PermissionGrant)
  | .prewarmResourceSps _ => Unit
  | .resolveResourceSp _ => Except GraphError (Option ServicePrincipal)
  | .grantAppRole _ _ _ => Except GraphError AppRoleAssignment
  | .createOauth2Grant _ => Except GraphError OAuth2PermissionGrant
  | .updateOauth2GrantScope _ _ => Except GraphError Unit

abbrev Async (α : Type) := Prog Answer α

def call (c : Call) : Async (Answer c) := Prog.call c

/-! ## Consent -/

def allPrincipals : Text := "AllPrincipals".toList

def isAdminGrant (resourceSpId : Text) (g : OAuth2PermissionGrant) : Bool :=
  g.resourceId == resourceSpId && g.consentType == allPrincipals

/-- The union of the words of a grant and the desired ones, in order. -/
def mergedScopes (current desired : List Text) : List Text := Text.dedup (Text.sort (current ++ desired))

def upsertAdminOauth2GrantIn (clientSpId resourceSpId : Text) (desiredScopes : List Text)
    (existingGrants : List OAuth2PermissionGrant) : Async (Except GraphError OAuth2PermissionGrant) :=
  match existingGrants.find? (isAdminGrant resourceSpId) with
  | some existing =>
    let current := Words.splitWhitespace existing.scope
    if desiredScopes.all (fun s => List.contains current s) then pure (.ok existing)
    else
      let scopeStr := Text.join [' '] (mergedScopes current desiredScopes)
      match existing.id with
      | none => pure (.error (.protocol "existing oauth2PermissionGrant has no id".toList))
      | some grantId => do
          match ← call (.updateOauth2GrantScope grantId scopeStr) with
          | .error err => return .error err
          | .ok () => return .ok { existing with scope := scopeStr }
  | none => call (.createOauth2Grant
      { id := none
        clientId := clientSpId
        resourceId := resourceSpId
        consentType := allPrincipals
        principalId := none
        scope := Text.join [' '] desiredScopes })

def rolesOf (resource : RequiredResourceAccess) : List ResourceAccess :=
  resource.resourceAccess.filter (fun a => a.type == "Role".toList)

def scopeIdsOf (resource : RequiredResourceAccess) : List Text :=
  (resource.resourceAccess.filter (fun a => a.type == "Scope".toList)).map (·.id)

def exposedValue (sp : ServicePrincipal) (id : Text) : Option Text :=
  (sp.oauth2PermissionScopes.find? (fun s => s.id == id)).map (·.value)

def resourceMissing (resourceAppId : Text) : GrantFailure :=
  ⟨resourceAppId, none, "Resource".toList, "resource service principal not found".toList⟩

def scopeNotExposed (resourceAppId id : Text) : GrantFailure :=
  ⟨resourceAppId, some id, "Scope".toList, "scope id not exposed by resource SP".toList⟩

/-- The scope ids of a block that its resource does not expose. -/
def unexposed (resource : RequiredResourceAccess) (sp : ServicePrincipal) : List GrantFailure :=
  ((scopeIdsOf resource).filter (fun id => !sp.oauth2PermissionScopes.any (fun s => s.id == id))).map
    (scopeNotExposed resource.resourceAppId)

section Run

variable (wording : Wording) (clientSpId : Text)

def grantRole (existingAssignments : List AppRoleAssignment) (resource : RequiredResourceAccess)
    (sp : ServicePrincipal) (result : GrantResult) (role : ResourceAccess) : Async GrantResult :=
  if existingAssignments.any (fun a => a.resourceId == sp.id && a.appRoleId == role.id) then
    pure { result with
      roleAssignmentsSkipped := result.roleAssignmentsSkipped ++
        [⟨resource.resourceAppId, role.id, "already assigned".toList⟩] }
  else do
    match ← call (.grantAppRole clientSpId sp.id role.id) with
    | .ok ara => return { result with roleAssignmentsCreated := result.roleAssignmentsCreated ++ [ara] }
    | .error err => return (result.fail
        ⟨resource.resourceAppId, some role.id, "Role".toList, wording.grantFailureMessage err⟩)

def grantScopes (existingGrants : List OAuth2PermissionGrant) (resource : RequiredResourceAccess)
    (sp : ServicePrincipal) (result : GrantResult) : Async GrantResult :=
  let scopeIds := scopeIdsOf resource
  if scopeIds.isEmpty then pure result
  else
    let scopeValues := scopeIds.filterMap (exposedValue sp)
    let result := { result with failures := result.failures ++ unexposed resource sp }
    if scopeValues.isEmpty then pure result
    else do
      match ← upsertAdminOauth2GrantIn clientSpId sp.id scopeValues existingGrants with
      | .ok grant => return { result with
          scopeGrantsUpserted := result.scopeGrantsUpserted ++
            [⟨resource.resourceAppId, grant, scopeValues⟩] }
      | .error err => return (result.fail
          ⟨resource.resourceAppId, none, "Scope".toList, wording.grantFailureMessage err⟩)

def grantResource (existingAssignments : List AppRoleAssignment)
    (existingGrants : List OAuth2PermissionGrant) (result : GrantResult)
    (resource : RequiredResourceAccess) : Async GrantResult := do
  match ← call (.resolveResourceSp resource.resourceAppId) with
  | .ok none => return (result.fail (resourceMissing resource.resourceAppId))
  | .error err => return (result.fail
      ⟨resource.resourceAppId, none, "Resource".toList, wording.display err⟩)
  | .ok (some sp) => do
      let result ← (rolesOf resource).foldlM
        (grantRole wording clientSpId existingAssignments resource sp) result
      grantScopes wording clientSpId existingGrants resource sp result

def consentWithSp (requiredResourceAccess : List RequiredResourceAccess) :
    Async (Except GraphError GrantResult) := do
  let existingAssignments ← call (.listAppRoleAssignments clientSpId)
  let existingGrants ← call (.listOauth2Grants clientSpId)
  match existingAssignments, existingGrants with
  | .error err, _ => return .error err
  | .ok _, .error err => return .error err
  | .ok existingAssignments, .ok existingGrants => do
      call (.prewarmResourceSps (requiredResourceAccess.map (·.resourceAppId)))
      let result ← requiredResourceAccess.foldlM
        (grantResource wording clientSpId existingAssignments existingGrants)
        ⟨clientSpId, [], [], [], []⟩
      return .ok result

end Run

/-! ## The directory -/

/-- What the tenant holds for the client. -/
structure Tenant where
  grants : List OAuth2PermissionGrant
  assignments : List AppRoleAssignment

def Tenant.assigned (t : Tenant) (resourceSpId appRoleId : Text) : Bool :=
  t.assignments.any (fun a => a.resourceId == resourceSpId && a.appRoleId == appRoleId)

def Tenant.adminGrant (t : Tenant) (resourceSpId : Text) : Option OAuth2PermissionGrant :=
  t.grants.find? (isAdminGrant resourceSpId)

/-- The resources of the tenant, and the ids it gives to new grants. -/
structure Directory where
  resolve : Text → Option ServicePrincipal
  freshId : List OAuth2PermissionGrant → Text
  /-- The value of a scope is one word. -/
  words : ∀ appId sp, resolve appId = some sp → ∀ s ∈ sp.oauth2PermissionScopes, Words.IsWord s.value
  fresh : ∀ grants, ∀ g ∈ grants, g.id ≠ some (freshId grants)

def patchScope (grantId scope : Text) (g : OAuth2PermissionGrant) : OAuth2PermissionGrant :=
  if g.id = some grantId then { g with scope := scope } else g

/-- Every call succeeds, but for a role or a grant that is there already. -/
def Directory.serve (dir : Directory) (t : Tenant) : (c : Call) → Answer c × Tenant
  | .listAppRoleAssignments _ => (.ok t.assignments, t)
  | .listOauth2Grants _ => (.ok t.grants, t)
  | .prewarmResourceSps _ => ((), t)
  | .resolveResourceSp resourceAppId => (.ok (dir.resolve resourceAppId), t)
  | .grantAppRole clientSpId resourceSpId appRoleId =>
    if t.assigned resourceSpId appRoleId then
      (.error (.api 400 "Permission being assigned already exists on the object".toList), t)
    else
      let ara := ⟨clientSpId, resourceSpId, appRoleId⟩
      (.ok ara, { t with assignments := t.assignments ++ [ara] })
  | .createOauth2Grant grant =>
    if grant.consentType == allPrincipals && (t.adminGrant grant.resourceId).isSome then
      (.error (.api 409 "Permission entry already exists.".toList), t)
    else
      let grant := { grant with id := some (dir.freshId t.grants) }
      (.ok grant, { t with grants := t.grants ++ [grant] })
  | .updateOauth2GrantScope grantId scope =>
    if t.grants.any (fun g => g.id = some grantId) then
      (.ok (), { t with grants := t.grants.map (patchScope grantId scope) })
    else (.error (.notFound "Resource not found for the segment".toList), t)

/-- Every grant has an id of its own. -/
structure Tenant.Valid (t : Tenant) : Prop where
  ids : ∀ g ∈ t.grants, g.id.isSome = true
  distinct : (t.grants.map (·.id)).Nodup

/-- The words of the grant for all principals. -/
def Tenant.scopes (t : Tenant) (resourceSpId : Text) : List Text :=
  match t.adminGrant resourceSpId with
  | some g => Words.splitWhitespace g.scope
  | none => []

/-! ## What is declared -/

section Declared

variable (dir : Directory)

/-- The roles of the blocks whose resource is there, one by one. -/
def declaredRoles (blocks : List RequiredResourceAccess) : List (Text × Text) :=
  blocks.flatMap (fun b => match dir.resolve b.resourceAppId with
    | none => []
    | some sp => (rolesOf b).map (fun role => (sp.id, role.id)))

/-- The scopes a block declares on a resource, of those it exposes. -/
def blockScopes (resourceSpId : Text) (b : RequiredResourceAccess) : List Text :=
  match dir.resolve b.resourceAppId with
  | none => []
  | some sp => if sp.id = resourceSpId then (scopeIdsOf b).filterMap (exposedValue sp) else []

/-- The declared entries that cannot be put in place. -/
def notInPlace (blocks : List RequiredResourceAccess) : List GrantFailure :=
  blocks.flatMap (fun b => match dir.resolve b.resourceAppId with
    | none => [resourceMissing b.resourceAppId]
    | some sp => unexposed b sp)

end Declared

end Permissions
