import AzAppToolkit.Audit.Permissions
import AzAppToolkit.Exchange.Verdict
import AzAppToolkit.Graph.Errors
import AzAppToolkit.Lib.Program

set_option autoImplicit false

/-! # The redundant-permissions fix

`remediate_remove_redundant_permissions_core` of `commands/remediation.rs`: read the manifest, the
roles of each resource it declares, the live grants and the Exchange verdicts, plan every removal at
once (`planRedundantRemovals`), revoke one grant after the other and drop the declarations in one
trailing patch.

Modelling choices:
* a hash map collected from a list is looked up by the last entry of a key (`collect`);
* prewarming the resource cache and the log lines are left out: nothing later depends on them. -/

namespace Remediation

open Graph (GraphError)
open Exchange (MailPermissionScope ScopableMailPermission)

/-! ## Data -/

structure ResourceAccess where
  id : Text
  type : Text
deriving DecidableEq

/-- One block of the manifest. -/
structure RequiredResourceAccess where
  resourceAppId : Text
  resourceAccess : List ResourceAccess
deriving DecidableEq

structure Application where
  appId : Text
  requiredResourceAccess : List RequiredResourceAccess

structure AppRole where
  id : Text
  value : Text

/-- The service principal of a resource, with the roles it exposes. -/
structure ResourceSp where
  id : Text
  appRoles : List AppRole

structure AppRoleAssignment where
  id : Text
  appRoleId : Text
  resourceId : Text
deriving DecidableEq

/-- A redundant declared permission that may be removed, and the assignment that grants it. -/
structure RedundantRemoval where
  resourceAppId : Text
  value : Text
  permissionId : Text
  assignmentId : Option Text
deriving DecidableEq

structure RedundantPermissionsOutcome where
  removed : List Text
  skipped : List Text
deriving DecidableEq

def roleType : Text := "Role".toList

/-- A hash map collected from its entries: the last one of a key stands. -/
def collect {α : Type} (entries : List (Text × α)) (key : Text) : Option α :=
  entries.reverse.lookup key

/-! ## The plan -/

/-- The application permissions a block declares, with their values. -/
def declaredRoles (index : Text → Option Text) (resource : RequiredResourceAccess) :
    List (Text × Text) :=
  (resource.resourceAccess.filter (fun a => a.type == roleType)).filterMap
    (fun a => (index a.id).map (fun v => (a.id, v)))

/-- The declared id of a value. -/
def valueToId (declared : List (Text × Text)) : Text → Option Text :=
  collect (declared.map (fun d => (d.2, d.1)))

inductive Decision where
  | keep
  | skip (value : Text)
  | remove (removal : RedundantRemoval)

/-- The permissions of the block that cover the value org-wide. -/
def broadersOf (resourceAppId : Text) (confined : Text → Text → Bool)
    (declared : List (Text × Text)) (value : Text) : List Text :=
  ((Audit.subsumingAppPermissions value).filter (fun b => (valueToId declared b).isSome)).filter
    (fun b => !confined resourceAppId b)

/-- The declared permission of a value is granted. -/
def isGranted (grants : Text → Option Text) (declared : List (Text × Text)) (value : Text) : Bool :=
  ((valueToId declared value).bind grants).isSome

/-- One round of the loop over the declared permissions of a block. -/
def decideRemoval (resourceAppId : Text) (grants : Text → Option Text)
    (confined : Text → Text → Bool) (declared : List (Text × Text)) (entry : Text × Text) :
    Decision :=
  let covering :=
    (Audit.subsumingAppPermissions entry.2).filter (fun b => (valueToId declared b).isSome)
  let broaders := broadersOf resourceAppId confined declared entry.2
  let assignmentId := grants entry.1
  if covering.isEmpty then .keep
  else if broaders.isEmpty then .skip entry.2
  else if assignmentId.isSome && !broaders.any (isGranted grants declared) then .skip entry.2
  else .remove ⟨resourceAppId, entry.2, entry.1, assignmentId⟩

/-- The decisions for one block; a resource without an index is skipped. -/
def decideBlock (roleIndexes : Text → Option (Text → Option Text))
    (granted : Text → Option (Text → Option Text)) (confined : Text → Text → Bool)
    (resource : RequiredResourceAccess) : List Decision :=
  match roleIndexes resource.resourceAppId with
  | none => []
  | some index =>
    let grants := (granted resource.resourceAppId).getD (fun _ => none)
    let declared := declaredRoles index resource
    declared.map (decideRemoval resource.resourceAppId grants confined declared)

def Decision.removal? : Decision → Option RedundantRemoval
  | .remove removal => some removal
  | _ => none

def Decision.skipped? : Decision → Option Text
  | .skip value => some value
  | _ => none

/-- What may be removed, and the redundant values that are kept. -/
def planRedundantRemovals (required : List RequiredResourceAccess)
    (roleIndexes : Text → Option (Text → Option Text))
    (granted : Text → Option (Text → Option Text)) (confined : Text → Text → Bool) :
    List RedundantRemoval × List Text :=
  let decisions := required.flatMap (decideBlock roleIndexes granted confined)
  (decisions.filterMap Decision.removal?, decisions.filterMap Decision.skipped?)

/-! ## Dropping declarations -/

/-- The entry is the one to remove; without a type the id alone decides. -/
def matchesEntry (permissionId : Text) (entryType : Option Text) (a : ResourceAccess) : Bool :=
  a.id == permissionId && (entryType.isNone || entryType == some a.type)

/-- Drop an access from the manifest, then the blocks this emptied; whether anything was dropped. -/
def removeDeclaredAccess (required : List RequiredResourceAccess) (resourceAppId permissionId : Text)
    (entryType : Option Text) : List RequiredResourceAccess × Bool :=
  let hit (r : RequiredResourceAccess) : Bool :=
    r.resourceAppId == resourceAppId && r.resourceAccess.any (matchesEntry permissionId entryType)
  let next := required.map (fun r =>
    if r.resourceAppId == resourceAppId then
      { r with resourceAccess :=
          r.resourceAccess.filter (fun a => !matchesEntry permissionId entryType a) }
    else r)
  if required.any hit then (next.filter (fun r => !r.resourceAccess.isEmpty), true)
  else (next, false)

/-- Drop every declaration of the list; whether anything was dropped. -/
def dropDeclarations (required : List RequiredResourceAccess) (removals : List RedundantRemoval) :
    List RequiredResourceAccess × Bool :=
  removals.foldl (fun acc removal =>
    let step := removeDeclaredAccess acc.1 removal.resourceAppId removal.permissionId (some roleType)
    (step.1, acc.2 || step.2)) (required, false)

/-! ## The calls -/

inductive Call where
  | getApplication (objectId : Text)
  | resolveResourceSp (resourceAppId : Text)
  | getServicePrincipalByAppId (appId : Text)
  | listAppRoleAssignments (servicePrincipalId : Text)
  | resolveMailScopes (appId : Text) (permissions : List ScopableMailPermission)
  | removeAppRoleAssignment (servicePrincipalId assignmentId : Text)
  | updateApplication (objectId : Text) (requiredResourceAccess : List RequiredResourceAccess)
  | invalidateAppDetailState

/-- `resolveMailScopes` is answered `none` when Exchange cannot be reached. -/
abbrev Call.Answer : Call → Type
  | .getApplication _ => Except GraphError Application
  | .resolveResourceSp _ => Except GraphError (Option ResourceSp)
  | .getServicePrincipalByAppId _ => Except GraphError (Option Text)
  | .listAppRoleAssignments _ => Except GraphError (List AppRoleAssignment)
  | .resolveMailScopes _ _ => Option (List (Text × MailPermissionScope))
  | .removeAppRoleAssignment _ _ => Except GraphError Unit
  | .updateApplication _ _ => Except GraphError Unit
  | .invalidateAppDetailState => Unit

/-- The call changes the directory. -/
def Call.writes : Call → Bool
  | .removeAppRoleAssignment _ _ | .updateApplication _ _ => true
  | _ => false

abbrev Async (α : Type) := Prog Call.Answer α

abbrev AsyncResult (α : Type) := ExceptT GraphError (Prog Call.Answer) α

def call (c : Call) : Async c.Answer := Prog.call c

/-! ## The command -/

/-- The resources that could be resolved, each looked up once. -/
def resolveResources (required : List RequiredResourceAccess) : Async (List (Text × ResourceSp)) :=
  required.foldlM (fun (resolved : List (Text × ResourceSp)) resource =>
    if (resolved.lookup resource.resourceAppId).isSome then pure resolved
    else do
      match ← call (.resolveResourceSp resource.resourceAppId) with
      | .ok (some sp) => pure (resolved ++ [(resource.resourceAppId, sp)])
      | _ => pure resolved) []

/-- The values of a resource's roles, by id. -/
def ResourceSp.index (sp : ResourceSp) : Text → Option Text :=
  collect (sp.appRoles.map (fun r => (r.id, r.value)))

/-- The live assignments on a resource, by role id. -/
def ResourceSp.grants (sp : ResourceSp) (assignments : List AppRoleAssignment) :
    Text → Option Text :=
  collect ((assignments.filter (fun a => a.resourceId == sp.id)).map (fun a => (a.appRoleId, a.id)))

def roleIndexes (resolved : Text → Option ResourceSp) (resourceAppId : Text) :
    Option (Text → Option Text) :=
  (resolved resourceAppId).map ResourceSp.index

def grantedOn (resolved : Text → Option ResourceSp) (assignments : List AppRoleAssignment)
    (resourceAppId : Text) : Option (Text → Option Text) :=
  (resolved resourceAppId).map (fun sp => sp.grants assignments)

/-- The live grants of an app; an app without a service principal has none. -/
def grantedMap (resolved : Text → Option ResourceSp) (assignments : Option (List AppRoleAssignment)) :
    Text → Option (Text → Option Text) :=
  match assignments with
  | some assignments => grantedOn resolved assignments
  | none => fun _ => none

/-- The declared permissions a mailbox scope can confine. -/
def scopablePermissions (required : List RequiredResourceAccess)
    (resolved : Text → Option ResourceSp) : List ScopableMailPermission :=
  required.flatMap (fun r =>
    match roleIndexes resolved r.resourceAppId with
    | none => []
    | some index =>
      (declaredRoles index r).filterMap
        (fun d => ScopableMailPermission.onResource r.resourceAppId d.2))

/-- A permission Exchange can confine, unless it is known to be org-wide. -/
def broaderIsConfined (mailScopes : Text → Option MailPermissionScope)
    (resourceAppId broader : Text) : Bool :=
  if !Exchange.isScopableExchangeResourcePermission (some resourceAppId) broader then false
  else mailScopes broader != some .orgWide

structure Revocations where
  declarationsToDrop : List RedundantRemoval
  grantsRevoked : Bool
  error : Option GraphError

/-- Revoke the planned grants in order; the first error stops the loop. A removal without a grant
    needs no call. -/
def revokePlanned (spId : Option Text) : List RedundantRemoval → Async Revocations
  | [] => pure ⟨[], false, none⟩
  | removal :: rest =>
    match removal.assignmentId, spId with
    | some assignmentId, some sp => do
        match ← call (.removeAppRoleAssignment sp assignmentId) with
        | .ok () =>
          let later ← revokePlanned spId rest
          pure ⟨removal :: later.declarationsToDrop, true, later.error⟩
        | .error e => pure ⟨[], false, some e⟩
    | _, _ => do
        let later ← revokePlanned spId rest
        pure ⟨removal :: later.declarationsToDrop, later.grantsRevoked, later.error⟩

/-- The trailing patch: whether it succeeded, and the first error. -/
def patchManifest (objectId : Text) (required : List RequiredResourceAccess)
    (revocations : Revocations) : Async (Bool × Option GraphError) :=
  let next := dropDeclarations required revocations.declarationsToDrop
  if next.2 then do
    match ← call (.updateApplication objectId next.1) with
    | .ok () => pure (true, revocations.error)
    | .error e => pure (false, some (revocations.error.getD e))
  else pure (false, revocations.error)

def invalidateIf (changed : Bool) : Async Unit :=
  if changed then call .invalidateAppDetailState else pure ()

/-- What the command does once everything is read. -/
def applyPlan (objectId : Text) (required : List RequiredResourceAccess) (spId : Option Text)
    (plan : List RedundantRemoval × List Text) :
    AsyncResult RedundantPermissionsOutcome := do
  let revocations ← liftM (revokePlanned spId plan.1)
  let patched ← liftM (patchManifest objectId required revocations)
  liftM (invalidateIf (revocations.grantsRevoked || patched.1))
  match patched.2 with
  | some e => throw e
  | none =>
    pure ⟨if patched.1 then revocations.declarationsToDrop.map (·.value) else [], plan.2⟩

/-- The app's live assignments; without a service principal nothing is granted. -/
def liveAssignments (spId : Option Text) :
    AsyncResult (Option (List AppRoleAssignment)) :=
  match spId with
  | some id => do
      let assignments ← ExceptT.mk (call (.listAppRoleAssignments id))
      pure (some assignments)
  | none => pure none

/-- The verdicts by permission value; none of them when Exchange cannot be reached. -/
def readMailScopes (appId : Text) (permissions : List ScopableMailPermission) :
    Async (Text → Option MailPermissionScope) := do
  let scopes ← call (.resolveMailScopes appId permissions)
  pure (fun v => (scopes.getD []).lookup v)

def removeRedundantPermissionsCore (objectId : Text) :
    AsyncResult RedundantPermissionsOutcome := do
  let app ← ExceptT.mk (call (.getApplication objectId))
  let required := app.requiredResourceAccess
  let resources ← liftM (resolveResources required)
  let resolved : Text → Option ResourceSp := fun r => resources.lookup r
  let spId ← ExceptT.mk (call (.getServicePrincipalByAppId app.appId))
  let assignments ← liveAssignments spId
  let mailScopes ← liftM (readMailScopes app.appId (scopablePermissions required resolved))
  applyPlan objectId required spId
    (planRedundantRemovals required (roleIndexes resolved) (grantedMap resolved assignments)
      (broaderIsConfined mailScopes))

end Remediation
