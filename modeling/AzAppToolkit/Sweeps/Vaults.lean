import AzAppToolkit.Bulk.FanOut

set_option autoImplicit false

/-! # The Key Vault access sweep

`sweep_key_vault_access` of `commands/keyvault_rbac.rs`: the vaults of every subscription are listed, cut
at a cap and filtered, the role assignments of what is left are read by one task to a vault, and the rows
are the pairs of a vault and an assignment.

Modelling choices: the tasks' own progress events are left out; `resolve_role_names_cached` is one call
that answers a table of names; the ids of a `HashSet` are taken in the order they were found; the watch on
the cache key is the guard of the store and is left out, so that `store` is the attempt. -/

namespace Sweeps

open Prog Bulk Graph

/-! ## Data -/

/-- `ArmError`: the taxonomy of the clients, with a code of its own for an unclassified status. -/
abbrev ArmError := GraphError

def armUiCode : ArmError → Text
  | .api _ _ => "arm_error".toList
  | err => err.uiCode

structure VaultProperties where
  enableRbacAuthorization : Option Bool
deriving DecidableEq

structure KeyVaultResource where
  id : Option Text
  name : Option Text
  properties : Option VaultProperties
deriving DecidableEq

def KeyVaultResource.accessPolicyMode (v : KeyVaultResource) : Bool :=
  v.properties.bind (·.enableRbacAuthorization) == some false

/-- The properties of a role assignment; its own id is not read. -/
structure RoleAssignment where
  roleDefinitionId : Option Text
  scope : Option Text
  principalId : Option Text
  principalType : Option Text

structure KeyVaultAccessRow where
  vaultId : Text
  vaultName : Option Text
  scope : Text
  roleName : Text
  principalId : Text
  principalType : Option Text
  principalDisplayName : Option Text
  highPrivilege : Bool
  inherited : Bool

structure KeyVaultSweepResult where
  totalVaults : Nat
  vaultsScanned : Nat
  vaultsFailed : Nat
  vaultsAccessPolicyMode : Nat
  rows : List KeyVaultAccessRow
  cancelled : Bool

structure KeyVaultSweepProgress where
  done : Nat
  total : Nat
  currentVault : Option Text
  cancelled : Bool

def armConcurrency : Nat := 8

def maxVaultsPerSweep : Nat := 2000

/-! ## Rows -/

/-- `trim_end_matches('/')`. -/
def trimEndSlashes (s : Text) : Text := (s.reverse.dropWhile (· == '/')).reverse

def isInherited (scope : Option Text) (vaultId : Text) : Bool :=
  match scope.filter (fun s => !s.isEmpty) with
  | none => false
  | some scope => !Text.eqIgnoreAsciiCase (trimEndSlashes scope) (trimEndSlashes vaultId)

inductive RoleContext where
  | azureResources
  | keyVault
deriving DecidableEq

def broadHighPrivilegeRoles : List Text :=
  ["Owner", "Contributor", "User Access Administrator",
    "Role Based Access Control Administrator"].map String.toList

def keyVaultHighPrivilegeRoles : List Text :=
  ["Key Vault Administrator", "Key Vault Data Access Administrator", "Key Vault Secrets Officer",
    "Key Vault Certificates Officer", "Key Vault Crypto Officer"].map String.toList

def isHighPrivilegeRole (roleName : Text) (context : RoleContext) : Bool :=
  broadHighPrivilegeRoles.contains roleName ||
    (context == .keyVault && keyVaultHighPrivilegeRoles.contains roleName)

/-- The last segment that is not empty, lowercased. -/
def roleIdTail (roleDefinitionId : Text) : Option Text :=
  ((Text.splitOn (· == '/') roleDefinitionId).reverse.find? (fun s => !s.isEmpty)).map
    toAsciiLowercase

def roleDisplayName (names : List (Text × Text)) (roleDefId : Text) : Text :=
  if roleDefId.isEmpty then "(unknown role)".toList
  else
    ((roleIdTail roleDefId).bind (fun guid => names.lookup guid)).getD
      ((Text.splitOn (· == '/') roleDefId).getLast?.getD "role".toList)

def accessRow (roleNames principalNames : List (Text × Text)) (vault : KeyVaultResource)
    (a : RoleAssignment) : KeyVaultAccessRow :=
  let vaultId := vault.id.getD []
  let roleName := roleDisplayName roleNames (a.roleDefinitionId.getD [])
  let principalId := a.principalId.getD []
  { vaultId := vaultId
    vaultName := vault.name
    scope := a.scope.getD vaultId
    roleName := roleName
    principalId := principalId
    principalType := a.principalType
    principalDisplayName := principalNames.lookup principalId
    highPrivilege := isHighPrivilegeRole roleName .keyVault
    inherited := isInherited a.scope vaultId }

/-- High privilege first, then by vault, its direct grants first, then by role. -/
def accessRowLe (a b : KeyVaultAccessRow) : Bool :=
  ((compare b.highPrivilege a.highPrivilege).then
    ((compare a.vaultName b.vaultName).then
      ((compare a.inherited b.inherited).then (compare a.roleName b.roleName)))) != .gt

/-! ## The sweep -/

inductive VaultCall where
  | proveTenantSession
  | ensureArmToken
  | listSubscriptions
  /-- The next listing of `buffer_unordered` to end, with these not yet listed. -/
  | nextListing (pending : List Text)
  | emit (progress : KeyVaultSweepProgress)
  | resolveRoleNames (ids : List Text)
  | batchGetServicePrincipals (ids : List Text)
  | store (result : KeyVaultSweepResult)

abbrev VaultAnswer : VaultCall → Type
  | .proveTenantSession => Except Text Unit
  | .ensureArmToken => Except Text Unit
  | .listSubscriptions => Except ArmError (List Text)
  | .nextListing _ => Nat × Except ArmError (List KeyVaultResource)
  | .emit _ => Unit
  | .resolveRoleNames _ => List (Text × Text)
  /- The display name of each service principal that is one. -/
  | .batchGetServicePrincipals _ => Except GraphError (List (Except GraphError (Option Text)))
  | .store _ => Unit

/-- A vault and the scope its assignments are read at. -/
abbrev ScopedVault := Text × KeyVaultResource

abbrev VaultRead := KeyVaultResource × Except ArmError (List RoleAssignment)

abbrev VaultSteps (α : Type) := Prog (FanAnswer ScopedVault VaultRead VaultAnswer) α

def nextListing (pending : List Text) : VaultSteps (Nat × Except ArmError (List KeyVaultResource)) :=
  fanOther (VaultCall.nextListing pending)

/-- What a listing adds: a subscription that could not be listed is skipped. -/
def listedVaults : Except ArmError (List KeyVaultResource) → List KeyVaultResource
  | .ok vaults => vaults
  | .error _ => []

/-- The listings as they end, with as many left as are pending. -/
def enumerateVaults : Nat → List Text → List KeyVaultResource → VaultSteps (List KeyVaultResource)
  | 0, _, found => .done found
  | n + 1, pending, found => do
      let listed ← nextListing pending
      enumerateVaults n (pending.eraseIdx listed.1) (found ++ listedVaults listed.2)

/-- Cut at the cap; a vault without an id has no scope. -/
def scopedVaults (vaults : List KeyVaultResource) : List ScopedVault :=
  (vaults.take maxVaultsPerSweep).filterMap (fun v => v.id.map (fun scope => (scope, v)))

structure VaultTally where
  pairs : List (KeyVaultResource × List RoleAssignment)
  vaultsScanned : Nat
  vaultsFailed : Nat
  vaultsApMode : Nat

def foldVault (t : VaultTally) : Option VaultRead → VaultTally
  | some (vault, .ok assignments) => { t with
      pairs := t.pairs ++ [(vault, assignments)]
      vaultsScanned := t.vaultsScanned + 1
      vaultsApMode := if vault.accessPolicyMode then t.vaultsApMode + 1 else t.vaultsApMode }
  | some (_, .error _) => { t with vaultsFailed := t.vaultsFailed + 1 }
  | none => { t with vaultsFailed := t.vaultsFailed + 1 }

def collectVault (t : VaultTally) : Option VaultRead → VaultSteps VaultTally
  | some (vault, .error err) => do
      call (FanCall.noteCode (armUiCode err))
      .done (foldVault t (some (vault, .error err)))
  | r => .done (foldVault t r)

/-- The names of a batch; one that failed names nobody. -/
def principalNamesOf (ids : List Text) :
    Except GraphError (List (Except GraphError (Option Text))) → List (Text × Text)
  | .error _ => []
  | .ok results => (ids.zip results).filterMap (fun pair => match pair.2 with
      | .ok (some displayName) => if displayName.isEmpty then none else some (pair.1, displayName)
      | _ => none)

def resolvePrincipalNames (ids : List Text) : VaultSteps (List (Text × Text)) :=
  if ids.isEmpty then .done []
  else do
    let results ← fanOther (VaultCall.batchGetServicePrincipals ids)
    .done (principalNamesOf ids results)

def resolveRoleNames (ids : List Text) : VaultSteps (List (Text × Text)) :=
  fanOther (VaultCall.resolveRoleNames ids)

inductive VaultSweepError where
  | session (message : Text)
  | arm (err : ArmError)
  /-- `session.err(..)`. -/
  | sessionEnded

def vaultFanOut : FanOut (FanAnswer ScopedVault VaultRead VaultAnswer) ScopedVault VaultRead VaultTally :=
  sweepFanOut (.done armConcurrency) collectVault

def vaultSweepCancelled (stoppedEarly : Bool) : VaultSteps Bool :=
  if stoppedEarly then .done true else fanCancelled

/-- The rows of the pairs, with the names looked up. -/
def buildRows (flat : List (KeyVaultResource × RoleAssignment)) : VaultSteps (List KeyVaultAccessRow) := do
  let roleNames ← resolveRoleNames (flat.filterMap (fun pair => pair.2.roleDefinitionId))
  let principalNames ← resolvePrincipalNames
    ((flat.filterMap (fun pair => pair.2.principalId)).filter (fun id => !id.isEmpty)).dedup
  .done ((flat.map (fun pair => accessRow roleNames principalNames pair.1 pair.2)).mergeSort accessRowLe)

/-- The sweep, once the vaults are known. -/
def sweepVaults (vaults : List ScopedVault) : VaultSteps (Except VaultSweepError KeyVaultSweepResult) := do
  let total := vaults.length
  fanOther (VaultCall.emit ⟨0, total, none, false⟩)
  let dispatch ← vaultFanOut.dispatchCapped vaults ⟨[], 0, 0, 0⟩
  let dead ← fanDead
  if dead then .done (.error .sessionEnded)
  else do
    let cancelled ← vaultSweepCancelled dispatch.1
    let t := dispatch.2
    let rows ← buildRows (t.pairs.flatMap (fun pair => pair.2.map (fun a => (pair.1, a))))
    let result : KeyVaultSweepResult :=
      ⟨total, t.vaultsScanned, t.vaultsFailed, t.vaultsApMode, rows, cancelled⟩
    if !cancelled && t.vaultsFailed == 0 then do
      fanOther (VaultCall.store result)
      .done (.ok result)
    else .done (.ok result)

def proveTenantSession : VaultSteps (Except Text Unit) := fanOther VaultCall.proveTenantSession

def ensureArmToken : VaultSteps (Except Text Unit) := fanOther VaultCall.ensureArmToken

def listSubscriptions : VaultSteps (Except ArmError (List Text)) := fanOther VaultCall.listSubscriptions

def sweepKeyVaultAccess : VaultSteps (Except VaultSweepError KeyVaultSweepResult) := do
  match ← proveTenantSession with
  | .error message => .done (.error (.session message))
  | .ok () => do
      match ← ensureArmToken with
      | .error message => .done (.error (.session message))
      | .ok () => do
          match ← listSubscriptions with
          | .error err => .done (.error (.arm err))
          | .ok subs => do
              let vaults ← enumerateVaults subs.length subs []
              sweepVaults (scopedVaults vaults)

end Sweeps
