import AzAppToolkit.Exchange.Grants
import AzAppToolkit.Exchange.ScopeGroup

set_option autoImplicit false

/-! # The scoped grant and the policy migration

`apply_exchange_mailbox_scope` of `commands/exchange/grants.rs` and `migrate_one` of
`commands/exchange/aap_migration.rs`, with the naming patterns of `azapptoolkit-core/src/defaults.rs`
both of them follow. Each is cut at the points its comments number; the cache invalidation at the end
of a grant is left out. -/

namespace Exchange

variable (uni : Unicode)

/-! ## Names -/

/-- `str::replace`, with `skip` characters of a match still to pass over. -/
def replaceFrom (needle by_ : Text) : (skip : Nat) → Text → Text
  | _, [] => []
  | skip + 1, _ :: s => replaceFrom needle by_ skip s
  | 0, c :: s =>
    if needle.isPrefixOf (c :: s) then by_ ++ replaceFrom needle by_ (needle.length - 1) s
    else c :: replaceFrom needle by_ 0 s

def namePatternPlaceholder : Text := "\x7bappId\x7d".toList

/-- The custom pattern with the placeholder substituted, else the default followed by the id. -/
def resolvePattern (pattern : Option Text) (defaultStart appId : Text) : Text :=
  match (pattern.map Text.trim).filter (fun p => p != [] && Text.contains namePatternPlaceholder p)
    with
  | some p => replaceFrom namePatternPlaceholder appId 0 p
  | none => defaultStart ++ appId

structure TenantDefaults where
  scopeNamePattern : Option Text
  groupNamePattern : Option Text

def TenantDefaults.scopeNameFor (d : TenantDefaults) (appId : Text) : Text :=
  resolvePattern d.scopeNamePattern "app_scope_".toList appId

def TenantDefaults.groupNameFor (d : TenantDefaults) (appId : Text) : Text :=
  resolvePattern d.groupNamePattern "app_scope_group_".toList appId

/-! ## The scoped grant -/

structure ExchangeGroupRef where
  identifier : Text
  distinguishedName : Option Text

structure ExchangeAccessResult where
  appId : Text
  servicePrincipalObjectId : Option Text
  scopeName : Text
  scopeFilter : Text
  groups : List ExchangeGroupRef
  rolesAssigned : List Text
  rolesSkipped : List Text
  removedEntraGrants : List Text

structure ApplyExchangeMailboxScopeParams where
  tenantDefaults : TenantDefaults
  appId : Text
  spObjectId : Text
  displayName : Text
  targets : List ExchangeTarget
  groups : List Text
  removeUnscoped : Bool

/-- The body of the loop that resolves the groups to their distinguished names. -/
def resolveGroup (acc : List ExchangeGroupRef × List Text) (identifier : Text) :
    AsyncResult UiError (List ExchangeGroupRef × List Text) := do
  match ← orUiError .exchange (call (.getGroup identifier)) with
  | some g =>
    match g.distinguishedName with
    | some dn => pure (acc.1 ++ [⟨identifier, some dn⟩], acc.2 ++ [dn])
    | none => do
        warn (.groupWithoutDn identifier)
        pure (acc.1 ++ [⟨identifier, none⟩], acc.2)
  | none => do
      warn (.groupNotFound identifier)
      pure (acc.1 ++ [⟨identifier, none⟩], acc.2)

def grantOntoUnrestrictedScope : Text :=
  ("Assigning roles against it and removing the org-wide grants would change what this app reaches " ++
    "in a way that was not asked for.").toList

def scopeGroupMismatch (scopeName : Text) : UiError :=
  .validation "scope_group_mismatch".toList ("a management scope ".toList ++ quoted scopeName ++
    (" already exists for this app and either confines a different group set or has a filter that " ++
      "does more than name these groups, and Exchange keeps the existing scope — so the groups " ++
      "requested here would NOT have been applied, while the org-wide grants were removed. Nothing " ++
      "was changed. Repointing a scope changes what every role assignment using it reaches, so it " ++
      "is a deliberate action, not a side effect of granting: use “Move to managed group” to " ++
      "consolidate onto the toolkit-managed group, or edit the scope in Exchange, then grant again."
      ).toList)

def noScopeGroup : UiError :=
  .validation "no_scope_group".toList ("none of the supplied groups resolved to a distinguished " ++
    "name; cannot build a management scope").toList

/-- Strip the org-wide grants, or leave them and say so. -/
def stripIfAsked (params : ApplyExchangeMailboxScopeParams) (roles : ScopedRoles) :
    Async (List Text) :=
  if params.removeUnscoped then do
    let strip ← removeUnscopedGrants params.spObjectId roles.outcomes
    match strip.stillOrgwide.filter (fun kept => kept != []) with
    | some kept => do
        warn (.stillOrgwide kept)
        pure strip.removed
    | none => pure strip.removed
  else do
    warn .grantsLeftInPlace
    pure []

def applyExchangeMailboxScope (params : ApplyExchangeMailboxScopeParams) :
    AsyncResult UiError ExchangeAccessResult := do
  let _ ← orUiError .exchange
    (ensureServicePrincipal params.appId params.spObjectId params.displayName).run
  let (groupRefs, dns) ← params.groups.foldlM resolveGroup ([], [])
  if dns = [] then throw noScopeGroup
  else do
    let scopeName := params.tenantDefaults.scopeNameFor params.appId
    let scopeFilter := Opath.memberOfGroupFilter dns
    let existing ← existingScopeFilterChecked scopeName grantOntoUnrestrictedScope
    if existing.any (fun f => !scopeFilterAgrees uni f scopeFilter) then
      throw (scopeGroupMismatch scopeName)
    else do
      call (.intends scopeName scopeFilter)
      let _ ← orUiError .exchange (ensureManagementScope scopeName scopeFilter).run
      let roles ← assignScopedRoles params.appId scopeName params.targets
      let removed ← stripIfAsked params roles
      pure { appId := params.appId, servicePrincipalObjectId := some params.spObjectId, scopeName,
             scopeFilter, groups := groupRefs, rolesAssigned := roles.rolesAssigned,
             rolesSkipped := roles.rolesSkipped, removedEntraGrants := removed }

/-! ## The migration of one application -/

inductive AapItemStatus where
  | planned
  | migrated
  | partlyDone

structure AapMigrationItem where
  appId : Text
  sourcePolicyIdentities : List Text
  scopeName : Option Text
  scopeFilter : Option Text
  managedGroupName : Option Text
  membersCopied : List Text
  membersUnverified : List Text
  rolesAssigned : List Text
  removedEntraGrants : List Text
  removedPolicies : List Text
  status : AapItemStatus

structure MigratedApp where
  item : AapMigrationItem
  stopped : Bool
  retiredDns : List Text

structure MigrationContext where
  resources : List ResourceRoles
  scopeOverride : Option Text
  tenantDefaults : TenantDefaults
  dryRun : Bool

/-- The body of the loop that resolves each policy's group. -/
def resolvePolicyGroup (dns : List Text) (policy : ExoApplicationAccessPolicy) :
    AsyncResult UiError (List Text) := do
  match policy.scopeName.or policy.scopeIdentity with
  | none => throw (.validation "no_scope_group".toList
      "policy has no scope group (ScopeName)".toList)
  | some scopeGroup => do
      match ← orUiError .exchange (call (.getGroup scopeGroup)) with
      | none => throw (.notFound "scope_group".toList
          ("scope group '".toList ++ scopeGroup ++ "' not found".toList))
      | some group =>
        match group.distinguishedName with
        | none => throw (.validation "scope_group_no_dn".toList
            ("scope group '".toList ++ scopeGroup ++ "' has no distinguished name".toList))
        | some dn => pure (if dns.contains dn then dns else dns ++ [dn])

def migrationOntoUnrestrictedScope : Text :=
  ("Migrating onto it would assign this app's roles against an unrestricted scope and then remove " ++
    "the org-wide grants and the legacy policy, leaving the app able to reach every mailbox in the " ++
    "tenant.").toList

/-- What the plan of a dry run says about a scope that is already there. -/
def planScopeWarnings (scopeName : Text) (existing : Option Text) (scopeFilter : Text) :
    List Warning :=
  match existing with
  | none => []
  | some current =>
    if scopeFilterAgrees uni current scopeFilter then []
    else match Opath.rewritableScopeDns uni current with
      | .error why => [.scopeWillRefuse scopeName current why]
      | .ok _ => [.scopeDiffers scopeName current]

/-- Remove each policy; the ones removed, and whether all were. -/
def removePolicies (identities : List Text) : Async (List Text × AapItemStatus) :=
  identities.foldlM (fun acc identity => do
    match ← call (.removeApplicationAccessPolicy identity) with
    | .ok () => pure (acc.1 ++ [identity], acc.2)
    | .error err => do
        warn (.policyNotRemoved identity err)
        pure (acc.1, .partlyDone)) ([], .migrated)

section MigrateOne

variable (ctx : MigrationContext) (appId : Text) (policies : List ExoApplicationAccessPolicy)

/-- What the later steps need of the earlier ones. -/
structure MigrationPlan where
  entraSp : EntraServicePrincipal
  dns : List Text
  scopeName : Text
  existingFilter : Option Text
  consolidation : ScopeGroupConsolidation
  targets : List ExchangeTarget

def MigrationPlan.scopeFilter (plan : MigrationPlan) : Text :=
  Opath.memberOfGroupFilter plan.consolidation.scopeDns

/-- Step 5: the policies go only when nothing they were constraining is still granted org-wide. -/
def removeIfSafe (identities : List Text) (targets : List ExchangeTarget) (removed : List Text) :
    Async (List Text × AapItemStatus) :=
  if policiesSafeToRemove targets.length removed.length
      (mailboxResourcesComplete ctx.resources) then
    removePolicies identities
  else do
    warn (.policyKept ((targets.map (·.graphValue)).filter (fun v => !removed.contains v)))
    pure ([], .partlyDone)

/-- Steps 3 to 5: assign the roles, strip the grants, remove the policies. -/
def bindRoles (identities : List Text) (plan : MigrationPlan) (liveFilter : Text) :
    AsyncResult UiError MigratedApp := do
  let roles ← assignScopedRoles appId plan.scopeName plan.targets
  let strip ← removeUnscopedGrants plan.entraSp.id roles.outcomes
  let (removedPolicies, status) ← removeIfSafe ctx identities plan.targets strip.removed
  pure { stopped := false,
         retiredDns := if plan.consolidation.consolidated then plan.dns else [],
         item := { appId, sourcePolicyIdentities := identities, scopeName := some plan.scopeName,
                   scopeFilter := some liveFilter,
                   managedGroupName := some plan.consolidation.groupName,
                   membersCopied := plan.consolidation.copied,
                   membersUnverified := plan.consolidation.unverified,
                   rolesAssigned := roles.rolesAssigned, removedEntraGrants := strip.removed,
                   removedPolicies, status } }

/-- Steps 1 and 2, the scope and the service-principal pointer, then the rest. -/
def scopeThenBind (identities : List Text) (plan : MigrationPlan) :
    AsyncResult UiError MigratedApp := do
  call (.intends plan.scopeName plan.scopeFilter)
  let _ ← orUiError .exchange (ensureManagementScope plan.scopeName plan.scopeFilter).run
  let liveFilter ← reconcileScopeFilter uni plan.scopeName plan.existingFilter plan.scopeFilter
    (plan.consolidation.consolidated && ctx.scopeOverride.isNone)
  let _ ← orUiError .exchange
    (ensureServicePrincipal appId plan.entraSp.id plan.entraSp.displayName).run
  bindRoles ctx appId identities plan liveFilter

/-- What a dry run reports. -/
def planned (identities : List Text) (plan : MigrationPlan) : Async MigratedApp := do
  let removable := policiesSafeToRemove plan.targets.length plan.targets.length
    (mailboxResourcesComplete ctx.resources)
  warnAll (if removable then [] else [.policyWouldBeKept])
  warnAll (planScopeWarnings uni plan.scopeName plan.existingFilter plan.scopeFilter)
  pure { stopped := false, retiredDns := [],
         item := { appId, sourcePolicyIdentities := identities, scopeName := some plan.scopeName,
                   scopeFilter := some plan.scopeFilter,
                   managedGroupName := some plan.consolidation.groupName,
                   membersCopied := plan.consolidation.copied,
                   membersUnverified := plan.consolidation.unverified,
                   rolesAssigned := plan.targets.map (·.exchangeRole),
                   removedEntraGrants := plan.targets.map (·.graphValue),
                   removedPolicies := if removable then identities else [], status := .planned } }

/-- An application whose member copy was stopped: nothing was written to its scope. -/
def stoppedApp (identities : List Text) (scopeName : Text) (existingFilter : Option Text)
    (consolidation : ScopeGroupConsolidation) : MigratedApp :=
  { stopped := true, retiredDns := [],
    item := { appId, sourcePolicyIdentities := identities, scopeName := some scopeName,
              scopeFilter := existingFilter, managedGroupName := some consolidation.groupName,
              membersCopied := consolidation.copied,
              membersUnverified := consolidation.unverified, rolesAssigned := [],
              removedEntraGrants := [], removedPolicies := [], status := .partlyDone } }

/-- The scope name of the application: the operator's, else the tenant's pattern. -/
def MigrationContext.scopeNameOf (ctx : MigrationContext) (appId : Text) : Text :=
  ctx.scopeOverride.getD (ctx.tenantDefaults.scopeNameFor appId)

/-- From the targets on: what the application holds today decides. -/
def migrateTargets (identities : List Text) (entraSp : EntraServicePrincipal) (dns : List Text)
    (existingFilter : Option Text) (consolidation : ScopeGroupConsolidation) :
    AsyncResult UiError MigratedApp := do
  let assignments ← orUiError .graph (call (.listAppRoleAssignments entraSp.id))
  let targets := targetsFromGrants assignments ctx.resources
  warnAll (if targets ≠ [] then []
    else if mailboxResourcesComplete ctx.resources then [.nothingGoverned]
    else [.resourcesUnknown])
  let plan : MigrationPlan :=
    { entraSp, dns, scopeName := ctx.scopeNameOf appId, existingFilter, consolidation, targets }
  if ctx.dryRun then planned uni ctx appId identities plan
  else scopeThenBind uni ctx appId identities plan

/-- One application, its id already folded to lower case. -/
def migrateFolded : AsyncResult UiError MigratedApp := do
  let identities := policies.filterMap (·.identity)
  match ← orUiError .graph (call (.getServicePrincipalByAppId appId)) with
  | none => throw (.notFound "service_principal".toList
      "no Entra service principal for this app".toList)
  | some entraSp => do
      let dns ← policies.foldlM resolvePolicyGroup []
      warnAll (if policies.length > 1 then [.foldedPolicies policies.length dns.length] else [])
      let scopeName := ctx.scopeNameOf appId
      let existingFilter ← existingScopeFilterChecked scopeName migrationOntoUnrestrictedScope
      let consolidation ← consolidateScopeGroup uni
        { groupName := ctx.tenantDefaults.groupNameFor appId, sourceDns := dns,
          dryRun := ctx.dryRun, liveFilter := existingFilter }
      if consolidation.incomplete then do
        warn .stoppedBeforeScope
        pure (stoppedApp appId identities scopeName existingFilter consolidation)
      else migrateTargets uni ctx appId identities entraSp dns existingFilter consolidation

end MigrateOne

def migrateOne (ctx : MigrationContext) (appId : Text)
    (policies : List ExoApplicationAccessPolicy) : AsyncResult UiError MigratedApp :=
  migrateFolded uni ctx (toAsciiLowercase appId) policies

end Exchange
