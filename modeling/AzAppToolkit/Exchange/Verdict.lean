import AzAppToolkit.Exchange.Opath
import AzAppToolkit.Exchange.Scoping
import AzAppToolkit.Lib.Table

set_option autoImplicit false

/-! # What an operator is told about mailbox reach

The decisions of `azapptoolkit-exchange/src/verdict.rs` over fetched Exchange data, the resolver that
applies them (`commands/exchange/mail_scopes.rs`) and the two surfaces it feeds: the detail views
(`enrich = true`) and the security audit (`enrich = false`, then `apply_legacy_policy_verdict` with
the tenant-wide policy map of `commands/audit/prefetch.rs`).

Modelling choices:
* what Exchange answers is an argument (`ExchangeReads`). The resolver's `scope_cache` asks for each
  management scope once, so an answer is a function of the name;
* a `HashSet` of values is the list of its elements;
* the log lines are left out, and so is the audit's memo of the lean verdict. -/

namespace Exchange

/-! ## Data -/

inductive ExchangeError where
  | unauthorized
  | forbidden (detail : Text) (hadDiagnostics : Bool)
  | notFound (message : Text)
  | throttled (retryAfterSecs : Option Nat)
  | server (status : Nat) (body : Text)
  | api (status : Nat) (body : Text)
  | network (message : Text)
  | deserialize (message : Text)
  | token (code : Text)
  | protocol (message : Text)
deriving DecidableEq

def isNotFoundBody (body : Text) : Bool :=
  let lower := toAsciiLowercase body
  Text.contains "couldn't be found".toList lower || Text.contains "wasn't found".toList lower ||
    Text.contains "not found".toList lower ||
    Text.contains "managementobjectnotfound".toList lower

/-- Exchange could not resolve the object the cmdlet referenced. -/
def ExchangeError.isMissingObject : ExchangeError → Bool
  | .notFound _ => true
  | .api _ body => isNotFoundBody body
  | _ => false

/-- One row of `Test-ServicePrincipalAuthorization`. -/
structure ExoAuthorizationResult where
  roleName : Option Text
  grantedPermissions : Option Text
  allowedResourceScope : Option Text
  scopeType : Option Text

inductive AapAccessRight where
  | restrictAccess
  | denyAccess
  | other (text : Text)
deriving DecidableEq

/-- A legacy Application Access Policy. -/
structure ExoApplicationAccessPolicy where
  identity : Option Text
  appId : Option Text
  scopeName : Option Text
  scopeIdentity : Option Text
  accessRight : Option AapAccessRight
  description : Option Text

def ExoApplicationAccessPolicy.isRestrictAccess (p : ExoApplicationAccessPolicy) : Bool :=
  p.accessRight == some .restrictAccess

/-- A management scope, as `Get-ManagementScope` returns it. -/
structure ExoManagementScope where
  name : Option Text
  recipientFilter : Option Text

inductive ScopeMechanism where
  | rbac
  | legacyApplicationAccessPolicy
deriving DecidableEq

inductive MailPermissionScope where
  | notScopable
  | orgWide
  | scoped (scopeName recipientFilter : Option Text) (groupCount : Option Nat)
      (mechanism : ScopeMechanism)
  | unknown
deriving DecidableEq

/-! ## Decisions -/

def confinedScopeTypes : List Text :=
  ["customrecipientscope", "recipientscope", "administrativeunit", "administrativeunitscope",
    "recipientadministrativeunitscope"].map String.toList

/-- The row is not confined to a recipient scope. -/
def isOrgWideAuthRow (r : ExoAuthorizationResult) : Bool :=
  let allowed := (r.allowedResourceScope.getD []).trim
  if allowed = [] ∨ allowed.eqIgnoreAsciiCase "Not Applicable".toList then true
  else
    let scopeType := (r.scopeType.getD []).trim
    !confinedScopeTypes.any (fun t => scopeType.eqIgnoreAsciiCase t)

/-- The row confers `value`: by its dedicated role, by its list, or as a composite role. -/
def rowGrantsPermission (row : ExoAuthorizationResult) (role value : Text) : Bool :=
  let rowRole := row.roleName.map Text.trim
  if rowRole.any (fun r => r.eqIgnoreAsciiCase role.trim) then true
  else match (row.grantedPermissions.map Text.trim).filter (fun g => g != []) with
    | some granted =>
      (Text.splitOn (fun c => c == ',' || c == ';' || isWhitespace c) granted).any
        (fun g => g != [] && g.eqIgnoreAsciiCase value.trim)
    | none => rowRole.any (fun r => compositeRoleConfers r value)

/-- The distinct, non-blank names, sorted. -/
def distinctNames (names : List Text) : List Text :=
  Text.dedup (Text.sort ((names.map Text.trim).filter (fun s => s != [])))

def distinctScopeNames (rows : List ExoAuthorizationResult) : List Text :=
  distinctNames (rows.filterMap (·.allowedResourceScope))

/-- One name as it is, several joined. -/
def displayName : List Text → Option Text
  | [] => none
  | [name] => some name
  | names => some (Text.join ", ".toList names)

/-- The verdict for the rows of one role. -/
def verdictFromRows (rows : List ExoAuthorizationResult) : MailPermissionScope :=
  if rows = [] ∨ rows.any isOrgWideAuthRow then .orgWide
  else .scoped (displayName (distinctScopeNames rows)) none none .rbac

/-- A `RestrictAccess` policy of the application, its id read without regard to case. -/
def confines (appId : Text) (p : ExoApplicationAccessPolicy) : Bool :=
  p.appId.any (fun a => a.eqIgnoreAsciiCase appId) && p.isRestrictAccess

def aapVerdictFor (policies : List ExoApplicationAccessPolicy) (appId : Text) :
    Option MailPermissionScope :=
  let matching := policies.filter (confines appId)
  if matching = [] then none
  else
    let names := distinctNames (matching.filterMap (fun p => p.scopeName <|> p.scopeIdentity))
    let recipientFilter := match matching with
      | [only] => only.description
      | _ => none
    some (.scoped (displayName names) recipientFilter none .legacyApplicationAccessPolicy)

/-- The grant is one an Application Access Policy could govern. -/
def ResourcePermission.confinable (g : ResourcePermission) : Bool :=
  g.resourceAppId.any (fun resource => isAapConfinablePermission resource g.value)

/-- One round of the loop of `apply_legacy_policy_verdict`. -/
def applyLegacyGrant (verdict : MailPermissionScope) (scopes : Table Text MailPermissionScope)
    (g : ResourcePermission) : Table Text MailPermissionScope :=
  if g.confinable = false then scopes
  else match scopes.lookup g.value with
    | some (.scoped _ _ _ _) => scopes
    | _ => scopes.insert g.value verdict

def applyLegacyPolicyVerdict (scopes : Table Text MailPermissionScope)
    (grants : List ResourcePermission) (verdict : Option MailPermissionScope) :
    Table Text MailPermissionScope :=
  match verdict with
  | none => scopes
  | some verdict => grants.foldl (applyLegacyGrant verdict) scopes

def scopeFromRbacError (err : ExchangeError) (aap : Option MailPermissionScope) :
    Except ExchangeError MailPermissionScope :=
  match aap with
  | some confined => .ok confined
  | none => if err.isMissingObject then .ok .orgWide else .error err

/-- A surviving org-wide grant that defeats the scope of `perm`. -/
def defeats (perm : Text) (orgwideGranted : List Text) : Bool :=
  orgwideGranted.contains perm || orgwideGranted.any isBlanketMailboxGrant

def reconcileOrgwideGrant (verdict : MailPermissionScope) (perm : Text)
    (orgwideGranted : List Text) : MailPermissionScope :=
  match verdict with
  | .scoped _ _ _ .rbac => if defeats perm orgwideGranted then .orgWide else verdict
  | _ => verdict

/-! ## The resolver -/

/-- What Exchange answers one resolution. -/
structure ExchangeReads where
  testServicePrincipalAuthorization : Except ExchangeError (List ExoAuthorizationResult)
  getApplicationAccessPolicies : Except ExchangeError (List ExoApplicationAccessPolicy)
  getManagementScope : Text → Except ExchangeError (Option ExoManagementScope)

def legacyAapScope (exo : ExchangeReads) (appId : Text) : Option MailPermissionScope :=
  match exo.getApplicationAccessPolicies with
  | .ok policies => aapVerdictFor policies appId
  | .error _ => none

/-- The recipient filter of a scope and its `MemberOfGroup` count, when both can be read. -/
def resolvedScope (exo : ExchangeReads) (name : Text) : Option (Nat × Text) :=
  match exo.getManagementScope name with
  | .ok (some scope) =>
    scope.recipientFilter.map (fun f => (Opath.countMemberOfGroup f % 2 ^ 32, f))
  | _ => none

/-- The display step for an RBAC verdict that names a single scope. -/
def enrichVerdict (exo : ExchangeReads) (matching : List ExoAuthorizationResult)
    (verdict : MailPermissionScope) : MailPermissionScope :=
  match verdict with
  | .scoped (some name) _ _ .rbac =>
    if distinctScopeNames matching = [name] then
      match resolvedScope exo name with
      | some (count, filter) => .scoped (some name) (some filter) (some count) .rbac
      | none => verdict
    else verdict
  | _ => verdict

/-- The rows that confer a permission. -/
def matchingRows (rows : List ExoAuthorizationResult) (p : ScopableMailPermission) :
    List ExoAuthorizationResult :=
  rows.filter (fun r => rowGrantsPermission r p.exchangeRole p.value)

/-- The verdict for one permission, as the loop of `resolve_mail_scopes` computes it. -/
def permissionVerdict (exo : ExchangeReads) (rows : List ExoAuthorizationResult)
    (aapOverride : Option MailPermissionScope) (orgwideGranted : List Text) (enrich : Bool)
    (p : ScopableMailPermission) : MailPermissionScope :=
  let matching := matchingRows rows p
  let verdict := verdictFromRows matching
  let verdict := match verdict, p.aapConfinable, aapOverride with
    | .orgWide, true, some aap => aap
    | verdict, _, _ => verdict
  let verdict := reconcileOrgwideGrant verdict p.value orgwideGranted
  if enrich then enrichVerdict exo matching verdict else verdict

/-- The detail path's answer when the probe failed. -/
def probeFailureScopes (err : ExchangeError) (aapOverride : Option MailPermissionScope)
    (scopable : List ScopableMailPermission) :
    Except ExchangeError (Table Text MailPermissionScope) :=
  let rbacOnly := if err.isMissingObject then MailPermissionScope.orgWide else .unknown
  let aap := aapOverride.filter (fun _ => scopable.any (·.aapConfinable))
  match scopeFromRbacError err aap with
  | .error err => .error err
  | .ok fallback => .ok (scopable.foldl
      (fun out p => out.insert p.value (if p.aapConfinable then fallback else rbacOnly)) ∅)

def resolveMailScopes (exo : ExchangeReads) (appId : Text) (scopable : List ScopableMailPermission)
    (orgwideGranted : List Text) (enrich : Bool) :
    Except ExchangeError (Table Text MailPermissionScope) :=
  if scopable = [] then .ok ∅
  else
    let aapOverride := if enrich then legacyAapScope exo appId else none
    match exo.testServicePrincipalAuthorization with
    | .error err =>
      if enrich then probeFailureScopes err aapOverride scopable else .error err
    | .ok rows => .ok (scopable.foldl (fun out p =>
      out.insert p.value (permissionVerdict exo rows aapOverride orgwideGranted enrich p)) ∅)

/-! ## The audit -/

/-- One round of the loop of `prefetch_legacy_access_policies`. -/
def prefetchPolicy (policies : List ExoApplicationAccessPolicy)
    (out : Table Text MailPermissionScope) (appId : Text) : Table Text MailPermissionScope :=
  match out.lookup appId with
  | some _ => out
  | none => match aapVerdictFor policies appId with
    | some verdict => out.insert appId verdict
    | none => out

/-- The legacy verdict per application id, as the policies spell it. -/
def prefetchLegacyAccessPolicies (exo : ExchangeReads) : Table Text MailPermissionScope :=
  match exo.getApplicationAccessPolicies with
  | .error _ => ∅
  | .ok policies => (policies.filterMap (·.appId)).foldl (prefetchPolicy policies) ∅

/-- The mailbox scopes `score_one` scores with: the lean verdicts, none if the probe failed, under the
    run's legacy-policy verdict. -/
def auditMailScopes (exo : ExchangeReads) (appId : Text) (grants : List ResourcePermission)
    (orgwideGranted : List Text) : Table Text MailPermissionScope :=
  let scopable := grants.filterMap ScopableMailPermission.ofGrant
  let lean := match resolveMailScopes exo appId scopable orgwideGranted false with
    | .ok scopes => scopes
    | .error _ => ∅
  applyLegacyPolicyVerdict lean grants ((prefetchLegacyAccessPolicies exo).lookup appId)

end Exchange
