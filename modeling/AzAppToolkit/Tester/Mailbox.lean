import AzAppToolkit.Exchange.MailScopes
import AzAppToolkit.Tester.Reads

set_option autoImplicit false

/-! # The mailbox access test

`test_mailbox_access` of `commands/permission_tester.rs` and what it calls: the org-wide Entra grants
under the legacy policies, the Exchange role assignments, and the verdict over both.

Each read is made at most once, so the answers are an argument (`MailboxReads`). The log lines are left
out. -/

namespace Tester

open Exchange (ExchangeError ExoAuthorizationResult ExoApplicationAccessPolicy ResourcePermission
  MailPermissionScope isOrgWideAuthRow aapVerdictFor isScopableExchangeResourcePermission
  office365ExchangeOnlineAppId)

/-! ## Data -/

/-- A row of `Test-ServicePrincipalAuthorization -Resource`. -/
structure AuthorizationRow extends ExoAuthorizationResult where
  inScope : Option Bool

structure MailboxReads where
  exchangeClient : Except UiError Unit
  roles : RoleReads
  policies : Except ExchangeError (List ExoApplicationAccessPolicy)
  /-- `granted` of `Test-ApplicationAccessPolicy`. -/
  policyTest : Except ExchangeError (Option Bool)
  authorization : Except ExchangeError (List AuthorizationRow)

inductive RbacReach where
  | orgWide (roles : List Text)
  | scoped (roles : List Text)
  | none (hadAssignments : Bool)
  | indeterminate

inductive EntraReach where
  | orgWide (perms : List Text)
  | scopedByAap (perms : List Text) (scopeName : Option Text)
  | deniedByAap
  | unverified (perms : List Text)
  | notHeld
  | unreadable

/-! ## The Entra layer -/

/-- The order of `(value, resource)`. -/
def permissionLe (a b : ResourcePermission) : Bool :=
  decide (a.value < b.value) || (a.value == b.value && match a.resourceAppId, b.resourceAppId with
    | none, _ => true
    | some _, none => false
    | some r, some r' => decide (r ≤ r'))

/-- `Vec::dedup`. -/
def dedupPermissions : List ResourcePermission → List ResourcePermission
  | a :: b :: rest => if a = b then dedupPermissions (b :: rest) else a :: dedupPermissions (b :: rest)
  | l => l

def sortPermissions (perms : List ResourcePermission) : List ResourcePermission :=
  dedupPermissions (perms.mergeSort permissionLe)

/-- The arms of `try_held_orgwide_mail_permissions` after `resolve_grant`. -/
def mailPermission (grant : Text × Text × Text) : Option ResourcePermission :=
  if isScopableExchangeResourcePermission (some grant.1) grant.2.2 then some ⟨some grant.1, grant.2.2⟩
  else none

def orgwideMailboxGrant (reads : RoleReads) : Except UiError (List ResourcePermission) :=
  match reads.held office365ExchangeOnlineAppId with
  | .error err => .error err
  | .ok grants => .ok (sortPermissions (grants.filterMap mailPermission))

def permissionValues (perms : List ResourcePermission) : List Text := perms.map (·.value)

/-- A policy names the application, whatever case Exchange stored its id in. -/
def names (appId : Text) (p : ExoApplicationAccessPolicy) : Bool :=
  p.appId.any (fun a => a.eqIgnoreAsciiCase appId)

def entraReach (appId : Text) (perms : List ResourcePermission)
    (policies : Option (List ExoApplicationAccessPolicy))
    (policyTest : Except ExchangeError (Option Bool)) : EntraReach :=
  let ungoverned := (perms.filter (fun p => !p.confinable)).map (·.value)
  if !ungoverned.isEmpty then .orgWide ungoverned
  else
    let perms := permissionValues perms
    match policies with
    | none => .unverified perms
    | some policies =>
      if !policies.any (names appId) then .orgWide perms
      else
        match policyTest with
        | .ok (some true) =>
          match aapVerdictFor policies appId with
          | some (.scoped scopeName _ _ _) => .scopedByAap perms scopeName
          | _ => .orgWide perms
        | .ok (some false) => .deniedByAap
        | .ok none | .error _ => .unverified perms

/-! ## The Exchange layer -/

def rbacReachFromRows (rows : List AuthorizationRow) : RbacReach :=
  let inScope := rows.filter (fun r => r.inScope == some true)
  if !inScope.isEmpty then
    let roles := Text.dedup (Text.sort (inScope.filterMap (·.roleName)))
    if inScope.any (fun r => isOrgWideAuthRow r.toExoAuthorizationResult) then .orgWide roles
    else .scoped roles
  else if rows.any (fun r => r.inScope.isNone) then .indeterminate
  else .none (!rows.isEmpty)

def rbacReachFor : Except ExchangeError (List AuthorizationRow) → RbacReach
  | .ok rows => rbacReachFromRows rows
  | .error err => if err.isMissingObject then .none false else .indeterminate

/-! ## The verdict -/

def EntraReach.level : EntraReach → Nat
  | .orgWide _ | .unverified _ => 3
  | .scopedByAap _ _ => 2
  | .unreadable => 1
  | .deniedByAap | .notHeld => 0

def RbacReach.level : RbacReach → Nat
  | .orgWide _ => 3
  | .scoped _ => 2
  | .indeterminate => 1
  | .none _ => 0

def verdictOf : Nat → AccessVerdict
  | 3 => .orgWide
  | 2 => .scoped
  | 1 => .unknown
  | _ => .noAccess

def EntraReach.perms : EntraReach → List Text
  | .orgWide perms | .unverified perms | .scopedByAap perms _ => perms
  | .deniedByAap | .notHeld | .unreadable => []

def RbacReach.roles : RbacReach → List Text
  | .orgWide roles | .scoped roles => roles
  | .none _ | .indeterminate => []

def commaJoined (perms : List Text) : Text := Text.join ", ".toList perms

def EntraReach.sentence (mailbox : Text) : EntraReach → Text
  | .orgWide perms => "Holds organization-wide Graph mailbox permission(s) (".toList ++ commaJoined perms ++
      ") in Entra ID with no legacy Application Access Policy restricting them — this grant alone reaches ".toList ++
      quoted mailbox ++ " and every other mailbox.".toList
  | .scopedByAap perms scopeName => "Entra-granted permission(s) (".toList ++ commaJoined perms ++
      ") are confined by a legacy Application Access Policy".toList ++
      (match scopeName with
        | none => []
        | some n => " (scope ".toList ++ quoted n ++ ")".toList) ++
      " whose group includes ".toList ++ quoted mailbox ++ ".".toList
  | .deniedByAap => "The organization-wide Entra grant is blocked for ".toList ++ quoted mailbox ++
      " by a legacy Application Access Policy.".toList
  | .unverified perms => "Holds organization-wide Graph mailbox permission(s) (".toList ++ commaJoined perms ++
      ") that reach ".toList ++ quoted mailbox ++ " (and every mailbox) directly via Graph, unless a legacy ".toList ++
      "Application Access Policy confines them — that couldn't be verified.".toList
  | .notHeld => "No organization-wide Graph mailbox permission is granted in Entra ID.".toList
  | .unreadable => "The app's Entra ID app-role assignments couldn't be read, so whether it holds an ".toList ++
      "organization-wide Graph mailbox permission is unknown.".toList

def RbacReach.sentence (mailbox : Text) : RbacReach → Text
  | .orgWide _ => "Exchange RBAC for Applications grants organization-wide access.".toList
  | .scoped _ => "An Exchange RBAC management scope includes ".toList ++ quoted mailbox ++
      " (InScope = true).".toList
  | .none true => "Exchange RBAC role assignments exist, but none of their scopes include ".toList ++
      quoted mailbox ++ " (InScope = false).".toList
  | .none false => "No Exchange RBAC for Applications assignments.".toList
  | .indeterminate => "The Exchange RBAC authorization check couldn't be completed (Exchange administrator ".toList ++
      "rights may be required).".toList

/-- An org-wide Entra grant makes a scope of the other layer ineffective. -/
def ineffectiveScoping (entra : EntraReach) (rbac : RbacReach) : List Text :=
  match entra, rbac with
  | .orgWide _, .scoped _ | .orgWide _, .none true =>
    ["The Exchange RBAC scoping is ineffective while the organization-wide Entra grant remains — ".toList ++
      "the two union, so remove the Entra application permission to make the scope effective.".toList]
  | _, _ => []

def synthesize (mailbox : Text) (entra : EntraReach) (rbac : RbacReach) : PermissionTestResult :=
  let verdict := verdictOf (max entra.level rbac.level)
  { hasAccess := verdict.reaches
    verdict
    roles := Text.dedup (Text.sort (entra.perms ++ rbac.roles))
    detail := some (Text.join [' ']
      ([entra.sentence mailbox, rbac.sentence mailbox] ++ ineffectiveScoping entra rbac))
    resourceLabel := mailbox }

def testMailboxAccess (reads : MailboxReads) (appId mailbox : Text) : Except UiError PermissionTestResult :=
  match requireAppId appId with
  | .error err => .error err
  | .ok () =>
    let mailbox := mailbox.trim
    match reads.exchangeClient with
    | .error err =>
      -- without an Exchange client an org-wide grant still answers on its own
      match orgwideMailboxGrant reads.roles with
      | .ok perms =>
        if perms.isEmpty then .ok (.unknown mailbox (unreachable err))
        else .ok (synthesize mailbox (.unverified (permissionValues perms)) .indeterminate)
      | .error graphErr =>
        if graphErr.isReauthFatal then .error graphErr else .ok (.unknown mailbox (unreachable err))
    | .ok () =>
      let rbac := rbacReachFor reads.authorization
      match orgwideMailboxGrant reads.roles with
      | .ok perms =>
        if perms.isEmpty then .ok (synthesize mailbox .notHeld rbac)
        else .ok (synthesize mailbox
          (entraReach appId perms reads.policies.toOption reads.policyTest) rbac)
      | .error err =>
        if err.isReauthFatal then .error err else .ok (synthesize mailbox .unreadable rbac)
where
  unreachable (err : UiError) : Text :=
    "Couldn't reach Exchange to test access (".toList ++ err.code ++
      "). Exchange administrator rights are required.".toList

end Tester
