import AzAppToolkit.Audit.Permissions
import AzAppToolkit.Audit.Reach
import AzAppToolkit.Exchange.Verdict
import AzAppToolkit.Lib.Substring

set_option autoImplicit false

/-! # Scoring an application

`score_application` of `azapptoolkit-core/src/audit/scoring.rs`: one function for each rule, folded in
the order of the source, and `build_remediations` over the sets the rules computed.

Modelling choices:
* a date is a number of nanoseconds; a span in days is cut towards zero;
* the risk score, a `u32` of the source, is a natural number: it would take millions of permissions for it
  to overflow;
* the recommendations of a rule, and the label and the detail of a remediation, are left out: they
  are shown and nothing reads them. The issue lines are kept to the letter. -/

namespace Audit

open Exchange (ResourcePermission MailPermissionScope ScopeMechanism microsoftGraphAppId)

/-! ## Data -/

/-- A `DateTime<Utc>`, in nanoseconds. -/
abbrev Timestamp := Int

/-- `num_days` of a span. -/
def numDays (nanos : Int) : Int := nanos.tdiv 86400000000000

/-- A client secret or a certificate of the application. -/
structure Credential where
  displayName : Option Text
  startDateTime : Option Timestamp
  endDateTime : Option Timestamp

structure ServicePrincipalLockConfiguration where
  isEnabled : Option Bool
  allProperties : Option Bool
  credentialsWithUsageVerify : Option Bool
  credentialsWithUsageSign : Option Bool
  tokenEncryptionKeyId : Option Bool

def ServicePrincipalLockConfiguration.isFullyLocked (l : ServicePrincipalLockConfiguration) : Bool :=
  if l.isEnabled != some true then false
  else if l.allProperties == some true then true
  else l.credentialsWithUsageVerify == some true && l.credentialsWithUsageSign == some true &&
    l.tokenEncryptionKeyId == some true

structure VerifiedPublisher where
  verifiedPublisherId : Option Text

structure Application where
  id : Text
  appId : Text
  displayName : Text
  signInAudience : Option Text
  publisherDomain : Option Text
  createdDateTime : Option Timestamp
  passwordCredentials : List Credential
  keyCredentials : List Credential
  verifiedPublisher : Option VerifiedPublisher
  servicePrincipalLockConfiguration : Option ServicePrincipalLockConfiguration
  isFallbackPublicClient : Option Bool
  owners : Option (List Text)
  disabledByMicrosoftStatus : Option Text

inductive CredentialStatus where
  | active
  | expiringSoon
  | expired
  | unknown
deriving DecidableEq

inductive CredentialKind where
  | secret
  | certificate
deriving DecidableEq

structure CredentialSummary where
  name : Text
  kind : CredentialKind
  startDateTime : Option Timestamp
  endDateTime : Option Timestamp
  daysToExpiry : Option Int
  status : CredentialStatus

structure AppPermissions where
  appRoleGrants : List ResourcePermission
  scopeValues : List Text
  hasAdminConsent : Bool
  adminConsentedScopes : Option (List Text)
  mailScopes : Table Text MailPermissionScope
  undeclaredGrants : List ResourcePermission

inductive RemediationKind where
  | removeExpiredCredentials
  | scopeMailboxAccess
  | migrateApplicationAccessPolicy
  | scopeSharePointAccess
  | removeRedundantPermissions
  | addOwner

structure RemediationAction where
  kind : RemediationKind
  targets : List Text

inductive RiskLevel where
  | low
  | medium
  | high
  | critical

def RiskLevel.fromScore (score : Nat) : RiskLevel :=
  if 25 ≤ score then .critical
  else if 15 ≤ score then .high
  else if 8 ≤ score then .medium
  else .low

inductive AuditPrincipalKind where
  | application
  | servicePrincipal
  | managedIdentity
deriving DecidableEq

structure AuditItem where
  applicationName : Text
  appId : Text
  objectId : Text
  riskScore : Nat
  riskLevel : RiskLevel
  issues : List Text
  remediations : List RemediationAction
  credentialStatus : CredentialStatus
  permissionCount : Nat
  servicePrincipalEnabled : Option Bool
  daysSinceCreated : Option Int
  certificates : List CredentialSummary
  secrets : List CredentialSummary
  unused : Bool
  principalKind : AuditPrincipalKind

/-! ## Markers -/

namespace Issue

def highRiskAppPerms : Text := "High-risk application permissions:".toList
def highRiskDelegatedPerms : Text := "High-risk delegated permissions:".toList
def orgWideMailbox : Text := "Organization-wide mailbox access".toList
def unscopableLegacyMailbox : Text := "Unscopable legacy Exchange mailbox access".toList
def unconfinableMailbox : Text := "Org-wide mailbox access that RBAC cannot confine".toList
def scopedViaRbac : Text := "scoped via RBAC for Applications".toList
def legacyMailboxPolicy : Text :=
  "Mailbox access confined by a legacy Application Access Policy".toList
def orgWideSharepoint : Text := "Organization-wide SharePoint access".toList
def unconfinableSharepoint : Text :=
  "Org-wide SharePoint access that Sites.Selected cannot confine".toList
def scopedSharepoint : Text := "SharePoint access scoped to selected sites".toList
def orgWideFiles : Text := "Org-wide Files access".toList
def noOwners : Text := "No owners assigned".toList
def singleOwner : Text := "Single owner".toList
def instanceLockDisabled : Text := "App instance property lock is not fully enabled".toList
def publicClientCredentials : Text :=
  "Public client flows are enabled and credentials are present".toList
def preferCertOverSecret : Text := "Uses client secret(s)".toList
def unusedCredential : Text := "Unused credential(s):".toList
def redundantAppPerms : Text := "Redundant application permissions:".toList
def grantedNotDeclared : Text := "Granted application permissions not in the manifest:".toList
def disabledByMicrosoft : Text := "Disabled by Microsoft".toList
def riskyServicePrincipal : Text := "Risky service principal".toList
def multitenantAudience : Text := "Sign-in audience reaches outside this tenant".toList
def unverifiedPublisher : Text := "No verified publisher".toList

end Issue

/-! ## Views of the permissions -/

namespace AppPermissions

/-- Duplicate grants and scopes collapsed. -/
def deduped (p : AppPermissions) : AppPermissions :=
  { p with
    appRoleGrants := p.appRoleGrants.eraseDups
    scopeValues := p.scopeValues.eraseDups }

/-- The key of a grant, the resource without regard to case. -/
def grantKey (g : ResourcePermission) : Option Text × Text :=
  (g.resourceAppId.map toAsciiLowercase, g.value)

/-- Without the grants the manifest does not declare. -/
def declaredView (p : AppPermissions) : AppPermissions :=
  if p.undeclaredGrants.isEmpty then p
  else
    { p with
      appRoleGrants :=
        p.appRoleGrants.filter (fun g => !(p.undeclaredGrants.map grantKey).contains (grantKey g)) }

/-- What confines the grant. -/
def scopeMechanism (p : AppPermissions) (g : ResourcePermission) : Option ScopeMechanism :=
  if !Exchange.isScopableExchangeResourcePermission g.resourceAppId g.value then none
  else
    match p.mailScopes.lookup g.value with
    | some (.scoped _ _ _ mechanism) => some mechanism
    | _ => none

def isScoped (p : AppPermissions) (g : ResourcePermission) : Bool := (p.scopeMechanism g).isSome

/-- Every grant of the value is scoped, and there is one. -/
def valueFullyScoped (p : AppPermissions) (value : Text) : Bool :=
  let held := p.appRoleGrants.filter (fun g => g.value == value)
  !held.isEmpty && held.all p.isScoped

end AppPermissions

/-! ## Credentials -/

def CredentialStatus.fromDaysToExpiry : Option Int → CredentialStatus
  | none => .unknown
  | some d => if d < 0 then .expired else if d ≤ 30 then .expiringSoon else .active

def summarizeCredential (kind : CredentialKind) (now : Timestamp) (c : Credential) :
    CredentialSummary :=
  let daysToExpiry := c.endDateTime.map (fun e => numDays (e - now))
  ⟨c.displayName.getD "—".toList, kind, c.startDateTime, c.endDateTime, daysToExpiry,
    CredentialStatus.fromDaysToExpiry daysToExpiry⟩

/-- The secrets and the certificates. -/
def summarizeCredentials (app : Application) (now : Timestamp) :
    List CredentialSummary × List CredentialSummary :=
  (app.passwordCredentials.map (summarizeCredential .secret now),
    app.keyCredentials.map (summarizeCredential .certificate now))

def overallCredentialStatus (all : List CredentialSummary) : CredentialStatus :=
  if all.isEmpty then .unknown
  else if all.any (fun c => c.status == .expired) then .expired
  else if all.any (fun c => c.status == .expiringSoon) then .expiringSoon
  else if all.all (fun c => c.status == .unknown) then .unknown
  else .active

def isLongLived (c : CredentialSummary) : Bool :=
  match c.startDateTime, c.endDateTime with
  | some start, some finish => decide (numDays (finish - start) > 365 + 1)
  | some _, none => true
  | _, _ => false

/-! ## Lines -/

def listSeparator : Text := ", ".toList

def joinValues (items : List ResourcePermission) : Text :=
  Text.join listSeparator (items.map (·.value))

def joinNames (items : List CredentialSummary) : Text :=
  Text.join listSeparator (items.map (·.name))

/-- A line about some items, if there are any. -/
def lineFor {α : Type} (items : List α) (line : Text) : List Text :=
  if items.isEmpty then [] else [line]

structure RuleContribution where
  score : Nat
  issues : List Text

def RuleContribution.merge (c other : RuleContribution) : RuleContribution :=
  ⟨c.score + other.score, c.issues ++ other.issues⟩

/-! ## The rules -/

/-- Rule 21. -/
def ruleDisabledByMicrosoft (status : Option Text) : RuleContribution :=
  if status != some "DisabledDueToViolationOfServicesAgreement".toList then ⟨0, []⟩
  else ⟨15, [Issue.disabledByMicrosoft ++
    (" — Microsoft disabled this application for a Services Agreement violation " ++
      "(suspicious, abusive or malicious activity); sign-ins and token issuance are blocked").toList]⟩

/-- The permissions of a tier that a mailbox scope confines, told apart by what confines them. -/
def scopedRiskIssues (tier : String) (confined : List ResourcePermission) (perms : AppPermissions) :
    List Text :=
  let legacy := confined.filter
    (fun g => perms.scopeMechanism g == some .legacyApplicationAccessPolicy)
  let rbac := confined.filter
    (fun g => perms.scopeMechanism g != some .legacyApplicationAccessPolicy)
  lineFor rbac ((tier ++ " mailbox permissions scoped via RBAC for Applications (reduced risk): ").toList
    ++ joinValues rbac) ++
  lineFor legacy ((tier ++ " mailbox permissions confined by a legacy Application Access Policy " ++
    "(reduced risk): ").toList ++ joinValues legacy)

/-- Rules 1 and 2. -/
def ruleAppPermissionRisk (perms : AppPermissions) : RuleContribution :=
  let tier0 := perms.appRoleGrants.filter (fun g => tier0AppPermissions.contains g.value)
  let high := perms.appRoleGrants.filter (fun g => highRiskAppPermissions.contains g.value)
  let medium := perms.appRoleGrants.filter (fun g => mediumRiskAppPermissions.contains g.value)
  let highScoped := high.filter perms.isScoped
  let highFull := high.filter (fun g => !perms.isScoped g)
  let mediumScoped := medium.filter perms.isScoped
  let mediumFull := medium.filter (fun g => !perms.isScoped g)
  ⟨25 * tier0.length + 10 * highFull.length + 3 * highScoped.length + 5 * mediumFull.length +
      2 * mediumScoped.length,
    lineFor tier0 (Issue.highRiskAppPerms ++
      (" tier-0 (a direct path to Global Administrator): ".toList ++ joinValues tier0)) ++
    lineFor highFull ("High-risk application permissions: ".toList ++ joinValues highFull) ++
    scopedRiskIssues "High-risk" highScoped perms ++
    lineFor mediumFull ("Medium-risk application permissions: ".toList ++ joinValues mediumFull) ++
    scopedRiskIssues "Medium-risk" mediumScoped perms⟩

/-- Rules 5 to 9. -/
def ruleCredentials (expired expiring : List CredentialSummary) (activeCount : Nat)
    (longLived : List CredentialSummary) : RuleContribution :=
  let stillWorking := activeCount + expiring.length
  let expiredPart : RuleContribution :=
    if !expired.isEmpty && stillWorking == 0 then
      ⟨8, ["All credentials expired: ".toList ++ joinNames expired]⟩
    else if !expired.isEmpty then
      ⟨4, ["Mixed credential status: ".toList ++ (joinNames expired ++
        (" are expired but ".toList ++ (Text.decimal stillWorking ++
          " credentials are active".toList)))]⟩
    else ⟨0, []⟩
  let expiringPart : RuleContribution :=
    if !expired.isEmpty then ⟨0, []⟩
    else if !expiring.isEmpty && activeCount == 0 then
      ⟨3, ["All credentials expiring soon: ".toList ++ joinNames expiring]⟩
    else if !expiring.isEmpty then
      ⟨2, ["Credentials expiring soon: ".toList ++ (joinNames expiring ++
        (" but ".toList ++ (Text.decimal activeCount ++ " credentials are active".toList)))]⟩
    else ⟨0, []⟩
  let secrets := longLived.filter (fun c => c.kind == .secret)
  let certs := longLived.filter (fun c => c.kind != .secret)
  let longLivedPart : RuleContribution :=
    if longLived.isEmpty then ⟨0, []⟩
    else ⟨3, lineFor secrets ("Long-lived secrets (>1 year): ".toList ++ joinNames secrets) ++
      lineFor certs ("Long-lived certificates (>1 year): ".toList ++ joinNames certs)⟩
  (expiredPart.merge expiringPart).merge longLivedPart

/-- Rule 3. -/
def ruleAdminConsent (perms : AppPermissions) : RuleContribution :=
  if perms.hasAdminConsent then
    ⟨5, ["Admin consent granted for delegated permissions".toList]⟩
  else ⟨0, []⟩

/-- Rule 4. -/
def ruleSpDisabled (spEnabled : Option Bool) : RuleContribution :=
  if spEnabled == some false then ⟨2, ["Service principal is disabled".toList]⟩ else ⟨0, []⟩

/-- Rule 10. -/
def ruleStaleApp (daysSinceCreated : Option Int) : RuleContribution :=
  match daysSinceCreated with
  | none => ⟨0, []⟩
  | some days =>
    if days > 90 then
      ⟨2, ["Application created ".toList ++ (Text.decimal days ++
        " days ago - consider if still needed".toList)]⟩
    else ⟨0, []⟩

/-! ### Mailboxes -/

def reachesMailboxes (g : ResourcePermission) : Bool :=
  isMailboxReachingPermission g.resourceAppId g.value

def isScopableMailbox (g : ResourcePermission) : Bool :=
  Exchange.isScopableExchangeResourcePermission g.resourceAppId g.value

def isLegacyMailbox (g : ResourcePermission) : Bool :=
  match g.resourceAppId with
  | some resource => isUnscopableLegacyExchangePermission resource g.value
  | none => false

def isPolicyScoped (perms : AppPermissions) (g : ResourcePermission) : Bool :=
  perms.scopeMechanism g == some .legacyApplicationAccessPolicy

/-- The five parts Rule 11 splits the mailbox-reaching grants into. -/
inductive MailboxPart where
  | unscoped
  | unscopableLegacy
  | unconfinableOther
  | scopedLegacy
  | scopedRbac
deriving DecidableEq

namespace MailboxPart

/-- The grants of a part, by the partitions of the rule. -/
def grants (perms : AppPermissions) (part : MailboxPart) : List ResourcePermission :=
  let reaching := perms.appRoleGrants.filter reachesMailboxes
  let confined := reaching.filter perms.isScoped
  let orgwide := reaching.filter (fun g => !perms.isScoped g)
  let unconfinable := orgwide.filter (fun g => !isScopableMailbox g)
  match part with
  | .unscoped => orgwide.filter isScopableMailbox
  | .unscopableLegacy => unconfinable.filter isLegacyMailbox
  | .unconfinableOther => unconfinable.filter (fun g => !isLegacyMailbox g)
  | .scopedLegacy => confined.filter (isPolicyScoped perms)
  | .scopedRbac => confined.filter (fun g => !isPolicyScoped perms g)

/-- What the line of a part opens with. -/
def opening : MailboxPart → Text
  | .unscoped => Issue.orgWideMailbox ++ ": ".toList
  | .unscopableLegacy => Issue.unscopableLegacyMailbox ++ ": ".toList
  | .unconfinableOther => Issue.unconfinableMailbox ++ ": ".toList
  | .scopedLegacy => Issue.legacyMailboxPolicy ++ ": ".toList
  | .scopedRbac => "Mailbox access scoped via RBAC for Applications: ".toList

/-- The line of a part: its opening and the values it names. -/
def line (perms : AppPermissions) (part : MailboxPart) : Text :=
  part.opening ++ joinValues (part.grants perms)

end MailboxPart

/-- Rule 11. -/
def ruleMailboxAdvisory (perms : AppPermissions) : RuleContribution :=
  ⟨0, [MailboxPart.unscoped, .unscopableLegacy, .unconfinableOther, .scopedLegacy, .scopedRbac].flatMap
    (fun part => lineFor (part.grants perms) (part.line perms))⟩

/-! ### SharePoint and files -/

def reachesSites (g : ResourcePermission) : Bool :=
  isSharepointOrgwidePermission g.resourceAppId g.value

/-- The org-wide site grants the conversion can confine. -/
def sharepointScopable (perms : AppPermissions) : List ResourcePermission :=
  (perms.appRoleGrants.filter reachesSites).filter
    (fun g => isScopableSharepointResourcePermission g.resourceAppId g.value)

def sharepointUnconfinable (perms : AppPermissions) : List ResourcePermission :=
  (perms.appRoleGrants.filter reachesSites).filter
    (fun g => !isScopableSharepointResourcePermission g.resourceAppId g.value)

def filesOrgwide (perms : AppPermissions) : List ResourcePermission :=
  perms.appRoleGrants.filter (fun g => isFilesOrgwidePermission g.resourceAppId g.value)

/-- Rule 12. -/
def ruleSharepointAdvisory (perms : AppPermissions) : RuleContribution :=
  ⟨0, lineFor (sharepointScopable perms)
      ((Issue.orgWideSharepoint ++ ": ".toList) ++ joinValues (sharepointScopable perms)) ++
    lineFor (sharepointUnconfinable perms)
      ((Issue.unconfinableSharepoint ++ ": ".toList) ++ joinValues (sharepointUnconfinable perms)) ++
    lineFor (filesOrgwide perms)
      ((Issue.orgWideFiles ++ ": ".toList) ++ joinValues (filesOrgwide perms)) ++
    if perms.appRoleGrants.any
        (fun g => isScopedSharepointResourcePermission g.resourceAppId g.value) then
      [Issue.scopedSharepoint ++ ": Sites.Selected".toList]
    else []⟩

/-! ### Delegated and undeclared permissions -/

/-- The delegated scopes Rule 13 names. -/
def delegatedHits (declared : List Text) (adminConsented : Option (List Text)) : List Text :=
  ((declared ++ adminConsented.getD []).filter (fun v =>
    highRiskDelegatedPermissions.contains v ||
      (isRiskyDelegatedScope v &&
        match adminConsented with
        | none => true
        | some consented => consented.contains v))).eraseDups

/-- Rule 13. -/
def ruleHighRiskDelegated (declared : List Text) (adminConsented : Option (List Text)) :
    RuleContribution :=
  let hits := delegatedHits declared adminConsented
  ⟨0, lineFor hits ((Issue.highRiskDelegatedPerms ++ " ".toList) ++ Text.join listSeparator hits)⟩

/-- A grant with the name of its resource. -/
def grantListing (g : ResourcePermission) : Text :=
  match g.resourceAppId with
  | some r => g.value ++ (" on ".toList ++ resourceLabel r)
  | none => g.value

/-- Rule 23. -/
def ruleGrantedUndeclared (perms : AppPermissions) : RuleContribution :=
  ⟨0, lineFor perms.undeclaredGrants ((Issue.grantedNotDeclared ++ " ".toList) ++
    Text.join listSeparator (perms.undeclaredGrants.eraseDups.map grantListing))⟩

/-! ### Hygiene and exposure -/

/-- Rule 14; owners that were not fetched are not missing. -/
def ownerLines (owners : Option (List Text)) : List Text :=
  match owners with
  | none => []
  | some owners =>
    if owners.length == 0 then ["No owners assigned — ownership/accountability gap".toList]
    else if owners.length == 1 then ["Single owner — vulnerable to owner departure".toList]
    else []

/-- Rules 14 to 17. -/
def ruleAppHygiene (app : Application) (hasAppPermissions hasCredentials hasSecrets : Bool) :
    RuleContribution :=
  let lockFullySet :=
    match app.servicePrincipalLockConfiguration with
    | some l => l.isFullyLocked
    | none => false
  ⟨0, ownerLines app.owners ++
    (if !lockFullySet && (hasAppPermissions || hasCredentials) then
      [Issue.instanceLockDisabled ++
        " — credentials could be added to the service principal to abuse its permissions".toList]
    else []) ++
    (if app.isFallbackPublicClient == some true && hasCredentials then
      [Issue.publicClientCredentials ++ (" — if this app is used only as a public/installed client, " ++
        "the credentials should be removed").toList]
    else []) ++
    (if hasSecrets then
      [Issue.preferCertOverSecret ++
        " — less secure than certificates or federated credentials".toList]
    else [])⟩

/-- Who can consent to an app of this audience, beyond the directory. -/
def audienceReach (audience : Text) : Option String :=
  if audience = "AzureADMultipleOrgs".toList then some "any Entra tenant"
  else if audience = "AzureADandPersonalMicrosoftAccount".toList then
    some "any Entra tenant and personal Microsoft accounts"
  else if audience = "PersonalMicrosoftAccount".toList then some "personal Microsoft accounts"
  else none

/-- Rules 19 and 20. -/
def ruleExternalExposure (app : Application) (hasAppPermissions hasCredentials : Bool) :
    RuleContribution :=
  match audienceReach (app.signInAudience.getD []) with
  | none => ⟨0, []⟩
  | some reach =>
    if !(hasAppPermissions || hasCredentials) then ⟨0, []⟩
    else
      let unverified :=
        match app.verifiedPublisher with
        | none => true
        | some p => (p.verifiedPublisherId.getD []).isEmpty
      ⟨3 + (if unverified then 2 else 0),
        [Issue.multitenantAudience ++ (" — this app can be consented to from " ++ reach ++
          ", so its permissions and credentials are not confined to this directory").toList] ++
        if unverified then
          [Issue.unverifiedPublisher ++ (" — admins in other tenants cannot attribute this app " ++
            "to a verified author when consenting").toList]
        else []⟩

/-! ### Redundant permissions -/

structure RedundantPermission where
  resourceAppId : Text
  value : Text
  coveredBy : List Text
deriving DecidableEq

/-- The resource and the value of a grant whose resource is known. -/
def resolvedPair (g : ResourcePermission) : Option (Text × Text) :=
  g.resourceAppId.map (fun r => (r, g.value))

/-- The permissions a broader one on the same resource covers. -/
def redundantAppPermissions (grants : List ResourcePermission)
    (broaderIsConfined : Text → Bool) : List RedundantPermission :=
  let held := grants.filterMap resolvedPair
  held.eraseDups.filterMap (fun pair =>
    let coveredBy := (subsumingAppPermissions pair.2).filter
      (fun b => held.contains (pair.1, b) && !broaderIsConfined b)
    if coveredBy.isEmpty then none else some ⟨pair.1, pair.2, coveredBy⟩)

def redundantListing (r : RedundantPermission) : Text :=
  r.value ++ (" on ".toList ++ (resourceLabel r.resourceAppId ++ (" (covered by ".toList ++
    (Text.join listSeparator r.coveredBy ++ ")".toList))))

def redundantOf (perms : AppPermissions) : List RedundantPermission :=
  redundantAppPermissions perms.appRoleGrants perms.valueFullyScoped

/-- Rule 18. -/
def ruleRedundantPermissions (perms : AppPermissions) : RuleContribution :=
  ⟨0, lineFor (redundantOf perms) ((Issue.redundantAppPerms ++ " ".toList) ++
    Text.join listSeparator ((redundantOf perms).map redundantListing))⟩

/-! ## The item -/

/-- A remediation for some items, if there are any. -/
def remediationFor {α : Type} (kind : RemediationKind) (items : List α) (targets : List Text) :
    List RemediationAction :=
  if items.isEmpty then [] else [⟨kind, targets⟩]

def ownerRemediations (ownerCount : Option Nat) : List RemediationAction :=
  match ownerCount with
  | some 0 => [⟨.addOwner, []⟩]
  | some 1 => [⟨.addOwner, []⟩]
  | _ => []

def buildRemediations (expired : List CredentialSummary)
    (mailboxUnscoped mailboxLegacy sharepointOrgwide : List ResourcePermission)
    (redundant : List RedundantPermission) (ownerCount : Option Nat) : List RemediationAction :=
  remediationFor .removeExpiredCredentials expired [] ++
  remediationFor .scopeMailboxAccess mailboxUnscoped (mailboxUnscoped.map (·.value)) ++
  remediationFor .migrateApplicationAccessPolicy mailboxLegacy (mailboxLegacy.map (·.value)) ++
  remediationFor .scopeSharePointAccess sharepointOrgwide (sharepointOrgwide.map (·.value)) ++
  remediationFor .removeRedundantPermissions redundant (redundant.map (·.value)) ++
  ownerRemediations ownerCount

def allCredentials (app : Application) (now : Timestamp) : List CredentialSummary :=
  (summarizeCredentials app now).1 ++ (summarizeCredentials app now).2

def expiredOf (all : List CredentialSummary) : List CredentialSummary :=
  all.filter (fun c => c.status == .expired)

def expiringOf (all : List CredentialSummary) : List CredentialSummary :=
  all.filter (fun c => c.status == .expiringSoon)

/-- The credentials that work and are not about to expire. -/
def activeOf (all : List CredentialSummary) : List CredentialSummary :=
  all.filter (fun c => c.status == .active || c.status == .unknown)

/-- The contributions of the rules, in the order they are folded. The pointers to narrower
    permissions add recommendations only. -/
def ruleContributions (app : Application) (spEnabled : Option Bool) (perms : AppPermissions)
    (now : Timestamp) : List RuleContribution :=
  let all := allCredentials app now
  let declared := perms.declaredView
  let hasAppPermissions := !perms.appRoleGrants.isEmpty
  let hasCredentials := !all.isEmpty
  [ruleDisabledByMicrosoft app.disabledByMicrosoftStatus,
    ruleAppPermissionRisk perms,
    ruleAdminConsent perms,
    ruleSpDisabled spEnabled,
    ruleCredentials (expiredOf all) (expiringOf all) (activeOf all).length (all.filter isLongLived),
    ruleStaleApp (app.createdDateTime.map (fun c => numDays (now - c))),
    ruleMailboxAdvisory declared,
    ruleSharepointAdvisory declared,
    ruleHighRiskDelegated perms.scopeValues perms.adminConsentedScopes,
    ruleGrantedUndeclared perms,
    ruleAppHygiene app hasAppPermissions hasCredentials
      (!(summarizeCredentials app now).1.isEmpty),
    ruleRedundantPermissions declared,
    ruleExternalExposure app hasAppPermissions hasCredentials]

/-- The audit's verdict on an application. -/
def scoreApplication (app : Application) (spEnabled : Option Bool) (permissions : AppPermissions)
    (now : Timestamp) : AuditItem :=
  let perms := permissions.deduped
  let acc := (ruleContributions app spEnabled perms now).foldl RuleContribution.merge ⟨0, []⟩
  let all := allCredentials app now
  let declared := perms.declaredView
  { applicationName := app.displayName
    appId := app.appId
    objectId := app.id
    riskScore := acc.score
    riskLevel := RiskLevel.fromScore acc.score
    issues := acc.issues
    remediations := buildRemediations (expiredOf all) (MailboxPart.unscoped.grants declared)
      (MailboxPart.scopedLegacy.grants declared) (sharepointScopable declared)
      (redundantOf declared) (app.owners.map List.length)
    credentialStatus := overallCredentialStatus all
    permissionCount := perms.appRoleGrants.length + perms.scopeValues.length
    servicePrincipalEnabled := spEnabled
    daysSinceCreated := app.createdDateTime.map (fun c => numDays (now - c))
    certificates := (summarizeCredentials app now).2
    secrets := (summarizeCredentials app now).1
    unused := false
    principalKind := .application }

end Audit
