import AzAppToolkit.Audit.Scoring

set_option autoImplicit false

/-! # Scoring a service principal

`score_service_principal` of `azapptoolkit-core/src/audit/scoring.rs`: a service principal without an
application object in the tenant is scored on what it was granted; its credentials, its manifest and
its age are its home tenant's. -/

namespace Audit

structure SpAuditInput where
  displayName : Text
  appId : Text
  spObjectId : Text
  createdDateTime : Option Timestamp
  accountEnabled : Option Bool
  servicePrincipalType : Option Text
  disabledByMicrosoftStatus : Option Text

/-- The contributions of the rules over granted permissions, in the order they are folded. -/
def spRuleContributions (sp : SpAuditInput) (perms : AppPermissions) : List RuleContribution :=
  [ruleDisabledByMicrosoft sp.disabledByMicrosoftStatus,
    ruleAppPermissionRisk perms,
    ruleAdminConsent perms,
    ruleSpDisabled sp.accountEnabled,
    ruleMailboxAdvisory perms,
    ruleSharepointAdvisory perms,
    ruleHighRiskDelegated perms.scopeValues (some perms.scopeValues)]

/-- The audit's verdict on a service principal of another tenant. -/
def scoreServicePrincipal (sp : SpAuditInput) (permissions : AppPermissions) (now : Timestamp) :
    AuditItem :=
  let perms := permissions.deduped
  let acc := (spRuleContributions sp perms).foldl RuleContribution.merge ⟨0, []⟩
  { applicationName := sp.displayName
    appId := sp.appId
    objectId := sp.spObjectId
    riskScore := acc.score
    riskLevel := RiskLevel.fromScore acc.score
    issues := acc.issues
    remediations := buildRemediations [] (MailboxPart.unscoped.grants perms)
      (MailboxPart.scopedLegacy.grants perms) (sharepointScopable perms) [] none
    credentialStatus := .unknown
    permissionCount := perms.appRoleGrants.length + perms.scopeValues.length
    servicePrincipalEnabled := sp.accountEnabled
    daysSinceCreated := sp.createdDateTime.map (fun c => numDays (now - c))
    certificates := []
    secrets := []
    unused := false
    principalKind :=
      if sp.servicePrincipalType == some "ManagedIdentity".toList then .managedIdentity
      else .servicePrincipal }

end Audit
