import AzAppToolkit.Audit.Finding

set_option autoImplicit false

/-! # How the issue lines open

Every line of a rule opens with a literal text, whatever it quotes after that. -/

namespace Audit

open Exchange (ResourcePermission ScopeMechanism)

/-! ## Openings of the rules -/

theorem opens_disabledByMicrosoft (status : Option Text) :
    OpensWith [Issue.disabledByMicrosoft] (ruleDisabledByMicrosoft status).issues := by
  unfold ruleDisabledByMicrosoft
  split
  · exact OpensWith.nil _
  · exact OpensWith.single _ _

/-- The openings for the scoped permissions of a tier. -/
def scopedRiskHeads (tier : String) : List Text :=
  [(tier ++ " mailbox permissions scoped via RBAC for Applications (reduced risk): ").toList,
    (tier ++ " mailbox permissions confined by a legacy Application Access Policy " ++
      "(reduced risk): ").toList]

theorem opens_scopedRiskIssues (tier : String) (confined : List ResourcePermission) (perms : AppPermissions) :
    OpensWith (scopedRiskHeads tier) (scopedRiskIssues tier confined perms) :=
  (OpensWith.lineFor _ _ _).append (OpensWith.lineFor _ _ _)

/-- The openings of Rules 1 and 2. -/
def riskHeads : List Text :=
  [Issue.highRiskAppPerms] ++ ["High-risk application permissions: ".toList] ++
    scopedRiskHeads "High-risk" ++ ["Medium-risk application permissions: ".toList] ++
    scopedRiskHeads "Medium-risk"

theorem opens_appPermissionRisk (perms : AppPermissions) :
    OpensWith riskHeads (ruleAppPermissionRisk perms).issues := by
  unfold ruleAppPermissionRisk riskHeads
  exact ((((OpensWith.lineFor _ _ _).append (OpensWith.lineFor _ _ _)).append
    (opens_scopedRiskIssues _ _ _)).append (OpensWith.lineFor _ _ _)).append
    (opens_scopedRiskIssues _ _ _)

/-- The openings of the credential rules. -/
def credentialHeads : List Text :=
  ["All credentials expired: ".toList, "Mixed credential status: ".toList,
    "All credentials expiring soon: ".toList, "Credentials expiring soon: ".toList,
    "Long-lived secrets (>1 year): ".toList, "Long-lived certificates (>1 year): ".toList]

theorem opens_credentials (expired expiring : List CredentialSummary) (activeCount : Nat)
    (longLived : List CredentialSummary) :
    OpensWith credentialHeads (ruleCredentials expired expiring activeCount longLived).issues := by
  have hsingle : ∀ head ∈ credentialHeads, ∀ rest, OpensWith credentialHeads [head ++ rest] := by
    intro head hhead rest line hline
    rw [List.mem_singleton.1 hline]
    exact ⟨head, hhead, List.prefix_append head rest⟩
  have hline : ∀ head ∈ credentialHeads, ∀ (items : List CredentialSummary) (rest : Text),
      OpensWith credentialHeads (lineFor items (head ++ rest)) := by
    intro head hhead items rest line hline
    rw [(mem_lineFor.1 hline).2]
    exact ⟨head, hhead, List.prefix_append head rest⟩
  have hparts : ∀ a b : List Text, OpensWith credentialHeads a → OpensWith credentialHeads b →
      OpensWith credentialHeads (a ++ b) := by
    intro a b ha hb line hmem
    exact (List.mem_append.1 hmem).elim (ha line) (hb line)
  unfold ruleCredentials
  refine hparts _ _ (hparts _ _ ?_ ?_) ?_
  · split
    · exact hsingle _ (by simp only [credentialHeads, List.mem_cons, true_or]) _
    · split
      · exact hsingle _ (by simp only [credentialHeads, List.mem_cons, true_or, or_true]) _
      · exact OpensWith.nil _
  · split
    · exact OpensWith.nil _
    · split
      · exact hsingle _ (by simp only [credentialHeads, List.mem_cons, true_or, or_true]) _
      · split
        · exact hsingle _ (by simp only [credentialHeads, List.mem_cons, true_or, or_true]) _
        · exact OpensWith.nil _
  · split
    · exact OpensWith.nil _
    · exact hparts _ _
        (hline _ (by simp only [credentialHeads, List.mem_cons, true_or, or_true]) _ _)
        (hline _ (by simp only [credentialHeads, List.mem_cons, true_or, or_true]) _ _)

theorem opens_adminConsent (perms : AppPermissions) :
    OpensWith ["Admin consent granted for delegated permissions".toList]
      (ruleAdminConsent perms).issues := by
  unfold ruleAdminConsent
  split
  · exact OpensWith.literal _
  · exact OpensWith.nil _

theorem opens_spDisabled (spEnabled : Option Bool) :
    OpensWith ["Service principal is disabled".toList] (ruleSpDisabled spEnabled).issues := by
  unfold ruleSpDisabled
  split
  · exact OpensWith.literal _
  · exact OpensWith.nil _

theorem opens_staleApp (daysSinceCreated : Option Int) :
    OpensWith ["Application created ".toList] (ruleStaleApp daysSinceCreated).issues := by
  unfold ruleStaleApp
  split
  · exact OpensWith.nil _
  · split
    · exact OpensWith.single _ _
    · exact OpensWith.nil _

theorem opens_highRiskDelegated (declared : List Text) (adminConsented : Option (List Text)) :
    OpensWith [Issue.highRiskDelegatedPerms ++ " ".toList]
      (ruleHighRiskDelegated declared adminConsented).issues :=
  OpensWith.lineFor _ _ _

theorem opens_grantedUndeclared (perms : AppPermissions) :
    OpensWith [Issue.grantedNotDeclared ++ " ".toList] (ruleGrantedUndeclared perms).issues :=
  OpensWith.lineFor _ _ _

def redundantHeads : List Text := [Issue.redundantAppPerms ++ " ".toList]

theorem opens_redundantPermissions (perms : AppPermissions) :
    OpensWith redundantHeads (ruleRedundantPermissions perms).issues :=
  OpensWith.lineFor _ _ _

theorem opens_externalExposure (app : Application) (hasAppPermissions hasCredentials : Bool) :
    OpensWith [Issue.multitenantAudience, Issue.unverifiedPublisher]
      (ruleExternalExposure app hasAppPermissions hasCredentials).issues := by
  unfold ruleExternalExposure
  split
  · exact OpensWith.nil _
  · split
    · exact OpensWith.nil _
    · exact (OpensWith.single _ _).append (OpensWith.ite (OpensWith.single _ _) (OpensWith.nil _))

/-- The openings of the hygiene rules beyond ownership. -/
def hygieneHeads : List Text :=
  [Issue.instanceLockDisabled] ++ ([Issue.publicClientCredentials] ++ [Issue.preferCertOverSecret])

theorem hygiene_lines (app : Application) (hasAppPermissions hasCredentials hasSecrets : Bool) :
    ∃ rest, OpensWith hygieneHeads rest ∧
      (ruleAppHygiene app hasAppPermissions hasCredentials hasSecrets).issues
        = ownerLines app.owners ++ rest := by
  unfold ruleAppHygiene
  dsimp only
  rw [List.append_assoc, List.append_assoc]
  refine ⟨_, ?_, rfl⟩
  exact (OpensWith.ite (OpensWith.single _ _) (OpensWith.nil _)).append
    ((OpensWith.ite (OpensWith.single _ _) (OpensWith.nil _)).append
      (OpensWith.ite (OpensWith.single _ _) (OpensWith.nil _)))

/-- The openings of Rule 12 beyond the org-wide site grants. -/
def sharepointHeads : List Text :=
  [Issue.unconfinableSharepoint ++ ": ".toList] ++ ([Issue.orgWideFiles ++ ": ".toList] ++
    [Issue.scopedSharepoint])

end Audit
