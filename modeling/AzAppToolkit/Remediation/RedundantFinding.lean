import AzAppToolkit.Audit.Scoring
import AzAppToolkit.Remediation.RedundantPlan

set_option autoImplicit false

/-! # What a redundancy finding says

Rule 18 of the scorer pairs grants by resource and value, and asks by value alone whether the broader
one is confined (`value_fully_scoped`): a namesake on another resource that still reaches every
mailbox keeps the broader permission standing. The planner of the fix asks about the grant on the
resource itself (`broader_is_confined`), so that it removes no more than the rule reports. -/

namespace Audit

open Exchange (ResourcePermission MailPermissionScope)

/-- Each permission that covers a reported one is held on its resource, not confined there. -/
def CoveredOnResource (perms : AppPermissions) : Prop :=
  ∀ finding ∈ redundantOf perms, ∀ b ∈ finding.coveredBy, ∃ g ∈ perms.appRoleGrants,
    g.resourceAppId = some finding.resourceAppId ∧ g.value = b ∧ perms.isScoped g = false

/-- What a reported permission is covered by: a grant on its resource, and a grant of that value that
    is not confined, the same one or a namesake on another resource. -/
structure CoveredByValue (perms : AppPermissions) (resourceAppId b : Text) : Prop where
  held : ⟨some resourceAppId, b⟩ ∈ perms.appRoleGrants
  unconfined : ∃ g ∈ perms.appRoleGrants, g.value = b ∧ perms.isScoped g = false ∧
    (perms.isScoped ⟨some resourceAppId, b⟩ = true → g.resourceAppId ≠ some resourceAppId)

variable {perms : AppPermissions}

theorem valueFullyScoped_eq_false {b : Text} (hheld : ∃ g ∈ perms.appRoleGrants, g.value = b) :
    perms.valueFullyScoped b = false ↔
      ∃ g ∈ perms.appRoleGrants, g.value = b ∧ perms.isScoped g = false := by
  obtain ⟨g₀, hg₀, hvalue₀⟩ := hheld
  have hmem : g₀ ∈ perms.appRoleGrants.filter (fun g => g.value == b) :=
    List.mem_filter.2 ⟨hg₀, beq_iff_eq.2 hvalue₀⟩
  have hnonempty : (perms.appRoleGrants.filter (fun g => g.value == b)).isEmpty = false :=
    List.isEmpty_eq_false_iff_exists_mem.2 ⟨g₀, hmem⟩
  unfold AppPermissions.valueFullyScoped
  simp only [hnonempty, Bool.not_false, Bool.true_and]
  rw [List.all_eq_false]
  constructor
  · rintro ⟨g, hg, hscoped⟩
    obtain ⟨hg, hvalue⟩ := List.mem_filter.1 hg
    exact ⟨g, hg, eq_of_beq hvalue, Bool.eq_false_iff.2 hscoped⟩
  · rintro ⟨g, hg, hvalue, hscoped⟩
    exact ⟨g, List.mem_filter.2 ⟨hg, beq_iff_eq.2 hvalue⟩, Bool.eq_false_iff.1 hscoped⟩

theorem mem_held {grants : List ResourcePermission} {r v : Text} :
    (r, v) ∈ grants.filterMap resolvedPair ↔ ⟨some r, v⟩ ∈ grants := by
  rw [List.mem_filterMap]
  constructor
  · rintro ⟨⟨resource, value⟩, hg, hpair⟩
    obtain ⟨r', rfl, heq⟩ := Option.map_eq_some_iff.1 hpair
    obtain ⟨rfl, rfl⟩ := Prod.mk.inj heq
    exact hg
  · intro hg
    exact ⟨⟨some r, v⟩, hg, rfl⟩

/-- The permissions Rule 18 counts as covering a pair. -/
theorem mem_coveredBy {r v b : Text} :
    b ∈ (subsumingAppPermissions v).filter
        (fun b => (perms.appRoleGrants.filterMap resolvedPair).contains (r, b) &&
          !perms.valueFullyScoped b) ↔
      Subsumes b v ∧ ⟨some r, b⟩ ∈ perms.appRoleGrants ∧ perms.valueFullyScoped b = false := by
  rw [List.mem_filter, Bool.and_eq_true, List.contains_iff_mem, mem_held, Bool.not_eq_true']
  rfl

/-- A pair is reported when it is held and something covers it. -/
theorem mem_redundantOf {finding : RedundantPermission} :
    finding ∈ redundantOf perms ↔
      ⟨some finding.resourceAppId, finding.value⟩ ∈ perms.appRoleGrants ∧
        finding.coveredBy = (subsumingAppPermissions finding.value).filter
          (fun b => (perms.appRoleGrants.filterMap resolvedPair).contains (finding.resourceAppId, b)
            && !perms.valueFullyScoped b) ∧
        finding.coveredBy ≠ [] := by
  unfold redundantOf redundantAppPermissions
  simp only
  rw [List.mem_filterMap]
  constructor
  · rintro ⟨⟨r, v⟩, hpair, hfinding⟩
    rw [List.mem_eraseDups, mem_held] at hpair
    simp only at hfinding
    split at hfinding
    · exact absurd hfinding (by simp)
    · next hcovered =>
      obtain rfl := Option.some.inj hfinding
      exact ⟨hpair, rfl, fun hnil => hcovered (List.isEmpty_iff.2 hnil)⟩
  · rintro ⟨hheld, hcovered, hne⟩
    refine ⟨(finding.resourceAppId, finding.value), ?_, ?_⟩
    · rw [List.mem_eraseDups, mem_held]
      exact hheld
    · simp only
      rw [← hcovered, if_neg]
      rw [List.isEmpty_iff]
      exact hne

/-- A covering permission is held on the resource, and not all grants of it are confined. -/
theorem coveredByValue {finding : RedundantPermission}
    (h : finding ∈ redundantOf perms) {b : Text} (hb : b ∈ finding.coveredBy) :
    CoveredByValue perms finding.resourceAppId b := by
  obtain ⟨-, hcovered, -⟩ := mem_redundantOf.1 h
  rw [hcovered] at hb
  obtain ⟨-, hheld, hveto⟩ := mem_coveredBy.1 hb
  obtain ⟨g, hg, hvalue, hopen⟩ := (valueFullyScoped_eq_false ⟨_, hheld, rfl⟩).1 hveto
  refine ⟨hheld, g, hg, hvalue, hopen, ?_⟩
  intro hscoped hresource
  obtain ⟨resource, value⟩ := g
  simp only at hvalue hresource
  rw [hvalue, hresource, hscoped] at hopen
  exact Bool.noConfusion hopen

/-- A grant the planner does not take for confined is not confined for the scorer either. -/
theorem isScoped_eq_false_of_planner {r b : Text}
    (h : Remediation.broaderIsConfined perms.mailScopes.lookup r b = false) :
    perms.isScoped ⟨some r, b⟩ = false := by
  unfold Remediation.broaderIsConfined at h
  unfold AppPermissions.isScoped AppPermissions.scopeMechanism
  by_cases hscopable : Exchange.isScopableExchangeResourcePermission (some r) b = true
  · simp only [hscopable, Bool.not_true, Bool.false_eq_true, if_false] at h ⊢
    rw [bne_eq_false_iff_eq] at h
    rw [h]
    rfl
  · simp only [hscopable, Bool.not_false, if_true, Option.isSome_none]

end Audit

namespace Remediation

open Exchange (ResourcePermission)

/-- The scorer's grants hold what the manifest declares. -/
def HoldsDeclared (perms : Audit.AppPermissions) (required : List RequiredResourceAccess)
    (indexes : Text → Option (Text → Option Text)) : Prop :=
  ∀ block ∈ required, ∀ index, indexes block.resourceAppId = some index →
    ∀ d ∈ declaredRoles index block, ⟨some block.resourceAppId, d.2⟩ ∈ perms.appRoleGrants

/-- What the planner would remove, the scorer reports. -/
theorem reported_of_planned {perms : Audit.AppPermissions} {required : List RequiredResourceAccess}
    {indexes granted : Text → Option (Text → Option Text)}
    (hheld : HoldsDeclared perms required indexes) {removal : RedundantRemoval}
    (h : removal ∈ (planRedundantRemovals required indexes granted
      (broaderIsConfined perms.mailScopes.lookup)).1) :
    ∃ finding ∈ Audit.redundantOf perms,
      finding.resourceAppId = removal.resourceAppId ∧ finding.value = removal.value := by
  obtain ⟨block, index, hplanned⟩ := mem_plan.1 h
  obtain ⟨b, hb⟩ := hplanned.removable.covered
  obtain ⟨hsubsumes, ⟨id, hid⟩, hopen⟩ := mem_broadersOf.1 hb
  have hbroad := hheld block hplanned.block_mem index hplanned.indexed _ (mem_of_valueToId hid)
  have hnarrow := hheld block hplanned.block_mem index hplanned.indexed _ hplanned.declared
  have hveto := (Audit.valueFullyScoped_eq_false ⟨_, hbroad, rfl⟩).2
    ⟨_, hbroad, rfl, Audit.isScoped_eq_false_of_planner hopen⟩
  have hcovers := Audit.mem_coveredBy.2 ⟨hsubsumes, hbroad, hveto⟩
  let coveredBy := (Audit.subsumingAppPermissions removal.value).filter
    (fun b => (perms.appRoleGrants.filterMap Audit.resolvedPair).contains (block.resourceAppId, b) &&
      !perms.valueFullyScoped b)
  exact ⟨⟨block.resourceAppId, removal.value, coveredBy⟩,
    Audit.mem_redundantOf.2 ⟨hnarrow, rfl, List.ne_nil_of_mem hcovers⟩, hplanned.resource.symm, rfl⟩

/-- Rule 18 reports a permission for the grants on its resource that cover it, each of a value that is
    not confined everywhere it is held; and it reports whatever the fix would remove. -/
theorem redundant_findings_cover (perms : Audit.AppPermissions) :
    (∀ finding ∈ Audit.redundantOf perms, ∀ b ∈ finding.coveredBy,
      Audit.CoveredByValue perms finding.resourceAppId b) ∧
    ∀ required indexes granted, HoldsDeclared perms required indexes →
      ∀ removal ∈ (planRedundantRemovals required indexes granted
        (broaderIsConfined perms.mailScopes.lookup)).1,
        ∃ finding ∈ Audit.redundantOf perms,
          finding.resourceAppId = removal.resourceAppId ∧ finding.value = removal.value :=
  ⟨fun _ hfinding _ hb => Audit.coveredByValue hfinding hb,
    fun _ _ _ hheld _ hplanned => reported_of_planned hheld hplanned⟩

/-- `Mail.Read` and a confined `Mail.ReadWrite` on Microsoft Graph, and a `Mail.ReadWrite` of Office
    365 Exchange Online that nothing can confine. -/
def namesakeGrants : Audit.AppPermissions where
  appRoleGrants :=
    [⟨some Exchange.microsoftGraphAppId, "Mail.ReadWrite".toList⟩,
      ⟨some Exchange.office365ExchangeOnlineAppId, "Mail.ReadWrite".toList⟩,
      ⟨some Exchange.microsoftGraphAppId, "Mail.Read".toList⟩]
  scopeValues := []
  hasAdminConsent := false
  adminConsentedScopes := none
  mailScopes := (∅ : Table Text Exchange.MailPermissionScope).insert "Mail.ReadWrite".toList
    (.scoped none none none .rbac)
  undeclaredGrants := []

/-- `Mail.Read` and `Mail.ReadWrite` on Microsoft Graph, which reach every mailbox. -/
def mailReadPair : Audit.AppPermissions :=
  { namesakeGrants with
    appRoleGrants :=
      [⟨some Exchange.microsoftGraphAppId, "Mail.Read".toList⟩,
        ⟨some Exchange.microsoftGraphAppId, "Mail.ReadWrite".toList⟩]
    mailScopes := (∅ : Table Text Exchange.MailPermissionScope).insert "Mail.ReadWrite".toList
      .orgWide }

/-- The namesake keeps `Mail.Read` reported on Microsoft Graph, where only the confined grant covers
    it. -/
theorem redundant_finding_not_on_resource :
    ¬ ∀ perms : Audit.AppPermissions, Audit.CoveredOnResource perms := by
  intro h
  have hreported : ⟨Exchange.microsoftGraphAppId, "Mail.Read".toList, ["Mail.ReadWrite".toList]⟩
      ∈ Audit.redundantOf namesakeGrants := by decide
  obtain ⟨g, hg, hresource, hvalue, hopen⟩ :=
    h namesakeGrants _ hreported "Mail.ReadWrite".toList (List.mem_singleton_self _)
  have hscoped : namesakeGrants.isScoped
      ⟨some Exchange.microsoftGraphAppId, "Mail.ReadWrite".toList⟩ = true := by decide
  obtain ⟨resource, value⟩ := g
  simp only at hresource hvalue
  rw [hresource, hvalue, hscoped] at hopen
  exact Bool.noConfusion hopen

/-- A manifest that declares the pair. -/
def mailPairManifest : List RequiredResourceAccess :=
  [⟨Exchange.microsoftGraphAppId, [⟨"r1".toList, roleType⟩, ⟨"r2".toList, roleType⟩]⟩]

/-- The values of its two roles. -/
def mailIndexes : Text → Option (Text → Option Text) :=
  fun _ => some (fun id =>
    if id = "r1".toList then some "Mail.Read".toList else some "Mail.ReadWrite".toList)

/-- The narrower of the pair is planned for removal, and reported. -/
theorem redundant_findings_cover_mail :
    ∃ removal ∈ (planRedundantRemovals mailPairManifest mailIndexes (fun _ => some some)
        (broaderIsConfined mailReadPair.mailScopes.lookup)).1,
      ∃ finding ∈ Audit.redundantOf mailReadPair,
        finding.resourceAppId = removal.resourceAppId ∧ finding.value = removal.value := by
  have hplanned : ⟨Exchange.microsoftGraphAppId, "Mail.Read".toList, "r1".toList, some "r1".toList⟩
      ∈ (planRedundantRemovals mailPairManifest mailIndexes (fun _ => some some)
        (broaderIsConfined mailReadPair.mailScopes.lookup)).1 := by decide
  have hheld : HoldsDeclared mailReadPair mailPairManifest mailIndexes := by
    intro block hblock index hindex
    obtain rfl := List.mem_singleton.1 hblock
    obtain rfl := Option.some.inj hindex
    decide
  exact ⟨_, hplanned, (redundant_findings_cover mailReadPair).2 _ _ _ hheld _ hplanned⟩

end Remediation
