import AzAppToolkit.Audit.Finding
import AzAppToolkit.Audit.ServicePrincipal

set_option autoImplicit false

/-! # The permission part of a score

Rules 1 and 2 add a weight for each distinct grant, by the one list its value is on and by whether it
is confined; Rule 3 adds a fixed weight for admin consent. Both entry points add the same two, and the
rest of a score sees the grants only through whether there are any. -/

namespace Audit

open Exchange (ResourcePermission MailPermissionScope microsoftGraphAppId)

/-! ## Weights -/

inductive Tier where
  | tier0
  | high
  | medium
deriving DecidableEq

namespace Tier

def values : Tier → List Text
  | .tier0 => tier0AppPermissions
  | .high => highRiskAppPermissions
  | .medium => mediumRiskAppPermissions

/-- What a grant of the tier weighs. No tier-0 permission is confinable. -/
def points : Tier → Bool → Nat
  | .tier0, _ => 25
  | .high, confined => if confined then 3 else 10
  | .medium, confined => if confined then 2 else 5

end Tier

/-- The tier whose list holds the value. -/
def tierOf (value : Text) : Option Tier :=
  if tier0AppPermissions.contains value then some .tier0
  else if highRiskAppPermissions.contains value then some .high
  else if mediumRiskAppPermissions.contains value then some .medium
  else none

/-- What a grant adds to the score: the weight of its tier, or nothing. -/
def grantWeight (perms : AppPermissions) (g : ResourcePermission) : Nat :=
  match tierOf g.value with
  | some tier => tier.points (perms.isScoped g)
  | none => 0

theorem riskLists_disjoint : (∀ v ∈ tier0AppPermissions, v ∉ highRiskAppPermissions) ∧
    (∀ v ∈ tier0AppPermissions, v ∉ mediumRiskAppPermissions) ∧
    (∀ v ∈ highRiskAppPermissions, v ∉ mediumRiskAppPermissions) := by
  unfold tier0AppPermissions highRiskAppPermissions mediumRiskAppPermissions
  simp only [List.map_cons, List.map_nil]
  repeat rw [String.toList_ofList]
  decide

/-- The tiers share no value. -/
theorem tiers_disjoint : ∀ t t' : Tier, t ≠ t' → ∀ v ∈ t.values, v ∉ t'.values := by
  obtain ⟨hhigh, hmedium, hboth⟩ := riskLists_disjoint
  intro t t' hne v hv hv'
  cases t <;> cases t' <;> first | exact hne rfl | skip
  · exact hhigh v hv hv'
  · exact hmedium v hv hv'
  · exact hhigh v hv' hv
  · exact hboth v hv hv'
  · exact hmedium v hv' hv
  · exact hboth v hv' hv

theorem mem_tier_iff {value : Text} {t : Tier} : value ∈ t.values ↔ tierOf value = some t := by
  constructor
  · intro hmem
    have hnot : ∀ t' : Tier, t' ≠ t → value ∉ t'.values :=
      fun t' hne hmem' => tiers_disjoint t' t hne value hmem' hmem
    unfold tierOf
    cases t with
    | tier0 =>
      have h0 : value ∈ tier0AppPermissions := hmem
      simp [h0]
    | high =>
      have h0 : value ∉ tier0AppPermissions := hnot .tier0 (by decide)
      have h1 : value ∈ highRiskAppPermissions := hmem
      simp [h0, h1]
    | medium =>
      have h0 : value ∉ tier0AppPermissions := hnot .tier0 (by decide)
      have h1 : value ∉ highRiskAppPermissions := hnot .high (by decide)
      have h2 : value ∈ mediumRiskAppPermissions := hmem
      simp [h0, h1, h2]
  · intro htier
    unfold tierOf at htier
    split_ifs at htier with h0 h1 h2
    · obtain rfl := Option.some.inj htier
      exact List.contains_iff_mem.1 h0
    · obtain rfl := Option.some.inj htier
      exact List.contains_iff_mem.1 h1
    · obtain rfl := Option.some.inj htier
      exact List.contains_iff_mem.1 h2

/-- Exchange has no role for a tier-0 permission. -/
theorem unscopable_tier0 {v : Text} (hv : v ∈ tier0AppPermissions) :
    Exchange.graphMailRole v = none ∧ v ≠ Exchange.ewsFullAccessAsApp := by
  have hapart : ∀ v ∈ tier0AppPermissions,
      v ∉ Exchange.graphMailRoles.map (fun r => r.1.toList) ∧ v ≠ Exchange.ewsFullAccessAsApp := by
    unfold tier0AppPermissions Exchange.graphMailRoles Exchange.ewsFullAccessAsApp
    simp only [List.map_cons, List.map_nil]
    repeat rw [String.toList_ofList]
    decide
  obtain ⟨hnot, hews⟩ := hapart v hv
  refine ⟨?_, hews⟩
  unfold Exchange.graphMailRole
  rw [Option.map_eq_none_iff, List.find?_eq_none]
  intro r hr heq
  exact hnot (List.mem_map.2 ⟨r, hr, beq_iff_eq.1 heq⟩)

/-- No tier-0 permission can be confined. -/
theorem isScoped_tier0 (perms : AppPermissions) {g : ResourcePermission}
    (h : tierOf g.value = some .tier0) : perms.isScoped g = false := by
  obtain ⟨hrole, hews⟩ := unscopable_tier0 (mem_tier_iff (t := .tier0) |>.2 h)
  have hgate : Exchange.isScopableExchangeResourcePermission g.resourceAppId g.value = false := by
    unfold Exchange.isScopableExchangeResourcePermission
      Exchange.exchangeRoleForResourcePermission
    cases g.resourceAppId with
    | none => rfl
    | some r =>
      simp only [hrole, if_neg hews, ite_self, Option.isSome_none]
  unfold AppPermissions.isScoped AppPermissions.scopeMechanism
  rw [hgate]
  rfl

/-- A confined grant on a list weighs less than the same grant unconfined. -/
theorem points_confined_lt {t : Tier} (h : t ≠ .tier0) : t.points true < t.points false := by
  cases t with
  | tier0 => exact absurd rfl h
  | high | medium => decide

theorem points_le (t : Tier) (confined : Bool) : t.points confined ≤ t.points false := by
  cases t <;> cases confined <;> decide

/-! ## The sum of the weights -/

/-- Rules 1 and 2 on the grants of the list. -/
def weightOf (perms : AppPermissions) (grants : List ResourcePermission) : Nat :=
  (grants.map (grantWeight perms)).sum

theorem tier_contains (value : Text) (t : Tier) :
    t.values.contains value = decide (tierOf value = some t) := by
  rw [Bool.eq_iff_iff, List.contains_iff_mem, decide_eq_true_iff, mem_tier_iff]

/-- The grants of the list on a tier, confined or not. -/
def countOn (perms : AppPermissions) (t : Tier) (confined : Bool)
    (grants : List ResourcePermission) : Nat :=
  grants.countP (fun g => t.values.contains g.value && perms.isScoped g == confined)

/-- The weights add up tier by tier. -/
theorem weightOf_eq_counts (perms : AppPermissions) (grants : List ResourcePermission) :
    weightOf perms grants
      = 25 * (countOn perms .tier0 true grants + countOn perms .tier0 false grants)
        + 10 * countOn perms .high false grants + 3 * countOn perms .high true grants
        + 5 * countOn perms .medium false grants + 2 * countOn perms .medium true grants := by
  unfold weightOf countOn
  induction grants with
  | nil => rfl
  | cons g rest ih =>
    rw [List.map_cons, List.sum_cons, ih]
    simp only [List.countP_cons, tier_contains]
    unfold grantWeight
    cases htier : tierOf g.value with
    | none => simp
    | some t =>
      cases t <;> cases hscoped : perms.isScoped g <;> simp [Tier.points] <;> omega

theorem length_filter_confined (perms : AppPermissions) (t : Tier) (grants : List ResourcePermission) :
    ((grants.filter (fun g => t.values.contains g.value)).filter perms.isScoped).length
      = countOn perms t true grants := by
  unfold countOn
  rw [List.filter_filter, ← List.countP_eq_length_filter]
  apply List.countP_congr
  intro g _
  simp [and_comm]

theorem length_filter_full (perms : AppPermissions) (t : Tier) (grants : List ResourcePermission) :
    ((grants.filter (fun g => t.values.contains g.value)).filter
        (fun g => !perms.isScoped g)).length
      = countOn perms t false grants := by
  unfold countOn
  rw [List.filter_filter, ← List.countP_eq_length_filter]
  apply List.countP_congr
  intro g _
  simp [and_comm]

theorem length_filter_tier (perms : AppPermissions) (t : Tier) (grants : List ResourcePermission) :
    (grants.filter (fun g => t.values.contains g.value)).length
      = countOn perms t true grants + countOn perms t false grants := by
  rw [← length_filter_confined, ← length_filter_full]
  exact List.length_eq_length_filter_add _

/-- Rules 1 and 2 add up the weights of the grants. -/
theorem score_ruleAppPermissionRisk (perms : AppPermissions) :
    (ruleAppPermissionRisk perms).score = weightOf perms perms.appRoleGrants := by
  rw [weightOf_eq_counts, ← length_filter_tier]
  simp only [← length_filter_confined, ← length_filter_full]
  rfl

/-! ### Distinct grants -/

theorem nodup_eraseDups {α : Type} [DecidableEq α] (l : List α) : l.eraseDups.Nodup := by
  induction hn : l.length using Nat.strong_induction_on generalizing l with
  | _ n ih =>
    cases l with
    | nil => simp
    | cons a as =>
      rw [List.eraseDups_cons, List.nodup_cons]
      have hlength : (as.filter (fun b => !b == a)).length < n := by
        rw [← hn, List.length_cons]
        exact Nat.lt_succ_of_le (List.length_filter_le _ _)
      refine ⟨?_, ih _ hlength _ rfl⟩
      rw [List.mem_eraseDups, List.mem_filter]
      simp

/-- The weights of the distinct grants. -/
def distinctWeight (perms : AppPermissions) : Nat :=
  ∑ g ∈ perms.appRoleGrants.toFinset, grantWeight perms g

theorem weightOf_deduped (perms : AppPermissions) :
    weightOf perms.deduped perms.deduped.appRoleGrants = distinctWeight perms := by
  have hset : perms.appRoleGrants.toFinset = perms.appRoleGrants.eraseDups.toFinset := by
    ext g
    rw [List.mem_toFinset, List.mem_toFinset, List.mem_eraseDups]
  unfold distinctWeight
  rw [hset, List.sum_toFinset _ (nodup_eraseDups _)]
  rfl

/-! ## The score of an item -/

/-- The score of an application's rules, the advisory ones adding nothing. -/
theorem score_application_rules {disabled risk consent spDisabled credentials stale mailbox sharepoint
    delegated undeclared hygiene redundant exposure : RuleContribution}
    (hmailbox : mailbox.score = 0) (hsharepoint : sharepoint.score = 0)
    (hdelegated : delegated.score = 0) (hundeclared : undeclared.score = 0)
    (hhygiene : hygiene.score = 0) (hredundant : redundant.score = 0) :
    ([disabled, risk, consent, spDisabled, credentials, stale, mailbox, sharepoint, delegated,
        undeclared, hygiene, redundant, exposure].foldl RuleContribution.merge ⟨0, []⟩).score
      = risk.score + consent.score
        + (disabled.score + spDisabled.score + credentials.score + stale.score + exposure.score) := by
  simp only [List.foldl_cons, List.foldl_nil, RuleContribution.merge, hmailbox, hsharepoint,
    hdelegated, hundeclared, hhygiene, hredundant]
  omega

/-- The score of a service principal's rules, the advisory ones adding nothing. -/
theorem score_servicePrincipal_rules {disabled risk consent spDisabled mailbox sharepoint
    delegated : RuleContribution} (hmailbox : mailbox.score = 0) (hsharepoint : sharepoint.score = 0)
    (hdelegated : delegated.score = 0) :
    ([disabled, risk, consent, spDisabled, mailbox, sharepoint, delegated].foldl
        RuleContribution.merge ⟨0, []⟩).score
      = risk.score + consent.score + (disabled.score + spDisabled.score) := by
  simp only [List.foldl_cons, List.foldl_nil, RuleContribution.merge, hmailbox, hsharepoint,
    hdelegated]
  omega

/-- Rules 1 to 3: the distinct grants and admin consent. -/
def permissionScore (perms : AppPermissions) : Nat :=
  distinctWeight perms + (ruleAdminConsent perms).score

/-- What an application scores apart from its permissions; whether it has any counts for exposure. -/
def applicationScore (app : Application) (spEnabled : Option Bool) (now : Timestamp)
    (hasAppPermissions : Bool) : Nat :=
  let all := allCredentials app now
  (ruleDisabledByMicrosoft app.disabledByMicrosoftStatus).score + (ruleSpDisabled spEnabled).score +
    (ruleCredentials (expiredOf all) (expiringOf all) (activeOf all).length
      (all.filter isLongLived)).score +
    (ruleStaleApp (app.createdDateTime.map (fun c => numDays (now - c)))).score +
    (ruleExternalExposure app hasAppPermissions (!all.isEmpty)).score

/-- What a service principal scores apart from its permissions. -/
def servicePrincipalScore (sp : SpAuditInput) : Nat :=
  (ruleDisabledByMicrosoft sp.disabledByMicrosoftStatus).score +
    (ruleSpDisabled sp.accountEnabled).score

theorem isEmpty_deduped (perms : AppPermissions) :
    perms.deduped.appRoleGrants.isEmpty = perms.appRoleGrants.isEmpty := by
  unfold AppPermissions.deduped
  cases perms.appRoleGrants with
  | nil => rfl
  | cons g rest =>
    simp only [List.eraseDups_cons]
    rfl

theorem score_risk_deduped (perms : AppPermissions) :
    (ruleAppPermissionRisk perms.deduped).score = distinctWeight perms :=
  (score_ruleAppPermissionRisk perms.deduped).trans (weightOf_deduped perms)

theorem riskScore_application (app : Application) (spEnabled : Option Bool)
    (perms : AppPermissions) (now : Timestamp) :
    (scoreApplication app spEnabled perms now).riskScore
      = permissionScore perms
        + applicationScore app spEnabled now (!perms.appRoleGrants.isEmpty) := by
  unfold permissionScore applicationScore
  rw [← score_risk_deduped, ← isEmpty_deduped]
  exact score_application_rules rfl rfl rfl rfl rfl rfl

theorem riskScore_servicePrincipal (sp : SpAuditInput) (perms : AppPermissions) (now : Timestamp) :
    (scoreServicePrincipal sp perms now).riskScore
      = permissionScore perms + servicePrincipalScore sp := by
  unfold permissionScore servicePrincipalScore
  rw [← score_risk_deduped]
  exact score_servicePrincipal_rules rfl rfl rfl

/-! ## What changes a score -/

/-- The mailbox permission is confirmed scoped. -/
def ConfirmedScoped (perms : AppPermissions) (value : Text) : Prop :=
  ∃ scopeName recipientFilter groupCount mechanism,
    perms.mailScopes.lookup value = some (.scoped scopeName recipientFilter groupCount mechanism)

theorem isScoped_iff {perms : AppPermissions} {g : ResourcePermission} :
    perms.isScoped g = true ↔
      Exchange.isScopableExchangeResourcePermission g.resourceAppId g.value = true ∧
        ConfirmedScoped perms g.value := by
  unfold AppPermissions.isScoped AppPermissions.scopeMechanism ConfirmedScoped
  by_cases hgate : Exchange.isScopableExchangeResourcePermission g.resourceAppId g.value = true
  · simp only [hgate, Bool.not_true, Bool.false_eq_true, if_false, true_and]
    cases hlookup : perms.mailScopes.lookup g.value with
    | none => simp
    | some verdict => cases verdict <;> simp
  · simp [hgate]

/-- The same grants in any order and number, under the same verdicts and the same consent. -/
structure SameAccess (perms perms' : AppPermissions) : Prop where
  grants : ∀ g, g ∈ perms.appRoleGrants ↔ g ∈ perms'.appRoleGrants
  verdicts : ∀ v, perms.mailScopes.lookup v = perms'.mailScopes.lookup v
  consent : perms.hasAdminConsent = perms'.hasAdminConsent

/-- The second holds every grant of the first, confines no value the first does not, and keeps its
    consent. -/
structure AtMost (perms perms' : AppPermissions) : Prop where
  grants : ∀ g ∈ perms.appRoleGrants, g ∈ perms'.appRoleGrants
  verdicts : ∀ v, ConfirmedScoped perms' v → ConfirmedScoped perms v
  consent : perms.hasAdminConsent = true → perms'.hasAdminConsent = true

variable {perms perms' : AppPermissions}

theorem SameAccess.atMost (h : SameAccess perms perms') : AtMost perms perms' where
  grants g hg := (h.grants g).1 hg
  verdicts v hscoped := by
    unfold ConfirmedScoped at hscoped ⊢
    rw [h.verdicts v]
    exact hscoped
  consent hconsent := h.consent ▸ hconsent

theorem SameAccess.symm (h : SameAccess perms perms') : SameAccess perms' perms where
  grants g := (h.grants g).symm
  verdicts v := (h.verdicts v).symm
  consent := h.consent.symm

theorem grantWeight_le (h : AtMost perms perms')
    (g : ResourcePermission) : grantWeight perms g ≤ grantWeight perms' g := by
  unfold grantWeight
  cases tierOf g.value with
  | none => exact le_refl 0
  | some t =>
    cases hscoped' : perms'.isScoped g with
    | false => exact points_le t _
    | true =>
      obtain ⟨hgate, hconfirmed⟩ := isScoped_iff.1 hscoped'
      rw [isScoped_iff.2 ⟨hgate, h.verdicts _ hconfirmed⟩]

theorem distinctWeight_le (h : AtMost perms perms') : distinctWeight perms ≤ distinctWeight perms' := by
  unfold distinctWeight
  have hsubset : perms.appRoleGrants.toFinset ⊆ perms'.appRoleGrants.toFinset := by
    intro g hg
    rw [List.mem_toFinset] at hg ⊢
    exact h.grants g hg
  calc ∑ g ∈ perms.appRoleGrants.toFinset, grantWeight perms g
      ≤ ∑ g ∈ perms.appRoleGrants.toFinset, grantWeight perms' g :=
        Finset.sum_le_sum (fun g _ => grantWeight_le h g)
    _ ≤ ∑ g ∈ perms'.appRoleGrants.toFinset, grantWeight perms' g :=
        Finset.sum_le_sum_of_subset hsubset

theorem permissionScore_le (h : AtMost perms perms') : permissionScore perms ≤ permissionScore perms' := by
  unfold permissionScore
  apply Nat.add_le_add (distinctWeight_le h)
  unfold ruleAdminConsent
  cases hconsent : perms.hasAdminConsent with
  | false =>
    rw [if_neg Bool.false_ne_true]
    exact Nat.zero_le _
  | true => rw [h.consent hconsent]

/-- Having permissions never makes an application less exposed. -/
theorem score_exposure_le (app : Application) {held held' : Bool} (h : held = true → held' = true)
    (hasCredentials : Bool) :
    (ruleExternalExposure app held hasCredentials).score
      ≤ (ruleExternalExposure app held' hasCredentials).score := by
  cases held with
  | true => rw [h rfl]
  | false =>
    cases held' with
    | false => exact le_refl _
    | true =>
      unfold ruleExternalExposure
      cases audienceReach (app.signInAudience.getD []) with
      | none => exact le_refl _
      | some reach =>
        cases hasCredentials with
        | false => exact Nat.zero_le _
        | true => exact le_refl _

theorem applicationScore_le (app : Application) (spEnabled : Option Bool) (now : Timestamp)
    {held held' : Bool} (h : held = true → held' = true) :
    applicationScore app spEnabled now held ≤ applicationScore app spEnabled now held' := by
  unfold applicationScore
  exact Nat.add_le_add_left (score_exposure_le app h _) _

theorem riskScore_le (h : AtMost perms perms') (app : Application)
    (spEnabled : Option Bool) (now : Timestamp) :
    (scoreApplication app spEnabled perms now).riskScore
      ≤ (scoreApplication app spEnabled perms' now).riskScore := by
  rw [riskScore_application, riskScore_application]
  refine Nat.add_le_add (permissionScore_le h) (applicationScore_le app spEnabled now ?_)
  intro hheld
  rw [Bool.not_eq_true', List.isEmpty_eq_false_iff_exists_mem] at hheld ⊢
  obtain ⟨g, hg⟩ := hheld
  exact ⟨g, h.grants g hg⟩

/-! ### Levels -/

/-- The levels from the lowest to the highest. -/
def RiskLevel.rank : RiskLevel → Nat
  | .low => 0
  | .medium => 1
  | .high => 2
  | .critical => 3

theorem rank_fromScore_le {a b : Nat} (h : a ≤ b) :
    (RiskLevel.fromScore a).rank ≤ (RiskLevel.fromScore b).rank := by
  unfold RiskLevel.fromScore
  split_ifs <;> first | omega | decide

/-! ## The laws -/

/-- A score sees the set of grants only; it grows with grants, with verdicts that confine less and
    with consent; a distinct grant weighs what the one tier that lists it says, less when it is
    confined, and nothing when no tier lists it; and both entry points add the same permission part. -/
theorem score_permission_laws :
    (∀ app spEnabled now perms perms', SameAccess perms perms' →
      (scoreApplication app spEnabled perms now).riskScore
        = (scoreApplication app spEnabled perms' now).riskScore) ∧
    (∀ app spEnabled now perms perms', AtMost perms perms' →
      (scoreApplication app spEnabled perms now).riskScore
          ≤ (scoreApplication app spEnabled perms' now).riskScore ∧
        (scoreApplication app spEnabled perms now).riskLevel.rank
          ≤ (scoreApplication app spEnabled perms' now).riskLevel.rank) ∧
    (∀ app spEnabled now perms, (scoreApplication app spEnabled perms now).riskScore
      = (∑ g ∈ perms.appRoleGrants.toFinset, grantWeight perms g)
        + (if perms.hasAdminConsent then 5 else 0)
        + applicationScore app spEnabled now (!perms.appRoleGrants.isEmpty)) ∧
    (∀ v, ∀ t t' : Tier, v ∈ t.values → v ∈ t'.values → t = t') ∧
    (∀ perms (g : ResourcePermission) (t : Tier), g.value ∈ t.values →
      grantWeight perms g = t.points (perms.isScoped g)) ∧
    (∀ perms (g : ResourcePermission), (∀ t : Tier, g.value ∉ t.values) → grantWeight perms g = 0) ∧
    (∀ perms perms' (g : ResourcePermission) (t : Tier), g.value ∈ t.values →
      perms.isScoped g = true → perms'.isScoped g = false →
      grantWeight perms g < grantWeight perms' g) ∧
    (∀ sp now perms, (scoreServicePrincipal sp perms now).riskScore
      = (∑ g ∈ perms.appRoleGrants.toFinset, grantWeight perms g)
        + (if perms.hasAdminConsent then 5 else 0) + servicePrincipalScore sp) := by
  have hweight : ∀ perms (g : ResourcePermission) (t : Tier), g.value ∈ t.values →
      grantWeight perms g = t.points (perms.isScoped g) := by
    intro perms g t ht
    unfold grantWeight
    rw [mem_tier_iff.1 ht]
  have hparts : ∀ perms, permissionScore perms
      = (∑ g ∈ perms.appRoleGrants.toFinset, grantWeight perms g)
        + (if perms.hasAdminConsent then 5 else 0) := by
    intro perms
    unfold permissionScore distinctWeight ruleAdminConsent
    cases perms.hasAdminConsent with
    | false | true => rfl
  refine ⟨?_, ?_, ?_, ?_, hweight, ?_, ?_, ?_⟩
  · intro app spEnabled now perms perms' hsame
    exact le_antisymm (riskScore_le hsame.atMost app spEnabled now)
      (riskScore_le hsame.symm.atMost app spEnabled now)
  · intro app spEnabled now perms perms' h
    have hle := riskScore_le h app spEnabled now
    exact ⟨hle, rank_fromScore_le hle⟩
  · intro app spEnabled now perms
    rw [riskScore_application, hparts]
  · intro v t t' ht ht'
    exact Option.some.inj ((mem_tier_iff.1 ht).symm.trans (mem_tier_iff.1 ht'))
  · intro perms g hnone
    unfold grantWeight
    cases htier : tierOf g.value with
    | none => rfl
    | some t => exact absurd (mem_tier_iff.2 htier) (hnone t)
  · intro perms perms' g t ht hscoped hopen
    rw [hweight perms g t ht, hweight perms' g t ht, hscoped, hopen]
    apply points_confined_lt
    rintro rfl
    rw [isScoped_tier0 perms (mem_tier_iff.1 ht)] at hscoped
    exact Bool.noConfusion hscoped
  · intro sp now perms
    rw [riskScore_servicePrincipal, hparts]

/-! ### Inputs -/

/-- An application that scores nothing by itself. -/
def bareApplication : Application where
  id := "object-1".toList
  appId := "app-1".toList
  displayName := "App".toList
  signInAudience := none
  publisherDomain := none
  createdDateTime := none
  passwordCredentials := []
  keyCredentials := []
  verifiedPublisher := none
  servicePrincipalLockConfiguration := none
  isFallbackPublicClient := none
  owners := none
  disabledByMicrosoftStatus := none

/-- One Microsoft Graph permission, with a verdict or without. -/
def graphPermission (value : String) (verdict : Option MailPermissionScope) : AppPermissions where
  appRoleGrants := [⟨some microsoftGraphAppId, value.toList⟩]
  scopeValues := []
  hasAdminConsent := false
  adminConsentedScopes := none
  mailScopes :=
    match verdict with
    | some v => (∅ : Table Text MailPermissionScope).insert value.toList v
    | none => ∅
  undeclaredGrants := []

/-- A grant on no list adds nothing. -/
theorem permissionScore_unlisted {perms : AppPermissions} {g : ResourcePermission}
    (hgrants : perms.appRoleGrants = [g]) (hunlisted : tierOf g.value = none)
    (hconsent : perms.hasAdminConsent = false) : permissionScore perms = 0 := by
  have hweight : grantWeight perms g = 0 := by
    unfold grantWeight
    rw [hunlisted]
  unfold permissionScore distinctWeight ruleAdminConsent
  rw [hgrants, hconsent, List.toFinset_cons, List.toFinset_nil, insert_empty_eq,
    Finset.sum_singleton, hweight]
  rfl

theorem tierOf_mailReadBasic : tierOf "Mail.ReadBasic".toList = none := by
  unfold tierOf tier0AppPermissions highRiskAppPermissions mediumRiskAppPermissions
  simp only [List.map_cons, List.map_nil]
  repeat rw [String.toList_ofList]
  decide

/-- `Mail.ReadBasic` is on no list: confined or not, it adds nothing. -/
theorem unlisted_confined_not_less :
    ¬ ∀ (app : Application) (spEnabled : Option Bool) (now : Timestamp)
      (perms perms' : AppPermissions) (g : ResourcePermission), perms.appRoleGrants = [g] →
      perms'.appRoleGrants = [g] → perms.hasAdminConsent = perms'.hasAdminConsent →
      perms.isScoped g = true → perms'.isScoped g = false →
      (scoreApplication app spEnabled perms now).riskScore
        < (scoreApplication app spEnabled perms' now).riskScore := by
  intro h
  have hless := h bareApplication none 0
    (graphPermission "Mail.ReadBasic" (some (.scoped none none none .rbac)))
    (graphPermission "Mail.ReadBasic" none) ⟨some microsoftGraphAppId, "Mail.ReadBasic".toList⟩ rfl
    rfl rfl (by decide) (by decide)
  have hzero : ∀ verdict, permissionScore (graphPermission "Mail.ReadBasic" verdict) = 0 := by
    intro verdict
    exact permissionScore_unlisted (g := ⟨some microsoftGraphAppId, "Mail.ReadBasic".toList⟩) rfl
      tierOf_mailReadBasic rfl
  rw [riskScore_application, riskScore_application, hzero, hzero] at hless
  exact absurd hless (lt_irrefl _)

/-- Losing its verdict takes `Mail.Read` from 2 points to 5. -/
theorem score_permission_laws_mail_read :
    AtMost (graphPermission "Mail.Read" (some (.scoped none none none .rbac)))
        (graphPermission "Mail.Read" none) ∧
      (scoreApplication bareApplication none
          (graphPermission "Mail.Read" (some (.scoped none none none .rbac))) 0).riskScore
        ≤ (scoreApplication bareApplication none (graphPermission "Mail.Read" none) 0).riskScore := by
  have hmost : AtMost (graphPermission "Mail.Read" (some (.scoped none none none .rbac)))
      (graphPermission "Mail.Read" none) := by
    constructor
    · exact fun _ hg => hg
    · rintro v ⟨_, _, _, _, hlookup⟩
      change AList.lookup v (∅ : Table Text MailPermissionScope) = some _ at hlookup
      rw [AList.lookup_empty] at hlookup
      exact absurd hlookup (by simp)
    · exact fun hconsent => hconsent
  exact ⟨hmost, (score_permission_laws.2.1 bareApplication none 0 _ _ hmost).1⟩

end Audit
