import AzAppToolkit.Audit.QuotedTexts

set_option autoImplicit false

/-! # The findings and the texts of the directory

The rules that quote what the directory holds, and the condition under which every finding means what
it says. -/

namespace Audit

open Exchange (ResourcePermission ScopeMechanism)

/-! ## Credentials -/

theorem Quotes.merge {c c' : RuleContribution} {quoted quoted' : List Text}
    (h : Quotes c.issues quoted) (h' : Quotes c'.issues quoted') :
    Quotes (c.merge c').issues (quoted ++ quoted') := by
  unfold RuleContribution.merge
  exact h.append h'

/-- The literals around the names of credentials. -/
def credentialLiterals : List Text :=
  ["All credentials expired: ", "Mixed credential status: ", " are expired but ",
    " credentials are active", "All credentials expiring soon: ", "Credentials expiring soon: ",
    " but ", "Long-lived secrets (>1 year): ", "Long-lived certificates (>1 year): "].map String.toList

theorem barrier_credentialLiterals : ∀ lit ∈ credentialLiterals,
    Text.isBarrier Issue.scopedViaRbac lit = true := by
  unfold credentialLiterals Issue.scopedViaRbac
  simp only [List.map_cons, List.map_nil]
  repeat rw [String.toList_ofList]
  decide

theorem barrier_credentials (i : Fin 9) :
    Text.isBarrier Issue.scopedViaRbac (credentialLiterals.get i) = true :=
  barrier_credentialLiterals _ (List.get_mem credentialLiterals i)

/-- A line that names some credentials and nothing else. -/
theorem quotes_names {head : Text} (h : Text.isBarrier Issue.scopedViaRbac head = true)
    (items : List CredentialSummary) : Quotes [head ++ joinNames items] (items.map (·.name)) :=
  Quotes.single ((Text.infix_barrier_append h).trans (marked_join _))

/-- A line that names some credentials and counts others. -/
theorem quotes_names_count {head middle last : Text} (h : Text.isBarrier Issue.scopedViaRbac head = true)
    (hmiddle : Text.isBarrier Issue.scopedViaRbac middle = true)
    (hlast : Text.isBarrier Issue.scopedViaRbac last = true) (items : List CredentialSummary) (n : Int) :
    Quotes [head ++ (joinNames items ++ (middle ++ (Text.decimal n ++ last)))]
      (items.map (·.name)) := by
  refine Quotes.single ?_
  unfold Marked
  rw [Text.infix_barrier_append h, Text.infix_append_barrier_append hmiddle,
    Text.infix_append_barrier hlast]
  exact (or_iff_left (not_marked_decimal n)).trans (marked_join _)

/-- The credentials the line about expiry names. -/
def expiryNames (expired expiring : List CredentialSummary) : List Text :=
  expired.map (·.name) ++ if expired.isEmpty then expiring.map (·.name) else []

/-- A list cut in two names what the whole names. -/
theorem exists_mem_map_partition {α : Type} {items : List α} (f : α → Text) (p : α → Bool)
    (good : Text → Prop) :
    (∃ t ∈ (items.filter p).map f ++ (items.filter (fun c => !p c)).map f, good t) ↔
      ∃ t ∈ items.map f, good t := by
  simp only [List.mem_append, List.mem_map, List.mem_filter]
  constructor
  · rintro ⟨t, ⟨c, ⟨hc, -⟩, rfl⟩ | ⟨c, ⟨hc, -⟩, rfl⟩, ht⟩
    · exact ⟨_, ⟨c, hc, rfl⟩, ht⟩
    · exact ⟨_, ⟨c, hc, rfl⟩, ht⟩
  · rintro ⟨t, ⟨c, hc, rfl⟩, ht⟩
    cases hp : p c with
    | true => exact ⟨_, Or.inl ⟨c, ⟨hc, hp⟩, rfl⟩, ht⟩
    | false => exact ⟨_, Or.inr ⟨c, ⟨hc, by simp [hp]⟩, rfl⟩, ht⟩

/-- Rules 5 to 9. -/
theorem quotes_credentials (expired expiring longLived : List CredentialSummary) (activeCount : Nat) :
    Quotes (ruleCredentials expired expiring activeCount longLived).issues
      (expiryNames expired expiring ++ longLived.map (·.name)) := by
  have hlong : Quotes (lineFor (longLived.filter (fun c => c.kind == .secret))
        ("Long-lived secrets (>1 year): ".toList ++
          joinNames (longLived.filter (fun c => c.kind == .secret))) ++
      lineFor (longLived.filter (fun c => c.kind != .secret))
        ("Long-lived certificates (>1 year): ".toList ++
          joinNames (longLived.filter (fun c => c.kind != .secret)))) (longLived.map (·.name)) :=
    ((Quotes.lineFor CredentialSummary.name (barrier_credentials 7)).append
      (Quotes.lineFor CredentialSummary.name (barrier_credentials 8))).congr
      (exists_mem_map_partition CredentialSummary.name (fun c => c.kind == .secret) Marked)
  unfold ruleCredentials expiryNames
  refine Quotes.merge (Quotes.merge ?_ ?_) ?_
  · split_ifs with hall hmixed
    · exact quotes_names (barrier_credentials 0) _
    · exact quotes_names_count (barrier_credentials 1) (barrier_credentials 2)
        (barrier_credentials 3) _ _
    · have hnil : expired = [] := by simpa using hmixed
      rw [hnil]
      exact Quotes.nil
  · cases expired with
    | cons c rest => exact Quotes.nil
    | nil =>
      simp only [List.isEmpty_nil, Bool.not_true, Bool.false_eq_true, if_false, if_true]
      split_ifs with hall hsome
      · exact quotes_names (barrier_credentials 4) _
      · exact quotes_names_count (barrier_credentials 5) (barrier_credentials 6)
          (barrier_credentials 3) _ _
      · have hnil : expiring = [] := by simpa using hsome
        rw [hnil]
        exact Quotes.nil
  · cases longLived with
    | nil => exact Quotes.nil
    | cons c rest => exact hlong

/-! ## Mailboxes -/

/-- The part of Rule 11 a grant goes to. -/
def MailboxPart.of (perms : AppPermissions) (g : ResourcePermission) : MailboxPart :=
  if perms.isScoped g then
    if isPolicyScoped perms g then .scopedLegacy else .scopedRbac
  else if isScopableMailbox g then .unscoped
  else if isLegacyMailbox g then .unscopableLegacy
  else .unconfinableOther

variable {perms : AppPermissions} {g : ResourcePermission}

/-- The parts split the mailbox-reaching grants. -/
theorem MailboxPart.mem_grants {part : MailboxPart} :
    g ∈ part.grants perms ↔
      (g ∈ perms.appRoleGrants ∧ reachesMailboxes g = true) ∧ MailboxPart.of perms g = part := by
  unfold MailboxPart.grants MailboxPart.of
  cases part <;>
    simp only [List.mem_filter, and_assoc, and_congr_right_iff] <;>
    intro _ _ <;>
    cases perms.isScoped g <;> cases isPolicyScoped perms g <;> cases isScopableMailbox g <;>
    cases isLegacyMailbox g <;> simp

theorem barrier_opening {part : MailboxPart} (h : part ≠ .scopedRbac) :
    Text.isBarrier Issue.scopedViaRbac part.opening = true := by
  unfold MailboxPart.opening Issue.scopedViaRbac Issue.orgWideMailbox Issue.legacyMailboxPolicy
    Issue.unscopableLegacyMailbox Issue.unconfinableMailbox
  repeat rw [String.toList_ofList]
  cases part with
  | scopedRbac => exact absurd rfl h
  | unscoped | unscopableLegacy | unconfinableOther | scopedLegacy => decide

/-- What is confined by RBAC alone goes to the RBAC part. -/
theorem of_ne_scopedRbac
    (h : perms.scopeMechanism g ≠ some .rbac) : MailboxPart.of perms g ≠ .scopedRbac := by
  unfold MailboxPart.of isPolicyScoped AppPermissions.isScoped
  cases hm : perms.scopeMechanism g with
  | none => split_ifs <;> simp_all
  | some mechanism =>
    cases mechanism with
    | rbac => exact absurd hm h
    | legacyApplicationAccessPolicy => simp

/-- The values of the mailbox-reaching grants. -/
def mailboxValues (perms : AppPermissions) : List Text :=
  (perms.appRoleGrants.filter reachesMailboxes).map (·.value)

/-- Rule 11, when nothing is confined by RBAC for Applications. -/
theorem quotes_mailboxAdvisory
    (hrbac : ∀ g ∈ perms.appRoleGrants, perms.scopeMechanism g ≠ some .rbac) :
    Quotes (ruleMailboxAdvisory perms).issues (mailboxValues perms) := by
  have hline : ∀ part : MailboxPart, part ≠ .scopedRbac →
      (Marked (part.line perms) ↔ ∃ g ∈ part.grants perms, Marked g.value) := by
    intro part hpart
    refine ((Text.infix_barrier_append (barrier_opening hpart)).trans (marked_join _)).trans ?_
    simp only [List.mem_map, exists_exists_and_eq_and]
  have hpart : ∀ (part : MailboxPart) (g : ResourcePermission), g ∈ part.grants perms →
      part ≠ .scopedRbac := by
    intro part g hg
    obtain ⟨⟨hheld, -⟩, rfl⟩ := MailboxPart.mem_grants.1 hg
    exact of_ne_scopedRbac (hrbac g hheld)
  constructor
  · rintro ⟨line, hmem, hmarked⟩
    obtain ⟨part, hne, rfl⟩ := mem_mailboxAdvisory.1 hmem
    obtain ⟨g₀, hg₀⟩ := List.exists_mem_of_ne_nil _ hne
    obtain ⟨g, hg, hvalue⟩ := (hline part (hpart part g₀ hg₀)).1 hmarked
    obtain ⟨hheld, -⟩ := MailboxPart.mem_grants.1 hg
    exact ⟨g.value, List.mem_map.2 ⟨g, List.mem_filter.2 hheld, rfl⟩, hvalue⟩
  · rintro ⟨t, ht, hmarked⟩
    obtain ⟨g, hg, rfl⟩ := List.mem_map.1 ht
    have hmem : g ∈ (MailboxPart.of perms g).grants perms :=
      MailboxPart.mem_grants.2 ⟨List.mem_filter.1 hg, rfl⟩
    exact ⟨_, mem_mailboxAdvisory.2 ⟨_, List.ne_nil_of_mem hmem, rfl⟩,
      (hline _ (hpart _ g hmem)).2 ⟨g, hmem, hmarked⟩⟩

/-! ## Sites and files -/

theorem barrier_sharepoint : ∀ m ∈ [Issue.orgWideSharepoint, Issue.unconfinableSharepoint,
    Issue.orgWideFiles], Text.isBarrier Issue.scopedViaRbac (m ++ ": ".toList) = true := by
  unfold Issue.scopedViaRbac Issue.orgWideSharepoint Issue.unconfinableSharepoint Issue.orgWideFiles
  repeat rw [String.toList_ofList]
  decide

theorem not_marked_sharepoint : (∀ v ∈ filesOrgwidePermissions, ¬ Marked v) ∧
    ¬ Marked (Issue.scopedSharepoint ++ ": Sites.Selected".toList) := by
  unfold Marked
  simp only [← Text.contains_iff]
  unfold filesOrgwidePermissions Issue.scopedViaRbac Issue.scopedSharepoint
  simp only [List.map_cons, List.map_nil]
  repeat rw [String.toList_ofList]
  decide

/-- The values of the org-wide site grants. -/
def siteValues (perms : AppPermissions) : List Text :=
  (perms.appRoleGrants.filter reachesSites).map (·.value)

theorem quotes_sharepointAdvisory (perms : AppPermissions) :
    Quotes (ruleSharepointAdvisory perms).issues (siteValues perms) := by
  have hfiles : ∀ t ∈ (filesOrgwide perms).map (·.value), ¬ Marked t := by
    intro t ht
    obtain ⟨g, hg, rfl⟩ := List.mem_map.1 ht
    refine not_marked_sharepoint.1 g.value ?_
    have hp := (List.mem_filter.1 hg).2
    unfold isFilesOrgwidePermission at hp
    split at hp
    · exact List.contains_iff_mem.1 hp
    · exact absurd hp (by simp)
  unfold ruleSharepointAdvisory
  refine ((((quotes_values (barrier_sharepoint _ List.mem_cons_self)).append
    (quotes_values (barrier_sharepoint _ (List.mem_cons_of_mem _ List.mem_cons_self)))).append
    ((quotes_values (barrier_sharepoint _ (List.mem_cons_of_mem _
      (List.mem_cons_of_mem _ List.mem_cons_self)))).clean hfiles)).append
    (Quotes.ite (Quotes.fixed not_marked_sharepoint.2))).congr ?_
  rw [List.append_nil, List.append_nil]
  exact exists_mem_map_partition ResourcePermission.value _ Marked

/-! ## Delegated, undeclared and redundant permissions -/

theorem barrier_listings : ∀ m ∈ [Issue.highRiskDelegatedPerms, Issue.grantedNotDeclared,
    Issue.redundantAppPerms], Text.isBarrier Issue.scopedViaRbac (m ++ " ".toList) = true := by
  unfold Issue.scopedViaRbac Issue.highRiskDelegatedPerms Issue.grantedNotDeclared
    Issue.redundantAppPerms
  repeat rw [String.toList_ofList]
  decide

theorem barrier_resource : Text.isBarrier Issue.scopedViaRbac " on ".toList = true ∧
    Text.isBarrier Issue.scopedViaRbac " (covered by ".toList = true ∧
    Text.isBarrier Issue.scopedViaRbac ")".toList = true := by
  unfold Issue.scopedViaRbac
  repeat rw [String.toList_ofList]
  decide

theorem quotes_highRiskDelegated (declared : List Text) (adminConsented : Option (List Text)) :
    Quotes (ruleHighRiskDelegated declared adminConsented).issues
      (delegatedHits declared adminConsented) := by
  unfold ruleHighRiskDelegated
  exact Quotes.listing (barrier_listings _ List.mem_cons_self) id

/-- The resources `resourceLabel` names, with their names. -/
def labelledResources : List Text :=
  [Exchange.microsoftGraphAppId, "Microsoft Graph".toList, Exchange.office365ExchangeOnlineAppId,
    "Office 365 Exchange Online".toList, office365SharePointOnlineAppId,
    "Office 365 SharePoint Online".toList]

theorem not_marked_labelledResources : ∀ r ∈ labelledResources, ¬ Marked r := by
  unfold Marked
  simp only [← Text.contains_iff]
  unfold labelledResources Issue.scopedViaRbac Exchange.microsoftGraphAppId Exchange.office365ExchangeOnlineAppId
    office365SharePointOnlineAppId
  repeat rw [String.toList_ofList]
  decide

/-- The name of a resource holds the marker when its id does. -/
theorem marked_resourceLabel (r : Text) : Marked (resourceLabel r) ↔ Marked r := by
  have hclean : ∀ i : Fin 6, ¬ Marked (labelledResources.get i) :=
    fun i => not_marked_labelledResources _ (List.get_mem labelledResources i)
  unfold resourceLabel
  split_ifs with hgraph hexchange hsharepoint
  · rw [hgraph]
    exact iff_of_false (hclean 1) (hclean 0)
  · rw [hexchange]
    exact iff_of_false (hclean 3) (hclean 2)
  · rw [hsharepoint]
    exact iff_of_false (hclean 5) (hclean 4)
  · exact Iff.rfl

/-- What the listing of a grant quotes. -/
def grantTexts (g : ResourcePermission) : List Text := g.value :: g.resourceAppId.toList

theorem marked_grantListing (g : ResourcePermission) :
    Marked (grantListing g) ↔ ∃ t ∈ grantTexts g, Marked t := by
  unfold grantListing grantTexts
  split
  · next r hr =>
    refine (Text.infix_append_barrier_append barrier_resource.1).trans ?_
    rw [hr]
    simp only [Option.toList_some, List.mem_cons, List.not_mem_nil, or_false, exists_eq_or_imp,
      exists_eq_left]
    exact or_congr_right (marked_resourceLabel r)
  · next hr =>
    rw [hr]
    simp

theorem quotes_grantedUndeclared (perms : AppPermissions) :
    Quotes (ruleGrantedUndeclared perms).issues (perms.undeclaredGrants.flatMap grantTexts) := by
  unfold ruleGrantedUndeclared
  refine (Quotes.listing (barrier_listings _ (List.mem_cons_of_mem _ List.mem_cons_self)) ?_).congr ?_
  · intro hnil
    rw [hnil]
    rfl
  · simp only [List.mem_map, exists_exists_and_eq_and, List.mem_eraseDups, marked_grantListing,
      List.mem_flatMap]
    constructor
    · rintro ⟨g, hg, t, ht, hmarked⟩
      exact ⟨t, ⟨g, hg, ht⟩, hmarked⟩
    · rintro ⟨t, ⟨g, hg, ht⟩, hmarked⟩
      exact ⟨g, hg, t, ht, hmarked⟩

/-- The values of the coverage table. -/
theorem not_marked_subsumed : ∀ row ∈ subsumedAppPermissions, ¬ Marked row.1 ∧
    ∀ broader ∈ row.2, ¬ Marked broader := by
  unfold Marked
  simp only [← Text.contains_iff]
  unfold Issue.scopedViaRbac subsumedAppPermissions
  simp only [List.map_cons, List.map_nil]
  repeat rw [String.toList_ofList]
  decide

/-- What is reported redundant and what covers it come from the table. -/
theorem row_of_redundant {r : RedundantPermission}
    (h : r ∈ redundantOf perms) : ∃ row ∈ subsumedAppPermissions, r.value = row.1 ∧
      ∀ broader ∈ r.coveredBy, broader ∈ row.2 := by
  unfold redundantOf redundantAppPermissions at h
  obtain ⟨pair, -, hpair⟩ := List.mem_filterMap.1 h
  dsimp only at hpair
  split at hpair
  · exact absurd hpair (by simp)
  · next hne =>
    obtain ⟨b, hb⟩ := List.exists_mem_of_ne_nil _ (fun hnil => hne (List.isEmpty_iff.2 hnil))
    obtain ⟨row, hrow, hkey, heq⟩ := exists_row_of_subsumes (List.mem_of_mem_filter hb)
    rw [← Option.some.inj hpair]
    refine ⟨row, hrow, hkey.symm, fun broader hbroader => ?_⟩
    rw [← heq]
    exact List.mem_of_mem_filter hbroader

theorem marked_redundantListing {r : RedundantPermission}
    (h : r ∈ redundantOf perms) : Marked (redundantListing r) ↔ Marked r.resourceAppId := by
  obtain ⟨row, hrow, hvalue, hcovered⟩ := row_of_redundant h
  obtain ⟨hkey, hbroader⟩ := not_marked_subsumed row hrow
  have hcoveredBy : ¬ Marked (Text.join listSeparator r.coveredBy) := by
    rw [marked_join]
    rintro ⟨b, hb, hmarked⟩
    exact hbroader b (hcovered b hb) hmarked
  unfold redundantListing Marked
  rw [Text.infix_append_barrier_append barrier_resource.1,
    Text.infix_append_barrier_append barrier_resource.2.1,
    Text.infix_append_barrier barrier_resource.2.2, hvalue]
  rw [← Marked, ← Marked, ← Marked, ← Marked, or_iff_right hkey, or_iff_left hcoveredBy]
  exact marked_resourceLabel _

theorem quotes_redundantPermissions (perms : AppPermissions) :
    Quotes (ruleRedundantPermissions perms).issues ((redundantOf perms).map (·.resourceAppId)) := by
  unfold ruleRedundantPermissions
  refine (Quotes.lineFor redundantListing (barrier_listings _ (List.mem_cons_of_mem _
    (List.mem_cons_of_mem _ List.mem_cons_self)))).congr ?_
  simp only [List.mem_map, exists_exists_and_eq_and]
  refine exists_congr (fun r => and_congr_right (fun hr => marked_redundantListing hr))

/-! ## What the findings mean -/

/-- The texts of the directory an item quotes: the names of the credentials it reports, the values of
    the mailbox, site and delegated permissions, and the resources of the undeclared and redundant
    ones. -/
def quotedTexts (app : Application) (permissions : AppPermissions) (now : Timestamp) : List Text :=
  let all := allCredentials app now
  let perms := permissions.deduped
  let declared := perms.declaredView
  expiryNames (expiredOf all) (expiringOf all) ++ (all.filter isLongLived).map (·.name) ++
    mailboxValues declared ++ siteValues declared ++
    delegatedHits perms.scopeValues perms.adminConsentedScopes ++
    perms.undeclaredGrants.flatMap grantTexts ++ (redundantOf declared).map (·.resourceAppId)

/-- The app holds a mailbox grant that Exchange confines with RBAC for Applications. -/
def HoldsRbacMailboxGrant (permissions : AppPermissions) : Prop :=
  ∃ g ∈ permissions.appRoleGrants, reachesMailboxes g = true ∧
    permissions.scopeMechanism g = some .rbac

theorem Quotes.rules {cs : List RuleContribution} {quoted : List (List Text)}
    (h : List.Forall₂ (fun c q => Quotes c.issues q) cs quoted) :
    Quotes (cs.flatMap (·.issues)) quoted.flatten := by
  induction h with
  | nil => exact Quotes.nil
  | cons hc _ ih => exact hc.append ih

theorem scopeMechanism_deduped (permissions : AppPermissions) :
    permissions.deduped.scopeMechanism = permissions.scopeMechanism := rfl

theorem scopeMechanism_declaredView (perms : AppPermissions) :
    perms.declaredView.scopeMechanism = perms.scopeMechanism := by
  unfold AppPermissions.declaredView
  split <;> rfl

theorem mem_declaredView (h : g ∈ perms.declaredView.appRoleGrants) : g ∈ perms.appRoleGrants := by
  unfold AppPermissions.declaredView at h
  split at h
  · exact h
  · exact List.mem_of_mem_filter h

variable {permissions : AppPermissions}

/-- An app without such a grant has the marker in a line exactly when it is in a text it quotes. -/
theorem quotes_issues {app : Application} {spEnabled : Option Bool}
    {now : Timestamp} (h : ¬ HoldsRbacMailboxGrant permissions) :
    Quotes (scoreApplication app spEnabled permissions now).issues
      (quotedTexts app permissions now) := by
  have hrbac : ∀ g ∈ permissions.deduped.appRoleGrants,
      permissions.deduped.scopeMechanism g ≠ some .rbac := by
    intro g hg hmechanism
    rw [scopeMechanism_deduped] at hmechanism
    refine h ⟨g, List.mem_eraseDups.1 hg, ?_, hmechanism⟩
    refine isMailboxReaching_of_scopable ?_
    unfold AppPermissions.scopeMechanism at hmechanism
    split at hmechanism
    · exact absurd hmechanism (by simp)
    · next hscopable => simpa using hscopable
  have hdeclared : ∀ g ∈ permissions.deduped.declaredView.appRoleGrants,
      permissions.deduped.declaredView.scopeMechanism g ≠ some .rbac := by
    intro g hg
    rw [scopeMechanism_declaredView]
    exact hrbac g (mem_declaredView hg)
  have hrules : Quotes ((ruleContributions app spEnabled permissions.deduped now).flatMap (·.issues))
      (quotedTexts app permissions now) := by
    refine (Quotes.rules (.cons (quotes_disabledByMicrosoft _) (.cons (quotes_appPermissionRisk hrbac)
      (.cons (quotes_adminConsent _) (.cons (quotes_spDisabled _) (.cons (quotes_credentials _ _ _ _)
      (.cons (quotes_staleApp _) (.cons (quotes_mailboxAdvisory hdeclared)
      (.cons (quotes_sharepointAdvisory _) (.cons (quotes_highRiskDelegated _ _)
      (.cons (quotes_grantedUndeclared _) (.cons (quotes_appHygiene _ _ _ _)
      (.cons (quotes_redundantPermissions _)
      (.cons (quotes_externalExposure _ _ _) .nil)))))))))))))).congr ?_
    unfold quotedTexts
    simp only [List.flatten_cons, List.flatten_nil, List.nil_append, List.append_nil,
      List.append_assoc]
  unfold Quotes at hrules ⊢
  rw [← hrules]
  simp only [mem_issues, List.mem_flatMap]

/-- The lines of Rule 11 that name the grant. -/
def NamesGrant (item : AuditItem) (declared : AppPermissions) (g : ResourcePermission)
    (part : MailboxPart) : Prop :=
  g ∈ part.grants declared ∧ part.line declared ∈ item.issues

/-- What the findings about an app promise. -/
structure FindingsMean (app : Application) (spEnabled : Option Bool) (permissions : AppPermissions)
    (now : Timestamp) : Prop where
  scoped_mailbox :
    matchesFinding (scoreApplication app spEnabled permissions now) "scoped_mailbox".toList = true →
      HoldsRbacMailboxGrant permissions
  orgwide_mailbox :
    matchesFinding (scoreApplication app spEnabled permissions now) "orgwide_mailbox".toList = true ↔
      (scoreApplication app spEnabled permissions now).HasRemediation .scopeMailboxAccess
  legacy_mailbox_scope :
    matchesFinding (scoreApplication app spEnabled permissions now)
        "legacy_mailbox_scope".toList = true ↔
      (scoreApplication app spEnabled permissions now).HasRemediation .migrateApplicationAccessPolicy
  orgwide_sharepoint :
    matchesFinding (scoreApplication app spEnabled permissions now)
        "orgwide_sharepoint".toList = true ↔
      (scoreApplication app spEnabled permissions now).HasRemediation .scopeSharePointAccess
  redundant_perms :
    matchesFinding (scoreApplication app spEnabled permissions now) "redundant_perms".toList = true ↔
      (scoreApplication app spEnabled permissions now).HasRemediation .removeRedundantPermissions
  ownership :
    matchesFinding (scoreApplication app spEnabled permissions now) "ownership".toList = true ↔
      (scoreApplication app spEnabled permissions now).HasRemediation .addOwner
  expired :
    matchesFinding (scoreApplication app spEnabled permissions now) "expired".toList = true ↔
      (scoreApplication app spEnabled permissions now).HasRemediation .removeExpiredCredentials
  /-- Every declared mailbox-reaching grant is named by one line of Rule 11. -/
  named_once : ∀ g ∈ permissions.declaredView.appRoleGrants, reachesMailboxes g = true →
    ∃! part : MailboxPart, NamesGrant (scoreApplication app spEnabled permissions now)
      permissions.deduped.declaredView g part

theorem mem_declaredView_deduped (h : g ∈ permissions.declaredView.appRoleGrants) :
    g ∈ permissions.deduped.declaredView.appRoleGrants := by
  unfold AppPermissions.declaredView AppPermissions.deduped at *
  dsimp only
  split at h
  · next hempty =>
    rw [if_pos hempty]
    exact List.mem_eraseDups.2 h
  · next hempty =>
    rw [if_neg hempty]
    obtain ⟨hg, hdeclared⟩ := List.mem_filter.1 h
    exact List.mem_filter.2 ⟨List.mem_eraseDups.2 hg, hdeclared⟩

theorem existsUnique_namesGrant {app : Application} {spEnabled : Option Bool} {now : Timestamp}
    (hg : g ∈ permissions.declaredView.appRoleGrants) (hreaches : reachesMailboxes g = true) :
    ∃! part : MailboxPart, NamesGrant (scoreApplication app spEnabled permissions now)
      permissions.deduped.declaredView g part := by
  have hmem : g ∈ (MailboxPart.of permissions.deduped.declaredView g).grants
      permissions.deduped.declaredView :=
    MailboxPart.mem_grants.2 ⟨⟨mem_declaredView_deduped hg, hreaches⟩, rfl⟩
  refine ⟨_, ⟨hmem, mem_issues.2 ⟨ruleMailboxAdvisory permissions.deduped.declaredView, ?_, ?_⟩⟩, ?_⟩
  · simp only [ruleContributions, List.mem_cons, true_or, or_true]
  · exact mem_mailboxAdvisory.2 ⟨_, List.ne_nil_of_mem hmem, rfl⟩
  · rintro part ⟨hpart, -⟩
    exact (MailboxPart.mem_grants.1 hpart).2.symm

theorem matches_scoped_mailbox (i : AuditItem) :
    matchesFinding i "scoped_mailbox".toList = true ↔ ∃ line ∈ i.issues, Marked line := by
  have hlookup : findingMarkers.lookup "scoped_mailbox".toList
      = some [.contains Issue.scopedViaRbac] := by
    unfold findingMarkers
    repeat rw [String.toList_ofList]
    rfl
  unfold matchesFinding findingIssueMarker Marked
  rw [hlookup]
  simp only [Option.map_some, List.any_eq_true, List.any_cons, List.any_nil, Bool.or_false,
    Marker.marks, Text.contains_iff]

/-- A text with the marker, quoted for an app without an RBAC-confined grant. -/
theorem not_findingsMean {app : Application} {spEnabled : Option Bool}
    {now : Timestamp} (h : ¬ HoldsRbacMailboxGrant permissions) {t : Text}
    (ht : t ∈ quotedTexts app permissions now) (hmarked : Text.contains Issue.scopedViaRbac t = true) :
    ¬ FindingsMean app spEnabled permissions now := by
  intro hmean
  refine h (hmean.scoped_mailbox ((matches_scoped_mailbox _).2 ?_))
  exact (quotes_issues h).2 ⟨t, ht, Text.contains_iff.1 hmarked⟩

/-- The findings mean what they say of an app that holds an RBAC-confined mailbox grant, or that is
    reported without quoting a text that reads like one; of no other. -/
theorem findings_mean_iff (app : Application) (spEnabled : Option Bool) (permissions : AppPermissions)
    (now : Timestamp) : FindingsMean app spEnabled permissions now ↔
      (HoldsRbacMailboxGrant permissions ∨
        ∀ t ∈ quotedTexts app permissions now, Text.contains Issue.scopedViaRbac t = false) := by
  constructor
  · intro hmean
    by_cases h : HoldsRbacMailboxGrant permissions
    · exact Or.inl h
    · refine Or.inr (fun t ht => ?_)
      by_contra hmarked
      exact not_findingsMean h ht (Bool.not_eq_false _ ▸ hmarked) hmean
  · intro h
    refine ⟨?_, orgwide_mailbox_iff .., legacy_mailbox_scope_iff .., orgwide_sharepoint_iff ..,
      redundant_perms_iff .., ownership_iff .., expired_iff ..,
      fun g hg hreaches => existsUnique_namesGrant hg hreaches⟩
    intro hmatch
    by_contra hnone
    have hclean := h.resolve_left hnone
    obtain ⟨t, ht, hmarked⟩ := (quotes_issues hnone).1 ((matches_scoped_mailbox _).1 hmatch)
    have hcontains := hclean t ht
    rw [Text.contains_iff.2 hmarked] at hcontains
    exact absurd hcontains (by simp)

/-! ### An app that names a secret after the marker -/

/-- An app with one secret, expired, and no permission at all. -/
def misnamedSecretApp : Application where
  id := "o".toList
  appId := "a".toList
  displayName := "App".toList
  signInAudience := some "AzureADMyOrg".toList
  publisherDomain := none
  createdDateTime := none
  passwordCredentials := [⟨some Issue.scopedViaRbac, some 0, some 1⟩]
  keyCredentials := []
  verifiedPublisher := none
  servicePrincipalLockConfiguration := none
  isFallbackPublicClient := none
  owners := none
  disabledByMicrosoftStatus := none

def noPermissions : AppPermissions := ⟨[], [], false, none, ∅, []⟩

/-- Two days on, the app is filed with those that are scoped. -/
theorem misnamed_secret_files_app_as_scoped :
    ¬ FindingsMean misnamedSecretApp (some true) noPermissions 172800000000001 := by
  have hname : Issue.scopedViaRbac ∈
      quotedTexts misnamedSecretApp noPermissions 172800000000001 := by
    refine List.mem_append_left _ (List.mem_append_left _ (List.mem_append_left _
      (List.mem_append_left _ (List.mem_append_left _ (List.mem_append_left _
      (List.mem_append_left _ ?_))))))
    exact List.mem_singleton_self _
  refine not_findingsMean ?_ hname ?_
  · rintro ⟨g, hg, -⟩
    exact absurd hg (by simp [noPermissions])
  · exact Text.contains_iff.2 (List.infix_refl _)

end Audit
