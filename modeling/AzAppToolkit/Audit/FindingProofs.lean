import AzAppToolkit.Audit.Openings

set_option autoImplicit false

/-! # Findings and remediations

The findings recognised by how a line opens hold exactly when the item carries their remediation,
whatever the names of the application hold. -/

namespace Audit

open Exchange (ResourcePermission ScopeMechanism)

/-! ## Lines with a remediation -/

/-- The markers of the findings that go with a remediation. -/
def fixableMarkers : List Text :=
  [Issue.orgWideMailbox, Issue.legacyMailboxPolicy, Issue.orgWideSharepoint, Issue.redundantAppPerms,
    Issue.noOwners, Issue.singleOwner]

/-- Some line starts with the marker. -/
def Carries (issues : List Text) (marker : Text) : Prop := ∃ line ∈ issues, marker <+: line

variable {marker : Text}

theorem OpensWith.not_carries {heads issues : List Text} (h : OpensWith heads issues)
    (hapart : heads.all (Text.apart marker) = true) : ¬ Carries issues marker := by
  rintro ⟨line, hline, hstarts⟩
  exact h.not_startsWith hapart line hline hstarts

theorem carries_append {issues issues' : List Text} :
    Carries (issues ++ issues') marker ↔ Carries issues marker ∨ Carries issues' marker := by
  unfold Carries
  simp only [List.mem_append, or_and_right, exists_or]

theorem carries_lineFor {α : Type} {items : List α} {head rest marker : Text}
    (h : marker <+: head) : Carries (lineFor items (head ++ rest)) marker ↔ items ≠ [] := by
  constructor
  · rintro ⟨line, hline, -⟩
    exact (mem_lineFor.1 hline).1
  · intro hne
    exact ⟨head ++ rest, mem_lineFor.2 ⟨hne, rfl⟩, h.trans (List.prefix_append head rest)⟩

/-- How the lines of the other rules open. -/
def otherHeads : List (List Text) :=
  [[Issue.disabledByMicrosoft], riskHeads, credentialHeads,
    ["Admin consent granted for delegated permissions".toList],
    ["Service principal is disabled".toList], ["Application created ".toList],
    [Issue.highRiskDelegatedPerms ++ " ".toList], [Issue.grantedNotDeclared ++ " ".toList],
    [Issue.multitenantAudience, Issue.unverifiedPublisher], hygieneHeads]

theorem otherHeads_apart : ∀ m ∈ fixableMarkers,
    otherHeads.all (fun heads => heads.all (Text.apart m)) = true := by
  unfold fixableMarkers otherHeads riskHeads scopedRiskHeads credentialHeads hygieneHeads
    Issue.orgWideMailbox Issue.legacyMailboxPolicy Issue.orgWideSharepoint Issue.redundantAppPerms
    Issue.noOwners Issue.singleOwner Issue.disabledByMicrosoft Issue.highRiskAppPerms
    Issue.highRiskDelegatedPerms Issue.grantedNotDeclared Issue.multitenantAudience
    Issue.unverifiedPublisher Issue.instanceLockDisabled Issue.publicClientCredentials
    Issue.preferCertOverSecret
  repeat rw [String.toList_append]
  repeat rw [String.toList_ofList]
  decide

/-- The other rules never open with such a marker. -/
theorem carries_issues {app : Application} {spEnabled : Option Bool} {permissions : AppPermissions}
    {now : Timestamp} (hmarker : marker ∈ fixableMarkers) :
    Carries (scoreApplication app spEnabled permissions now).issues marker ↔
      Carries (ruleMailboxAdvisory permissions.deduped.declaredView).issues marker ∨
      Carries (ruleSharepointAdvisory permissions.deduped.declaredView).issues marker ∨
      Carries (ownerLines app.owners) marker ∨
      Carries (ruleRedundantPermissions permissions.deduped.declaredView).issues marker := by
  have hnot : ∀ {heads issues : List Text}, OpensWith heads issues → heads ∈ otherHeads →
      ¬ Carries issues marker := by
    intro heads issues hopens hmem
    exact hopens.not_carries (List.all_eq_true.1 (otherHeads_apart marker hmarker) heads hmem)
  have hhygiene : ∀ a b c, Carries (ruleAppHygiene app a b c).issues marker ↔
      Carries (ownerLines app.owners) marker := by
    intro a b c
    obtain ⟨rest, hopens, heq⟩ := hygiene_lines app a b c
    rw [heq, carries_append, or_iff_left (hnot hopens (by simp [otherHeads]))]
  have hrules : Carries (scoreApplication app spEnabled permissions now).issues marker ↔
      ∃ c ∈ ruleContributions app spEnabled permissions.deduped now, Carries c.issues marker := by
    unfold Carries
    constructor
    · rintro ⟨line, hline, hstarts⟩
      obtain ⟨c, hc, hmem⟩ := mem_issues.1 hline
      exact ⟨c, hc, line, hmem, hstarts⟩
    · rintro ⟨c, hc, line, hmem, hstarts⟩
      exact ⟨line, mem_issues.2 ⟨c, hc, hmem⟩, hstarts⟩
  rw [hrules]
  unfold ruleContributions
  simp only [List.mem_cons, List.not_mem_nil, or_false, exists_eq_or_imp, exists_eq_left, hhygiene,
    iff_false_intro (hnot (opens_disabledByMicrosoft _) (by simp [otherHeads])),
    iff_false_intro (hnot (opens_appPermissionRisk _) (by simp [otherHeads])),
    iff_false_intro (hnot (opens_adminConsent _) (by simp [otherHeads])),
    iff_false_intro (hnot (opens_spDisabled _) (by simp [otherHeads])),
    iff_false_intro (hnot (opens_credentials _ _ _ _) (by simp [otherHeads])),
    iff_false_intro (hnot (opens_staleApp _) (by simp [otherHeads])),
    iff_false_intro (hnot (opens_highRiskDelegated _ _) (by simp [otherHeads])),
    iff_false_intro (hnot (opens_grantedUndeclared _) (by simp [otherHeads])),
    iff_false_intro (hnot (opens_externalExposure _ _ _) (by simp [otherHeads])), false_or, or_false]

/-! ### Rule 11 -/

variable {perms : AppPermissions}

theorem mem_mailboxAdvisory {line : Text} :
    line ∈ (ruleMailboxAdvisory perms).issues ↔
      ∃ part : MailboxPart, part.grants perms ≠ [] ∧ line = part.line perms := by
  unfold ruleMailboxAdvisory
  simp only [List.mem_flatMap, mem_lineFor]
  constructor
  · rintro ⟨part, -, h⟩
    exact ⟨part, h⟩
  · rintro ⟨part, h⟩
    exact ⟨part, by cases part <;> simp, h⟩

theorem carries_mailboxAdvisory (part : MailboxPart) (hpart : marker <+: part.opening)
    (hapart : ∀ other : MailboxPart, other ≠ part → Text.apart marker other.opening = true) :
    Carries (ruleMailboxAdvisory perms).issues marker ↔ part.grants perms ≠ [] := by
  constructor
  · rintro ⟨line, hline, hstarts⟩
    obtain ⟨other, hne, rfl⟩ := mem_mailboxAdvisory.1 hline
    by_cases heq : other = part
    · rw [← heq]
      exact hne
    · exact absurd hstarts (Text.not_startsWith_of_apart (hapart other heq) (List.prefix_append _ _))
  · intro hne
    exact ⟨part.line perms, mem_mailboxAdvisory.2 ⟨part, hne, rfl⟩,
      hpart.trans (List.prefix_append _ _)⟩

theorem not_carries_mailboxAdvisory
    (hapart : ∀ part : MailboxPart, Text.apart marker part.opening = true) :
    ¬ Carries (ruleMailboxAdvisory perms).issues marker := by
  rintro ⟨line, hline, hstarts⟩
  obtain ⟨part, -, rfl⟩ := mem_mailboxAdvisory.1 hline
  exact Text.not_startsWith_of_apart (hapart part) (List.prefix_append _ _) hstarts

/-! ### Rules 12, 14 and 18 -/

theorem sharepoint_lines (perms : AppPermissions) : ∃ rest, OpensWith sharepointHeads rest ∧
    (ruleSharepointAdvisory perms).issues = lineFor (sharepointScopable perms)
      ((Issue.orgWideSharepoint ++ ": ".toList) ++ joinValues (sharepointScopable perms)) ++ rest := by
  unfold ruleSharepointAdvisory
  dsimp only
  rw [List.append_assoc, List.append_assoc]
  refine ⟨_, ?_, rfl⟩
  exact (OpensWith.lineFor _ _ _).append ((OpensWith.lineFor _ _ _).append
    (OpensWith.ite (OpensWith.single Issue.scopedSharepoint _) (OpensWith.nil _)))

def orgWideSharepointHeads : List Text := [Issue.orgWideSharepoint ++ ": ".toList]

theorem carries_sharepointAdvisory (hapart : sharepointHeads.all (Text.apart marker) = true) :
    Carries (ruleSharepointAdvisory perms).issues marker ↔
      Carries (lineFor (sharepointScopable perms)
        ((Issue.orgWideSharepoint ++ ": ".toList) ++ joinValues (sharepointScopable perms))) marker := by
  obtain ⟨rest, hopens, heq⟩ := sharepoint_lines perms
  rw [heq, carries_append, or_iff_left (hopens.not_carries hapart)]

theorem opens_orgWideSharepoint (perms : AppPermissions) :
    OpensWith orgWideSharepointHeads (lineFor (sharepointScopable perms)
      ((Issue.orgWideSharepoint ++ ": ".toList) ++ joinValues (sharepointScopable perms))) :=
  OpensWith.lineFor _ _ _

def ownerHeads : List Text :=
  ["No owners assigned — ownership/accountability gap".toList,
    "Single owner — vulnerable to owner departure".toList]

theorem opens_ownerLines (owners : Option (List Text)) : OpensWith ownerHeads (ownerLines owners) := by
  unfold ownerLines
  split
  · exact OpensWith.nil _
  · refine OpensWith.ite ?_ (OpensWith.ite ?_ (OpensWith.nil _))
    · refine (OpensWith.literal _).mono ?_
      intro head hhead
      exact List.mem_cons.2 (Or.inl (List.mem_singleton.1 hhead))
    · refine (OpensWith.literal _).mono ?_
      intro head hhead
      exact List.mem_cons_of_mem _ hhead

/-- An owner is missing: there is none, or one alone. -/
def lacksOwner (owners : Option (List Text)) : Prop :=
  ∃ l, owners = some l ∧ l.length ≤ 1

theorem carries_ownerLines (owners : Option (List Text)) :
    Carries (ownerLines owners) Issue.noOwners ∨ Carries (ownerLines owners) Issue.singleOwner ↔
      lacksOwner owners := by
  constructor
  · intro h
    obtain ⟨line, hline⟩ : ∃ line, line ∈ ownerLines owners := by
      rcases h with ⟨line, hline, -⟩ | ⟨line, hline, -⟩ <;> exact ⟨line, hline⟩
    cases owners with
    | none => exact absurd hline (by simp [ownerLines])
    | some l =>
      refine ⟨l, rfl, ?_⟩
      by_contra hmany
      have h0 : ¬ l.length = 0 := by omega
      have h1 : ¬ l.length = 1 := by omega
      exact absurd hline (by simp [ownerLines, List.length_eq_zero_iff.not.1 h0, h1])
  · rintro ⟨l, rfl, hle⟩
    rcases Nat.le_one_iff_eq_zero_or_eq_one.1 hle with h0 | h1
    · refine Or.inl ⟨_, ?_, (by decide : Issue.noOwners <+:
        "No owners assigned — ownership/accountability gap".toList)⟩
      simp [ownerLines, h0]
    · refine Or.inr ⟨_, ?_, (by decide : Issue.singleOwner <+:
        "Single owner — vulnerable to owner departure".toList)⟩
      simp [ownerLines, h1]

/-! ### The remediations -/

theorem exists_remediationFor {α : Type} {kind kind' : RemediationKind} {items : List α}
    {targets : List Text} :
    (∃ action ∈ remediationFor kind items targets, action.kind = kind') ↔
      items ≠ [] ∧ kind = kind' := by
  unfold remediationFor
  cases items <;> simp

/-- A remediation is offered when its set is not empty. -/
theorem hasRemediation_iff (app : Application) (spEnabled : Option Bool)
    (permissions : AppPermissions) (now : Timestamp) (kind : RemediationKind) :
    (scoreApplication app spEnabled permissions now).HasRemediation kind ↔
      match kind with
      | .removeExpiredCredentials => expiredOf (allCredentials app now) ≠ []
      | .scopeMailboxAccess => MailboxPart.unscoped.grants permissions.deduped.declaredView ≠ []
      | .migrateApplicationAccessPolicy =>
        MailboxPart.scopedLegacy.grants permissions.deduped.declaredView ≠ []
      | .scopeSharePointAccess => sharepointScopable permissions.deduped.declaredView ≠ []
      | .removeRedundantPermissions => redundantOf permissions.deduped.declaredView ≠ []
      | .addOwner => lacksOwner app.owners := by
  have howner : ∀ kind', (∃ action ∈ ownerRemediations (app.owners.map List.length),
      action.kind = kind') ↔ lacksOwner app.owners ∧ .addOwner = kind' := by
    intro kind'
    unfold lacksOwner
    cases app.owners with
    | none => simp [ownerRemediations]
    | some l => rcases l with _ | ⟨a, _ | ⟨b, l⟩⟩ <;> simp [ownerRemediations]
  unfold AuditItem.HasRemediation scoreApplication buildRemediations
  simp only [List.mem_append, or_and_right, exists_or, exists_remediationFor, howner]
  cases kind <;> simp

/-! ### The findings -/

theorem matchesFinding_startsWith {finding marker : Text} (i : AuditItem)
    (h : findingMarkers.lookup finding = some [.startsWith marker]) :
    matchesFinding i finding = true ↔ Carries i.issues marker := by
  unfold matchesFinding findingIssueMarker Carries
  rw [h]
  simp [Marker.marks, List.isPrefixOf_iff_prefix]

/-- How the lines of Rule 11 open. -/
def mailboxHeads : List Text :=
  [MailboxPart.unscoped.opening, MailboxPart.unscopableLegacy.opening,
    MailboxPart.unconfinableOther.opening, MailboxPart.scopedLegacy.opening,
    MailboxPart.scopedRbac.opening]

theorem opening_mem_mailboxHeads (part : MailboxPart) : part.opening ∈ mailboxHeads := by
  cases part <;> simp only [mailboxHeads, List.mem_cons, true_or, or_true]

/-- No other group of lines opens with the marker. -/
def apartFrom (groups : List (List Text)) (marker : Text) : Bool :=
  groups.all (fun heads => heads.all (Text.apart marker))

theorem not_carries_of_apartFrom {groups : List (List Text)} {heads issues : List Text}
    (h : apartFrom groups marker = true) (hopens : OpensWith heads issues) (hmem : heads ∈ groups) :
    ¬ Carries issues marker :=
  hopens.not_carries (List.all_eq_true.1 h heads hmem)

theorem mailboxMarkers_apart : ∀ m ∈ [Issue.orgWideMailbox, Issue.legacyMailboxPolicy],
    apartFrom [sharepointHeads, orgWideSharepointHeads, ownerHeads, redundantHeads] m = true := by
  unfold sharepointHeads orgWideSharepointHeads ownerHeads redundantHeads Issue.orgWideMailbox
    Issue.legacyMailboxPolicy Issue.orgWideSharepoint Issue.redundantAppPerms
    Issue.unconfinableSharepoint Issue.orgWideFiles Issue.scopedSharepoint
  repeat rw [String.toList_ofList]
  decide

theorem siteMarker_apart :
    apartFrom [mailboxHeads, sharepointHeads, ownerHeads, redundantHeads] Issue.orgWideSharepoint
      = true := by
  unfold mailboxHeads sharepointHeads ownerHeads redundantHeads MailboxPart.opening
    Issue.orgWideMailbox Issue.legacyMailboxPolicy Issue.orgWideSharepoint Issue.redundantAppPerms
    Issue.unscopableLegacyMailbox Issue.unconfinableMailbox Issue.unconfinableSharepoint
    Issue.orgWideFiles Issue.scopedSharepoint
  dsimp only
  repeat rw [String.toList_ofList]
  decide

theorem redundantMarker_apart :
    apartFrom [mailboxHeads, sharepointHeads, orgWideSharepointHeads, ownerHeads]
      Issue.redundantAppPerms = true := by
  unfold mailboxHeads sharepointHeads orgWideSharepointHeads ownerHeads MailboxPart.opening
    Issue.orgWideMailbox Issue.legacyMailboxPolicy Issue.orgWideSharepoint Issue.redundantAppPerms
    Issue.unscopableLegacyMailbox Issue.unconfinableMailbox Issue.unconfinableSharepoint
    Issue.orgWideFiles Issue.scopedSharepoint
  dsimp only
  repeat rw [String.toList_ofList]
  decide

theorem ownerMarkers_apart : ∀ m ∈ [Issue.noOwners, Issue.singleOwner],
    apartFrom [mailboxHeads, sharepointHeads, orgWideSharepointHeads, redundantHeads] m = true := by
  unfold mailboxHeads sharepointHeads orgWideSharepointHeads redundantHeads MailboxPart.opening
    Issue.orgWideMailbox Issue.legacyMailboxPolicy Issue.orgWideSharepoint Issue.redundantAppPerms
    Issue.unscopableLegacyMailbox Issue.unconfinableMailbox Issue.unconfinableSharepoint
    Issue.orgWideFiles Issue.scopedSharepoint Issue.noOwners Issue.singleOwner
  dsimp only
  repeat rw [String.toList_ofList]
  decide

/-- The two markers of Rule 11 open the line of one part each. -/
theorem mailboxMarkers_own :
    (∀ other : MailboxPart, other ≠ .unscoped →
      Text.apart Issue.orgWideMailbox other.opening = true) ∧
    (∀ other : MailboxPart, other ≠ .scopedLegacy →
      Text.apart Issue.legacyMailboxPolicy other.opening = true) := by
  unfold MailboxPart.opening Issue.orgWideMailbox Issue.legacyMailboxPolicy
    Issue.unscopableLegacyMailbox Issue.unconfinableMailbox
  repeat rw [String.toList_ofList]
  constructor
  · intro other hne
    cases other with
    | unscoped => exact absurd rfl hne
    | unscopableLegacy | unconfinableOther | scopedLegacy | scopedRbac => decide
  · intro other hne
    cases other with
    | scopedLegacy => exact absurd rfl hne
    | unscoped | unscopableLegacy | unconfinableOther | scopedRbac => decide

section Findings

variable (app : Application) (spEnabled : Option Bool) (permissions : AppPermissions)
  (now : Timestamp)

/-- A marker of Rule 11. -/
theorem carries_issues_mailbox (part : MailboxPart)
    (hmarker : marker ∈ [Issue.orgWideMailbox, Issue.legacyMailboxPolicy]) (hpart : marker <+: part.opening)
    (hown : ∀ other : MailboxPart, other ≠ part → Text.apart marker other.opening = true) :
    Carries (scoreApplication app spEnabled permissions now).issues marker ↔
      part.grants permissions.deduped.declaredView ≠ [] := by
  have hapart := mailboxMarkers_apart marker hmarker
  have hfixable : marker ∈ fixableMarkers := by
    unfold fixableMarkers
    rw [List.mem_cons, List.mem_cons]
    exact (List.mem_cons.1 hmarker).imp_right (fun h => Or.inl (List.mem_singleton.1 h))
  rw [carries_issues hfixable, carries_mailboxAdvisory part hpart hown,
    carries_sharepointAdvisory (List.all_eq_true.1 hapart _ (by simp only [List.mem_cons, true_or])),
    iff_false_intro (not_carries_of_apartFrom hapart (opens_orgWideSharepoint _)
      (by simp only [List.mem_cons, true_or, or_true])),
    iff_false_intro (not_carries_of_apartFrom hapart (opens_ownerLines _)
      (by simp only [List.mem_cons, true_or, or_true])),
    iff_false_intro (not_carries_of_apartFrom hapart (opens_redundantPermissions _)
      (by simp only [List.mem_cons, true_or, or_true]))]
  simp only [or_false]

/-- The markers and the lines of Rule 11. -/
theorem not_carries_mailbox_of_apartFrom {groups : List (List Text)}
    (h : apartFrom (mailboxHeads :: groups) marker = true) :
    ¬ Carries (ruleMailboxAdvisory perms).issues marker := by
  refine not_carries_mailboxAdvisory (fun part => ?_)
  exact List.all_eq_true.1 (List.all_eq_true.1 h mailboxHeads List.mem_cons_self) _
    (opening_mem_mailboxHeads part)

theorem orgwide_mailbox_iff :
    matchesFinding (scoreApplication app spEnabled permissions now) "orgwide_mailbox".toList = true ↔
      (scoreApplication app spEnabled permissions now).HasRemediation .scopeMailboxAccess := by
  have hlookup : findingMarkers.lookup "orgwide_mailbox".toList
      = some [.startsWith Issue.orgWideMailbox] := by
    unfold findingMarkers
    repeat rw [String.toList_ofList]
    rfl
  rw [matchesFinding_startsWith _ hlookup, hasRemediation_iff]
  exact carries_issues_mailbox app spEnabled permissions now .unscoped List.mem_cons_self
    (List.prefix_append _ _) mailboxMarkers_own.1

theorem legacy_mailbox_scope_iff :
    matchesFinding (scoreApplication app spEnabled permissions now) "legacy_mailbox_scope".toList = true ↔
      (scoreApplication app spEnabled permissions now).HasRemediation
        .migrateApplicationAccessPolicy := by
  have hlookup : findingMarkers.lookup "legacy_mailbox_scope".toList
      = some [.startsWith Issue.legacyMailboxPolicy] := by
    unfold findingMarkers
    repeat rw [String.toList_ofList]
    rfl
  rw [matchesFinding_startsWith _ hlookup, hasRemediation_iff]
  exact carries_issues_mailbox app spEnabled permissions now .scopedLegacy
    (List.mem_cons_of_mem _ List.mem_cons_self) (List.prefix_append _ _) mailboxMarkers_own.2

theorem orgwide_sharepoint_iff :
    matchesFinding (scoreApplication app spEnabled permissions now) "orgwide_sharepoint".toList = true ↔
      (scoreApplication app spEnabled permissions now).HasRemediation .scopeSharePointAccess := by
  have hlookup : findingMarkers.lookup "orgwide_sharepoint".toList
      = some [.startsWith Issue.orgWideSharepoint] := by
    unfold findingMarkers
    repeat rw [String.toList_ofList]
    rfl
  have hapart := siteMarker_apart
  rw [matchesFinding_startsWith _ hlookup, hasRemediation_iff,
    carries_issues (by simp only [fixableMarkers, List.mem_cons, true_or, or_true]),
    iff_false_intro (not_carries_mailbox_of_apartFrom hapart),
    carries_sharepointAdvisory
      (List.all_eq_true.1 hapart _ (by simp only [List.mem_cons, true_or, or_true])),
    carries_lineFor (List.prefix_append _ _),
    iff_false_intro (not_carries_of_apartFrom hapart (opens_ownerLines _)
      (by simp only [List.mem_cons, true_or, or_true])),
    iff_false_intro (not_carries_of_apartFrom hapart (opens_redundantPermissions _)
      (by simp only [List.mem_cons, true_or, or_true]))]
  simp only [false_or, or_false]

theorem redundant_perms_iff :
    matchesFinding (scoreApplication app spEnabled permissions now) "redundant_perms".toList = true ↔
      (scoreApplication app spEnabled permissions now).HasRemediation
        .removeRedundantPermissions := by
  have hlookup : findingMarkers.lookup "redundant_perms".toList
      = some [.startsWith Issue.redundantAppPerms] := by
    unfold findingMarkers
    repeat rw [String.toList_ofList]
    rfl
  have hapart := redundantMarker_apart
  rw [matchesFinding_startsWith _ hlookup, hasRemediation_iff,
    carries_issues (by simp only [fixableMarkers, List.mem_cons, true_or, or_true]),
    iff_false_intro (not_carries_mailbox_of_apartFrom hapart),
    carries_sharepointAdvisory
      (List.all_eq_true.1 hapart _ (by simp only [List.mem_cons, true_or, or_true])),
    iff_false_intro (not_carries_of_apartFrom hapart (opens_orgWideSharepoint _)
      (by simp only [List.mem_cons, true_or, or_true])),
    iff_false_intro (not_carries_of_apartFrom hapart (opens_ownerLines _)
      (by simp only [List.mem_cons, true_or, or_true]))]
  simp only [false_or]
  exact carries_lineFor (List.prefix_append _ _)

/-- The two markers of Rule 14. -/
theorem carries_issues_owner (hmarker : marker ∈ [Issue.noOwners, Issue.singleOwner]) :
    Carries (scoreApplication app spEnabled permissions now).issues marker ↔
      Carries (ownerLines app.owners) marker := by
  have hapart := ownerMarkers_apart marker hmarker
  have hfixable : marker ∈ fixableMarkers := by
    unfold fixableMarkers
    simp only [List.mem_cons, List.not_mem_nil, or_false] at hmarker ⊢
    exact Or.inr (Or.inr (Or.inr (Or.inr hmarker)))
  rw [carries_issues hfixable, iff_false_intro (not_carries_mailbox_of_apartFrom hapart),
    carries_sharepointAdvisory
      (List.all_eq_true.1 hapart _ (by simp only [List.mem_cons, true_or, or_true])),
    iff_false_intro (not_carries_of_apartFrom hapart (opens_orgWideSharepoint _)
      (by simp only [List.mem_cons, true_or, or_true])),
    iff_false_intro (not_carries_of_apartFrom hapart (opens_redundantPermissions _)
      (by simp only [List.mem_cons, true_or, or_true]))]
  simp only [false_or, or_false]

theorem ownership_iff :
    matchesFinding (scoreApplication app spEnabled permissions now) "ownership".toList = true ↔
      (scoreApplication app spEnabled permissions now).HasRemediation .addOwner := by
  have hlookup : findingMarkers.lookup "ownership".toList =
      some [.startsWith Issue.noOwners, .startsWith Issue.singleOwner] := by
    unfold findingMarkers
    repeat rw [String.toList_ofList]
    rfl
  rw [hasRemediation_iff, ← carries_ownerLines,
    ← carries_issues_owner app spEnabled permissions now List.mem_cons_self,
    ← carries_issues_owner app spEnabled permissions now
      (List.mem_cons_of_mem _ List.mem_cons_self)]
  unfold matchesFinding findingIssueMarker Carries
  rw [hlookup]
  simp [Marker.marks, List.isPrefixOf_iff_prefix, and_or_left, exists_or]

theorem expired_iff :
    matchesFinding (scoreApplication app spEnabled permissions now) "expired".toList = true ↔
      (scoreApplication app spEnabled permissions now).HasRemediation .removeExpiredCredentials := by
  have hlookup : findingMarkers.lookup "expired".toList = none := by
    unfold findingMarkers
    repeat rw [String.toList_ofList]
    rfl
  have hstatus : ∀ all : List CredentialSummary, overallCredentialStatus all = .expired ↔
      expiredOf all ≠ [] := by
    intro all
    unfold overallCredentialStatus expiredOf
    rw [Ne, List.filter_eq_nil_iff]
    cases all with
    | nil => simp
    | cons c all => grind
  rw [hasRemediation_iff, ← hstatus]
  unfold matchesFinding findingIssueMarker
  rw [hlookup]
  exact beq_iff_eq

end Findings

end Audit
