import AzAppToolkit.Audit.Scoring

set_option autoImplicit false

/-! # Findings

`matches_finding` of `azapptoolkit-core/src/audit/finding.rs`: which finding an item belongs to. Most
findings are recognised by the text of an issue line, by a marker it starts with; `scoped_mailbox`
alone by a marker it contains. What the lines quote is up to the directory, so the first thing to know
about a rule is how its lines open and which of the texts they quote can carry a marker. -/

namespace Audit

open Exchange (ResourcePermission ScopeMechanism)

/-! ## The classifier -/

inductive Marker where
  | startsWith (text : Text)
  | contains (text : Text)

def Marker.marks : Marker → Text → Bool
  | .startsWith text, line => text.isPrefixOf line
  | .contains text, line => Text.contains text line

/-- The findings recognised by an issue line, and the markers of each. -/
def findingMarkers : List (Text × List Marker) := [
  ("high_risk_perms".toList, [.startsWith Issue.highRiskAppPerms]),
  ("high_risk_delegated".toList, [.startsWith Issue.highRiskDelegatedPerms]),
  ("external_exposure".toList,
    [.startsWith Issue.multitenantAudience, .startsWith Issue.unverifiedPublisher]),
  ("orgwide_mailbox".toList, [.startsWith Issue.orgWideMailbox]),
  ("scoped_mailbox".toList, [.contains Issue.scopedViaRbac]),
  ("legacy_mailbox_scope".toList, [.startsWith Issue.legacyMailboxPolicy]),
  ("orgwide_sharepoint".toList, [.startsWith Issue.orgWideSharepoint]),
  ("orgwide_files".toList, [.startsWith Issue.orgWideFiles]),
  ("unscopable_legacy_mailbox".toList, [.startsWith Issue.unscopableLegacyMailbox]),
  ("unconfinable_orgwide".toList,
    [.startsWith Issue.unconfinableMailbox, .startsWith Issue.unconfinableSharepoint]),
  ("redundant_perms".toList, [.startsWith Issue.redundantAppPerms]),
  ("granted_undeclared".toList, [.startsWith Issue.grantedNotDeclared]),
  ("scoped_sites".toList, [.startsWith Issue.scopedSharepoint]),
  ("disabled_by_microsoft".toList, [.startsWith Issue.disabledByMicrosoft]),
  ("risky_service_principal".toList, [.startsWith Issue.riskyServicePrincipal]),
  ("unused_credential".toList, [.startsWith Issue.unusedCredential]),
  ("ownership".toList, [.startsWith Issue.noOwners, .startsWith Issue.singleOwner])]

/-- The line belongs to the finding; none for a finding that is no matter of issue lines. -/
def findingIssueMarker (finding : Text) : Option (Text → Bool) :=
  (findingMarkers.lookup finding).map (fun markers line => markers.any (·.marks line))

def matchesFinding (i : AuditItem) (finding : Text) : Bool :=
  match findingIssueMarker finding with
  | some marks => i.issues.any marks
  | none =>
    if finding = "expired".toList then i.credentialStatus == .expired
    else if finding = "unused".toList then i.unused
    else if finding = "no_local_app".toList then
      i.principalKind == .servicePrincipal || i.principalKind == .managedIdentity
    else true

/-- The item carries a remediation of the kind. -/
def AuditItem.HasRemediation (i : AuditItem) (kind : RemediationKind) : Prop :=
  ∃ action ∈ i.remediations, action.kind = kind

/-! ## The lines of an item -/

theorem mem_lineFor {α : Type} {items : List α} {l line : Text} :
    line ∈ lineFor items l ↔ items ≠ [] ∧ line = l := by
  unfold lineFor
  cases items <;> simp

theorem mem_foldl_merge (cs : List RuleContribution) (init : RuleContribution) (line : Text) :
    line ∈ (cs.foldl RuleContribution.merge init).issues ↔
      line ∈ init.issues ∨ ∃ c ∈ cs, line ∈ c.issues := by
  induction cs generalizing init with
  | nil => simp
  | cons c cs ih =>
    rw [List.foldl_cons, ih]
    simp [RuleContribution.merge, or_assoc]

/-- The lines of an item are those of its rules. -/
theorem mem_issues {app : Application} {spEnabled : Option Bool} {permissions : AppPermissions}
    {now : Timestamp} {line : Text} :
    line ∈ (scoreApplication app spEnabled permissions now).issues ↔
      ∃ c ∈ ruleContributions app spEnabled permissions.deduped now, line ∈ c.issues := by
  unfold scoreApplication
  rw [mem_foldl_merge]
  simp

/-! ## How the lines open

A rule whose lines all open with literal texts apart from a marker never carries that marker. -/

/-- Every line opens with one of the texts. -/
def OpensWith (heads : List Text) (issues : List Text) : Prop :=
  ∀ line ∈ issues, ∃ head ∈ heads, head <+: line

theorem OpensWith.not_startsWith {heads issues : List Text} (h : OpensWith heads issues)
    {marker : Text} (hapart : heads.all (Text.apart marker) = true) :
    ∀ line ∈ issues, ¬ marker <+: line := by
  intro line hline
  obtain ⟨head, hhead, hopens⟩ := h line hline
  exact Text.not_startsWith_of_apart (List.all_eq_true.1 hapart head hhead) hopens

theorem OpensWith.append {heads heads' issues issues' : List Text} (h : OpensWith heads issues)
    (h' : OpensWith heads' issues') : OpensWith (heads ++ heads') (issues ++ issues') := by
  intro line hline
  rcases List.mem_append.1 hline with hline | hline
  · obtain ⟨head, hhead, hopens⟩ := h line hline
    exact ⟨head, List.mem_append_left _ hhead, hopens⟩
  · obtain ⟨head, hhead, hopens⟩ := h' line hline
    exact ⟨head, List.mem_append_right _ hhead, hopens⟩

theorem OpensWith.lineFor {α : Type} (items : List α) (head rest : Text) :
    OpensWith [head] (lineFor items (head ++ rest)) := by
  intro line hline
  rw [(mem_lineFor.1 hline).2]
  exact ⟨head, List.mem_singleton_self _, List.prefix_append head rest⟩

theorem OpensWith.nil (heads : List Text) : OpensWith heads [] := by
  intro line hline
  exact absurd hline (by simp)

theorem OpensWith.single (head rest : Text) : OpensWith [head] [head ++ rest] := by
  intro line hline
  rw [List.mem_singleton.1 hline]
  exact ⟨head, List.mem_singleton_self _, List.prefix_append head rest⟩

theorem OpensWith.literal (head : Text) : OpensWith [head] [head] := by
  intro line hline
  exact ⟨head, List.mem_singleton_self _, by rw [List.mem_singleton.1 hline]⟩

theorem OpensWith.ite {heads issues issues' : List Text} {b : Prop} [Decidable b]
    (h : OpensWith heads issues) (h' : OpensWith heads issues') :
    OpensWith heads (if b then issues else issues') := by
  split
  · exact h
  · exact h'

theorem OpensWith.mono {heads heads' issues : List Text} (h : OpensWith heads issues)
    (hsub : ∀ head ∈ heads, head ∈ heads') : OpensWith heads' issues := by
  intro line hline
  obtain ⟨head, hhead, hopens⟩ := h line hline
  exact ⟨head, hsub head hhead, hopens⟩

end Audit
