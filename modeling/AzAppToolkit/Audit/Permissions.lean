import AzAppToolkit.Lib.Text

set_option autoImplicit false

/-! # Permission tables

The lists of `azapptoolkit-core/src/audit/permissions.rs`: the permissions the audit weighs, and which
application permissions a broader one covers in full. The coverage table is written out flat:
`Subsumes` is asked in one lookup, never by following a chain, so that the table has to be
transitively closed on its own. -/

namespace Audit

/-! ## Risk lists -/

/-- Each is on its own a path to Global Administrator. -/
def tier0AppPermissions : List Text :=
  ["RoleManagement.ReadWrite.Directory", "AppRoleAssignment.ReadWrite.All",
    "Application.ReadWrite.All", "RoleAssignmentSchedule.ReadWrite.Directory",
    "RoleEligibilitySchedule.ReadWrite.Directory", "PrivilegedAccess.ReadWrite.AzureADGroup",
    "PrivilegedAssignmentSchedule.ReadWrite.AzureADGroup",
    "PrivilegedEligibilitySchedule.ReadWrite.AzureADGroup", "Policy.ReadWrite.PermissionGrant",
    "Policy.ReadWrite.ConditionalAccess", "Domain.ReadWrite.All",
    "UserAuthenticationMethod.ReadWrite.All"].map String.toList

/-- Tenant-wide writes and impersonation. -/
def highRiskAppPermissions : List Text :=
  ["Directory.ReadWrite.All", "Mail.ReadWrite", "Mail.Send", "Files.ReadWrite.All",
    "Sites.FullControl.All", "Sites.ReadWrite.All", "User.ReadWrite.All", "Group.ReadWrite.All",
    "Application.ReadWrite.OwnedBy", "EntitlementManagement.ReadWrite.All",
    "MailboxSettings.ReadWrite", "GroupMember.ReadWrite.All", "Chat.ReadWrite.All",
    "Device.ReadWrite.All", "Contacts.ReadWrite", "Notes.ReadWrite.All",
    "MailboxItem.ReadWrite.All", "MailboxItem.Export.All", "MailboxItem.ImportExport.All",
    "MailboxFolder.ReadWrite.All", "Mail-Advanced.ReadWrite.All", "full_access_as_app",
    "User-PasswordProfile.ReadWrite.All", "Organization.ReadWrite.All",
    "Policy.ReadWrite.AuthenticationMethod", "RoleManagementPolicy.ReadWrite.Directory",
    "DelegatedPermissionGrant.ReadWrite.All", "Policy.ReadWrite.CrossTenantAccess",
    "Policy.ReadWrite.Authorization", "Policy.ReadWrite.ApplicationConfiguration",
    "Exchange.ManageAsApp"].map String.toList

/-- Tenant-wide reads. -/
def mediumRiskAppPermissions : List Text :=
  ["User.Read.All", "Group.Read.All", "Mail.Read", "Files.Read.All", "Sites.Read.All",
    "Calendars.ReadWrite", "Directory.Read.All", "Chat.Read.All", "Calendars.Read",
    "MailboxItem.Read.All", "MailboxFolder.Read.All", "Contacts.Read", "MailboxSettings.Read",
    "Notes.Read.All", "Device.Read.All", "Application.Read.All", "GroupMember.Read.All",
    "RoleManagement.Read.Directory"].map String.toList

/-- Delegated scopes that are reported whenever they are requested. -/
def highRiskDelegatedPermissions : List Text :=
  ["Directory.AccessAsUser.All", "user_impersonation"].map String.toList

/-- Families of delegated scopes with a broad reach. -/
def riskyDelegatedScopeFamilies : List Text :=
  ["Mail.", "MailboxSettings.", "Files.", "Sites.", "Directory.", "Group.",
    "AppRoleAssignment.", "RoleManagement."].map String.toList

/-- Families of which only the write half is risky. -/
def riskyDelegatedWriteFamilies : List Text :=
  ["Application.ReadWrite.", "Policy.ReadWrite.", "UserAuthenticationMethod.ReadWrite",
    "GroupMember.ReadWrite.", "DelegatedPermissionGrant.ReadWrite.", "Calendars.ReadWrite",
    "Chat.ReadWrite"].map String.toList

/-- Risky scopes of families that also hold harmless ones. -/
def riskyDelegatedScopesExact : List Text :=
  ["User.ReadWrite.All"].map String.toList

/-- `Sites.Selected` and the `*.SelectedOperations.Selected` family: nothing until an owner grants it. -/
def isSelectedScope (scope : Text) : Bool :=
  scope == "Sites.Selected".toList || ".SelectedOperations.Selected".toList.isSuffixOf scope

def isRiskyDelegatedScope (scope : Text) : Bool :=
  if highRiskDelegatedPermissions.contains scope then true
  else if isSelectedScope scope then false
  else riskyDelegatedScopesExact.contains scope ||
    (riskyDelegatedScopeFamilies ++ riskyDelegatedWriteFamilies).any (·.isPrefixOf scope)

/-! ## Coverage -/

/-- A narrower permission and the permissions that cover it. -/
def subsumedAppPermissions : List (Text × List Text) :=
  ([
    -- Exchange families: ReadBasic in Read in ReadWrite
    ("Mail.Read", ["Mail.ReadWrite"]),
    ("Mail.ReadBasic", ["Mail.Read", "Mail.ReadWrite"]),
    ("Mail.ReadBasic.All", ["Mail.Read", "Mail.ReadWrite"]),
    ("MailboxSettings.Read", ["MailboxSettings.ReadWrite"]),
    ("Calendars.Read", ["Calendars.ReadWrite"]),
    ("Calendars.ReadBasic", ["Calendars.Read", "Calendars.ReadWrite"]),
    ("Contacts.Read", ["Contacts.ReadWrite"]),
    -- OneDrive and SharePoint: two families, neither covers the other
    ("Files.Read.All", ["Files.ReadWrite.All"]),
    ("Sites.Read.All", ["Sites.ReadWrite.All", "Sites.Manage.All", "Sites.FullControl.All"]),
    ("Sites.ReadWrite.All", ["Sites.Manage.All", "Sites.FullControl.All"]),
    ("Sites.Manage.All", ["Sites.FullControl.All"]),
    -- directory objects
    ("User.ReadBasic.All",
      ["User.Read.All", "User.ReadWrite.All", "Directory.Read.All", "Directory.ReadWrite.All"]),
    ("User.Read.All", ["User.ReadWrite.All", "Directory.Read.All", "Directory.ReadWrite.All"]),
    ("Group.Read.All", ["Group.ReadWrite.All", "Directory.Read.All", "Directory.ReadWrite.All"]),
    ("GroupMember.Read.All",
      ["GroupMember.ReadWrite.All", "Group.Read.All", "Group.ReadWrite.All", "Directory.Read.All",
        "Directory.ReadWrite.All"]),
    ("GroupMember.ReadWrite.All", ["Group.ReadWrite.All"]),
    ("Device.Read.All", ["Device.ReadWrite.All", "Directory.Read.All", "Directory.ReadWrite.All"]),
    ("Application.Read.All",
      ["Application.ReadWrite.All", "Directory.Read.All", "Directory.ReadWrite.All"]),
    ("Application.ReadWrite.OwnedBy", ["Application.ReadWrite.All"]),
    ("Directory.Read.All", ["Directory.ReadWrite.All"]),
    ("RoleManagement.Read.Directory", ["RoleManagement.ReadWrite.Directory"]),
    -- Teams and OneNote
    ("Chat.ReadBasic.All", ["Chat.Read.All", "Chat.ReadWrite.All"]),
    ("Chat.Read.All", ["Chat.ReadWrite.All"]),
    ("Notes.Read.All", ["Notes.ReadWrite.All"])] : List (String × List String)).map
    (fun row => (row.1.toList, row.2.map String.toList))

/-- The permissions that cover `value`. -/
def subsumingAppPermissions (value : Text) : List Text :=
  ((subsumedAppPermissions.find? (fun row => row.1 == value)).map (·.2)).getD []

/-- `broader` covers `value`. -/
def Subsumes (broader value : Text) : Prop := broader ∈ subsumingAppPermissions value

theorem exists_row_of_subsumes {broader value : Text} (h : Subsumes broader value) :
    ∃ row ∈ subsumedAppPermissions, row.1 = value ∧ subsumingAppPermissions value = row.2 := by
  unfold Subsumes subsumingAppPermissions at h
  unfold subsumingAppPermissions
  cases hfind : subsumedAppPermissions.find? (fun row => row.1 == value) with
  | none =>
    rw [hfind] at h
    exact absurd h (by simp)
  | some row =>
    have hkey : (row.1 == value) = true := by simpa using List.find?_some hfind
    exact ⟨row, List.mem_of_find?_eq_some hfind, eq_of_beq hkey, rfl⟩

/-- No row of the table covers itself, and the rows of what covers a row lie in that row. -/
theorem subsumedAppPermissions_closed : ∀ row ∈ subsumedAppPermissions, row.1 ∉ row.2 ∧
    ∀ broader ∈ row.2, ∀ broadest ∈ subsumingAppPermissions broader, broadest ∈ row.2 := by
  decide

theorem not_subsumes_self (value : Text) : ¬ Subsumes value value := by
  intro h
  obtain ⟨row, hrow, rfl, heq⟩ := exists_row_of_subsumes h
  unfold Subsumes at h
  rw [heq] at h
  exact (subsumedAppPermissions_closed row hrow).1 h

theorem Subsumes.trans {broadest broader value : Text} (h : Subsumes broadest broader)
    (h' : Subsumes broader value) : Subsumes broadest value := by
  obtain ⟨row, hrow, rfl, heq⟩ := exists_row_of_subsumes h'
  unfold Subsumes at h' ⊢
  rw [heq] at h' ⊢
  exact (subsumedAppPermissions_closed row hrow).2 broader h' broadest h

/-- Fewer permissions cover the broader one. -/
theorem Subsumes.card_lt {broader value : Text} (h : Subsumes broader value) :
    (subsumingAppPermissions broader).toFinset.card
      < (subsumingAppPermissions value).toFinset.card := by
  refine Finset.card_lt_card ((Finset.ssubset_iff_of_subset ?_).2 ⟨broader, ?_, ?_⟩)
  · intro broadest hmem
    exact List.mem_toFinset.2 (Subsumes.trans (List.mem_toFinset.1 hmem) h)
  · exact List.mem_toFinset.2 h
  · intro hmem
    exact not_subsumes_self broader (List.mem_toFinset.1 hmem)

/-- Among permissions that are kept or covered by another that is held, each one held is kept or
    covered by one that is kept: going up the table ends. -/
theorem exists_kept_above {held kept : Text → Prop}
    (h : ∀ v, held v → kept v ∨ ∃ b, Subsumes b v ∧ held b) (v : Text) (hv : held v) :
    kept v ∨ ∃ b, Subsumes b v ∧ kept b := by
  induction hn : (subsumingAppPermissions v).toFinset.card using Nat.strong_induction_on
    generalizing v with
  | _ n ih =>
    rcases h v hv with hkept | ⟨b, hb, hheld⟩
    · exact Or.inl hkept
    · rcases ih _ (hn ▸ hb.card_lt) b hheld rfl with hkept | ⟨b', hb', hkept⟩
      · exact Or.inr ⟨b, hb, hkept⟩
      · exact Or.inr ⟨b', hb'.trans hb, hkept⟩

end Audit
