import AzAppToolkit.Exchange.Scoping

set_option autoImplicit false

/-! # What a permission reaches

The predicates of `azapptoolkit-core/src/scoping.rs` that the audit classifies a grant with: whether
it reaches mailboxes, SharePoint sites or files, and on which resource. A resource that could not be
resolved falls back to the name of the permission. -/

namespace Audit

open Exchange

def office365SharePointOnlineAppId : Text := "00000003-0000-0ff1-ce00-000000000000".toList

def spSitesSelected : Text := "Sites.Selected".toList

/-- The name of a resource whose roles collide by value; the id of any other. -/
def resourceLabel (resourceAppId : Text) : Text :=
  if resourceAppId = microsoftGraphAppId then "Microsoft Graph".toList
  else if resourceAppId = office365ExchangeOnlineAppId then "Office 365 Exchange Online".toList
  else if resourceAppId = office365SharePointOnlineAppId then "Office 365 SharePoint Online".toList
  else resourceAppId

/-! ## Mailboxes -/

/-- The retired Outlook REST roles of Office 365 Exchange Online. -/
def isUnscopableLegacyExchangePermission (resourceAppId value : Text) : Bool :=
  resourceAppId == office365ExchangeOnlineAppId && (graphMailRole value).isSome

def mailboxNamed (value : Text) : Bool :=
  ["Mail.", "Mail-", "Mailbox", "MailTips.", "Calendars.", "Contacts."].any
    (fun head => head.toList.isPrefixOf value)

def isMailboxReachingPermission (resourceAppId : Option Text) (value : Text) : Bool :=
  if resourceAppId = some microsoftGraphAppId then
    (graphMailRole value).isSome || mailboxNamed value
  else if resourceAppId = some office365ExchangeOnlineAppId then
    isBlanketMailboxGrant value ||
      isUnscopableLegacyExchangePermission office365ExchangeOnlineAppId value
  else mailboxNamed value

/-- What Exchange can confine reaches mailboxes. -/
theorem isMailboxReaching_of_scopable {resourceAppId : Option Text} {value : Text}
    (h : isScopableExchangeResourcePermission resourceAppId value = true) :
    isMailboxReachingPermission resourceAppId value = true := by
  cases resourceAppId with
  | none => exact absurd h (by simp [isScopableExchangeResourcePermission])
  | some resource =>
    unfold isScopableExchangeResourcePermission exchangeRoleForResourcePermission at h
    unfold isMailboxReachingPermission
    dsimp only at h
    split at h
    · next hgraph => rw [if_pos (by rw [hgraph]), h, Bool.true_or]
    · next hgraph =>
      split at h
      · next hews =>
        rw [if_neg (by simpa using hgraph), if_pos (by rw [hews])]
        split at h
        · next hvalue => simp [isBlanketMailboxGrant, hvalue]
        · exact absurd h (by simp)
      · exact absurd h (by simp)

/-! ## SharePoint and files -/

def isSharepointOrgwide (value : Text) : Bool :=
  "Sites.".toList.isPrefixOf value && value != spSitesSelected

def isSharepointOrgwidePermission (resourceAppId : Option Text) (value : Text) : Bool :=
  if resourceAppId = some microsoftGraphAppId ∨
      resourceAppId = some office365SharePointOnlineAppId ∨ resourceAppId = none then
    isSharepointOrgwide value
  else false

/-- The grants the conversion to `Sites.Selected` can confine. -/
def isScopableSharepointResourcePermission (resourceAppId : Option Text) (value : Text) : Bool :=
  resourceAppId == some microsoftGraphAppId && isSharepointOrgwide value

def isScopedSharepointResourcePermission (resourceAppId : Option Text) (value : Text) : Bool :=
  resourceAppId == some microsoftGraphAppId && value == spSitesSelected

def filesOrgwidePermissions : List Text :=
  ["Files.Read.All", "Files.ReadWrite.All"].map String.toList

def isFilesOrgwidePermission (resourceAppId : Option Text) (value : Text) : Bool :=
  if resourceAppId = some microsoftGraphAppId ∨ resourceAppId = none then
    filesOrgwidePermissions.contains value
  else false

end Audit
