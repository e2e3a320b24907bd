import AzAppToolkit.Tester.Reads

set_option autoImplicit false

/-! # The SharePoint access test

`test_site_access` of `commands/permission_tester.rs` and what it calls: the grants on the two
SharePoint-bearing resources, the walk from the resource up to its site collection, and the verdict.

Each read is made at most once, so the answers are an argument (`SiteReads`). The log lines are left
out. -/

namespace Tester

open Exchange (microsoftGraphAppId)
open Audit (office365SharePointOnlineAppId spSitesSelected isSharepointOrgwidePermission)
open Sweeps (SiteIdentity SiteIdentitySet SitePermission)

/-! ## Data -/

inductive SelectedScopeLevel where
  | site
  | list
  | listItem
  | file
deriving DecidableEq

def spListsSelected : Text := "Lists.SelectedOperations.Selected".toList

def spListItemsSelected : Text := "ListItems.SelectedOperations.Selected".toList

def spFilesSelected : Text := "Files.SelectedOperations.Selected".toList

/-- The level a Selected scope grants at; on Microsoft Graph alone. -/
def selectedScopeLevelFor (resourceAppId : Option Text) (value : Text) : Option SelectedScopeLevel :=
  if resourceAppId ≠ some microsoftGraphAppId then none
  else if value = spSitesSelected then some .site
  else if value = spListsSelected then some .list
  else if value = spListItemsSelected then some .listItem
  else if value = spFilesSelected then some .file
  else none

/-- A file is a list item, and not every list item is a file. -/
def selectedScopeAccepts : SelectedScopeLevel → SelectedScopeLevel → Bool
  | .listItem, .file => true
  | scope, resolved => scope == resolved

/-- A permission entry on a securable below the site collection. -/
structure SelectedPermission where
  id : Text
  roles : List Text
  grantedToV2 : Option SiteIdentitySet
  grantedTo : Option SiteIdentitySet

def SelectedPermission.appId (p : SelectedPermission) : Option Text :=
  ((p.grantedToV2.or p.grantedTo).bind (·.application)).bind (·.id)

structure ResolvedSharePointResource where
  level : SelectedScopeLevel
  siteId : Text
  siteUrl : Option Text
  siteName : Option Text
  listId : Option Text
  listName : Option Text
  itemId : Option Text
  displayPath : Text

structure SiteReads where
  client : Except UiError Unit
  roles : RoleReads
  resolved : Except UiError ResolvedSharePointResource
  itemPermissions : (siteId listId itemId : Text) → Except UiError (List SelectedPermission)
  listPermissions : (siteId listId : Text) → Except UiError (List SelectedPermission)
  sitePermissions : (siteId : Text) → Except UiError (List SitePermission)

/-! ## The grants -/

structure HeldSharePointGrants where
  orgwide : List Text
  selected : List (Text × SelectedScopeLevel)
deriving DecidableEq

def HeldSharePointGrants.scopeForLevel (held : HeldSharePointGrants) (level : SelectedScopeLevel) :
    Option Text :=
  (held.selected.find? (fun p => selectedScopeAccepts p.2 level)).map (·.1)

/-- The two arms of the loop of `sharepoint_grants_held`. -/
def orgwideGrant (grant : Text × Text × Text) : Option Text :=
  if isSharepointOrgwidePermission (some grant.1) grant.2.2 then
    some (if grant.1 = office365SharePointOnlineAppId then grant.2.2 ++ " (SharePoint Online)".toList
      else grant.2.2)
  else none

def selectedGrant (grant : Text × Text × Text) : Option (Text × SelectedScopeLevel) :=
  if isSharepointOrgwidePermission (some grant.1) grant.2.2 then none
  else (selectedScopeLevelFor (some grant.1) grant.2.2).map (fun level => (grant.2.2, level))

def sharepointGrantsHeld (reads : RoleReads) : Except UiError HeldSharePointGrants :=
  match reads.held office365SharePointOnlineAppId with
  | .error err => .error err
  | .ok grants => .ok ⟨Text.dedup (Text.sort (grants.filterMap orgwideGrant)), grants.filterMap selectedGrant⟩

/-! ## The chain -/

structure EntryHit where
  level : SelectedScopeLevel
  whereLabel : Text
  roles : List Text

def namesApp (appId : Text) (id : Option Text) : Bool := id.any (fun id => id.eqIgnoreAsciiCase appId)

/-- The roles of the entries that name the application. -/
def namedRoles (perms : List SelectedPermission) (appId : Text) : List Text :=
  (perms.filter (fun p => namesApp appId p.appId)).flatMap (·.roles)

def rolesForApp (perms : List SelectedPermission) (appId : Text) : Option (List Text) :=
  let roles := namedRoles perms appId
  if roles.isEmpty then none else some (Text.dedup (Text.sort roles))

def siteNamedRoles (perms : List SitePermission) (appId : Text) : List Text :=
  (perms.filter (fun p => p.grantedToIdentities.any (fun s =>
    namesApp appId (s.application.bind (·.id))))).flatMap (·.roles)

section Chain

variable (reads : SiteReads) (resolved : ResolvedSharePointResource) (appId : Text)

def findSiteEntry : Except UiError (Option EntryHit) :=
  match reads.sitePermissions resolved.siteId with
  | .error err => .error err
  | .ok perms =>
    let roles := Text.dedup (Text.sort (siteNamedRoles perms appId))
    if roles.isEmpty then .ok none
    else .ok (some ⟨.site, (resolved.siteName.or resolved.siteUrl).getD resolved.siteId, roles⟩)

def findListEntry : Except UiError (Option EntryHit) :=
  match resolved.listId with
  | none => findSiteEntry reads resolved appId
  | some listId =>
    match reads.listPermissions resolved.siteId listId with
    | .error err => .error err
    | .ok perms =>
      match rolesForApp perms appId with
      | some roles => .ok (some ⟨.list, resolved.listName.getD "the list".toList, roles⟩)
      | none => findSiteEntry reads resolved appId

/-- From the item up to the site collection; the nearest entry wins. -/
def findEntryInChain : Except UiError (Option EntryHit) :=
  match resolved.listId, resolved.itemId with
  | some listId, some itemId =>
    match reads.itemPermissions resolved.siteId listId itemId with
    | .error err => .error err
    | .ok perms =>
      match rolesForApp perms appId with
      | some roles => .ok (some ⟨resolved.level, resolved.displayPath, roles⟩)
      | none => findListEntry reads resolved appId
  | _, _ => findListEntry reads resolved appId

end Chain

/-! ## The verdict -/

def levelNoun : SelectedScopeLevel → Text
  | .site => "a site collection".toList
  | .list => "a list or document library".toList
  | .listItem => "a list item or folder".toList
  | .file => "a file".toList

def requiredScopeFor : SelectedScopeLevel → Text
  | .site => spSitesSelected
  | .list => spListsSelected
  | .listItem => spListItemsSelected
  | .file => spFilesSelected

/-- Where the entry is, if it is not on the target. -/
def viaAncestor (hit : EntryHit) (label : Text) : Text :=
  if hit.whereLabel ≠ label then " (inherited from ".toList ++ quoted hit.whereLabel ++ ")".toList else []

def siteVerdict (held : Option HeldSharePointGrants) (hit : Option EntryHit) (label : Text) :
    PermissionTestResult :=
  if held.any (fun h => !h.orgwide.isEmpty) then
    { hasAccess := true
      verdict := .orgWide
      roles := (held.map (·.orgwide)).getD []
      detail := some ("The app holds an organization-wide SharePoint permission and can access ".toList ++
        quoted label ++ " (and every other site, library and file in the tenant).".toList)
      resourceLabel := label }
  else
    match hit, held with
    | none, none =>
      { hasAccess := false
        verdict := .unknown
        roles := []
        detail := some ("No permission entry names this app on ".toList ++ quoted label ++
          " or anything above it, but its app-role assignments couldn't be read, so whether it holds an ".toList ++
          "organization-wide SharePoint grant is unknown.".toList)
        resourceLabel := label }
    | none, some _ =>
      { hasAccess := false
        verdict := .noAccess
        roles := []
        detail := some ("No permission entry names this app on ".toList ++ quoted label ++
          " or anything above it, and it holds no organization-wide SharePoint grant.".toList)
        resourceLabel := label }
    | some hit, none =>
      { hasAccess := false
        verdict := .unknown
        roles := hit.roles
        detail := some (quoted label ++ " grants this app access".toList ++ viaAncestor hit label ++
          ", but its app-role assignments couldn't be read, so whether it holds the matching Selected scope ".toList ++
          "is unknown.".toList)
        resourceLabel := label }
    | some hit, some held =>
      match held.scopeForLevel hit.level with
      | some scope =>
        { hasAccess := true
          verdict := .scoped
          roles := hit.roles
          detail := some ("The app is granted access to ".toList ++ quoted label ++ " specifically".toList ++
            viaAncestor hit label ++ ", and holds ".toList ++ scope ++
            " — the Selected model's grant and scope halves are both in place.".toList)
          resourceLabel := label }
      | none =>
        { hasAccess := false
          verdict := .noAccess
          roles := hit.roles
          detail := some (quoted label ++ " grants this app access".toList ++ viaAncestor hit label ++
            ", but the app doesn't hold a Selected permission reaching ".toList ++ levelNoun hit.level ++
            ". A permission entry alone grants nothing until the matching scope is in the app's token — grant ".toList ++
            requiredScopeFor hit.level ++ " as well.".toList)
          resourceLabel := label }

/-- What follows the read of the grants. -/
def testResolved (reads : SiteReads) (appId : Text) (held : Option HeldSharePointGrants) :
    Except UiError PermissionTestResult :=
  match reads.resolved with
  | .error err => .error err
  | .ok resolved =>
    -- an org-wide grant needs no entry, so the walk is skipped
    if held.any (fun h => !h.orgwide.isEmpty) then .ok (siteVerdict held none resolved.displayPath)
    else
      match findEntryInChain reads resolved appId with
      | .error err => .error err
      | .ok hit => .ok (siteVerdict held hit resolved.displayPath)

def testSiteAccess (reads : SiteReads) (appId : Text) : Except UiError PermissionTestResult :=
  match requireAppId appId, reads.client with
  | .error err, _ => .error err
  | .ok (), .error err => .error err
  | .ok (), .ok () =>
    match sharepointGrantsHeld reads.roles with
    | .ok held => testResolved reads appId (some held)
    | .error err => if err.isReauthFatal then .error err else testResolved reads appId none

end Tester
