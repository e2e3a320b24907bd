import AzAppToolkit.Audit.Reach
import AzAppToolkit.Exchange.Targets
import AzAppToolkit.Sweeps.Sites

set_option autoImplicit false

/-! # The conversion to `Sites.Selected`

`convert_site_access_core` of `commands/sharepoint.rs` and what it calls: the scope is declared and
assigned, the sites are granted one by one, the org-wide `Sites.*` of Microsoft Graph are stripped, and
what is still org-wide afterwards is reported.

Modelling choices:
* a client method is one call, with its retries inside; the call that deletes an assignment carries the
  assignment whose id it sends;
* a warning is its data; its line for the operator is left out;
* a role index is a table, and the reverse scan for a value takes the first row of it, where the source
  takes any. -/

namespace Sharepoint

open Prog Exchange Audit
open Sweeps (Site SitePermission)

/-! ## Data -/

structure AppRole where
  id : Text
  value : Text
deriving DecidableEq

structure ServicePrincipal where
  id : Text
  appId : Text
  appRoles : List AppRole

structure ResourceAccess where
  id : Text
  type : Text

structure RequiredResourceAccess where
  resourceAppId : Text
  resourceAccess : List ResourceAccess

structure Application where
  id : Text
  appId : Text
  requiredResourceAccess : List RequiredResourceAccess

inductive UiError where
  | validation (code message : Text)
  | notFound (resource message : Text)
  | graph (err : Graph.GraphError)
  /-- `grant_role_err`. -/
  | grantRole (value : Text) (err : Graph.GraphError)

/-- A line of the run's `warnings`. -/
inductive Warning where
  | siteNotResolved (url : Text) (err : Graph.GraphError)
  | siteNotGranted (url : Text) (err : Graph.GraphError)
  | grantNotRemoved (value : Text) (err : Graph.GraphError)
  | noSiteGranted
  | notEffective (held : List (Text × Text)) (removeOrgwide : Bool)
  | onlineUnreadable (err : UiError)

/-- The principal a Selected grant is for. -/
structure GraphRolePrincipal where
  objectId : Option Text
  spObjectId : Text
  appId : Text

structure SiteConversion where
  appDisplayName : Text
  siteUrls : List Text
  role : Text
  removeOrgwide : Bool

structure GraphRoleGrant where
  declaredPermission : Bool
  grantedRoleAdded : Bool

structure SiteGrant where
  siteId : Text
  siteDisplayName : Option Text
  permission : SitePermission

structure SiteScopeResult where
  grantedRoleAdded : Bool
  declaredPermission : Bool
  sitesGranted : List SiteGrant
  removedOrgwideGrants : List Text
  warnings : List Warning

/-! ## Calls -/

inductive Call where
  | resolveResourceSp (appId : Text)
  | listAppRoleAssignments (spId : Text)
  | getServicePrincipalByObjectId (id : Text)
  | getApplication (objectId : Text)
  | updateApplication (objectId : Text) (required : List RequiredResourceAccess)
  | grantAppRole (spId resourceId roleId : Text)
  | getSiteByUrl (url : Text)
  | grantSitePermission (siteId appId appDisplayName : Text) (roles : List Text)
  | removeAppRoleAssignment (spId : Text) (a : AppRoleAssignment)
  | invalidateAppDetailState
  | invalidateSiteSweep

abbrev Answer : Call → Type
  | .resolveResourceSp _ => Except Graph.GraphError (Option ServicePrincipal)
  | .listAppRoleAssignments _ => Except Graph.GraphError (List AppRoleAssignment)
  | .getServicePrincipalByObjectId _ => Except Graph.GraphError (Option ServicePrincipal)
  | .getApplication _ => Except Graph.GraphError Application
  | .updateApplication _ _ => Except Graph.GraphError Unit
  | .grantAppRole _ _ _ => Except Graph.GraphError Unit
  | .getSiteByUrl _ => Except Graph.GraphError Site
  | .grantSitePermission _ _ _ _ => Except Graph.GraphError SitePermission
  | .removeAppRoleAssignment _ _ => Except Graph.GraphError Unit
  | .invalidateAppDetailState => Unit
  | .invalidateSiteSweep => Unit

abbrev Async (α : Type) := Prog Answer α

abbrev AsyncResult (α : Type) := ExceptT UiError (Prog Answer) α

abbrev Trace := List (Prog.Exchanged Answer)

/-- Make a call. -/
def call (c : Call) : Async (Answer c) := Prog.call c

/-- `?` on a client's result. -/
def orUiError {α : Type} (toUi : Graph.GraphError → UiError) (p : Async (Except Graph.GraphError α)) :
    AsyncResult α :=
  ExceptT.mk (p >>= fun r => pure (r.mapError toUi))

/-! ## Role indexes -/

/-- `app_roles.iter().map(..).collect()`. -/
def roleIndex (roles : List AppRole) : Table Text Text :=
  roles.foldl (fun index r => index.insert r.id r.value) ∅

def graphResourceRoles : AsyncResult ResourceRoles := do
  match ← orUiError .graph (call (.resolveResourceSp microsoftGraphAppId)) with
  | some sp => pure ⟨microsoftGraphAppId, sp.id, roleIndex sp.appRoles⟩
  | none => throw (.notFound "resource".toList
      "Microsoft Graph service principal not found in tenant".toList)

def resourceRoles (appId : Text) : AsyncResult (Option ResourceRoles) := do
  let sp ← orUiError .graph (call (.resolveResourceSp appId))
  pure (sp.map (fun sp => ⟨appId, sp.id, roleIndex sp.appRoles⟩))

def graphRoleId (roleValueById : Table Text Text) (value : Text) : Except UiError Text :=
  match roleValueById.entries.find? (fun r => r.2 == value) with
  | some r => .ok r.1
  | none => .error (.notFound "role".toList
      (value ++ " application role not found on Microsoft Graph".toList))

/-! ## Declare and assign -/

def requireSameApp (found appId what : Text) : Except UiError Unit :=
  if Text.eqIgnoreAsciiCase found appId then .ok ()
  else .error (.validation "principal_mismatch".toList ("the ".toList ++ what ++
    " does not belong to the app being granted; nothing was declared, assigned or granted".toList))

def appendAccess (resourceAppId : Text) (access : ResourceAccess) :
    List RequiredResourceAccess → List RequiredResourceAccess
  | [] => [⟨resourceAppId, [access]⟩]
  | r :: rest =>
    if r.resourceAppId == resourceAppId then
      { r with resourceAccess := r.resourceAccess ++ [access] } :: rest
    else r :: appendAccess resourceAppId access rest

/-- The list with the access declared, when it was not. -/
def declareResourceAccess (required : List RequiredResourceAccess)
    (resourceAppId permissionId entryType : Text) : Option (List RequiredResourceAccess) :=
  let already := (required.find? (fun r => r.resourceAppId == resourceAppId)).any
    (fun r => r.resourceAccess.any (fun a => a.id == permissionId && a.type == entryType))
  if already then none
  else some (appendAccess resourceAppId ⟨permissionId, entryType⟩ required)

def declareGraphRole (principal : GraphRolePrincipal) (roleId : Text) : AsyncResult Bool :=
  match principal.objectId with
  | none => pure false
  | some objectId => do
      let app ← orUiError .graph (call (.getApplication objectId))
      ExceptT.mk (pure (requireSameApp app.appId principal.appId "app registration".toList))
      match declareResourceAccess app.requiredResourceAccess microsoftGraphAppId roleId
          "Role".toList with
      | none => pure false
      | some required => do
          orUiError .graph (call (.updateApplication objectId required))
          liftM (call .invalidateAppDetailState)
          pure true

def declareAndGrantGraphRole (principal : GraphRolePrincipal) (graphSpId : Text)
    (roleValueById : Table Text Text) (existing : List AppRoleAssignment) (value : Text) :
    AsyncResult GraphRoleGrant := do
  let roleId ← ExceptT.mk (pure (graphRoleId roleValueById value))
  match ← orUiError .graph (call (.getServicePrincipalByObjectId principal.spObjectId)) with
  | none => throw (.notFound "service_principal".toList "Service principal not found.".toList)
  | some sp => do
      ExceptT.mk (pure (requireSameApp sp.appId principal.appId "service principal".toList))
      let declared ← declareGraphRole principal roleId
      if existing.any (fun a => a.resourceId == graphSpId && a.appRoleId == roleId) then
        pure ⟨declared, false⟩
      else do
        orUiError (.grantRole value) (call (.grantAppRole principal.spObjectId graphSpId roleId))
        pure ⟨declared, true⟩

/-! ## Sites -/

def trimEndMatches (c : Char) (s : Text) : Text := (s.reverse.dropWhile (· == c)).reverse

def targetKey (url : Text) : Text := toAsciiLowercase (trimEndMatches '/' (Text.trim url))

def dedupeFrom (seen : List Text) : List Text → List Text
  | [] => []
  | url :: rest =>
    if seen.contains (targetKey url) then dedupeFrom seen rest
    else url :: dedupeFrom (seen ++ [targetKey url]) rest

def dedupeTargets (urls : List Text) : List Text := dedupeFrom [] urls

/-- What the loop over the sites has so far. -/
structure SiteLoop where
  sitesGranted : List SiteGrant
  warnings : List Warning

def grantSite (principal : GraphRolePrincipal) (conversion : SiteConversion) (st : SiteLoop)
    (url : Text) : Async SiteLoop := do
  match ← call (.getSiteByUrl url) with
  | .error err => pure { st with warnings := st.warnings ++ [.siteNotResolved url err] }
  | .ok site =>
    if st.sitesGranted.any (fun g => g.siteId == site.id) then pure st
    else do
      match ← call (.grantSitePermission site.id principal.appId conversion.appDisplayName
          [conversion.role]) with
      | .ok perm => pure { st with
          sitesGranted := st.sitesGranted ++ [⟨site.id, site.displayName, perm⟩] }
      | .error err => pure { st with warnings := st.warnings ++ [.siteNotGranted url err] }

/-! ## The strip -/

def shouldRemoveOrgwide (removeOrgwide anySiteGranted : Bool) : Bool := removeOrgwide && anySiteGranted

def orgwideSitesValue (graphSpId : Text) (roleValueById : Table Text Text) (a : AppRoleAssignment) :
    Option Text :=
  if a.resourceId ≠ graphSpId then none
  else (roleValueById.lookup a.appRoleId).filter isSharepointOrgwide

/-- What the strip has so far. -/
structure Strip where
  removed : List Text
  warnings : List Warning

def stripAppRoleGrants (spId : Text) (assignments : List AppRoleAssignment)
    (select : AppRoleAssignment → Option Text) (warnings : List Warning) : Async Strip :=
  assignments.foldlM (fun st a =>
    match select a with
    | none => pure st
    | some value => do
        match ← call (.removeAppRoleAssignment spId a) with
        | .ok () => pure { st with removed := st.removed ++ [value] }
        | .error err => pure { st with warnings := st.warnings ++ [.grantNotRemoved value err] })
    ⟨[], warnings⟩

/-! ## What is still org-wide -/

def isOrgwide (resource value : Text) : Bool :=
  isSharepointOrgwidePermission (some resource) value || isFilesOrgwidePermission (some resource) value

def residualOrgwideReach (resources : List ResourceRoles) (existing : List AppRoleAssignment)
    (removedFromGraph : List Text) : List (Text × Text) :=
  existing.foldl (fun held a =>
    match resolveGrant resources a.resourceId a.appRoleId with
    | none => held
    | some (resource, _, value) =>
      let removed := resource == microsoftGraphAppId && removedFromGraph.contains value
      if isOrgwide resource value && !removed && !held.contains (resource, value) then
        held ++ [(resource, value)]
      else held) []

def orgwideReachWarning (held : List (Text × Text)) (removeOrgwide : Bool) : Option Warning :=
  if held.isEmpty then none else some (.notEffective held removeOrgwide)

def holdsUnidentifiedGrant (resources : List ResourceRoles) (existing : List AppRoleAssignment) : Bool :=
  existing.any (fun a => !resources.any (fun r => r.spObjectId == a.resourceId))

/-! ## The conversion -/

/-- Microsoft Graph, and Office 365 SharePoint Online where the tenant has it and it was read. -/
def resourcesRead (graph : ResourceRoles) (online : Except UiError (Option ResourceRoles)) :
    List ResourceRoles :=
  graph :: (match online with
    | .ok roles => roles.toList
    | .error _ => [])

def onlineWarning (graph : ResourceRoles) (online : Except UiError (Option ResourceRoles))
    (existing : List AppRoleAssignment) : Option Warning :=
  match online with
  | .ok _ => none
  | .error err =>
    if holdsUnidentifiedGrant (resourcesRead graph online) existing then some (.onlineUnreadable err)
    else none

/-- The report on what is left, behind the warnings so far. -/
def reportReach (graph : ResourceRoles) (online : Except UiError (Option ResourceRoles))
    (existing : List AppRoleAssignment) (removeOrgwide : Bool) (strip : Strip) : List Warning :=
  let held := residualOrgwideReach (resourcesRead graph online) existing strip.removed
  strip.warnings ++ (orgwideReachWarning held removeOrgwide).toList ++
    (onlineWarning graph online existing).toList

/-- Steps 2 to 4: the sites, the strip and the report. -/
def grantAndStrip (principal : GraphRolePrincipal) (conversion : SiteConversion) (graph : ResourceRoles)
    (online : Except UiError (Option ResourceRoles)) (existing : List AppRoleAssignment)
    (granted : GraphRoleGrant) : AsyncResult SiteScopeResult := do
  let sites ← liftM ((dedupeTargets conversion.siteUrls).foldlM (grantSite principal conversion) ⟨[], []⟩)
  let strip ← liftM (
    if shouldRemoveOrgwide conversion.removeOrgwide (!sites.sitesGranted.isEmpty) then
      stripAppRoleGrants principal.spObjectId existing
        (orgwideSitesValue graph.spObjectId graph.roleValueById) sites.warnings
    else if conversion.removeOrgwide then pure ⟨[], sites.warnings ++ [.noSiteGranted]⟩
    else pure ⟨[], sites.warnings⟩)
  liftM (call .invalidateAppDetailState)
  if !sites.sitesGranted.isEmpty then liftM (call .invalidateSiteSweep)
  pure {
    grantedRoleAdded := granted.grantedRoleAdded
    declaredPermission := granted.declaredPermission
    sitesGranted := sites.sitesGranted
    removedOrgwideGrants := strip.removed
    warnings := reportReach graph online existing conversion.removeOrgwide strip }

def convertSiteAccessCore (principal : GraphRolePrincipal) (conversion : SiteConversion) :
    AsyncResult SiteScopeResult := do
  let graph ← graphResourceRoles
  let online ← liftM (resourceRoles office365SharePointOnlineAppId).run
  let existing ← orUiError .graph (call (.listAppRoleAssignments principal.spObjectId))
  let granted ← declareAndGrantGraphRole principal graph.spObjectId graph.roleValueById existing
    spSitesSelected
  grantAndStrip principal conversion graph online existing granted

end Sharepoint
