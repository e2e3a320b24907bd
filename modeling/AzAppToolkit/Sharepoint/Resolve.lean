import AzAppToolkit.Lib.Ranking
import AzAppToolkit.Lib.Slices
import AzAppToolkit.Sharepoint.Address
import AzAppToolkit.Tester.Site

set_option autoImplicit false

/-! # Resolving a pasted URL

`resolve_sharepoint_resource` of `client/sharepoint.rs`: the site collection of the URL is read, and in it,
or in a subsite below it, the library, list or item the URL names.

Modelling choices:
* a read is one call, with its retries and its pages inside, and takes what the request path is built
  from;
* the descent has no bound of its own where the server answers with one site again and again, so it has
  fuel. -/

namespace Resolver

open Prog
open Graph (GraphError)
open Sweeps (Site)
open Tester (SelectedScopeLevel)

/-! ## Data -/

structure Drive where
  id : Text
  name : Option Text
  webUrl : Option Text
deriving DecidableEq

structure SiteList where
  id : Text
  name : Option Text
  displayName : Option Text
  webUrl : Option Text

def SiteList.label (l : SiteList) : Option Text := l.displayName.or l.name

structure SharePointIds where
  listId : Option Text
  listItemId : Option Text

/-- What is read of an item; `folder` is whether the facet is there. -/
structure DriveItem where
  id : Text
  folder : Bool
  sharepointIds : Option SharePointIds

structure ResolvedSharePointResource where
  level : SelectedScopeLevel
  siteId : Text
  siteUrl : Option Text
  siteName : Option Text
  listId : Option Text
  listName : Option Text
  itemId : Option Text
  driveId : Option Text
  isFolder : Bool
  displayPath : Text

/-! ## Reads -/

inductive SiteCall where
  /-- The SharePoint token of the session. -/
  | token
  | getSite (path : Text)
  | listDrives (siteId : Text)
  | listLists (siteId : Text)
  | driveList (driveId : Text)
  | driveItem (driveId relPath : Text)

abbrev SiteAnswer : SiteCall → Type
  | .token => Except GraphError Unit
  | .getSite _ => Except GraphError Site
  | .listDrives _ => Except GraphError (List Drive)
  | .listLists _ => Except GraphError (List SiteList)
  | .driveList _ => Except GraphError SiteList
  | .driveItem _ _ => Except GraphError DriveItem

abbrev SiteSteps (α : Type) := ExceptT GraphError (Prog SiteAnswer) α

abbrev SiteHistory := List (Exchanged SiteAnswer)

def isVowel (c : Char) : Bool := c == 'a' || c == 'e' || c == 'i' || c == 'o' || c == 'u'

/-- An id that stands as one segment of a request path. -/
def isPathSegment (value : Text) : Bool :=
  !value.isEmpty && value != ['.'] && value != ['.', '.'] &&
    !(value.any (fun c => "/\\?#%:".toList.contains c)) &&
    !(value.any (fun c => Text.isControl c || isWhitespace c))

def requirePathSegment (what value : Text) : Except GraphError Unit :=
  if isPathSegment value then .ok ()
  else
    let article := if what.head?.any isVowel then "an".toList else "a".toList
    .error (.protocol ("refusing ".toList ++ article ++ ' ' :: what ++
      " that is not a single path segment".toList))

def siteIdName : Text := "site id".toList

def driveIdName : Text := "drive id".toList

def ofExcept {α : Type} (r : Except GraphError α) : SiteSteps α := ExceptT.mk (.done r)

def sharepointToken : SiteSteps Unit := ExceptT.mk (call SiteCall.token)

def getSiteByUrl (parse : Parser) (siteUrl : Text) : SiteSteps Site := do
  sharepointToken
  let path ← ofExcept (siteLookupPath parse siteUrl)
  let site ← ExceptT.mk (call (SiteCall.getSite path))
  ofExcept (requirePathSegment siteIdName site.id)
  return site

/-- A read under an id. -/
def readUnder {α : Type} (what id : Text) (read : SiteSteps α) : SiteSteps α := do
  ofExcept (requirePathSegment what id)
  sharepointToken
  read

def listSiteDrives (siteId : Text) : SiteSteps (List Drive) :=
  readUnder siteIdName siteId (ExceptT.mk (call (SiteCall.listDrives siteId)))

def listSiteLists (siteId : Text) : SiteSteps (List SiteList) :=
  readUnder siteIdName siteId (ExceptT.mk (call (SiteCall.listLists siteId)))

def getDriveList (driveId : Text) : SiteSteps SiteList :=
  readUnder driveIdName driveId (ExceptT.mk (call (SiteCall.driveList driveId)))

def getDriveItemByPath (driveId relPath : Text) : SiteSteps DriveItem :=
  readUnder driveIdName driveId (ExceptT.mk (call (SiteCall.driveItem driveId relPath)))

/-! ## Resolution -/

def joinPath (parts : List Text) : Text := Text.join " / ".toList (parts.filter (fun p => !p.isEmpty))

def nameOr (name : Option Text) (fallback : Text) : Text := name.getD fallback

def protocolError {α : Type} (message : Text) : Except GraphError α := .error (.protocol message)

/-- The drives or lists the target is in, with the length of their address and what is left of the target. -/
def matching {α : Type} (parse : Parser) (webUrl : α → Option Text) (targetUrl : Text) (found : List α) :
    List (α × Nat × Text) :=
  found.filterMap (fun d => (webUrl d).bind (fun web =>
    (siteRelativePath parse web targetUrl).map (fun inner => (d, Slices.byteLength web, inner))))

def resolveSiteList (parse : Parser) (base : ResolvedSharePointResource) (targetUrl : Text) :
    SiteSteps (Option ResolvedSharePointResource) := do
  let lists ← listSiteLists base.siteId
  let hit := Ranking.maxByKey (fun m => m.2.1)
    ((matching parse SiteList.webUrl targetUrl lists).filter (fun m => m.2.2.isEmpty))
  match hit with
  | none => return none
  | some (list, _) =>
    return some { base with
      level := .list
      displayPath := joinPath [base.displayPath, nameOr list.label "list".toList]
      listId := some list.id
      listName := list.label }

def siteBase (site : Site) (siteUrl : Text) : ResolvedSharePointResource where
  level := .site
  siteId := site.id
  siteUrl := some siteUrl
  siteName := site.displayName
  listId := none
  listName := none
  itemId := none
  driveId := none
  isFolder := false
  displayPath := site.displayName.getD siteUrl

def noIds (targetUrl : Text) : Text :=
  "SharePoint returned no list/item ids for ".toList ++ targetUrl ++
    "; the grant endpoint cannot be addressed".toList

/-- The library itself, or the item in it. -/
def resolveInDrive (base : ResolvedSharePointResource) (drive : Drive) (inner targetUrl : Text) :
    SiteSteps ResolvedSharePointResource := do
  if inner.isEmpty then
    let list ← getDriveList drive.id
    return { base with
      level := .list
      displayPath := joinPath [base.displayPath, nameOr list.label "list".toList]
      listId := some list.id
      listName := list.label
      driveId := some drive.id }
  else
    let item ← getDriveItemByPath drive.id inner
    match item.sharepointIds.bind (·.listId), item.sharepointIds.bind (·.listItemId) with
    | some listId, some itemId =>
      return { base with
        level := .file
        displayPath := joinPath [base.displayPath, nameOr drive.name "library".toList,
          inner.flatMap (fun c => if c = '/' then " / ".toList else [c])]
        listId := some listId
        listName := drive.name
        itemId := some itemId
        driveId := some drive.id
        isFolder := item.folder }
    | _, _ => ofExcept (protocolError (noIds targetUrl))

/-- One level of the walk: nothing, where the site holds nothing that matches. -/
def resolveWithin (parse : Parser) (site : Site) (targetUrl : Text) :
    SiteSteps (Option ResolvedSharePointResource) :=
  match site.webUrl with
  | none => ofExcept (protocolError "SharePoint returned a site with no webUrl".toList)
  | some siteUrl =>
    let base := siteBase site siteUrl
    match siteRelativePath parse siteUrl targetUrl with
    | none => return none
    | some rel =>
      if rel.isEmpty then return some base
      else do
        let drives ← listSiteDrives site.id
        match Ranking.maxByKey (fun m => m.2.1) (matching parse Drive.webUrl targetUrl drives) with
        | none => resolveSiteList parse base targetUrl
        | some (drive, _, inner) => some <$> resolveInDrive base drive inner targetUrl

/-- The address of the site, one segment of the target longer. -/
def descendOneSegment (parse : Parser) (site : Site) (targetUrl : Text) : Option Text :=
  site.webUrl.bind fun siteUrl =>
    (siteRelativePath parse siteUrl targetUrl).bind fun rel =>
      ((Text.splitOn (· == '/') rel).find? (fun s => !s.isEmpty)).map fun next =>
        (siteUrl.reverse.dropWhile (· == '/')).reverse ++ '/' :: next

def notResolved (targetUrl : Text) : GraphError :=
  .protocol (targetUrl ++ " did not resolve to a list, library or item in this site".toList)

/-- One round of the descent. -/
def descend (parse : Parser) (targetUrl : Text) (site : Site) :
    Prog SiteAnswer (Site ⊕ Except GraphError ResolvedSharePointResource) := do
  match ← (resolveWithin parse site targetUrl).run with
  | .error e => return .inr (.error e)
  | .ok (some resolved) => return .inr (.ok resolved)
  | .ok none =>
    match descendOneSegment parse site targetUrl with
    | none => return .inr (.error (notResolved targetUrl))
    | some nextUrl =>
      match ← (getSiteByUrl parse nextUrl).run with
      | .ok next => return .inl next
      -- a 404 says that the path names no subsite; anything else is about the caller or the service
      | .error (.notFound _) => return .inr (.error (notResolved targetUrl))
      | .error e => return .inr (.error e)

def resolveWithinOrDescend (parse : Parser) (fuel : Nat) (site : Site) (targetUrl : Text) :
    Prog SiteAnswer (Option (Except GraphError ResolvedSharePointResource)) :=
  Prog.loop (descend parse targetUrl) fuel site

/-- Nothing, while the walk has not ended. -/
def resolveSharepointResource (parse : Parser) (fuel : Nat) (targetUrl : Text) :
    Prog SiteAnswer (Option (Except GraphError ResolvedSharePointResource)) := do
  match ← (getSiteByUrl parse (siteCollectionUrl parse targetUrl)).run with
  | .error e => return some (.error e)
  | .ok site => resolveWithinOrDescend parse fuel site targetUrl

end Resolver
