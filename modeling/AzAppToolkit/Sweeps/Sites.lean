import AzAppToolkit.Bulk.FanOut
import AzAppToolkit.Graph.Batch

set_option autoImplicit false

/-! # The site-permission sweep

`sweep_site_permissions` of `commands/sharepoint.rs`: every enumerated site is read in chunks, one
`$batch` POST to a chunk, and the application permissions found are the rows of the reverse lookup.

Modelling choices: a task's program runs on its own, and what it saw of the flags is left for the others
to see; `batch_list_site_permissions` answers one result for each id; the watch on the cache key is the
guard of the store and is left out, so that `store` is the attempt. -/

namespace Sweeps

open Prog Bulk Graph

/-! ## Data -/

structure Site where
  id : Text
  displayName : Option Text
  webUrl : Option Text
deriving DecidableEq

structure SiteIdentity where
  id : Option Text
  displayName : Option Text

/-- Who a permission grants to; the identities that are no applications are left out. -/
structure SiteIdentitySet where
  application : Option SiteIdentity

structure SitePermission where
  id : Text
  roles : List Text
  grantedToIdentities : List SiteIdentitySet

structure SiteAppGrantRow where
  siteId : Text
  siteDisplayName : Option Text
  siteUrl : Option Text
  permissionId : Text
  roles : List Text
  appId : Option Text
  appDisplayName : Option Text

structure SiteSweepResult where
  totalSites : Nat
  sitesScanned : Nat
  sitesFailed : Nat
  rows : List SiteAppGrantRow
  cancelled : Bool
  truncated : Bool

structure SiteSweepProgress where
  done : Nat
  total : Nat
  currentSite : Option Text
  cancelled : Bool

abbrev SiteRead := Except GraphError (List SitePermission)

def sweepBatch : Nat := 20

def maxSitesPerSweep : Nat := 5000

/-! ## One task -/

inductive ChunkCall where
  | batchListSitePermissions (ids : List Text)
  | listSitePermissions (id : Text)
  | isCancelled
  | isDead
  | noteCode (code : Text)

abbrev ChunkAnswer : ChunkCall → Type
  | .batchListSitePermissions _ => Except GraphError (List SiteRead)
  | .listSitePermissions _ => SiteRead
  | .isCancelled => Bool
  | .isDead => Bool
  | .noteCode _ => Unit

abbrev ChunkSteps (α : Type) := Prog ChunkAnswer α

def batchListSitePermissions (ids : List Text) : ChunkSteps (Except GraphError (List SiteRead)) :=
  call (ChunkCall.batchListSitePermissions ids)

def listSitePermissions (id : Text) : ChunkSteps SiteRead := call (ChunkCall.listSitePermissions id)

/-- `cancel.is_cancelled() || session.is_dead()`. -/
def chunkStopped : ChunkSteps Bool := do
  let cancelled : Bool ← call ChunkCall.isCancelled
  if cancelled then .done true
  else call ChunkCall.isDead

def noteFailure : SiteRead → ChunkSteps Unit
  | .ok _ => .done ()
  | .error err => call (ChunkCall.noteCode err.uiCode)

/-- The per-site loop of a chunk whose POST failed. -/
def readSites : List Site → List SiteRead → ChunkSteps (List SiteRead)
  | [], out => .done out
  | site :: sites, out => do
      let stopped ← chunkStopped
      if stopped then .done out
      else do
        let result ← listSitePermissions site.id
        noteFailure result
        readSites sites (out ++ [result])

def readSiteChunk (sites : List Site) : ChunkSteps (List SiteRead) := do
  match ← batchListSitePermissions (sites.map (·.id)) with
  | .ok results => .done results
  | .error err => do
      call (ChunkCall.noteCode err.uiCode)
      readSites sites []

/-! ## The sweep -/

/-- The application a row is made for. -/
def SitePermission.application (p : SitePermission) : Option SiteIdentity :=
  p.grantedToIdentities.findSome? (·.application)

/-- The row of a permission, if it names an application. -/
def rowOf (site : Site) (p : SitePermission) : Option SiteAppGrantRow :=
  p.application.map (fun app =>
    ⟨site.id, site.displayName, site.webUrl, p.id, p.roles, app.id, app.displayName⟩)

/-- What the collector has counted so far. -/
structure SiteTally where
  rows : List SiteAppGrantRow
  sitesScanned : Nat
  sitesFailed : Nat
  done : Nat

def foldSiteResult (t : SiteTally) (site : Site) : SiteRead → SiteTally
  | .ok perms => { t with
      rows := t.rows ++ perms.filterMap (rowOf site)
      sitesScanned := t.sitesScanned + 1 }
  | .error _ => { t with sitesFailed := t.sitesFailed + 1 }

/-- What a task hands back: its chunk, and as many results as it came to. -/
abbrev ChunkResult := List Site × List SiteRead

/-- A joined task; one that was lost brings no chunk. -/
def foldChunk (t : SiteTally) : Option ChunkResult → SiteTally
  | none => t
  | some (chunk, results) =>
    let t' := (chunk.zip results).foldl (fun t pair => foldSiteResult t pair.1 pair.2) t
    { t' with done := t'.done + chunk.length }

inductive SiteCall where
  | sharepointClientChecked
  | listAllSites (max : Nat)
  | emit (progress : SiteSweepProgress)
  | store (result : SiteSweepResult)

abbrev SiteAnswer : SiteCall → Type
  | .sharepointClientChecked => Except Text Unit
  | .listAllSites _ => Except GraphError (List Site × Bool)
  | .emit _ => Unit
  | .store _ => Unit

abbrev SweepSteps (α : Type) := Prog (FanAnswer (List Site) ChunkResult SiteAnswer) α

def errorCodes (results : List SiteRead) : List Text :=
  results.filterMap (fun r => match r with
    | .ok _ => none
    | .error err => some err.uiCode)

/-- The collector: note the failures, fold the sites, tell the view. -/
def collectChunk (total : Nat) (t : SiteTally) : Option ChunkResult → SweepSteps SiteTally
  | none => .done (foldChunk t none)
  | some (chunk, results) => do
      noteCodes (errorCodes results)
      let t' := foldChunk t (some (chunk, results))
      let cancelled ← fanCancelled
      fanOther (SiteCall.emit ⟨t'.done, total,
        chunk.getLast?.bind (fun s => s.displayName.or s.webUrl), cancelled⟩)
      .done t'

/-- `sites_lost`. -/
def sitesLost (total joined : Nat) (cancelled : Bool) : Nat := if cancelled then 0 else total - joined

def sweepIsCacheable (cancelled : Bool) (sitesFailed : Nat) : Bool := !cancelled && sitesFailed == 0

/-- `a.site_display_name.cmp(&b.site_display_name).then_with(..)`. -/
def rowLe (a b : SiteAppGrantRow) : Bool :=
  match compare a.siteDisplayName b.siteDisplayName with
  | .lt => true
  | .gt => false
  | .eq => compare a.appDisplayName b.appDisplayName != .gt

inductive SweepError where
  | client (message : Text)
  | graph (err : GraphError)
  /-- `session.err(..)`. -/
  | sessionEnded

def siteFanOut (total : Nat) : FanOut (FanAnswer (List Site) ChunkResult SiteAnswer) (List Site)
    ChunkResult SiteTally := sweepFanOut fanLimit (collectChunk total)

/-- `stopped_early || cancel.is_cancelled()`. -/
def sweepCancelled (stoppedEarly : Bool) : SweepSteps Bool :=
  if stoppedEarly then .done true else fanCancelled

/-- The sweep, once the sites are known. -/
def sweepSites (sites : List Site) (truncated : Bool) : SweepSteps (Except SweepError SiteSweepResult) := do
  let total := sites.length
  fanOther (SiteCall.emit ⟨0, total, none, false⟩)
  let dispatch ← (siteFanOut total).dispatchCapped (chunks sweepBatch sites) ⟨[], 0, 0, 0⟩
  let dead ← fanDead
  if dead then .done (.error .sessionEnded)
  else do
    let cancelled ← sweepCancelled dispatch.1
    let t := dispatch.2
    let sitesFailed := t.sitesFailed + sitesLost total t.done cancelled
    let result : SiteSweepResult := ⟨total, t.sitesScanned, sitesFailed, t.rows.mergeSort rowLe,
      cancelled, truncated⟩
    if sweepIsCacheable cancelled sitesFailed then do
      fanOther (SiteCall.store result)
      .done (.ok result)
    else .done (.ok result)

def sharepointClientChecked : SweepSteps (Except Text Unit) := fanOther SiteCall.sharepointClientChecked

def listAllSites (max : Nat) : SweepSteps (Except GraphError (List Site × Bool)) :=
  fanOther (SiteCall.listAllSites max)

def sweepSitePermissions : SweepSteps (Except SweepError SiteSweepResult) := do
  match ← sharepointClientChecked with
  | .error message => .done (.error (.client message))
  | .ok () => do
      match ← listAllSites maxSitesPerSweep with
      | .error err => .done (.error (.graph err))
      | .ok (sites, truncated) => sweepSites sites truncated

end Sweeps
