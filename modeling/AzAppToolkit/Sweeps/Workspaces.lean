import AzAppToolkit.Lib.Json
import AzAppToolkit.Sweeps.Vaults

set_option autoImplicit false

/-! # The workspace that exports the activity logs

`discover_workspace` of `commands/usage.rs`: the Log Analytics workspaces of every subscription are
listed, and each is asked for the table until one has it. What came out is cached, also that there is none.

Modelling choices: the hint that a client's error gets on its way to the front end is left out. -/

namespace Sweeps

open Prog

/-! ## Data -/

structure LogAnalyticsWorkspace where
  name : Option Text
  customerId : Option Text

/-- The id a workspace is queried by, and its name. -/
abbrev WorkspaceLookup := Option (Text × Text)

structure LogsQueryTable (N : Type) where
  columns : List Text
  rows : List (List (Json N))

inductive UsageError where
  /-- The token could not be had. -/
  | token (code : Text)
  | arm (err : ArmError)

def maxWorkspacesProbed : Nat := 50

def workspaceCacheKey (tenantId : Text) : Text := tenantId ++ "|graph_activity_ws".toList

/-! ## Calls -/

inductive UsageCall where
  | getCached (key : Text)
  | putCached (key : Text) (lookup : WorkspaceLookup)
  | ensureArmToken
  | listSubscriptions
  /-- The next listing of `buffer_unordered` to end, with these not yet listed. -/
  | nextWorkspaces (pending : List Text)
  | query (customerId kql timespan : Text)

abbrev UsageAnswer (N : Type) : UsageCall → Type
  | .getCached _ => Option WorkspaceLookup
  | .putCached _ _ => Unit
  | .ensureArmToken => Except UsageError Unit
  | .listSubscriptions => Except ArmError (List Text)
  | .nextWorkspaces _ => Nat × Except ArmError (List LogAnalyticsWorkspace)
  | .query _ _ _ => Except ArmError (LogsQueryTable N)

abbrev UsageSteps (N α : Type) := Prog (UsageAnswer N) α

/-! ## Discovery -/

section Discovery

variable {N : Type}

/-- What a listing adds: a subscription that could not be listed is skipped. -/
def listedWorkspaces : Except ArmError (List LogAnalyticsWorkspace) → List LogAnalyticsWorkspace
  | .ok workspaces => workspaces
  | .error _ => []

/-- The listings as they end, with as many left as are pending. -/
def listWorkspaces : Nat → List Text → List LogAnalyticsWorkspace → UsageSteps N (List LogAnalyticsWorkspace)
  | 0, _, found => .done found
  | n + 1, pending, found =>
    .ask (.nextWorkspaces pending) fun listed =>
      listWorkspaces n (pending.eraseIdx listed.1) (found ++ listedWorkspaces listed.2)

def probeKql : Text := "MicrosoftGraphActivityLogs | take 1".toList

def probeTimespan : Text := "P1D".toList

/-- The workspace that has the table, and whether the cap was reached before one was found. -/
def probeWorkspaces : Nat → List LogAnalyticsWorkspace → UsageSteps N (WorkspaceLookup × Bool)
  | _, [] => .done (none, false)
  | probed, ws :: rest =>
    if maxWorkspacesProbed ≤ probed then .done (none, true)
    else
      match ws.customerId with
      | none => probeWorkspaces probed rest
      | some customerId =>
        .ask (.query customerId probeKql probeTimespan) fun
          | .ok _ => .done (some (customerId, ws.name.getD customerId), false)
          -- whatever the probe failed with
          | .error _ => probeWorkspaces (probed + 1) rest

def getCached (key : Text) : UsageSteps N (Option WorkspaceLookup) := call (UsageCall.getCached key)

def putCached (key : Text) (lookup : WorkspaceLookup) : UsageSteps N Unit :=
  call (UsageCall.putCached key lookup)

def ensureArm : UsageSteps N (Except UsageError Unit) := call UsageCall.ensureArmToken

def armSubscriptions : UsageSteps N (Except ArmError (List Text)) := call UsageCall.listSubscriptions

/-- What was found goes into the cache, unless the cap cut the search short. -/
def cacheFound (cacheKey : Text) (found : WorkspaceLookup) (hitCap : Bool) :
    UsageSteps N (Except UsageError WorkspaceLookup) :=
  if hitCap then .done (.ok found)
  else do
    putCached cacheKey found
    .done (.ok found)

/-- The search, once the subscriptions are known. -/
def searchSubscriptions (cacheKey : Text) (subscriptions : List Text) :
    UsageSteps N (Except UsageError WorkspaceLookup) := do
  let workspaces ← listWorkspaces subscriptions.length subscriptions []
  let (found, hitCap) ← probeWorkspaces 0 workspaces
  cacheFound cacheKey found hitCap

def discoverWorkspace (tenantId : Text) : UsageSteps N (Except UsageError WorkspaceLookup) := do
  match ← getCached (workspaceCacheKey tenantId) with
  | some hit => .done (.ok hit)
  | none => do
      match ← ensureArm with
      | .error err => .done (.error err)
      | .ok () => do
          match ← armSubscriptions with
          | .error err => .done (.error (.arm err))
          | .ok subscriptions => searchSubscriptions (workspaceCacheKey tenantId) subscriptions

end Discovery

end Sweeps
