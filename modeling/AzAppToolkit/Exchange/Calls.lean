import AzAppToolkit.Lib.Program
import AzAppToolkit.Exchange.Targets
import AzAppToolkit.Exchange.Verdict

set_option autoImplicit false

/-! # The calls of the Exchange commands

What the scoped grant and the policy migration ask of Graph and Exchange, one constructor for each
client method or cmdlet, and the client methods of `client/rbac.rs` and `client/groups.rs` that make
several of them.

Modelling choices:
* a method answers with what it decodes from the envelope. Its retries and its pages are inside the
  call, so an error says nothing about whether a write landed;
* the operator's Cancel is read by a call of its own, and so is a line pushed to the `warnings` of
  the run; the wording of a warning is left out, its data is kept;
* `copyGate` is the check a concurrent member copy makes before an add: with several adds in flight
  the dead-session latch it reads may lag, so its answer is left open;
* indexing a vector out of bounds is a call that is never answered;
* `intends` is not in the source: it notes the filter a run has computed for its scope. -/

namespace Exchange

/-! ## Data -/

/-- An error of the Graph client. -/
structure GraphError where
  code : Text
  message : Text
deriving DecidableEq

inductive UiError where
  | validation (code message : Text)
  | notFound (resource message : Text)
  | graph (err : GraphError)
  | exchange (err : ExchangeError)

def reauthFatalCodes : List Text := ["refresh_missing", "not_signed_in"].map String.toList

/-- `note_code(err.ui_code())`: the error means the session is dead. Of the variants only a token
    error passes such a code through. -/
def ExchangeError.isReauthFatal : ExchangeError → Bool
  | .token code => reauthFatalCodes.contains code
  | _ => false

/-- An Entra service principal. -/
structure EntraServicePrincipal where
  id : Text
  displayName : Text

/-- Exchange's pointer to an Entra service principal. -/
structure ExoServicePrincipal where
  objectId : Option Text
  appId : Option Text

structure ExoGroup where
  distinguishedName : Option Text

structure ExoGroupMember where
  primarySmtpAddress : Option Text
  guid : Option Text

/-- Why the membership of a source group could not be established. -/
inductive UnreadableGroup where
  | unidentifiable (dn : Text) (members : Nat)
  | noReadableMembers (dn : Text)
  | notRead (dn : Text) (err : ExchangeError)
deriving DecidableEq

/-- Why a consolidation was refused. -/
inductive Refusal where
  | filter (why : Opath.UnrewritableFilter)
  | unreadableSourceGroups (groups : List UnreadableGroup)
  | managedGroupUnresolved
  | unverifiedMembers (n : Nat)
  | extraManagedMembers (extra : List Text)
deriving DecidableEq

/-- Why a consolidation left the scope on its current groups. -/
inductive KeptBecause where
  | refused (why : Refusal)
  | notStarted
  | groupNotCreated (err : ExchangeError)
  | stopped (sessionDead : Bool) (notCopied total : Nat)
  | notReread (err : ExchangeError)
  | unverified (n total : Nat) (members : List Text)
deriving DecidableEq

/-- A line of the run's `warnings`. -/
inductive Warning where
  | assignmentsNotListed (err : GraphError)
  | grantNotRemoved (value : Text) (err : GraphError)
  | orgwideAssignment (role identity : Text)
  | roleNotAssigned (role : Text) (err : ExchangeError)
  | groupWithoutDn (identifier : Text)
  | groupNotFound (identifier : Text)
  | stillOrgwide (kept : List Text)
  | grantsLeftInPlace
  | foldedPolicies (policies groups : Nat)
  | scopeKept (group : Text) (why : KeptBecause)
  | wouldBeRefused (why : Refusal)
  | managedNotRead (group : Text) (err : ExchangeError)
  | memberNotAdded (identity group : Text) (err : ExchangeError)
  | stoppedBeforeScope
  | nothingGoverned
  | resourcesUnknown
  | policyWouldBeKept
  | scopeWillRefuse (scopeName current : Text) (why : Opath.UnrewritableFilter)
  | scopeDiffers (scopeName current : Text)
  | scopeLeft (scopeName current : Text) (why : Opath.UnrewritableFilter)
  | scopeRepointed (scopeName : Text)
  | scopeNotRepointed (scopeName : Text) (err : ExchangeError)
  | policyNotRemoved (identity : Text) (err : ExchangeError)
  | policyKept (stillOrgwide : List Text)
deriving DecidableEq

/-! ## Calls -/

inductive Call where
  | getServicePrincipalByAppId (appId : Text)
  | listAppRoleAssignments (spId : Text)
  | removeAppRoleAssignment (spId assignmentId : Text)
  | getGroup (identity : Text)
  | getDistributionGroup (identity : Text)
  | newDistributionGroup (name groupAlias : Text)
  | listGroupMembers (group : Text)
  | addGroupMember (group member : Text)
  | getExoServicePrincipal (identity : Text)
  | newServicePrincipal (appId objectId displayName : Text)
  | getManagementScope (name : Text)
  | newManagementScope (name filter : Text)
  | setManagementScope (name filter : Text)
  | getRoleAssignments (app : Text)
  | newRoleAssignment (app role : Text) (customResourceScope : Option Text)
  | removeApplicationAccessPolicy (identity : Text)
  | isCancelled
  | copyGate
  | warn (w : Warning)
  | intends (scopeName wantedFilter : Text)
  | outOfBounds
deriving DecidableEq

abbrev Answer : Call → Type
  | .getServicePrincipalByAppId _ => Except GraphError (Option EntraServicePrincipal)
  | .listAppRoleAssignments _ => Except GraphError (List AppRoleAssignment)
  | .removeAppRoleAssignment _ _ => Except GraphError Unit
  | .getGroup _ => Except ExchangeError (Option ExoGroup)
  | .getDistributionGroup _ => Except ExchangeError (Option ExoGroup)
  | .newDistributionGroup _ _ => Except ExchangeError ExoGroup
  | .listGroupMembers _ => Except ExchangeError (List ExoGroupMember)
  | .addGroupMember _ _ => Except ExchangeError Unit
  | .getExoServicePrincipal _ => Except ExchangeError (Option ExoServicePrincipal)
  | .newServicePrincipal _ _ _ => Except ExchangeError ExoServicePrincipal
  | .getManagementScope _ => Except ExchangeError (Option ExoManagementScope)
  | .newManagementScope _ _ => Except ExchangeError ExoManagementScope
  | .setManagementScope _ _ => Except ExchangeError (Option ExoManagementScope)
  | .getRoleAssignments _ => Except ExchangeError (List ExoRoleAssignment)
  | .newRoleAssignment _ _ _ => Except ExchangeError ExoRoleAssignment
  | .removeApplicationAccessPolicy _ => Except ExchangeError Unit
  | .isCancelled => Bool
  | .copyGate => Bool
  | .warn _ => Unit
  | .intends _ _ => Unit
  | .outOfBounds => Empty

/-- An asynchronous function of the source. -/
abbrev Async (α : Type) := Prog Answer α

/-- One that returns a `Result`. -/
abbrev AsyncResult (ε α : Type) := ExceptT ε (Prog Answer) α

/-- The calls of a run and their answers. -/
abbrev Trace := List (Prog.Exchanged Answer)

/-- Make a call. -/
def call (c : Call) : Async (Answer c) := Prog.call c

/-- Push a line to the run's `warnings`. -/
def warn (w : Warning) : Async Unit := call (.warn w)

/-- `warnings.extend(…)`. -/
def warnAll (lines : List Warning) : Async Unit := lines.foldlM (fun _ line => warn line) ()

/-- A result with its error as a `UiError`: the `?` of the commands. -/
def orUiError {ε α : Type} (toUi : ε → UiError) (p : Async (Except ε α)) :
    AsyncResult UiError α :=
  ExceptT.mk (p >>= fun r => pure (r.mapError toUi))

/-- An indexing expression. -/
def index {α : Type} (l : List α) (i : Nat) : Async α :=
  match l[i]? with
  | some a => pure a
  | none => .ask .outOfBounds Empty.elim

/-- The rule for `?` on a client's result. -/
theorem meets_orUiError {σ ε α β : Type} {w : World Answer σ} {ok : σ → Call → Prop} {s : σ}
    {toUi : ε → UiError} {p : Async (Except ε β)} {f : β → AsyncResult UiError α}
    {post : σ → Except UiError α → Prop} {good : σ → β → Prop} {bad : σ → ε → Prop}
    (hp : Prog.Meets w ok (Prog.OnResult good bad) s p) (hbad : ∀ s e, bad s e → post s (.error (toUi e)))
    (hgood : ∀ s b, good s b → Prog.Meets w ok post s (f b).run) :
    Prog.Meets w ok post s (orUiError toUi p >>= f).run := by
  refine Prog.Meets.tryBind (Prog.Meets.bind (hp.mono (fun s r hr => ?_)))
  cases r with
  | ok b => exact hgood s b hr
  | error e => exact hbad s e hr

/-! ## Client methods of several calls -/

def ensureServicePrincipal (appId objectId displayName : Text) :
    AsyncResult ExchangeError ExoServicePrincipal := do
  match ← ExceptT.mk (call (.getExoServicePrincipal appId)) with
  | some existing => pure existing
  | none => ExceptT.mk (call (.newServicePrincipal appId objectId displayName))

def ensureManagementScope (name recipientRestrictionFilter : Text) :
    AsyncResult ExchangeError ExoManagementScope := do
  match ← ExceptT.mk (call (.getManagementScope name)) with
  | some existing => pure existing
  | none => ExceptT.mk (call (.newManagementScope name recipientRestrictionFilter))

def ensureSecurityGroup (name groupAlias : Text) : AsyncResult ExchangeError ExoGroup := do
  match ← ExceptT.mk (call (.getDistributionGroup name)) with
  | some existing => pure existing
  | none => do
      let created ← ExceptT.mk (call (.newDistributionGroup name groupAlias))
      -- a fresh group can come back without its distinguished name
      if created.distinguishedName.isSome then pure created
      else do
        match ← ExceptT.mk (call (.getDistributionGroup name)) with
        | some resolved => pure resolved
        | none => pure created

end Exchange
