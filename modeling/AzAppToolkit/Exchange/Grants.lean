import AzAppToolkit.Exchange.Calls

set_option autoImplicit false

/-! # Assigning scoped roles, stripping org-wide grants

The two steps that end every scoped grant, from `commands/exchange/grants.rs` and
`commands/graph_roles.rs`: the Exchange roles are assigned on the management scope first, and only
then are the org-wide Entra grants removed, target by target, where the scoped role is in place. -/

namespace Exchange

/-! ## Stripping -/

/-- The assignment is the org-wide grant the target names. -/
def grantsTarget (a : AppRoleAssignment) (t : ExchangeTarget) : Bool :=
  a.resourceId == t.resourceSpObjectId && a.appRoleId == t.appRoleId

def unscopedGrantValue (targets : List ExchangeTarget) (a : AppRoleAssignment) : Option Text :=
  (targets.find? (fun t => grantsTarget a t)).map (·.graphValue)

/-- Remove every assignment `select` names; the values actually removed. -/
def stripAppRoleGrants (spId : Text) (assignments : List AppRoleAssignment)
    (select : AppRoleAssignment → Option Text) : Async (List Text) :=
  assignments.foldlM (fun removed a =>
    match select a with
    | none => pure removed
    | some value => do
        match ← call (.removeAppRoleAssignment spId a.id) with
        | .ok () => pure (removed ++ [value])
        | .error err => do
            warn (.grantNotRemoved value err)
            pure removed) []

/-- The target values still held org-wide, without repeats, in target order. -/
def stillHeldOrgwide (targets : List ExchangeTarget) (assignments : List AppRoleAssignment)
    (removed : List Text) : List Text :=
  targets.foldl (fun out t =>
    if assignments.any (fun a => grantsTarget a t) && !removed.contains t.graphValue &&
        !out.contains t.graphValue then out ++ [t.graphValue]
    else out) []

/-- What a strip did, and what it left org-wide (`none` when the assignments could not be read). -/
structure UnscopedStrip where
  removed : List Text
  stillOrgwide : Option (List Text)

def removeUnscopedGrants (spId : Text) (outcomes : List (ExchangeTarget × Bool)) :
    Async UnscopedStrip := do
  let safe := targetsSafeToStrip outcomes
  match ← call (.listAppRoleAssignments spId) with
  | .error err => do
      warn (.assignmentsNotListed err)
      pure ⟨[], none⟩
  | .ok assignments => do
      let removed ← stripAppRoleGrants spId assignments (unscopedGrantValue safe)
      pure ⟨removed, some (stillHeldOrgwide (outcomes.map Prod.fst) assignments removed)⟩

/-! ## Assigning -/

/-- What `assign_scoped_roles` returns; `outcomes` says of each target whether its role is in
    place. -/
structure ScopedRoles where
  rolesAssigned : List Text
  rolesSkipped : List Text
  outcomes : List (ExchangeTarget × Bool)

/-- The body of the loop of `assign_scoped_roles`, over the targets and their steps. -/
def assignRole (appId scopeName : Text) (acc : ScopedRoles) (item : ExchangeTarget × RoleStep) :
    Async ScopedRoles :=
  let t := item.1
  match item.2 with
  | .alreadyScoped =>
    pure { acc with rolesSkipped := acc.rolesSkipped ++ [t.exchangeRole],
                    outcomes := acc.outcomes ++ [(t, true)] }
  | .sameRoleAs mirrors => do
      let first ← index acc.outcomes mirrors
      pure { acc with outcomes := acc.outcomes ++ [(t, first.2)] }
  | .assign => do
      match ← call (.newRoleAssignment appId t.exchangeRole (some scopeName)) with
      | .ok _ =>
        pure { acc with rolesAssigned := acc.rolesAssigned ++ [t.exchangeRole],
                        outcomes := acc.outcomes ++ [(t, true)] }
      | .error err => do
          warn (.roleNotAssigned t.exchangeRole err)
          pure { acc with outcomes := acc.outcomes ++ [(t, false)] }

def assignPlanned (appId scopeName : Text) (items : List (ExchangeTarget × RoleStep)) :
    Async ScopedRoles :=
  items.foldlM (assignRole appId scopeName) ⟨[], [], []⟩

def orgwideAssignmentWarnings (existing : List ExoRoleAssignment) (targets : List ExchangeTarget) :
    List Warning :=
  (orgwideRoleAssignments existing targets).map (fun a => .orgwideAssignment a.1 a.2)

def assignScopedRoles (appId scopeName : Text) (targets : List ExchangeTarget) :
    AsyncResult UiError ScopedRoles := do
  let existing ← orUiError .exchange (call (.getRoleAssignments appId))
  let plan := planRoleAssignments existing scopeName targets
  warnAll (orgwideAssignmentWarnings existing targets)
  assignPlanned appId scopeName (targets.zip plan)

/-- The two steps one after the other, as the scoped grant and the migration both take them. -/
def assignThenStrip (appId scopeName spId : Text) (targets : List ExchangeTarget) :
    AsyncResult UiError (ScopedRoles × UnscopedStrip) := do
  let roles ← assignScopedRoles appId scopeName targets
  let strip ← removeUnscopedGrants spId roles.outcomes
  pure (roles, strip)

end Exchange
