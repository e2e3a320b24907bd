import AzAppToolkit.Graph.Errors
import AzAppToolkit.Lib.Program

set_option autoImplicit false

/-! # Saving the claims of an application

`set_claims_mapping_core` of `sso/config.rs` with `plan_claims_write` and the helpers of `sso/mod.rs`:
read what is assigned and who uses it, then create, patch, fork or detach. A call that returned an error
may have taken effect; a clean-up that takes the error at its word deletes the policy that the
application has just been given. -/

namespace SavingClaims

open Prog
open Graph (GraphError)

/-! ## Data -/

structure UiError where
  code : Text
  message : Text

/-- What saving does to Graph. -/
inductive ClaimsWrite where
  | nothing
  | create
  | patchInPlace (id : Text)
  | fork (detach : Text)
  | detach (policyId : Text) (delete : Bool)

inductive Call where
  | listAssigned (servicePrincipalId : Text)
  | listSubjects (policyId : Text)
  | createPolicy (definition displayName : Text)
  | assignPolicy (servicePrincipalId policyId : Text)
  | removePolicy (servicePrincipalId policyId : Text)
  | updatePolicy (policyId definition : Text)
  | deletePolicy (policyId : Text)
  | invalidateAppDetails

abbrev Answer : Call → Type
  | .listAssigned _ => Except GraphError (List Text)
  | .listSubjects _ => Except GraphError (List Text)
  | .createPolicy _ _ => Except GraphError Text
  | .assignPolicy _ _ => Except GraphError Unit
  | .removePolicy _ _ => Except GraphError Unit
  | .updatePolicy _ _ => Except GraphError Unit
  | .deletePolicy _ => Except GraphError Unit
  | .invalidateAppDetails => Unit

abbrev Async (α : Type) := Prog Answer α

def call (c : Call) : Async (Answer c) := Prog.call c

/-- The edited policy, as far as the command reads it. -/
structure ClaimsPolicy where
  /-- `build_claims_definition`. -/
  definition : Text
  isEmpty : Bool

/-! ## The plan -/

/-- The subjects are this principal and nothing else; no subjects prove nothing. -/
def isSole (spId : Text) (subjects : Option (List Text)) : Bool :=
  subjects.any (fun subs => !subs.isEmpty && subs.all (· == spId))

def planClaimsWrite (spId : Text) (assigned : List Text) (subjects : Option (List Text))
    (empty : Bool) : Except UiError ClaimsWrite :=
  let sole := isSole spId subjects
  match assigned with
  | [] => if empty then .ok .nothing else .ok .create
  | [id] =>
    if empty then .ok (.detach id sole)
    else if sole then .ok (.patchInPlace id)
    else .ok (.fork id)
  | _ => .error ⟨"multiple_claims_policies".toList,
      ("This application has more than one claims-mapping policy assigned. Resolve it in the " ++
        "Entra admin center before editing claims here.").toList⟩

/-! ## The writes -/

section Command

variable (toUi : GraphError → UiError) (spId displayName : Text) (policy : ClaimsPolicy)

/-- Best effort. -/
def discardUnassignedClaimsPolicy (policyId : Text) : Async Unit := do
  let _ ← call (.deletePolicy policyId)
  return ()

def applyClaimsPolicy : Async (Except GraphError Text) := do
  match ← call (.createPolicy policy.definition displayName) with
  | .error err => return .error err
  | .ok created =>
    match ← call (.assignPolicy spId created) with
    | .error err => do
        discardUnassignedClaimsPolicy created
        return .error err
    | .ok () => return .ok created

/-- Create first, then unassign the shared policy, then assign the copy. -/
def forkClaimsPolicy (sharedId : Text) : Async (Except GraphError Text) := do
  match ← call (.createPolicy policy.definition displayName) with
  | .error err => return .error err
  | .ok created =>
    match ← call (.removePolicy spId sharedId) with
    | .error err => do
        discardUnassignedClaimsPolicy created
        return .error err
    | .ok () =>
      match ← call (.assignPolicy spId created) with
      | .error err => do
          let _ ← call (.assignPolicy spId sharedId)
          discardUnassignedClaimsPolicy created
          return .error err
      | .ok () => return .ok created

/-- An orphan left by a failed delete is logged only. -/
def detachClaimsPolicy (policyId : Text) (delete : Bool) : Async (Except GraphError (Option Text)) := do
  match ← call (.removePolicy spId policyId) with
  | .error err => return .error err
  | .ok () =>
    if delete then discardUnassignedClaimsPolicy policyId
    return .ok none

def carryOut : ClaimsWrite → Async (Except GraphError (Option Text))
  | .nothing => return .ok none
  | .create => return (← applyClaimsPolicy spId displayName policy).map some
  | .patchInPlace id => return (← call (.updatePolicy id policy.definition)).map (fun _ => some id)
  | .fork sharedId => return (← forkClaimsPolicy spId displayName policy sharedId).map some
  | .detach policyId delete => detachClaimsPolicy spId policyId delete

/-- The subjects of the one assigned policy. -/
def subjectsOf : List Text → Async (Except GraphError (Option (List Text)))
  | [id] => return (← call (.listSubjects id)).map some
  | _ => return .ok none

def setClaimsMappingCore : Async (Except UiError (Option Text)) := do
  match ← call (.listAssigned spId) with
  | .error err => return .error (toUi err)
  | .ok assigned =>
    match ← subjectsOf assigned with
    | .error err => return .error (toUi err)
    | .ok subjects =>
      match planClaimsWrite spId assigned subjects policy.isEmpty with
      | .error err => return .error err
      | .ok plan =>
        match ← carryOut spId displayName policy plan with
        | .error err => return .error (toUi err)
        | .ok result => do
            call .invalidateAppDetails
            return .ok result

end Command

/-! ## The directory -/

/-- The policies with their definitions, and the one each principal is assigned. -/
structure Tenant where
  definitions : Text → Option Text
  assigned : Text → Option Text
  exist : ∀ p id, assigned p = some id → (definitions id).isSome

def Created (t : Tenant) (definition id : Text) (t' : Tenant) : Prop :=
  t.definitions id = none ∧ t'.assigned = t.assigned ∧
    t'.definitions = Function.update t.definitions id (some definition)

/-- A principal that has a policy is not assigned a second one. -/
def Assigned (t : Tenant) (p id : Text) (t' : Tenant) : Prop :=
  t.assigned p = none ∧ t'.definitions = t.definitions ∧
    t'.assigned = Function.update t.assigned p (some id)

def Removed (t : Tenant) (p id : Text) (t' : Tenant) : Prop :=
  t.assigned p = some id ∧ t'.definitions = t.definitions ∧
    t'.assigned = Function.update t.assigned p none

def Updated (t : Tenant) (id definition : Text) (t' : Tenant) : Prop :=
  t'.assigned = t.assigned ∧ t'.definitions = Function.update t.definitions id (some definition)

/-- Deleting a policy ends its assignments. -/
def Deleted (t : Tenant) (id : Text) (t' : Tenant) : Prop :=
  t'.definitions = Function.update t.definitions id none ∧
    t'.assigned = fun p => if t.assigned p = some id then none else t.assigned p

/-- A write: what it was made upon, whether an error was returned, and whether it took effect. -/
structure Entry where
  call : Call
  before : Tenant
  failed : Bool
  landed : Bool

structure Moment where
  tenant : Tenant
  log : List Entry

/-- A write that succeeded took effect; one that failed may have. -/
def Writes (s : Moment) (c : Call) (failed : Bool) (effect : Tenant → Prop) (s' : Moment) : Prop :=
  ∃ landed, s'.log = s.log ++ [⟨c, s.tenant, failed, landed⟩] ∧ (failed = false → landed = true) ∧
    (landed = true → effect s'.tenant) ∧ (landed = false → s'.tenant = s.tenant)

def isError {α : Type} (r : Except GraphError α) : Bool :=
  match r with
  | .ok _ => false
  | .error _ => true

/-- Reads are truthful, and nobody else writes. -/
def world : World Answer Moment
  | s, .listAssigned p, r, s' => s' = s ∧ ∀ l, r = .ok l → l = (s.tenant.assigned p).toList
  | s, .listSubjects id, r, s' =>
    s' = s ∧ ∀ l, r = .ok l → ∀ p, p ∈ l ↔ s.tenant.assigned p = some id
  | s, .createPolicy definition name, r, s' =>
    Writes s (.createPolicy definition name) (isError r)
      (fun t => ∃ id, (∀ made, r = .ok made → made = id) ∧ Created s.tenant definition id t) s'
  | s, .assignPolicy p id, r, s' =>
    Writes s (.assignPolicy p id) (isError r) (Assigned s.tenant p id) s'
  | s, .removePolicy p id, r, s' =>
    Writes s (.removePolicy p id) (isError r) (Removed s.tenant p id) s'
  | s, .updatePolicy id definition, r, s' =>
    Writes s (.updatePolicy id definition) (isError r) (Updated s.tenant id definition) s'
  | s, .deletePolicy id, r, s' =>
    Writes s (.deletePolicy id) (isError r) (Deleted s.tenant id) s'
  | s, .invalidateAppDetails, _, s' => s' = s

/-! ## What a save promises -/

section Promises

variable (t₀ : Tenant) (spId : Text) (policy : ClaimsPolicy)

/-- No other principal is assigned anything else, and no policy one of them uses is redefined. -/
def OthersKept (t : Tenant) : Prop :=
  ∀ p, p ≠ spId → t.assigned p = t₀.assigned p ∧
    ∀ id, t₀.assigned p = some id → t.definitions id = t₀.definitions id

/-- A policy was deleted while a principal was assigned to it. -/
def DeletedInUse (log : List Entry) : Prop :=
  ∃ e ∈ log, ∃ id, e.call = .deletePolicy id ∧ e.landed = true ∧ ∃ p, e.before.assigned p = some id

/-- An assign returned an error and took effect, and the policy was deleted for it. -/
def Misled (log : List Entry) : Prop :=
  ∃ e ∈ log, ∃ e' ∈ log, ∃ id, e.call = .assignPolicy spId id ∧ e.failed = true ∧ e.landed = true ∧
    e'.call = .deletePolicy id ∧ e'.landed = true

/-- The principal has the definition that was built, or none where that is empty. -/
def Applied (t : Tenant) : Prop :=
  if policy.isEmpty then t.assigned spId = none
  else ∃ id, t.assigned spId = some id ∧ t.definitions id = some policy.definition

/-- No failed write took effect. -/
def Honest (log : List Entry) : Prop := ∀ e ∈ log, e.failed = true → e.landed = false

/-- A policy that was assigned at the start was assigned again without an error. -/
def Reassigned (log : List Entry) : Prop :=
  ∀ e ∈ log, ∀ id, e.call = .assignPolicy spId id → t₀.assigned spId = some id → e.failed = false

/-- The assignment and every earlier definition are as they were. -/
def Untouched (t : Tenant) : Prop :=
  t.assigned spId = t₀.assigned spId ∧
    ∀ id, (t₀.definitions id).isSome → t.definitions id = t₀.definitions id

/-- A save, from its start to its end. -/
structure Saves (s : Moment) (r : Except UiError (Option Text)) : Prop where
  others : OthersKept t₀ spId s.tenant
  deletes : ¬ DeletedInUse s.log
  saved : ∀ result, r = .ok result → Applied spId policy s.tenant
  failed : ∀ err, r = .error err → Honest s.log → Reassigned t₀ spId s.log →
    Untouched t₀ spId s.tenant

end Promises

end SavingClaims
