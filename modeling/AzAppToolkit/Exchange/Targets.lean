import AzAppToolkit.Exchange.Scoping
import AzAppToolkit.Lib.Table

set_option autoImplicit false

/-! # What to scope, and in which order

The decisions of `azapptoolkit-exchange/src/targets.rs` that need no client: the targets an
application's grants give, the roles a snapshot of its role assignments already confines, the plan of
one assignment pass and the two guards that follow it (which grants may be stripped, whether the
legacy policies may go). -/

namespace Exchange

/-! ## Targets -/

/-- One Entra app-role assignment of a service principal. -/
structure AppRoleAssignment where
  id : Text
  resourceId : Text
  appRoleId : Text
deriving DecidableEq

/-- A resource's app-role index. -/
structure ResourceRoles where
  appId : Text
  spObjectId : Text
  roleValueById : Table Text Text

/-- The mailbox resource an assignment was granted on, and the value it names. -/
def resolveGrant (resources : List ResourceRoles) (resourceSpId appRoleId : Text) :
    Option (Text × Text × Text) :=
  match resources.find? (fun r => r.spObjectId == resourceSpId) with
  | none => none
  | some r => (r.roleValueById.lookup appRoleId).map (fun value => (r.appId, r.spObjectId, value))

/-- A permission to scope: its Exchange role, and the exact Entra grant that backs it. -/
structure ExchangeTarget where
  graphValue : Text
  exchangeRole : Text
  appRoleId : Text
  resourceSpObjectId : Text
  aapConfinable : Bool

def exchangeTarget (resourceAppId resourceSpObjectId appRoleId graphValue : Text) :
    Option ExchangeTarget :=
  (exchangeRoleForResourcePermission resourceAppId graphValue).map (fun exchangeRole =>
    { graphValue, exchangeRole, appRoleId, resourceSpObjectId,
      aapConfinable := isAapConfinablePermission resourceAppId graphValue })

/-- The body of the loop of `targets_from_grants`. -/
def targetFromGrant (resources : List ResourceRoles) (a : AppRoleAssignment) :
    Option ExchangeTarget :=
  match resolveGrant resources a.resourceId a.appRoleId with
  | none => none
  | some (resourceAppId, resourceSpId, value) =>
    if isAapConfinablePermission resourceAppId value then
      exchangeTarget resourceAppId resourceSpId a.appRoleId value
    else none

/-- The granted permissions a policy could have been confining. -/
def targetsFromGrants (assignments : List AppRoleAssignment) (resources : List ResourceRoles) :
    List ExchangeTarget :=
  assignments.filterMap (targetFromGrant resources)

def targetsSafeToStrip (scopedTargets : List (ExchangeTarget × Bool)) : List ExchangeTarget :=
  scopedTargets.filterMap (fun p => if p.2 then some p.1 else none)

/-! ## Role assignments -/

/-- A management role assignment, as `Get-ManagementRoleAssignment` returns it. -/
structure ExoRoleAssignment where
  name : Option Text
  role : Option Text
  customResourceScope : Option Text
  identity : Option Text
  recipientWriteScope : Option Text
  customRecipientWriteScope : Option Text
  recipientAdministrativeUnitScope : Option Text

/-- The assignment is confined to `scopeName`; names of scopes compare without regard to case. -/
def ExoRoleAssignment.isOnScope (scopeName : Text) (a : ExoRoleAssignment) : Bool :=
  a.customResourceScope.any (fun s => s.trim.eqIgnoreAsciiCase scopeName.trim)

def rolesAlreadyScoped (existing : List ExoRoleAssignment) (scopeName : Text) : List Text :=
  (existing.filter (·.isOnScope scopeName)).filterMap (·.role)

def isOrgWideRoleAssignment (a : ExoRoleAssignment) : Bool :=
  let present := fun (v : Option Text) => v.any (fun s => s.trim != [])
  let isAu := a.recipientWriteScope.any
    (fun t => t.trim.eqIgnoreAsciiCase "AdministrativeUnit".toList)
  !present a.customResourceScope && !present a.recipientAdministrativeUnitScope &&
    !present a.customRecipientWriteScope && !isAu

/-- The org-wide assignments of a role some target is being scoped to, with their identities. -/
def orgwideRoleAssignments (existing : List ExoRoleAssignment) (targets : List ExchangeTarget) :
    List (Text × Text) :=
  (existing.filter isOrgWideRoleAssignment).filterMap (fun a =>
    match a.role with
    | none => none
    | some role =>
      if targets.any (fun t => t.exchangeRole.eqIgnoreAsciiCase role ||
          compositeRoleConfers role t.graphValue) then
        some (role, (a.identity.or a.name).getD "(unnamed)".toList)
      else none)

/-- What the caller must do about one target's role. -/
inductive RoleStep where
  | alreadyScoped
  | assign
  | sameRoleAs (mirrors : Nat)

/-- The role is in place, whatever case Exchange echoes it in. -/
def roleInPlace (inPlace : List Text) (role : Text) : Bool :=
  inPlace.any (fun r => r.eqIgnoreAsciiCase role)

/-- The loop of `plan_role_assignments` from the target at `i` on; `assigner` is the index of the
    target that assigns each role. -/
def planFrom (inPlace : List Text) : (i : Nat) → (assigner : Table Text Nat) →
    List ExchangeTarget → List RoleStep
  | _, _, [] => []
  | i, assigner, t :: rest =>
    if roleInPlace inPlace t.exchangeRole then
      .alreadyScoped :: planFrom inPlace (i + 1) assigner rest
    else match assigner.lookup t.exchangeRole with
      | some first => .sameRoleAs first :: planFrom inPlace (i + 1) assigner rest
      | none => .assign :: planFrom inPlace (i + 1) (assigner.insert t.exchangeRole i) rest

def planRoleAssignments (existing : List ExoRoleAssignment) (scopeName : Text)
    (targets : List ExchangeTarget) : List RoleStep :=
  planFrom (rolesAlreadyScoped existing scopeName) 0 ∅ targets

/-! ## The legacy policies -/

/-- Both mailbox-bearing resources were resolved. -/
def mailboxResourcesComplete (resources : List ResourceRoles) : Bool :=
  [microsoftGraphAppId, office365ExchangeOnlineAppId].all
    (fun id => resources.any (fun r => r.appId == id))

def policiesSafeToRemove (targetCount removedGrantCount : Nat) (resourcesComplete : Bool) : Bool :=
  if resourcesComplete = false then false
  else targetCount == 0 || removedGrantCount == targetCount

/-! ## The plan -/

/-- The step of a target after the ones in `before`. -/
def roleStep (inPlace : List Text) (before : List ExchangeTarget) (t : ExchangeTarget) : RoleStep :=
  if roleInPlace inPlace t.exchangeRole then .alreadyScoped
  else match before.findIdx? (fun t' => t'.exchangeRole == t.exchangeRole) with
    | some first => .sameRoleAs first
    | none => .assign

/-- What `assigner` knows after the targets in `before`: the first one with each role to assign. -/
theorem planFrom_eq (inPlace : List Text) (targets : List ExchangeTarget) :
    ∀ (before : List ExchangeTarget) (assigner : Table Text Nat),
      (∀ role, roleInPlace inPlace role = false →
        assigner.lookup role = before.findIdx? (fun t => t.exchangeRole == role)) →
      ∀ pre t post, targets = pre ++ t :: post →
        (planFrom inPlace before.length assigner targets)[pre.length]?
          = some (roleStep inPlace (before ++ pre) t) := by
  induction targets with
  | nil =>
    intro before assigner _ pre t post hsplit
    exact absurd hsplit (by simp)
  | cons t' rest ih =>
    intro before assigner hassigner pre t post hsplit
    -- the table after this target still knows the first assigner of each role
    have hnext : ∀ assigner' : Table Text Nat, (∀ role, roleInPlace inPlace role = false →
        assigner'.lookup role = (before ++ [t']).findIdx? (fun t => t.exchangeRole == role)) →
        ∀ (step : RoleStep), step = roleStep inPlace before t' →
        (step :: planFrom inPlace (before.length + 1) assigner' rest)[pre.length]?
          = some (roleStep inPlace (before ++ pre) t) := by
      intro assigner' hassigner' step hstep
      cases pre with
      | nil =>
        obtain ⟨rfl, -⟩ := List.cons.inj hsplit
        simp [hstep]
      | cons t'' pre =>
        obtain ⟨rfl, hrest⟩ := List.cons.inj hsplit
        have hih := ih (before ++ [t']) assigner' hassigner' pre t post hrest
        rw [List.length_append, List.append_assoc] at hih
        exact hih
    unfold planFrom
    split
    · next hplace =>
      refine hnext assigner (fun role hrole => ?_) _ (by simp [roleStep, hplace])
      have hne : t'.exchangeRole ≠ role := by
        rintro rfl
        rw [hplace] at hrole
        exact absurd hrole (by simp)
      rw [hassigner role hrole, List.findIdx?_append]
      simp [hne]
    · next hplace =>
      have hplace : roleInPlace inPlace t'.exchangeRole = false := by simpa using hplace
      split
      · next first hfirst =>
        rw [hassigner _ hplace] at hfirst
        refine hnext assigner (fun role hrole => ?_) _ (by simp [roleStep, hplace, hfirst])
        rw [hassigner role hrole, List.findIdx?_append]
        by_cases hrole' : t'.exchangeRole = role
        · subst hrole'
          rw [hfirst]
          rfl
        · simp [hrole']
      · next hnone =>
        rw [hassigner _ hplace] at hnone
        refine hnext _ (fun role hrole => ?_) _ (by simp [roleStep, hplace, hnone])
        rw [AList.lookup_insert_eq, hassigner role hrole, List.findIdx?_append]
        by_cases hrole' : role = t'.exchangeRole
        · subst hrole'
          rw [if_pos rfl, hnone]
          simp
        · rw [if_neg hrole']
          simp [Ne.symm hrole']

theorem planRoleAssignments_eq (existing : List ExoRoleAssignment) (scopeName : Text)
    {targets pre post : List ExchangeTarget} {t : ExchangeTarget} (h : targets = pre ++ t :: post) :
    (planRoleAssignments existing scopeName targets)[pre.length]?
      = some (roleStep (rolesAlreadyScoped existing scopeName) pre t) := by
  have hplan := planFrom_eq (rolesAlreadyScoped existing scopeName) targets [] ∅
    (fun role _ => by simp) pre t post h
  rw [List.nil_append] at hplan
  exact hplan

theorem length_planFrom (inPlace : List Text) (targets : List ExchangeTarget) :
    ∀ (i : Nat) (assigner : Table Text Nat),
      (planFrom inPlace i assigner targets).length = targets.length := by
  induction targets with
  | nil => intro i assigner; rfl
  | cons t rest ih =>
    intro i assigner
    unfold planFrom
    split
    · simp [ih]
    · split
      · simp [ih]
      · simp [ih]

theorem length_planRoleAssignments (existing : List ExoRoleAssignment) (scopeName : Text)
    (targets : List ExchangeTarget) :
    (planRoleAssignments existing scopeName targets).length = targets.length :=
  length_planFrom _ targets 0 ∅

/-- A place in the loop over the targets and their steps. -/
theorem zip_plan_split {existing : List ExoRoleAssignment} {scopeName : Text}
    {targets : List ExchangeTarget} {before after : List (ExchangeTarget × RoleStep)}
    {t : ExchangeTarget} {step : RoleStep} (h : targets.zip (planRoleAssignments existing scopeName targets)
      = before ++ (t, step) :: after) :
    targets = before.map Prod.fst ++ t :: after.map Prod.fst ∧
      step = roleStep (rolesAlreadyScoped existing scopeName) (before.map Prod.fst) t := by
  have hfst : targets = before.map Prod.fst ++ t :: after.map Prod.fst := by
    have hmap := congrArg (List.map Prod.fst) h
    rw [List.map_fst_zip (Nat.le_of_eq (length_planRoleAssignments _ _ _).symm)] at hmap
    simpa using hmap
  refine ⟨hfst, ?_⟩
  have hat : (targets.zip (planRoleAssignments existing scopeName targets))[before.length]?
      = some (t, step) := by
    rw [h]
    simp
  have hplan := planRoleAssignments_eq existing scopeName hfst
  rw [List.length_map, (List.getElem?_zip_eq_some.1 hat).2] at hplan
  exact Option.some.inj hplan

/-- A mirrored target points back at the one that assigns the role. -/
theorem planRoleAssignments_mirrors {existing : List ExoRoleAssignment} {scopeName : Text}
    {targets pre post : List ExchangeTarget} {t : ExchangeTarget} {m : Nat} (h : targets = pre ++ t :: post)
    (hstep : roleStep (rolesAlreadyScoped existing scopeName) pre t = .sameRoleAs m) :
    m < pre.length ∧ ∃ first, targets[m]? = some first ∧ first.exchangeRole = t.exchangeRole ∧
      (planRoleAssignments existing scopeName targets)[m]? = some .assign := by
  unfold roleStep at hstep
  split at hstep
  · exact absurd hstep (by simp)
  · next hplace =>
    split at hstep
    · next first hfirst =>
      obtain rfl : first = m := by simpa using hstep
      obtain ⟨hlt, hrole, hbefore⟩ := List.findIdx?_eq_some_iff_getElem.1 hfirst
      have hrole : pre[first].exchangeRole = t.exchangeRole := by simpa using hrole
      have hsplit : targets
          = pre.take first ++ pre[first] :: (pre.drop (first + 1) ++ t :: post) := by
        have hcut := List.take_append_drop first pre
        rw [List.drop_eq_getElem_cons hlt] at hcut
        rw [← List.cons_append, ← List.append_assoc, hcut, h]
      refine ⟨hlt, pre[first], by rw [h, List.getElem?_append_left hlt]; simp, hrole, ?_⟩
      -- nothing before the first one with the role has it, so that one assigns it
      have hplan := planRoleAssignments_eq existing scopeName hsplit
      rw [List.length_take_of_le (Nat.le_of_lt hlt)] at hplan
      rw [hplan, roleStep, if_neg (by rw [hrole]; exact hplace), hrole]
      have hnone : (pre.take first).findIdx? (fun t' => t'.exchangeRole == t.exchangeRole)
          = none := by
        rw [List.findIdx?_eq_none_iff]
        intro x hx
        obtain ⟨j, hj, rfl⟩ := List.mem_iff_getElem.1 hx
        rw [List.length_take] at hj
        rw [List.getElem_take]
        exact Bool.eq_false_iff.2 (hbefore j (by omega))
      rw [hnone]
    · exact absurd hstep (by simp)

end Exchange
