import AzAppToolkit.Remediation.ManifestEdits

set_option autoImplicit false

/-! # The least-privilege downgrade

`downgrade_application_permission_core` of `permissions/downgrade.rs`: grant the narrow role, revoke the
broad one, swap the declaration. Each run plans from what it reads, so that what a failed run left is
where the next one starts. -/

namespace Downgrade

open Prog
open Graph (GraphError)
open Remediation (RequiredResourceAccess Application AppRoleAssignment swapDeclaredRole
  withoutRole entriesOf roleType)

/-! ## Data -/

structure AppRole where
  id : Text
  value : Text
  isEnabled : Option Bool

/-- A resource with the roles it exposes, whose ids are distinct. -/
structure ResourceSp where
  id : Text
  appRoles : List AppRole
  distinct : (appRoles.map (·.id)).Nodup

structure UiError where
  code : Text
  message : Text
deriving DecidableEq

structure DowngradeOutcome where
  narrowGranted : Bool
  broadRevoked : Bool
  declarationSwapped : Bool
deriving DecidableEq

inductive Call where
  | getApplication (objectId : Text)
  | resolveResourceSp (resourceAppId : Text)
  | getServicePrincipalByAppId (appId : Text)
  | listAppRoleAssignments (spId : Text)
  | grantAppRole (spId resourceSpId appRoleId : Text)
  | removeAppRoleAssignment (spId assignmentId : Text)
  | updateApplication (objectId : Text) (requiredResourceAccess : List RequiredResourceAccess)

abbrev Answer : Call → Type
  | .getApplication _ => Except GraphError Application
  | .resolveResourceSp _ => Except GraphError (Option ResourceSp)
  | .getServicePrincipalByAppId _ => Except GraphError (Option Text)
  | .listAppRoleAssignments _ => Except GraphError (List AppRoleAssignment)
  | .grantAppRole _ _ _ => Except GraphError Unit
  | .removeAppRoleAssignment _ _ => Except GraphError Unit
  | .updateApplication _ _ => Except GraphError Unit

abbrev Async (α : Type) := Prog Answer α

def call (c : Call) : Async (Answer c) := Prog.call c

/-! ## The documented pairs -/

/-- The narrower permissions that may stand in for the value, the closest tier first. -/
def downgradeAlternatives (value : Text) : List Text :=
  ((Audit.subsumedAppPermissions.filter (fun row => row.2.contains value)).map (·.1)).insertionSort
    (fun a b => (Audit.subsumingAppPermissions a).length ≤ (Audit.subsumingAppPermissions b).length)

def isDocumentedDowngrade (broadValue narrowValue : Text) : Bool :=
  (downgradeAlternatives broadValue).contains narrowValue

theorem ne_of_documented {broadValue narrowValue : Text}
    (h : isDocumentedDowngrade broadValue narrowValue = true) : broadValue ≠ narrowValue := by
  rintro rfl
  unfold isDocumentedDowngrade downgradeAlternatives at h
  rw [List.contains_iff_mem, List.mem_insertionSort] at h
  obtain ⟨row, hrow, hkey⟩ := List.mem_map.1 h
  obtain ⟨hmem, hcovers⟩ := List.mem_filter.1 hrow
  rw [List.contains_iff_mem, ← hkey] at hcovers
  exact (Audit.subsumedAppPermissions_closed row hmem).1 hcovers

/-! ## The command -/

section Command

variable (toUi : GraphError → UiError)

/-- The first enabled role of that value. -/
def roleId (resourceSp : ResourceSp) (value : Text) : Option Text :=
  (resourceSp.appRoles.find? (fun r => r.value == value && r.isEnabled != some false)).map (·.id)

def isRole (resourceId appRoleId : Text) (a : AppRoleAssignment) : Bool :=
  a.resourceId == resourceId && a.appRoleId == appRoleId

/-- The revoke, whose failure is kept beside what was granted. -/
def revokeBroad (spId assignmentId : Text) (narrowGranted : Bool) :
    Async (DowngradeOutcome × Option UiError) := do
  match ← call (.removeAppRoleAssignment spId assignmentId) with
  | .ok () => return (⟨narrowGranted, true, false⟩, none)
  | .error err => return (⟨narrowGranted, false, false⟩, some (toUi err))

/-- Grant before strip. -/
def swapGrants (spId resourceId broadId narrowId : Text) :
    Async (Except UiError (DowngradeOutcome × Option UiError)) := do
  match ← call (.listAppRoleAssignments spId) with
  | .error err => return .error (toUi err)
  | .ok assignments =>
    match assignments.find? (isRole resourceId broadId) with
    | none => return .ok (⟨false, false, false⟩, none)
    | some broadAssignment =>
      if assignments.any (isRole resourceId narrowId) then
        return .ok (← revokeBroad toUi spId broadAssignment.id false)
      else
        match ← call (.grantAppRole spId resourceId narrowId) with
        | .error err => return .error (toUi err)
        | .ok () => return .ok (← revokeBroad toUi spId broadAssignment.id true)

/-- The trailing patch, if the broad role is declared. -/
def swapDeclaration (objectId resourceAppId broadId narrowId : Text)
    (required : List RequiredResourceAccess) (outcome : DowngradeOutcome) :
    Async (DowngradeOutcome × Option UiError) := do
  let next := swapDeclaredRole required resourceAppId broadId narrowId
  if next.2 then
    match ← call (.updateApplication objectId next.1) with
    | .ok () => return ({ outcome with declarationSwapped := true }, none)
    | .error err => return (outcome, some (toUi err))
  else return (outcome, none)

/-- The swap of two known roles; skipped for the manifest when the revoke failed. -/
def swapRoles (objectId resourceAppId : Text) (app : Application) (resourceId broadId narrowId : Text) :
    Async (Except UiError (DowngradeOutcome × Option UiError)) := do
  match ← call (.getServicePrincipalByAppId app.appId) with
  | .error err => return .error (toUi err)
  | .ok sp =>
    let grants ← (match sp with
      | none => return .ok (⟨false, false, false⟩, none)
      | some spId => swapGrants toUi spId resourceId broadId narrowId : Async _)
    match grants with
    | .error err => return .error err
    | .ok (outcome, some err) => return .ok (outcome, some err)
    | .ok (outcome, none) =>
      return .ok (← swapDeclaration toUi objectId resourceAppId broadId narrowId
        app.requiredResourceAccess outcome)

def downgradeApplicationPermissionCore (objectId resourceAppId broadValue narrowValue : Text) :
    Async (Except UiError (DowngradeOutcome × Option UiError)) := do
  if !isDocumentedDowngrade broadValue narrowValue then
    return .error ⟨"not_a_downgrade".toList,
      narrowValue ++ " is not a documented narrower alternative of ".toList ++ broadValue⟩
  else
    match ← call (.getApplication objectId) with
    | .error err => return .error (toUi err)
    | .ok app =>
      match ← call (.resolveResourceSp resourceAppId) with
      | .error err => return .error (toUi err)
      | .ok none => return .error ⟨"resource_not_found".toList,
          "resource app id ".toList ++ resourceAppId ++ " not found".toList⟩
      | .ok (some resourceSp) =>
        match roleId resourceSp broadValue, roleId resourceSp narrowValue with
        | none, _ => return .error ⟨"unknown_permission".toList,
            broadValue ++ " is not an app role on this resource".toList⟩
        | some _, none => return .error ⟨"unknown_permission".toList,
            "this resource does not expose ".toList ++ narrowValue ++
              ", so it cannot be swapped in".toList⟩
        | some broadId, some narrowId =>
          swapRoles toUi objectId resourceAppId app resourceSp.id broadId narrowId

end Command

/-! ## The tenant -/

/-- One application of a tenant. Assignment ids are unique, and a role is assigned once. -/
structure Directory where
  objectId : Text
  appId : Text
  required : List RequiredResourceAccess
  sp : Option Text
  assignments : List AppRoleAssignment
  resources : Text → Option ResourceSp
  ids : (assignments.map (·.id)).Nodup
  once : (assignments.map (fun a => (a.resourceId, a.appRoleId))).Nodup
  homeless : sp = none → assignments = []

/-- What no call of the command changes. -/
def Directory.SameFrame (s s' : Directory) : Prop :=
  s'.objectId = s.objectId ∧ s'.appId = s.appId ∧ s'.sp = s.sp ∧ s'.resources = s.resources

def Granted (s : Directory) (resourceId roleId : Text) (s' : Directory) : Prop :=
  s.SameFrame s' ∧ s'.required = s.required ∧
    ∃ id, s'.assignments = s.assignments ++ [⟨id, roleId, resourceId⟩]

def Revoked (s : Directory) (assignmentId : Text) (s' : Directory) : Prop :=
  s.SameFrame s' ∧ s'.required = s.required ∧
    s'.assignments = s.assignments.filter (fun a => a.id != assignmentId)

def Patched (s : Directory) (required : List RequiredResourceAccess) (s' : Directory) : Prop :=
  s.SameFrame s' ∧ s'.required = required ∧ s'.assignments = s.assignments

/-- A write that succeeded took effect; one that failed may have. -/
def Lands (s : Directory) (r : Except GraphError Unit) (effect : Directory → Prop) (s' : Directory) :
    Prop :=
  match r with
  | .ok () => effect s'
  | .error _ => s' = s ∨ effect s'

/-- Reads are truthful, and nobody else writes. A call about another application or principal changes
    nothing here. -/
def world : World Answer Directory
  | s, .getApplication id, r, s' =>
    s' = s ∧ ∀ app, r = .ok app → id = s.objectId → app = ⟨s.appId, s.required⟩
  | s, .resolveResourceSp id, r, s' => s' = s ∧ ∀ found, r = .ok found → found = s.resources id
  | s, .getServicePrincipalByAppId id, r, s' =>
    s' = s ∧ ∀ found, r = .ok found → id = s.appId → found = s.sp
  | s, .listAppRoleAssignments id, r, s' =>
    s' = s ∧ ∀ found, r = .ok found → s.sp = some id → found.Perm s.assignments
  | s, .grantAppRole id resourceId roleId, r, s' =>
    if s.sp = some id then Lands s r (Granted s resourceId roleId) s' else s' = s
  | s, .removeAppRoleAssignment id assignmentId, r, s' =>
    if s.sp = some id then Lands s r (Revoked s assignmentId) s' else s' = s
  | s, .updateApplication id required, r, s' =>
    if id = s.objectId then Lands s r (Patched s required) s' else s' = s

/-- Runs of the command one after the other, each to its end or cut before one of its calls. -/
inductive Runs (p : Async (Except UiError (DowngradeOutcome × Option UiError))) :
    Directory → Directory → Prop
  | start (s : Directory) : Runs p s s
  | finished {s₀ s s' : Directory} {r : Except UiError (DowngradeOutcome × Option UiError)}
      (hruns : Runs p s₀ s) (hexec : Exec world s p s' r) : Runs p s₀ s'
  | cut {s₀ s s' : Directory} {c : Call} (hruns : Runs p s₀ s) (hasks : Asks world s p s' c) :
      Runs p s₀ s'

/-! ## What is held and declared -/

/-- The two roles, on their resource. -/
structure Roles where
  resourceAppId : Text
  resourceId : Text
  broadId : Text
  narrowId : Text

variable (x : Roles)

def Directory.Holds (s : Directory) (id : Text) : Prop :=
  ∃ a ∈ s.assignments, a.resourceId = x.resourceId ∧ a.appRoleId = id

def Directory.Declares (s : Directory) (id : Text) : Prop :=
  (x.resourceAppId, ⟨id, roleType⟩) ∈ entriesOf s.required

/-- An assignment of neither role. -/
def OtherAssignment (a : AppRoleAssignment) : Prop :=
  ¬ (a.resourceId = x.resourceId ∧ (a.appRoleId = x.broadId ∨ a.appRoleId = x.narrowId))

/-- An entry that declares neither role. -/
def otherEntry (e : Remediation.Entry) : Bool :=
  e != (x.resourceAppId, ⟨x.broadId, roleType⟩) && e != (x.resourceAppId, ⟨x.narrowId, roleType⟩)

/-- What holds at every moment of the runs from `s₀`. -/
structure Safe (s₀ s : Directory) : Prop where
  held : s₀.Holds x x.broadId ∨ s₀.Holds x x.narrowId → s.Holds x x.broadId ∨ s.Holds x x.narrowId
  assignments : ∀ a, OtherAssignment x a → (a ∈ s.assignments ↔ a ∈ s₀.assignments)
  entries : (entriesOf s.required).filter (otherEntry x) = (entriesOf s₀.required).filter (otherEntry x)
  /-- The declaration is dropped only after the assignment is gone. -/
  dropped : s₀.Declares x x.broadId → ¬ s.Declares x x.broadId → ¬ s.Holds x x.broadId

/-- What the first run without an error reaches. -/
structure Downgraded (s₀ s : Directory) : Prop where
  revoked : ¬ s.Holds x x.broadId
  undeclared : ¬ s.Declares x x.broadId
  granted : s₀.Holds x x.broadId → s.Holds x x.narrowId
  declared : s₀.Declares x x.broadId → s.Declares x x.narrowId

/-- How far the runs have come: the invariant. -/
structure Progress (s₀ s : Directory) : Prop where
  frame : s₀.SameFrame s
  manifest : s.required = s₀.required ∨
    s.required = (swapDeclaredRole s₀.required x.resourceAppId x.broadId x.narrowId).1 ∧
      ¬ s.Holds x x.broadId
  others : ∀ a, OtherAssignment x a → (a ∈ s.assignments ↔ a ∈ s₀.assignments)
  /-- The broad role is never assigned again. -/
  broad : ∀ a ∈ s.assignments, a.resourceId = x.resourceId → a.appRoleId = x.broadId →
    a ∈ s₀.assignments
  /-- The narrow role stays. -/
  narrow : ∀ a ∈ s₀.assignments, a.resourceId = x.resourceId → a.appRoleId = x.narrowId →
    a ∈ s.assignments
  held : s₀.Holds x x.broadId → s.Holds x x.broadId ∨ s.Holds x x.narrowId

/-! ## The manifest -/

section Manifest

variable {x} {required : List RequiredResourceAccess}

theorem swap_entries : (entriesOf (swapDeclaredRole required x.resourceAppId x.broadId x.narrowId).1).filter
    (otherEntry x) = (entriesOf required).filter (otherEntry x) := by
  by_cases hdeclared : (x.resourceAppId, ⟨x.broadId, roleType⟩) ∈ entriesOf required
  · have hwithout : (entriesOf (withoutRole required x.resourceAppId x.broadId)).filter (otherEntry x)
        = (entriesOf required).filter (otherEntry x) := by
      unfold withoutRole
      rw [Remediation.entriesOf_removeDeclaredAccess, List.filter_filter]
      apply List.filter_congr
      intro e _
      cases hmatch : Remediation.matchesOn x.resourceAppId x.broadId (some roleType) e with
      | false => simp
      | true =>
        rw [(Remediation.matchesOn_role ..).1 hmatch]
        simp [otherEntry]
    rw [Remediation.swapDeclaredRole_of_present hdeclared]
    split
    · exact hwithout
    · obtain ⟨before, after, hold, hnew⟩ := Remediation.entriesOf_pushAccess x.resourceAppId
        ⟨x.narrowId, roleType⟩ (withoutRole required x.resourceAppId x.broadId)
      rw [hnew, ← hwithout, hold]
      simp [otherEntry]
  · rw [Remediation.swapDeclaredRole_of_absent hdeclared]

theorem swap_declares_narrow (h : (x.resourceAppId, ⟨x.broadId, roleType⟩) ∈ entriesOf required) :
    (x.resourceAppId, ⟨x.narrowId, roleType⟩) ∈
      entriesOf (swapDeclaredRole required x.resourceAppId x.broadId x.narrowId).1 := by
  rw [Remediation.swapDeclaredRole_of_present h]
  split
  · next hnarrow => exact hnarrow
  · exact Remediation.mem_entriesOf_pushAccess.2 (.inr rfl)

theorem swap_drops_broad (hne : x.broadId ≠ x.narrowId) :
    (x.resourceAppId, ⟨x.broadId, roleType⟩) ∉
      entriesOf (swapDeclaredRole required x.resourceAppId x.broadId x.narrowId).1 := by
  by_cases hdeclared : (x.resourceAppId, ⟨x.broadId, roleType⟩) ∈ entriesOf required
  · rw [Remediation.swapDeclaredRole_of_present hdeclared]
    split
    · exact fun hmem => (Remediation.mem_withoutRole.1 hmem).2 rfl
    · intro hmem
      rcases Remediation.mem_entriesOf_pushAccess.1 hmem with hmem | heq
      · exact (Remediation.mem_withoutRole.1 hmem).2 rfl
      · simp only [Prod.mk.injEq, Remediation.ResourceAccess.mk.injEq, true_and, and_true] at heq
        exact hne heq
  · rw [Remediation.swapDeclaredRole_of_absent hdeclared]
    exact hdeclared

theorem swap_flag (h : (swapDeclaredRole required x.resourceAppId x.broadId x.narrowId).2 = false) :
    (x.resourceAppId, ⟨x.broadId, roleType⟩) ∉ entriesOf required := by
  intro hdeclared
  rw [Remediation.swapDeclaredRole_of_present hdeclared] at h
  exact Bool.noConfusion h

end Manifest

/-! ## What each write keeps -/

section Writes

variable {x} {s₀ s s' : Directory}

theorem Directory.eq_of_id {a b : AppRoleAssignment} (ha : a ∈ s.assignments) (hb : b ∈ s.assignments)
    (hid : a.id = b.id) : a = b := List.inj_on_of_nodup_map s.ids ha hb hid

theorem Directory.eq_of_role {a b : AppRoleAssignment} (ha : a ∈ s.assignments)
    (hb : b ∈ s.assignments) (hresource : a.resourceId = b.resourceId)
    (hrole : a.appRoleId = b.appRoleId) : a = b :=
  List.inj_on_of_nodup_map s.once ha hb (Prod.ext hresource hrole)

theorem Progress.refl (s : Directory) : Progress x s s where
  frame := ⟨rfl, rfl, rfl, rfl⟩
  manifest := .inl rfl
  others _ _ := Iff.rfl
  broad _ ha _ _ := ha
  narrow _ ha _ _ := ha
  held := .inl

theorem Directory.SameFrame.trans {s'' : Directory} (h : s.SameFrame s') (h' : s'.SameFrame s'') :
    s.SameFrame s'' :=
  ⟨h'.1.trans h.1, h'.2.1.trans h.2.1, h'.2.2.1.trans h.2.2.1, h'.2.2.2.trans h.2.2.2⟩

theorem Progress.grant (h : Progress x s₀ s) (hne : x.broadId ≠ x.narrowId)
    (hheld : s.Holds x x.broadId) (hgrant : Granted s x.resourceId x.narrowId s') :
    Progress x s₀ s' := by
  obtain ⟨hframe, hrequired, id, hassign⟩ := hgrant
  have hmem : ∀ a, a ∈ s'.assignments ↔ a ∈ s.assignments ∨ a = ⟨id, x.narrowId, x.resourceId⟩ := by
    intro a
    rw [hassign, List.mem_append, List.mem_singleton]
  constructor
  case frame => exact h.frame.trans hframe
  case manifest =>
    -- the broad role is held, so nothing is swapped yet
    rcases h.manifest with hsame | ⟨-, hgone⟩
    · exact .inl (hrequired.trans hsame)
    · exact absurd hheld hgone
  case others =>
    intro a hother
    rw [hmem, ← h.others a hother]
    constructor
    · rintro (ha | rfl)
      · exact ha
      · exact absurd ⟨rfl, .inr rfl⟩ hother
    · exact .inl
  case broad =>
    intro a ha hresource hrole
    rcases (hmem a).1 ha with ha | rfl
    · exact h.broad a ha hresource hrole
    · exact absurd hrole.symm hne
  case narrow =>
    intro a ha hresource hrole
    exact (hmem a).2 (.inl (h.narrow a ha hresource hrole))
  case held =>
    intro _
    obtain ⟨a, ha, hrole⟩ := hheld
    exact .inl ⟨a, (hmem a).2 (.inl ha), hrole⟩

/-- The assignment is gone, and with it the role. -/
theorem Revoked.not_holds {a : AppRoleAssignment} (ha : a ∈ s.assignments)
    (hresource : a.resourceId = x.resourceId) (hrole : a.appRoleId = x.broadId)
    (hrevoked : Revoked s a.id s') : ¬ s'.Holds x x.broadId := by
  rintro ⟨b, hb, hbresource, hbrole⟩
  rw [hrevoked.2.2, List.mem_filter] at hb
  have heq := Directory.eq_of_role hb.1 ha (hbresource.trans hresource.symm) (hbrole.trans hrole.symm)
  rw [heq] at hb
  simp at hb

theorem Progress.revoke (h : Progress x s₀ s) (hne : x.broadId ≠ x.narrowId) {a : AppRoleAssignment}
    (ha : a ∈ s.assignments) (hresource : a.resourceId = x.resourceId)
    (hrole : a.appRoleId = x.broadId) (hnarrow : s.Holds x x.narrowId)
    (hrevoked : Revoked s a.id s') : Progress x s₀ s' := by
  have hgone := hrevoked.not_holds ha hresource hrole
  obtain ⟨hframe, hrequired, hassign⟩ := hrevoked
  have hmem : ∀ b, b ∈ s'.assignments ↔ b ∈ s.assignments ∧ b ≠ a := by
    intro b
    rw [hassign, List.mem_filter, bne_iff_ne]
    constructor
    · rintro ⟨hb, hid⟩
      exact ⟨hb, fun heq => hid (congrArg _ heq)⟩
    · rintro ⟨hb, hneq⟩
      exact ⟨hb, fun hid => hneq (Directory.eq_of_id hb ha hid)⟩
  constructor
  case frame => exact h.frame.trans hframe
  case manifest =>
    rcases h.manifest with hsame | ⟨hswapped, -⟩
    · exact .inl (hrequired.trans hsame)
    · exact .inr ⟨hrequired.trans hswapped, hgone⟩
  case others =>
    intro b hother
    rw [hmem, ← h.others b hother]
    constructor
    · exact And.left
    · rintro hb
      refine ⟨hb, ?_⟩
      rintro rfl
      exact hother ⟨hresource, .inl hrole⟩
  case broad =>
    intro b hb
    exact h.broad b ((hmem b).1 hb).1
  case narrow =>
    intro b hb hbresource hbrole
    refine (hmem b).2 ⟨h.narrow b hb hbresource hbrole, ?_⟩
    rintro rfl
    exact hne (hrole.symm.trans hbrole)
  case held =>
    intro _
    obtain ⟨b, hb, hbresource, hbrole⟩ := hnarrow
    refine .inr ⟨b, (hmem b).2 ⟨hb, ?_⟩, hbresource, hbrole⟩
    rintro rfl
    exact hne (hrole.symm.trans hbrole)

theorem Patched.holds {required : List RequiredResourceAccess} (hpatched : Patched s required s')
    {id : Text} : s'.Holds x id ↔ s.Holds x id := by
  unfold Directory.Holds
  rw [hpatched.2.2]

theorem Progress.patch (h : Progress x s₀ s) (hne : x.broadId ≠ x.narrowId) (hgone : ¬ s.Holds x x.broadId)
    (hpatched : Patched s (swapDeclaredRole s.required x.resourceAppId x.broadId x.narrowId).1 s') :
    Progress x s₀ s' := by
  have hholds := @Patched.holds x s s' _ hpatched
  obtain ⟨hframe, hrequired, hassign⟩ := hpatched
  constructor
  case frame => exact h.frame.trans hframe
  case manifest =>
    refine .inr ⟨?_, fun hheld => hgone (hholds.1 hheld)⟩
    rcases h.manifest with hsame | ⟨hswapped, -⟩
    · rw [hrequired, hsame]
    · -- the swap of a swapped manifest changes nothing
      rw [hrequired, hswapped, Remediation.swapDeclaredRole_of_absent (swap_drops_broad hne)]
  case others => exact fun a hother => hassign ▸ h.others a hother
  case broad => exact fun a ha => h.broad a (hassign ▸ ha)
  case narrow => exact fun a ha hresource hrole => hassign ▸ h.narrow a ha hresource hrole
  case held =>
    intro hheld
    rw [hholds, hholds]
    exact h.held hheld

/-- A swap whose answer was lost is a swap, or none. -/
theorem Lands.elim {r : Except GraphError Unit} {effect : Directory → Prop} {P : Directory → Prop}
    (hlands : Lands s r effect s') (hkeep : P s) (heffect : ∀ t, effect t → P t) : P s' := by
  cases r with
  | ok u => exact heffect s' hlands
  | error err =>
    rcases hlands with rfl | hdone
    · exact hkeep
    · exact heffect s' hdone

end Writes

/-! ## One run -/

section Run

variable {x} {toUi : GraphError → UiError} {s₀ s : Directory}

theorem holds_of_isRole {a : AppRoleAssignment} {id : Text} (ha : a ∈ s.assignments)
    (hrole : isRole x.resourceId id a = true) : s.Holds x id := by
  unfold isRole at hrole
  rw [Bool.and_eq_true, beq_iff_eq, beq_iff_eq] at hrole
  exact ⟨a, ha, hrole⟩

theorem Directory.SameFrame.sp {s' : Directory} (h : s.SameFrame s') : s'.sp = s.sp := h.2.2.1

theorem revokeBroad_meets (h : Progress x s₀ s) (hne : x.broadId ≠ x.narrowId) {spId : Text}
    (hsp : s.sp = some spId) {a : AppRoleAssignment} (ha : a ∈ s.assignments)
    (hrole : isRole x.resourceId x.broadId a = true) (hnarrow : s.Holds x x.narrowId) (narrowGranted : Bool) :
    Meets world (fun s _ => Progress x s₀ s)
      (fun s' r => Progress x s₀ s' ∧ s'.required = s.required ∧
        (r.2 = none → ¬ s'.Holds x x.broadId)) s (revokeBroad toUi spId a.id narrowGranted) := by
  have hparts : a.resourceId = x.resourceId ∧ a.appRoleId = x.broadId := by
    simpa [isRole] using hrole
  refine Meets.bind ⟨h, fun r s' hw => ?_⟩
  rw [world, if_pos hsp] at hw
  have hkept : Progress x s₀ s' ∧ s'.required = s.required :=
    Lands.elim (P := fun t => Progress x s₀ t ∧ t.required = s.required) hw ⟨h, rfl⟩
      fun t ht => ⟨h.revoke hne ha hparts.1 hparts.2 hnarrow ht, ht.2.1⟩
  cases r with
  | ok u =>
    have hgone : ¬ s'.Holds x x.broadId := Revoked.not_holds ha hparts.1 hparts.2 hw
    exact Meets.pure ⟨hkept.1, hkept.2, fun _ => hgone⟩
  | error err => exact Meets.pure ⟨hkept.1, hkept.2, fun hnone => by cases hnone⟩

theorem swapGrants_meets (h : Progress x s₀ s) (hne : x.broadId ≠ x.narrowId) {spId : Text}
    (hsp : s.sp = some spId) :
    Meets world (fun s _ => Progress x s₀ s)
      (fun s' r => Progress x s₀ s' ∧ s'.required = s.required ∧
        ∀ outcome, r = .ok (outcome, none) → ¬ s'.Holds x x.broadId) s
      (swapGrants toUi spId x.resourceId x.broadId x.narrowId) := by
  refine Meets.bind ⟨h, fun r s₁ hw => ?_⟩
  obtain ⟨rfl, hread⟩ := hw
  cases r with
  | error err => exact Meets.pure ⟨h, rfl, fun _ hok => by cases hok⟩
  | ok assignments =>
    have hperm := hread assignments rfl hsp
    refine Meets.pure ?_
    dsimp only
    cases hfind : assignments.find? (isRole x.resourceId x.broadId) with
    | none =>
      refine Meets.pure ⟨h, rfl, fun _ _ => ?_⟩
      rintro ⟨a, ha, hresource, hrole⟩
      have hmiss := List.find?_eq_none.1 hfind a (hperm.mem_iff.2 ha)
      exact hmiss (by simp [isRole, hresource, hrole])
    | some a =>
      have ha := hperm.mem_iff.1 (List.mem_of_find?_eq_some hfind)
      have hrole : isRole x.resourceId x.broadId a = true := List.find?_some hfind
      dsimp only
      split
      · next hany =>
        obtain ⟨b, hb, hbrole⟩ := List.any_eq_true.1 hany
        have hnarrow := holds_of_isRole (hperm.mem_iff.1 hb) hbrole
        refine Meets.bind ((revokeBroad_meets h hne hsp ha hrole hnarrow false).mono ?_)
        rintro t ⟨outcome, err⟩ ⟨hprogress, hrequired, hgone⟩
        refine Meets.pure ⟨hprogress, hrequired, fun _ hok => hgone ?_⟩
        cases hok
        rfl
      · refine Meets.bind ⟨h, fun r s' hw => ?_⟩
        rw [world, if_pos hsp] at hw
        have hheld := holds_of_isRole ha hrole
        have hkept : Progress x s₀ s' ∧ s'.required = s₁.required :=
          Lands.elim (P := fun t => Progress x s₀ t ∧ t.required = s₁.required) hw ⟨h, rfl⟩
            fun t ht => ⟨h.grant hne hheld ht, ht.2.1⟩
        cases r with
        | error err => exact Meets.pure ⟨hkept.1, hkept.2, fun _ hok => by cases hok⟩
        | ok u =>
          obtain ⟨hframe, -, id, hassign⟩ : Granted s₁ x.resourceId x.narrowId s' := hw
          have ha' : a ∈ s'.assignments := by
            rw [hassign]
            exact List.mem_append_left _ ha
          have hnarrow : s'.Holds x x.narrowId :=
            ⟨⟨id, x.narrowId, x.resourceId⟩, by rw [hassign]; simp, rfl, rfl⟩
          refine Meets.bind ((revokeBroad_meets hkept.1 hne (hframe.sp.trans hsp) ha' hrole
            hnarrow true).mono ?_)
          rintro t ⟨outcome, err⟩ ⟨hprogress, hrequired, hgone⟩
          refine Meets.pure ⟨hprogress, hrequired.trans hkept.2, fun _ hok => hgone ?_⟩
          cases hok
          rfl

variable (toUi) in
theorem swapDeclaration_meets (h : Progress x s₀ s) (hne : x.broadId ≠ x.narrowId)
    (hgone : ¬ s.Holds x x.broadId) (outcome : DowngradeOutcome) :
    Meets world (fun s _ => Progress x s₀ s)
      (fun s' r => Progress x s₀ s' ∧
        (r.2 = none → ¬ s'.Holds x x.broadId ∧ ¬ s'.Declares x x.broadId)) s
      (swapDeclaration toUi s.objectId x.resourceAppId x.broadId x.narrowId s.required outcome) := by
  unfold swapDeclaration
  dsimp only
  split
  · refine Meets.bind ⟨h, fun r s' hw => ?_⟩
    rw [world, if_pos rfl] at hw
    have hkept : Progress x s₀ s' := Lands.elim hw h fun t ht => h.patch hne hgone ht
    cases r with
    | error err => exact Meets.pure ⟨hkept, fun hnone => by cases hnone⟩
    | ok u =>
      have hpatched : Patched s _ s' := hw
      refine Meets.pure ⟨hkept, fun _ => ⟨fun hheld => hgone (hpatched.holds.1 hheld), ?_⟩⟩
      unfold Directory.Declares
      rw [hpatched.2.1]
      exact swap_drops_broad hne
  · next hflag => exact Meets.pure ⟨h, fun _ => ⟨hgone, swap_flag (Bool.eq_false_iff.2 hflag)⟩⟩

theorem Progress.homeless_gone (hsp : s.sp = none) : ¬ s.Holds x x.broadId := by
  rintro ⟨a, ha, -⟩
  rw [s.homeless hsp] at ha
  exact absurd ha List.not_mem_nil

/-- A run goes on from where the runs before it stopped. -/
def RunEnd (s₀ s' : Directory) (r : Except UiError (DowngradeOutcome × Option UiError)) : Prop :=
  Progress x s₀ s' ∧ ∀ outcome, r = .ok (outcome, none) →
    ¬ s'.Holds x x.broadId ∧ ¬ s'.Declares x x.broadId

theorem swapRoles_meets (h : Progress x s₀ s) (hne : x.broadId ≠ x.narrowId) :
    Meets world (fun s _ => Progress x s₀ s) (RunEnd (x := x) s₀) s
      (swapRoles toUi s.objectId x.resourceAppId ⟨s.appId, s.required⟩ x.resourceId x.broadId
        x.narrowId) := by
  refine Meets.bind ⟨h, fun r s' hw => ?_⟩
  obtain ⟨rfl, hread⟩ := hw
  cases r with
  | error err => exact Meets.pure ⟨h, fun _ hok => by cases hok⟩
  | ok sp =>
    obtain rfl := hread sp rfl rfl
    have hgrants : Meets world (fun s _ => Progress x s₀ s)
        (fun t r => Progress x s₀ t ∧ t.required = s'.required ∧
          ∀ outcome, r = .ok (outcome, none) → ¬ t.Holds x x.broadId) s'
        (match s'.sp with
          | none => pure (.ok (⟨false, false, false⟩, none))
          | some spId => swapGrants toUi spId x.resourceId x.broadId x.narrowId) := by
      cases hsp : s'.sp with
      | none => exact Meets.pure ⟨h, rfl, fun _ _ => Progress.homeless_gone hsp⟩
      | some spId => exact swapGrants_meets h hne hsp
    refine Meets.pure ?_
    refine Meets.bind (hgrants.mono (fun t r hr => ?_))
    obtain ⟨hprogress, hrequired, hgone⟩ := hr
    rcases r with err | ⟨outcome, err | err⟩
    · exact Meets.pure ⟨hprogress, fun _ hok => by cases hok⟩
    · have hsame : t.objectId = s'.objectId := hprogress.frame.1.trans h.frame.1.symm
      have hswap := swapDeclaration_meets toUi hprogress hne (hgone outcome rfl) outcome
      rw [hsame, hrequired] at hswap
      refine Meets.bind (hswap.mono ?_)
      rintro u ⟨outcome', err⟩ ⟨hend, hdone⟩
      refine Meets.pure ⟨hend, fun _ hok => hdone ?_⟩
      cases hok
      rfl
    · exact Meets.pure ⟨hprogress, fun _ hok => by cases hok⟩

/-- Enabled roles of two values are two roles. -/
theorem roleId_ne {sp : ResourceSp} {broadValue narrowValue broadId narrowId : Text}
    (hne : broadValue ≠ narrowValue) (hbroad : roleId sp broadValue = some broadId)
    (hnarrow : roleId sp narrowValue = some narrowId) : broadId ≠ narrowId := by
  obtain ⟨b, hb, rfl⟩ := Option.map_eq_some_iff.1 hbroad
  obtain ⟨n, hn, rfl⟩ := Option.map_eq_some_iff.1 hnarrow
  intro hid
  have hsame := List.inj_on_of_nodup_map sp.distinct (List.mem_of_find?_eq_some hb)
    (List.mem_of_find?_eq_some hn) hid
  have hbvalue := List.find?_some hb
  have hnvalue := List.find?_some hn
  simp only [Bool.and_eq_true, beq_iff_eq] at hbvalue hnvalue
  exact hne (hbvalue.1.symm.trans ((congrArg AppRole.value hsame).trans hnvalue.1))

variable {sp : ResourceSp} {broadValue narrowValue : Text}

theorem downgrade_meets (hsp : s₀.resources x.resourceAppId = some sp) (hid : sp.id = x.resourceId)
    (hbroad : roleId sp broadValue = some x.broadId) (hnarrow : roleId sp narrowValue = some x.narrowId)
    (h : Progress x s₀ s) :
    Meets world (fun s _ => Progress x s₀ s) (RunEnd (x := x) s₀) s
      (downgradeApplicationPermissionCore toUi s₀.objectId x.resourceAppId broadValue narrowValue) := by
  unfold downgradeApplicationPermissionCore
  split
  · exact Meets.pure ⟨h, fun _ hok => by cases hok⟩
  · next hpair =>
    have hdocumented : isDocumentedDowngrade broadValue narrowValue = true := by simpa using hpair
    have hne := roleId_ne (ne_of_documented hdocumented) hbroad hnarrow
    refine Meets.bind ⟨h, fun r s₁ hw => ?_⟩
    obtain ⟨rfl, happ⟩ := hw
    cases r with
    | error err => exact Meets.pure ⟨h, fun _ hok => by cases hok⟩
    | ok app =>
      obtain rfl := happ app rfl h.frame.1.symm
      refine Meets.bind ⟨h, fun r s₂ hw => ?_⟩
      obtain ⟨rfl, hfound⟩ := hw
      cases r with
      | error err => exact Meets.pure ⟨h, fun _ hok => by cases hok⟩
      | ok found =>
        have hsame : found = some sp := by rw [hfound found rfl, h.frame.2.2.2, hsp]
        subst hsame
        refine Meets.pure ?_
        dsimp only
        rw [hbroad, hnarrow, hid, ← h.frame.1]
        exact swapRoles_meets h hne

end Run

/-! ## All runs -/

section Runs

variable {x} {s₀ s : Directory}

theorem Progress.safe (h : Progress x s₀ s) : Safe x s₀ s where
  held hheld := by
    rcases hheld with hbroad | ⟨a, ha, hresource, hrole⟩
    · exact h.held hbroad
    · exact .inr ⟨a, h.narrow a ha hresource hrole, hresource, hrole⟩
  assignments := h.others
  entries := by
    rcases h.manifest with hsame | ⟨hswapped, -⟩
    · rw [hsame]
    · rw [hswapped, swap_entries]
  dropped hbefore hafter := by
    rcases h.manifest with hsame | ⟨-, hgone⟩
    · unfold Directory.Declares at hbefore hafter
      rw [hsame] at hafter
      exact absurd hbefore hafter
    · exact hgone

theorem Progress.downgraded (h : Progress x s₀ s) (hgone : ¬ s.Holds x x.broadId)
    (hundeclared : ¬ s.Declares x x.broadId) : Downgraded x s₀ s where
  revoked := hgone
  undeclared := hundeclared
  granted hheld := (h.held hheld).resolve_left hgone
  declared hbefore := by
    rcases h.manifest with hsame | ⟨hswapped, -⟩
    · unfold Directory.Declares at hbefore hundeclared
      rw [hsame] at hundeclared
      exact absurd hbefore hundeclared
    · unfold Directory.Declares
      rw [hswapped]
      exact swap_declares_narrow hbefore

theorem progress_of_runs {toUi : GraphError → UiError} {sp : ResourceSp}
    {broadValue narrowValue : Text} (hsp : s₀.resources x.resourceAppId = some sp)
    (hid : sp.id = x.resourceId) (hbroad : roleId sp broadValue = some x.broadId)
    (hnarrow : roleId sp narrowValue = some x.narrowId)
    (hruns : Runs (downgradeApplicationPermissionCore toUi s₀.objectId x.resourceAppId broadValue
      narrowValue) s₀ s) : Progress x s₀ s := by
  induction hruns with
  | start => exact Progress.refl s₀
  | finished _ hexec ih => exact ((downgrade_meets hsp hid hbroad hnarrow ih).sound hexec).1
  | cut _ hasks ih => exact (downgrade_meets hsp hid hbroad hnarrow ih).asked hasks

/-- At every moment of any sequence of runs nothing is stranded and nothing else changes; the first run
    that returns no error is the last that is needed. -/
theorem downgrade_never_strands (toUi : GraphError → UiError) {sp : ResourceSp}
    {broadValue narrowValue broadId narrowId resourceAppId : Text}
    (hsp : s₀.resources resourceAppId = some sp) (hbroad : roleId sp broadValue = some broadId)
    (hnarrow : roleId sp narrowValue = some narrowId)
    (hruns : Runs (downgradeApplicationPermissionCore toUi s₀.objectId resourceAppId broadValue
      narrowValue) s₀ s) :
    Safe ⟨resourceAppId, sp.id, broadId, narrowId⟩ s₀ s ∧
      ∀ outcome s', Exec world s (downgradeApplicationPermissionCore toUi s₀.objectId resourceAppId
        broadValue narrowValue) s' (.ok (outcome, none)) →
        Downgraded ⟨resourceAppId, sp.id, broadId, narrowId⟩ s₀ s' := by
  have h : Progress ⟨resourceAppId, sp.id, broadId, narrowId⟩ s₀ s :=
    progress_of_runs (x := ⟨resourceAppId, sp.id, broadId, narrowId⟩) hsp rfl hbroad hnarrow hruns
  refine ⟨h.safe, fun outcome s' hexec => ?_⟩
  obtain ⟨hprogress, hdone⟩ := (downgrade_meets hsp rfl hbroad hnarrow h).sound hexec
  obtain ⟨hgone, hundeclared⟩ := hdone outcome rfl
  exact hprogress.downgraded hgone hundeclared

end Runs

/-! ## A run that is cut, and the next -/

/-- The directory after a grant, where the role may be granted. -/
def Directory.grant (s : Directory) (a : AppRoleAssignment) : Option Directory :=
  if h : ((s.assignments ++ [a]).map (·.id)).Nodup ∧
      ((s.assignments ++ [a]).map (fun b => (b.resourceId, b.appRoleId))).Nodup ∧ s.sp ≠ none then
    some { s with
      assignments := s.assignments ++ [a]
      ids := h.1
      once := h.2.1
      homeless := fun hsp => absurd hsp h.2.2 }
  else none

def Directory.revoke (s : Directory) (id : Text) : Directory :=
  { s with
    assignments := s.assignments.filter (fun a => a.id != id)
    ids := s.ids.sublist (List.filter_sublist.map _)
    once := s.once.sublist (List.filter_sublist.map _)
    homeless := fun hsp => by rw [s.homeless hsp, List.filter_nil] }

/-- Every call succeeds; the id of a new assignment is that of its role. -/
def serve (s : Directory) : (c : Call) → Option (Answer c × Directory)
  | .getApplication _ => some (.ok ⟨s.appId, s.required⟩, s)
  | .resolveResourceSp id => some (.ok (s.resources id), s)
  | .getServicePrincipalByAppId _ => some (.ok s.sp, s)
  | .listAppRoleAssignments _ => some (.ok s.assignments, s)
  | .grantAppRole id resourceId roleId =>
    if s.sp = some id then (s.grant ⟨roleId, roleId, resourceId⟩).map (fun s' => (.ok (), s')) else none
  | .removeAppRoleAssignment id assignmentId =>
    if s.sp = some id then some (.ok (), s.revoke assignmentId) else none
  | .updateApplication id required =>
    if id = s.objectId then some (.ok (), { s with required := required }) else none

theorem world_of_serve (s : Directory) (c : Call) (r : Answer c) (s' : Directory)
    (h : serve s c = some (r, s')) : world s c r s' := by
  cases c with
  | getApplication id =>
    obtain ⟨rfl, rfl⟩ := Prod.mk.inj (Option.some.inj h)
    exact ⟨rfl, fun app happ _ => (Except.ok.inj happ).symm⟩
  | resolveResourceSp id =>
    obtain ⟨rfl, rfl⟩ := Prod.mk.inj (Option.some.inj h)
    exact ⟨rfl, fun found hfound => (Except.ok.inj hfound).symm⟩
  | getServicePrincipalByAppId id =>
    obtain ⟨rfl, rfl⟩ := Prod.mk.inj (Option.some.inj h)
    exact ⟨rfl, fun found hfound _ => (Except.ok.inj hfound).symm⟩
  | listAppRoleAssignments id =>
    obtain ⟨rfl, rfl⟩ := Prod.mk.inj (Option.some.inj h)
    exact ⟨rfl, fun found hfound _ => Except.ok.inj hfound ▸ .refl _⟩
  | grantAppRole id resourceId roleId =>
    dsimp only [serve] at h
    split at h
    · next hsp =>
      obtain ⟨t, hgrant, heq⟩ := Option.map_eq_some_iff.1 h
      obtain ⟨rfl, rfl⟩ := Prod.mk.inj heq
      unfold Directory.grant at hgrant
      split at hgrant
      · obtain rfl := Option.some.inj hgrant
        rw [world, if_pos hsp]
        exact ⟨⟨rfl, rfl, rfl, rfl⟩, rfl, roleId, rfl⟩
      · exact absurd hgrant (by simp)
    · exact absurd h (by simp)
  | removeAppRoleAssignment id assignmentId =>
    dsimp only [serve] at h
    split at h
    · next hsp =>
      obtain ⟨rfl, rfl⟩ := Prod.mk.inj (Option.some.inj h)
      rw [world, if_pos hsp]
      exact ⟨⟨rfl, rfl, rfl, rfl⟩, rfl, rfl⟩
    · exact absurd h (by simp)
  | updateApplication id required =>
    dsimp only [serve] at h
    split at h
    · next hid =>
      obtain ⟨rfl, rfl⟩ := Prod.mk.inj (Option.some.inj h)
      rw [world, if_pos hid]
      exact ⟨⟨rfl, rfl, rfl, rfl⟩, rfl, rfl⟩
    · exact absurd h (by simp)

def mailResource : ResourceSp where
  id := ['g']
  appRoles := [⟨['b'], "Mail.ReadWrite".toList, some true⟩, ⟨['n'], "Mail.Read".toList, none⟩]
  distinct := by decide

/-- An application that may write all mail. -/
def mailWriter : Directory where
  objectId := ['o']
  appId := ['a']
  required := [⟨['m'], [⟨['b'], roleType⟩, ⟨['u'], roleType⟩]⟩]
  sp := some ['s']
  assignments := [⟨['1'], ['b'], ['g']⟩]
  resources _ := some mailResource
  ids := by decide
  once := by decide
  homeless := nofun

def plainUi (err : GraphError) : UiError := ⟨err.uiCode, []⟩

def downgradeMail : Async (Except UiError (DowngradeOutcome × Option UiError)) :=
  downgradeApplicationPermissionCore plainUi ['o'] ['m'] "Mail.ReadWrite".toList "Mail.Read".toList

def isRevoke : Call → Bool
  | .removeAppRoleAssignment _ _ => true
  | _ => false

/-- Cut before the broad role is revoked the application holds both, and the next run ends with the
    narrow one. -/
theorem downgrade_never_strands_cut : ∃ s c s',
    Asks world mailWriter downgradeMail s c ∧ s.assignments = [⟨['1'], ['b'], ['g']⟩, ⟨['n'], ['n'], ['g']⟩] ∧
      Safe ⟨['m'], ['g'], ['b'], ['n']⟩ mailWriter s ∧ Downgraded ⟨['m'], ['g'], ['b'], ['n']⟩ mailWriter s' ∧
      s'.assignments = [⟨['n'], ['n'], ['g']⟩] ∧
      s'.required = [⟨['m'], [⟨['u'], roleType⟩, ⟨['n'], roleType⟩]⟩] := by
  have hplay : (firstAsk serve isRevoke downgradeMail mailWriter).bind (fun e =>
    (run serve downgradeMail e.1).map (fun r => (e.1.assignments, r.1, r.2.assignments, r.2.required))) =
    some ([⟨['1'], ['b'], ['g']⟩, ⟨['n'], ['n'], ['g']⟩], .ok (⟨false, true, true⟩, none),
      [⟨['n'], ['n'], ['g']⟩], [⟨['m'], [⟨['u'], roleType⟩, ⟨['n'], roleType⟩]⟩]) := by decide
  obtain ⟨⟨s, c⟩, hask, hrun⟩ := Option.bind_eq_some_iff.1 hplay
  obtain ⟨hasks, -⟩ := asks_of_firstAsk world_of_serve hask
  obtain ⟨r, s', hexec, hview⟩ := exists_exec_of_run world_of_serve hrun
  obtain ⟨hheld, rfl, hassign, hrequired⟩ : s.assignments = _ ∧ r = .ok (⟨false, true, true⟩, none) ∧
      s'.assignments = _ ∧ s'.required = _ := by
    simpa only [Prod.mk.injEq] using hview
  obtain ⟨hsafe, hdown⟩ := downgrade_never_strands plainUi
    (rfl : mailWriter.resources ['m'] = some mailResource)
    (by decide : roleId mailResource "Mail.ReadWrite".toList = some ['b'])
    (by decide : roleId mailResource "Mail.Read".toList = some ['n']) (.cut (.start mailWriter) hasks)
  exact ⟨s, c, s', hasks, hheld, hsafe, hdown _ s' hexec, hassign, hrequired⟩

end Downgrade
