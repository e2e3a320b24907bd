import AzAppToolkit.Lib.Words
import AzAppToolkit.Remediation.ManifestEdits

set_option autoImplicit false

/-! # The rows of the Permissions tab

`resolve_one_permission` and `resolve_required_resource_access` of
`applications/permissions_resolve.rs`. The ladder looks an id up among the app roles, then among the
scopes, whatever the type of the entry: a row speaks for its own entry exactly if the resource exposes
the id under no other type before. -/

namespace PermissionRows

open Graph (GraphError)
open Remediation (ResourceAccess RequiredResourceAccess AppRoleAssignment entriesOf matchesOn
  matchesEntry removeDeclaredAccess collect roleType)

/-! ## Data -/

inductive PermissionKind where
  | application
  | delegated
  | unknown
deriving DecidableEq

def scopeType : Text := "Scope".toList

def PermissionKind.fromAccessType (kind : Text) : PermissionKind :=
  if kind = roleType then .application
  else if kind = scopeType then .delegated
  else .unknown

structure UiError where
  code : Text
  message : Text

/-- The manifest entry type a permission kind declares. -/
def entryTypeFor : PermissionKind → Except UiError Text
  | .application => .ok roleType
  | .delegated => .ok scopeType
  | .unknown => .error ⟨"invalid_permission_kind".toList,
      "permission kind must be Application or Delegated".toList⟩

structure AppRole where
  id : Text
  value : Text
  displayName : Text

structure PermissionScope where
  id : Text
  value : Text
  adminConsentDisplayName : Option Text

structure ServicePrincipal where
  id : Text
  displayName : Text
  appRoles : List AppRole
  oauth2PermissionScopes : List PermissionScope

structure OAuth2PermissionGrant where
  id : Option Text
  resourceId : Text
  scope : Text

structure ResolvedPermission where
  resourceAppId : Text
  resourceDisplayName : Option Text
  permissionId : Text
  permissionValue : Option Text
  permissionDisplayName : Option Text
  permissionKind : PermissionKind
  runtimeAssignmentId : Option Text
  runtimeGrantId : Option Text

/-! ## Resolving -/

def findRole (sp : ServicePrincipal) (id : Text) : Option AppRole :=
  sp.appRoles.find? (fun r => r.id == id)

def findScope (sp : ServicePrincipal) (id : Text) : Option PermissionScope :=
  sp.oauth2PermissionScopes.find? (fun s => s.id == id)

/-- The live service principal, then the raw id under its declared type. -/
def resolveOnePermission (resourceAppId : Text) (resourceDisplayName : Option Text)
    (liveSp : Option ServicePrincipal) (access : ResourceAccess)
    (runtimeAssignmentFor runtimeGrantFor : Text → Option Text) : ResolvedPermission :=
  match liveSp.bind (findRole · access.id), liveSp.bind (findScope · access.id) with
  | some role, _ =>
    ⟨resourceAppId, resourceDisplayName, access.id, some role.value, some role.displayName,
      .application, runtimeAssignmentFor access.id, none⟩
  | none, some scope =>
    ⟨resourceAppId, resourceDisplayName, access.id, some scope.value,
      some (scope.adminConsentDisplayName.getD scope.value), .delegated, none,
      runtimeGrantFor scope.value⟩
  | none, none =>
    let kind := PermissionKind.fromAccessType access.type
    ⟨resourceAppId, resourceDisplayName, access.id, none, none, kind,
      if kind = .application then runtimeAssignmentFor access.id else none, none⟩

def isAssignment (spId permissionId : Text) (a : AppRoleAssignment) : Bool :=
  a.resourceId == spId && a.appRoleId == permissionId

def coversScope (spId scopeValue : Text) (g : OAuth2PermissionGrant) : Bool :=
  g.resourceId == spId && (Words.splitWhitespace g.scope).any (· == scopeValue)

/-- What the resolution is given: the bundled names of resources, the service principals of the tenant,
    which lookups fail, and what is granted. -/
structure Reads where
  bundled : Text → Option Text
  tenant : Text → Option ServicePrincipal
  unread : Text → Option GraphError
  appRoleAssignments : List AppRoleAssignment
  oauth2PermissionGrants : List OAuth2PermissionGrant

section Resolve

variable (reads : Reads)

def Reads.resolveResourceSp (id : Text) : Except GraphError (Option ServicePrincipal) :=
  match reads.unread id with
  | some err => .error err
  | none => .ok (reads.tenant id)

/-- The distinct resources, each looked up once. -/
def lookups (declared : List RequiredResourceAccess) :
    List (Text × Except GraphError (Option ServicePrincipal)) :=
  (declared.map (·.resourceAppId)).eraseDups.map (fun id => (id, reads.resolveResourceSp id))

def degraded (declared : List RequiredResourceAccess) : Bool :=
  (lookups reads declared).any (fun l => !l.2.toBool)

/-- `live_sps`: a failed lookup counts as no principal. -/
def liveSps (declared : List RequiredResourceAccess) : Text → Option (Option ServicePrincipal) :=
  collect ((lookups reads declared).map (fun l => (l.1, l.2.toOption.join)))

def resolveBlock (declared : List RequiredResourceAccess) (resource : RequiredResourceAccess) :
    List ResolvedPermission :=
  let liveSp := (liveSps reads declared resource.resourceAppId).join
  let displayName := (reads.bundled resource.resourceAppId).or (liveSp.map (·.displayName))
  let runtimeAssignmentFor (permissionId : Text) : Option Text :=
    liveSp.bind (fun sp =>
      (reads.appRoleAssignments.find? (isAssignment sp.id permissionId)).map (·.id))
  let runtimeGrantFor (scopeValue : Text) : Option Text :=
    liveSp.bind (fun sp =>
      (reads.oauth2PermissionGrants.find? (coversScope sp.id scopeValue)).bind (·.id))
  resource.resourceAccess.map (fun access =>
    resolveOnePermission resource.resourceAppId displayName liveSp access runtimeAssignmentFor
      runtimeGrantFor)

def resolveRequiredResourceAccess (declared : List RequiredResourceAccess) :
    List ResolvedPermission × Bool :=
  (declared.flatMap (resolveBlock reads declared), degraded reads declared)

end Resolve

/-! ## What a row should say -/

section Spec

variable (reads : Reads)

/-- The resource exposes the id of the entry under the type of the entry. -/
def Exposed (e : Remediation.Entry) : Prop :=
  ∃ sp, reads.tenant e.1 = some sp ∧
    (e.2.type = roleType ∧ (findRole sp e.2.id).isSome ∨
      e.2.type = scopeType ∧ (findScope sp e.2.id).isSome)

/-- A grant of that kind for that permission on that resource is in the lists. -/
def GrantedInLists (e : Remediation.Entry) : Prop :=
  ∃ sp, reads.tenant e.1 = some sp ∧
    (e.2.type = roleType ∧ (∃ a ∈ reads.appRoleAssignments, isAssignment sp.id e.2.id a = true) ∨
      e.2.type = scopeType ∧ ∃ scope, findScope sp e.2.id = some scope ∧
        ∃ g ∈ reads.oauth2PermissionGrants, coversScope sp.id scope.value g = true)

def ResolvedPermission.hasRuntimeId (row : ResolvedPermission) : Bool :=
  row.runtimeAssignmentId.isSome || row.runtimeGrantId.isSome

/-- The row stands for the entry. -/
structure StandsFor (declared : List RequiredResourceAccess) (e : Remediation.Entry) (row : ResolvedPermission) :
    Prop where
  named : row.resourceAppId = e.1 ∧ row.permissionId = e.2.id
  kind : row.permissionKind = PermissionKind.fromAccessType e.2.type
  /-- Removing by the row removes this entry and none of the other type. -/
  removes : ∀ e', e' ∈ entriesOf (removeDeclaredAccess declared row.resourceAppId row.permissionId
      (entryTypeFor row.permissionKind).toOption).1 ↔ e' ∈ entriesOf declared ∧ e' ≠ e
  runtime : Exposed reads e →
    (row.hasRuntimeId = true ↔ reads.unread e.1 = none ∧ GrantedInLists reads e)
  /-- With nothing degraded a row without a runtime id is not granted. -/
  certain : degraded reads declared = false → Exposed reads e → row.hasRuntimeId = false →
    ¬ GrantedInLists reads e

/-- The ladder comes to the declared type, and a delegated grant it finds has an id. -/
def ReadsAsDeclared (e : Remediation.Entry) : Prop :=
  ∀ sp, reads.unread e.1 = none → reads.tenant e.1 = some sp →
    (e.2.type = roleType → (findRole sp e.2.id).isSome ∨ findScope sp e.2.id = none) ∧
    (e.2.type = scopeType → findRole sp e.2.id = none ∧
      ∀ scope g, findScope sp e.2.id = some scope →
        reads.oauth2PermissionGrants.find? (coversScope sp.id scope.value) = some g → g.id.isSome)

end Spec

/-! ## Lemmas -/

theorem collect_map {α : Type} (ids : List Text) (f : Text → α) {id : Text} (h : id ∈ ids) :
    collect (ids.map (fun i => (i, f i))) id = some (f id) := by
  have hloop : ∀ l : List Text, id ∈ l → (l.map (fun i => (i, f i))).lookup id = some (f id) := by
    intro l hmem
    induction l with
    | nil => exact absurd hmem List.not_mem_nil
    | cons i rest ih =>
      rw [List.map_cons, List.lookup_cons]
      by_cases hi : id = i
      · simp [hi]
      · rw [beq_eq_false_iff_ne.2 hi]
        exact ih ((List.mem_cons.1 hmem).resolve_left hi)
  unfold collect
  rw [← List.map_reverse]
  exact hloop ids.reverse (List.mem_reverse.2 h)

theorem scopeType_ne_roleType : scopeType ≠ roleType := by decide

theorem matchesOn_type (resourceAppId permissionId type : Text) (e : Remediation.Entry) :
    matchesOn resourceAppId permissionId (some type) e = true ↔
      e = (resourceAppId, ⟨permissionId, type⟩) := by
  obtain ⟨resource, id, type'⟩ := e
  simp [matchesOn, matchesEntry]
  tauto

section Rows

variable (reads : Reads) (declared : List RequiredResourceAccess)

/-- The principal a row is read from. -/
def liveSpOf (resourceAppId : Text) : Option ServicePrincipal :=
  match reads.unread resourceAppId with
  | some _ => none
  | none => reads.tenant resourceAppId

def assignmentFor (liveSp : Option ServicePrincipal) (permissionId : Text) : Option Text :=
  liveSp.bind (fun sp =>
    (reads.appRoleAssignments.find? (isAssignment sp.id permissionId)).map (·.id))

def grantFor (liveSp : Option ServicePrincipal) (scopeValue : Text) : Option Text :=
  liveSp.bind (fun sp =>
    (reads.oauth2PermissionGrants.find? (coversScope sp.id scopeValue)).bind (·.id))

/-- The row of one entry. -/
def rowOf (e : Remediation.Entry) : ResolvedPermission :=
  resolveOnePermission e.1 ((reads.bundled e.1).or ((liveSpOf reads e.1).map (·.displayName)))
    (liveSpOf reads e.1) e.2 (assignmentFor reads (liveSpOf reads e.1))
    (grantFor reads (liveSpOf reads e.1))

theorem liveSps_eq {resourceAppId : Text} (h : resourceAppId ∈ declared.map (·.resourceAppId)) :
    (liveSps reads declared resourceAppId).join = liveSpOf reads resourceAppId := by
  unfold liveSps lookups
  rw [List.map_map]
  have hcollect := collect_map (declared.map (·.resourceAppId)).eraseDups
    (fun id => (reads.resolveResourceSp id).toOption.join) (List.mem_eraseDups.2 h)
  simp only [Function.comp_def]
  rw [hcollect]
  unfold liveSpOf Reads.resolveResourceSp
  cases reads.unread resourceAppId <;> rfl

/-- One row for each entry, in the order of the declaration. -/
theorem resolve_rows :
    (resolveRequiredResourceAccess reads declared).1 = (entriesOf declared).map (rowOf reads) := by
  unfold resolveRequiredResourceAccess entriesOf
  rw [List.map_flatMap]
  apply List.flatMap_congr
  intro resource hresource
  unfold resolveBlock RequiredResourceAccess.entries
  rw [liveSps_eq reads declared (List.mem_map_of_mem hresource), List.map_map]
  rfl

theorem degraded_eq_false (h : degraded reads declared = false) {e : Remediation.Entry}
    (he : e ∈ entriesOf declared) : reads.unread e.1 = none := by
  unfold degraded at h
  rw [List.any_eq_false] at h
  obtain ⟨resource, hresource, hid, -⟩ := Remediation.mem_entriesOf.1 he
  have hmem : (e.1, reads.resolveResourceSp e.1) ∈ lookups reads declared := by
    unfold lookups
    rw [hid]
    exact List.mem_map.2 ⟨_, List.mem_eraseDups.2 (List.mem_map_of_mem hresource), rfl⟩
  have hok := h _ hmem
  unfold Reads.resolveResourceSp at hok
  cases hread : reads.unread e.1 with
  | none => rfl
  | some err => simp [hread, Except.toBool] at hok

/-! ## The row of one entry -/

variable {reads} {declared}

theorem liveSpOf_eq_some {id : Text} {sp : ServicePrincipal} :
    liveSpOf reads id = some sp ↔ reads.unread id = none ∧ reads.tenant id = some sp := by
  unfold liveSpOf
  cases reads.unread id <;> simp

theorem rowOf_named (e : Remediation.Entry) :
    (rowOf reads e).resourceAppId = e.1 ∧ (rowOf reads e).permissionId = e.2.id := by
  unfold rowOf resolveOnePermission
  split <;> exact ⟨rfl, rfl⟩

variable {e : Remediation.Entry} {sp : ServicePrincipal}

theorem rowOf_unread (hsp : liveSpOf reads e.1 = none) :
    (rowOf reads e).permissionKind = PermissionKind.fromAccessType e.2.type ∧
      (rowOf reads e).hasRuntimeId = false := by
  unfold rowOf resolveOnePermission ResolvedPermission.hasRuntimeId
  simp [hsp, assignmentFor]

theorem rowOf_role (hsp : liveSpOf reads e.1 = some sp) {role : AppRole}
    (hrole : findRole sp e.2.id = some role) :
    (rowOf reads e).permissionKind = .application ∧
      ((rowOf reads e).hasRuntimeId = true ↔
        ∃ a ∈ reads.appRoleAssignments, isAssignment sp.id e.2.id a = true) := by
  unfold rowOf resolveOnePermission ResolvedPermission.hasRuntimeId
  simp [hsp, hrole, assignmentFor]

theorem rowOf_scope (hsp : liveSpOf reads e.1 = some sp) (hrole : findRole sp e.2.id = none)
    {scope : PermissionScope} (hscope : findScope sp e.2.id = some scope) :
    (rowOf reads e).permissionKind = .delegated ∧
      (rowOf reads e).hasRuntimeId =
        ((reads.oauth2PermissionGrants.find? (coversScope sp.id scope.value)).bind (·.id)).isSome := by
  unfold rowOf resolveOnePermission ResolvedPermission.hasRuntimeId
  simp [hsp, hrole, hscope, grantFor]

theorem rowOf_raw (hsp : liveSpOf reads e.1 = some sp) (hrole : findRole sp e.2.id = none)
    (hscope : findScope sp e.2.id = none) :
    (rowOf reads e).permissionKind = PermissionKind.fromAccessType e.2.type := by
  unfold rowOf resolveOnePermission
  simp [hsp, hrole, hscope]

theorem fromAccessType_role (h : e.2.type = roleType) :
    PermissionKind.fromAccessType e.2.type = .application := by
  simp [PermissionKind.fromAccessType, h]

theorem fromAccessType_scope (h : e.2.type = scopeType) :
    PermissionKind.fromAccessType e.2.type = .delegated := by
  simp [PermissionKind.fromAccessType, h, scopeType_ne_roleType]

/-- The kind of a type leads back to it. -/
theorem entryTypeFor_fromAccessType (htype : e.2.type = roleType ∨ e.2.type = scopeType) :
    (entryTypeFor (PermissionKind.fromAccessType e.2.type)).toOption = some e.2.type := by
  rcases htype with h | h
  · rw [fromAccessType_role h, h]
    rfl
  · rw [fromAccessType_scope h, h]
    rfl

theorem standsFor_of_kind (he : e ∈ entriesOf declared) (htype : e.2.type = roleType ∨ e.2.type = scopeType)
    (hkind : (rowOf reads e).permissionKind = PermissionKind.fromAccessType e.2.type)
    (hruntime : Exposed reads e →
      ((rowOf reads e).hasRuntimeId = true ↔ reads.unread e.1 = none ∧ GrantedInLists reads e)) :
    StandsFor reads declared e (rowOf reads e) where
  named := rowOf_named e
  kind := hkind
  removes e' := by
    rw [hkind, entryTypeFor_fromAccessType htype, (rowOf_named e).1, (rowOf_named e).2,
      Remediation.entriesOf_removeDeclaredAccess, List.mem_filter, Bool.not_eq_true',
      Bool.eq_false_iff, ne_eq, matchesOn_type]
  runtime := hruntime
  certain hwhole hexposed hnone hgranted := by
    have hsome := (hruntime hexposed).2 ⟨degraded_eq_false reads declared hwhole he, hgranted⟩
    rw [hnone] at hsome
    exact Bool.noConfusion hsome

theorem standsFor_iff (he : e ∈ entriesOf declared) (htype : e.2.type = roleType ∨ e.2.type = scopeType) :
    StandsFor reads declared e (rowOf reads e) ↔ ReadsAsDeclared reads e := by
  constructor
  · intro h sp hread hsp
    have hlive := liveSpOf_eq_some.2 ⟨hread, hsp⟩
    constructor
    · intro hrole
      by_contra hother
      simp only [not_or, Option.not_isSome_iff_eq_none] at hother
      obtain ⟨scope, hscope⟩ := Option.ne_none_iff_exists'.1 hother.2
      have hkind := h.kind
      rw [(rowOf_scope hlive hother.1 hscope).1, fromAccessType_role hrole] at hkind
      exact PermissionKind.noConfusion hkind
    · intro hscopeType
      have hnone : findRole sp e.2.id = none := by
        cases hrole : findRole sp e.2.id with
        | none => rfl
        | some role =>
          have hkind := h.kind
          rw [(rowOf_role hlive hrole).1, fromAccessType_scope hscopeType] at hkind
          exact PermissionKind.noConfusion hkind
      refine ⟨hnone, fun scope g hscope hfind => ?_⟩
      have hexposed : Exposed reads e := ⟨sp, hsp, .inr ⟨hscopeType, by simp [hscope]⟩⟩
      have hgranted : GrantedInLists reads e := ⟨sp, hsp, .inr ⟨hscopeType, scope, hscope, g,
        List.mem_of_find?_eq_some hfind, List.find?_some hfind⟩⟩
      have hid := (h.runtime hexposed).2 ⟨hread, hgranted⟩
      rw [(rowOf_scope hlive hnone hscope).2, hfind] at hid
      exact hid
  · intro h
    cases hlive : liveSpOf reads e.1 with
    | none =>
      obtain ⟨hkind, hid⟩ := rowOf_unread hlive
      refine standsFor_of_kind he htype hkind fun _ => ?_
      rw [hid]
      constructor
      · exact fun hfalse => Bool.noConfusion hfalse
      · rintro ⟨hread, sp, hsp, -⟩
        rw [liveSpOf_eq_some.2 ⟨hread, hsp⟩] at hlive
        exact absurd hlive (by simp)
    | some sp =>
      obtain ⟨hread, hsp⟩ := liveSpOf_eq_some.1 hlive
      obtain ⟨hroles, hscopes⟩ := h sp hread hsp
      cases hrole : findRole sp e.2.id with
      | some role =>
        -- only a role may be found among the roles
        have hroleType : e.2.type = roleType := htype.resolve_right fun hscopeType => by
          have hnone := (hscopes hscopeType).1
          rw [hrole] at hnone
          exact absurd hnone (by simp)
        obtain ⟨hkind, hid⟩ := rowOf_role hlive hrole
        rw [← fromAccessType_role hroleType] at hkind
        refine standsFor_of_kind he htype hkind fun _ => ?_
        rw [hid]
        constructor
        · exact fun hgrant => ⟨hread, sp, hsp, .inl ⟨hroleType, hgrant⟩⟩
        · rintro ⟨-, sp', hsp', ⟨-, hgrant⟩ | ⟨hscopeType, -⟩⟩
          · obtain rfl := Option.some.inj (hsp.symm.trans hsp')
            exact hgrant
          · exact absurd (hscopeType.symm.trans hroleType) scopeType_ne_roleType
      | none =>
        cases hscope : findScope sp e.2.id with
        | some scope =>
          have hscopeType : e.2.type = scopeType := htype.resolve_left fun hroleType => by
            have hfound := hroles hroleType
            rw [hrole, hscope] at hfound
            simp at hfound
          obtain ⟨hkind, hid⟩ := rowOf_scope hlive hrole hscope
          rw [← fromAccessType_scope hscopeType] at hkind
          refine standsFor_of_kind he htype hkind fun _ => ?_
          rw [hid]
          constructor
          · intro hsome
            obtain ⟨id, hid⟩ := Option.isSome_iff_exists.1 hsome
            obtain ⟨g, hfind, -⟩ := Option.bind_eq_some_iff.1 hid
            exact ⟨hread, sp, hsp, .inr ⟨hscopeType, scope, hscope, g,
              List.mem_of_find?_eq_some hfind, List.find?_some hfind⟩⟩
          · rintro ⟨-, sp', hsp', ⟨hroleType, -⟩ | ⟨-, scope', hscope', g, hg, hcovers⟩⟩
            · exact absurd (hscopeType.symm.trans hroleType) scopeType_ne_roleType
            · obtain rfl := Option.some.inj (hsp.symm.trans hsp')
              obtain rfl := Option.some.inj (hscope.symm.trans hscope')
              obtain ⟨g', hfind⟩ :=
                Option.isSome_iff_exists.1 (List.find?_isSome.2 ⟨g, hg, hcovers⟩)
              rw [hfind]
              exact (hscopes hscopeType).2 scope g' hscope hfind
        | none =>
          refine standsFor_of_kind he htype (rowOf_raw hlive hrole hscope) ?_
          rintro ⟨sp', hsp', hexposed⟩
          obtain rfl := Option.some.inj (hsp.symm.trans hsp')
          simp [hrole, hscope] at hexposed

end Rows

/-! ## All rows -/

/-- One row for each entry, in the order of the declaration, and each stands for its entry. -/
def RowsStand (reads : Reads) (declared : List RequiredResourceAccess) : Prop :=
  List.Forall₂ (StandsFor reads declared) (entriesOf declared)
    (resolveRequiredResourceAccess reads declared).1

theorem rows_stand_iff (reads : Reads) (declared : List RequiredResourceAccess)
    (htypes : ∀ e ∈ entriesOf declared, e.2.type = roleType ∨ e.2.type = scopeType) :
    RowsStand reads declared ↔ ∀ e ∈ entriesOf declared, ReadsAsDeclared reads e := by
  unfold RowsStand
  rw [resolve_rows, List.forall₂_map_right_iff, List.forall₂_same]
  exact forall₂_congr fun e he => standsFor_iff he (htypes e he)

/-- A resource that exposes one id as a role and as a scope. -/
def sharedId : ServicePrincipal where
  id := ['g']
  displayName := ['G']
  appRoles := [⟨['1'], ['R'], []⟩]
  oauth2PermissionScopes := [⟨['1'], ['S'], none⟩, ⟨['2'], ['T'], none⟩]

def sharedReads : Reads where
  bundled _ := none
  tenant _ := some sharedId
  unread _ := none
  appRoleAssignments := [⟨['a'], ['1'], ['g']⟩]
  oauth2PermissionGrants := [⟨some ['h'], ['g'], "S T".toList⟩]

/-- The shared id is declared as the role, and the other as the scope. -/
theorem rows_stand_iff_apart : RowsStand sharedReads [⟨['m'], [⟨['1'], roleType⟩, ⟨['2'], scopeType⟩]⟩] := by
  refine (rows_stand_iff sharedReads _ (by decide)).2 fun e he sp _ hsp => ?_
  obtain rfl := Option.some.inj hsp
  rcases List.mem_pair.1 (he : e ∈ [(['m'], ⟨['1'], roleType⟩), (['m'], ⟨['2'], scopeType⟩)]) with rfl | rfl
  · exact ⟨fun _ => .inl (by decide), fun hscope => absurd hscope (by decide)⟩
  · refine ⟨fun hrole => absurd hrole (by decide), fun _ => ⟨by decide, fun scope g hscope hg => ?_⟩⟩
    have hlisted := List.mem_of_find?_eq_some hg
    rw [List.mem_singleton.1 hlisted]
    rfl

/-- A scope declared under the shared id gets a row of the role. -/
theorem shared_id_misread :
    ¬ ∀ (reads : Reads) (declared : List RequiredResourceAccess),
      (∀ e ∈ entriesOf declared, e.2.type = roleType ∨ e.2.type = scopeType) →
      RowsStand reads declared := by
  intro h
  have hrows := h sharedReads [⟨['m'], [⟨['1'], scopeType⟩]⟩] (by decide)
  unfold RowsStand at hrows
  rw [resolve_rows, List.forall₂_map_right_iff, List.forall₂_same] at hrows
  have hkind := (hrows (['m'], ⟨['1'], scopeType⟩) (by decide)).kind
  exact absurd hkind (by decide)

end PermissionRows
