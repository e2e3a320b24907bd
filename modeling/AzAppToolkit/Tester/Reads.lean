import AzAppToolkit.Exchange.Calls
import AzAppToolkit.Sharepoint.Conversion

set_option autoImplicit false

/-! # What the permission testers read of a principal

The application's service principal, the role index of Microsoft Graph and of a second resource, and
the principal's assignments (`commands/graph_roles.rs`). Graph's index is required. The second one is
best-effort: where it cannot be read, the grants on it are not seen.

A read answers with a value or with the `UiError` its error becomes, so what a tester reads is a record
of answers. -/

namespace Tester

open Exchange (AppRoleAssignment ResourceRoles resolveGrant microsoftGraphAppId reauthFatalCodes)
open Sharepoint (AppRole ServicePrincipal roleIndex)

/-! ## Data -/

structure UiError where
  code : Text
  message : Text
deriving DecidableEq

def UiError.isReauthFatal (err : UiError) : Bool := reauthFatalCodes.contains err.code

/-- The four groups of hexadecimal digits and their dashes. -/
def isGuid (input : Text) : Bool :=
  input.length == 36 && input.zipIdx.all (fun p =>
    if p.2 == 8 || p.2 == 13 || p.2 == 18 || p.2 == 23 then p.1 == '-'
    else p.1.isDigit || ('a' ≤ p.1 && p.1 ≤ 'f') || ('A' ≤ p.1 && p.1 ≤ 'F'))

def requireAppId (appId : Text) : Except UiError Unit :=
  if isGuid appId then .ok ()
  else .error ⟨"invalid_app_id".toList, "The application (client) ID must be a GUID.".toList⟩

inductive AccessVerdict where
  | orgWide
  | scoped
  | noAccess
  | unknown
deriving DecidableEq

/-- The verdict proves access. -/
def AccessVerdict.reaches : AccessVerdict → Bool
  | .orgWide | .scoped => true
  | .noAccess | .unknown => false

structure PermissionTestResult where
  hasAccess : Bool
  verdict : AccessVerdict
  roles : List Text
  detail : Option Text
  resourceLabel : Text

def PermissionTestResult.unknown (resourceLabel detail : Text) : PermissionTestResult :=
  ⟨false, .unknown, [], some detail, resourceLabel⟩

def quoted (s : Text) : Text := "“".toList ++ s ++ "”".toList

/-! ## Reads -/

structure RoleReads where
  servicePrincipal : Except UiError (Option Text)
  graphSp : Except UiError (Option ServicePrincipal)
  extraSp : Except UiError (Option ServicePrincipal)
  assignments : Text → Except UiError (List AppRoleAssignment)

def rolesOf (appId : Text) (sp : ServicePrincipal) : ResourceRoles := ⟨appId, sp.id, roleIndex sp.appRoles⟩

def RoleReads.graphResourceRoles (reads : RoleReads) : Except UiError ResourceRoles :=
  match reads.graphSp with
  | .error err => .error err
  | .ok none => .error
      ⟨"resource_not_found".toList, "Microsoft Graph service principal not found in tenant".toList⟩
  | .ok (some sp) => .ok (rolesOf microsoftGraphAppId sp)

def RoleReads.graphAndResourceRoles (reads : RoleReads) (extraAppId : Text) :
    Except UiError (List ResourceRoles) :=
  match reads.graphResourceRoles with
  | .error err => .error err
  | .ok graph =>
    match reads.extraSp with
    | .ok (some sp) => .ok [graph, rolesOf extraAppId sp]
    -- an index that cannot be read counts as one that is not there
    | .ok none | .error _ => .ok [graph]

/-- What both testers do with the assignments of a service principal. -/
def RoleReads.heldOf (reads : RoleReads) (extraAppId spId : Text) :
    Except UiError (List (Text × Text × Text)) :=
  match reads.graphAndResourceRoles extraAppId with
  | .error err => .error err
  | .ok resources =>
    match reads.assignments spId with
    | .error err => .error err
    | .ok assignments => .ok (assignments.filterMap (fun a => resolveGrant resources a.resourceId a.appRoleId))

/-- The grants of the application: its resource's application and service principal, and its value. -/
def RoleReads.held (reads : RoleReads) (extraAppId : Text) : Except UiError (List (Text × Text × Text)) :=
  match reads.servicePrincipal with
  | .error err => .error err
  | .ok none => .ok []
  | .ok (some spId) => reads.heldOf extraAppId spId

/-! ## The directory -/

/-- What the tenant holds. Object ids and role ids are unique. -/
structure Directory where
  servicePrincipal : Option Text
  graphSp : Option ServicePrincipal
  extraSp : Option ServicePrincipal
  assignments : Text → List AppRoleAssignment
  apart : ∀ g e, graphSp = some g → extraSp = some e → g.id ≠ e.id
  graphRoles : ∀ sp, graphSp = some sp → (sp.appRoles.map (·.id)).Nodup
  extraRoles : ∀ sp, extraSp = some sp → (sp.appRoles.map (·.id)).Nodup

/-- The application holds `value` on the resource `resourceAppId`. -/
def Directory.Holds (dir : Directory) (extraAppId resourceAppId value : Text) : Prop :=
  ∃ spId, dir.servicePrincipal = some spId ∧ ∃ a ∈ dir.assignments spId, ∃ sp,
    (dir.graphSp = some sp ∧ resourceAppId = microsoftGraphAppId ∨
      dir.extraSp = some sp ∧ resourceAppId = extraAppId) ∧
    a.resourceId = sp.id ∧ (⟨a.appRoleId, value⟩ : AppRole) ∈ sp.appRoles

/-- A read that answers, answers with what is there. -/
def Answers {ε α : Type} (read : Except ε α) (truth : α) : Prop := ∀ a, read = .ok a → a = truth

structure RoleReads.Truthful (reads : RoleReads) (dir : Directory) : Prop where
  servicePrincipal : Answers reads.servicePrincipal dir.servicePrincipal
  graphSp : Answers reads.graphSp dir.graphSp
  extraSp : Answers reads.extraSp dir.extraSp
  assignments : ∀ spId, Answers (reads.assignments spId) (dir.assignments spId)

/-- The directory without what only the second resource's index, if it could not be read, would show. -/
def Directory.seen (dir : Directory) (reads : RoleReads) : Directory :=
  match reads.extraSp with
  | .ok _ => dir
  | .error _ =>
    { dir with
      extraSp := none
      apart := fun _ _ _ h => absurd h.symm (Option.some_ne_none _)
      extraRoles := fun _ h => absurd h.symm (Option.some_ne_none _) }

/-! ## What is held -/

theorem lookup_roleIndex {roles : List AppRole} (h : (roles.map (·.id)).Nodup) {id value : Text} :
    (roleIndex roles).lookup id = some value ↔ (⟨id, value⟩ : AppRole) ∈ roles := by
  unfold roleIndex
  have hown : ∀ r ∈ roles, (roles.foldl (fun index r => index.insert r.id r.value)
      (∅ : Table Text Text)).lookup r.id = some r.value := by
    intro r hr
    refine AList.lookup_foldl_insert (·.id) (·.value) roles ∅ r hr ?_
    intro r' hr' hid
    rw [List.inj_on_of_nodup_map h hr' hr hid]
  constructor
  · intro hlookup
    by_cases hin : ∃ r ∈ roles, r.id = id
    · obtain ⟨r, hr, rfl⟩ := hin
      rw [hown r hr, Option.some.injEq] at hlookup
      rw [← hlookup]
      exact hr
    · have hnone : ∀ (l : List AppRole) (t : Table Text Text), (∀ r ∈ l, r.id ≠ id) →
          (l.foldl (fun index r => index.insert r.id r.value) t).lookup id = t.lookup id := by
        intro l
        induction l with
        | nil => exact fun _ _ => rfl
        | cons r l ih =>
          intro t hl
          rw [List.foldl_cons, ih _ (fun r' hr' => hl r' (List.mem_cons_of_mem _ hr')),
            AList.lookup_insert_eq, if_neg (Ne.symm (hl r List.mem_cons_self))]
      rw [hnone roles ∅ (fun r hr hid => hin ⟨r, hr, hid⟩), AList.lookup_empty] at hlookup
      exact absurd hlookup.symm (Option.some_ne_none value)
  · intro hr
    exact hown _ hr

section Held

variable {dir : Directory} {reads : RoleReads} {extraAppId : Text}

theorem resolveGrant_two {g e : ServicePrincipal} (hne : g.id ≠ e.id)
    (hg : (g.appRoles.map (·.id)).Nodup) (he : (e.appRoles.map (·.id)).Nodup) {resourceId roleId : Text}
    {p : Text × Text × Text} :
    resolveGrant [rolesOf microsoftGraphAppId g, rolesOf extraAppId e] resourceId roleId = some p ↔
      (p.1 = microsoftGraphAppId ∧ p.2.1 = g.id ∧ resourceId = g.id ∧
        (⟨roleId, p.2.2⟩ : AppRole) ∈ g.appRoles) ∨
      (p.1 = extraAppId ∧ p.2.1 = e.id ∧ resourceId = e.id ∧ (⟨roleId, p.2.2⟩ : AppRole) ∈ e.appRoles) := by
  obtain ⟨app, sp, value⟩ := p
  unfold resolveGrant rolesOf
  by_cases hgid : g.id = resourceId
  · subst hgid
    simp [hne, lookup_roleIndex hg]
    tauto
  · by_cases heid : e.id = resourceId
    · subst heid
      simp [hgid, lookup_roleIndex he]
      tauto
    · simp [hgid, heid, Ne.symm hgid, Ne.symm heid]

theorem resolveGrant_one {g : ServicePrincipal} (hg : (g.appRoles.map (·.id)).Nodup)
    {resourceId roleId : Text} {p : Text × Text × Text} :
    resolveGrant [rolesOf microsoftGraphAppId g] resourceId roleId = some p ↔
      p.1 = microsoftGraphAppId ∧ p.2.1 = g.id ∧ resourceId = g.id ∧
        (⟨roleId, p.2.2⟩ : AppRole) ∈ g.appRoles := by
  obtain ⟨app, sp, value⟩ := p
  unfold resolveGrant rolesOf
  by_cases hgid : g.id = resourceId
  · subst hgid
    simp [lookup_roleIndex hg]
    tauto
  · simp [hgid, Ne.symm hgid]

theorem seen_ok {sp : Option ServicePrincipal} (h : reads.extraSp = .ok sp) : dir.seen reads = dir := by
  unfold Directory.seen
  rw [h]

theorem holds_seen_error {err : UiError} (h : reads.extraSp = .error err) {resourceAppId value : Text} :
    (dir.seen reads).Holds extraAppId resourceAppId value ↔
      ∃ spId, dir.servicePrincipal = some spId ∧ ∃ a ∈ dir.assignments spId, ∃ sp,
        (dir.graphSp = some sp ∧ resourceAppId = microsoftGraphAppId) ∧
        a.resourceId = sp.id ∧ (⟨a.appRoleId, value⟩ : AppRole) ∈ sp.appRoles := by
  unfold Directory.seen Directory.Holds
  rw [h]
  simp

/-- What answered, when the grants could be read. -/
theorem held_eq_ok {grants : List (Text × Text × Text)} (h : reads.held extraAppId = .ok grants) :
    (reads.servicePrincipal = .ok none ∧ grants = []) ∨
    ∃ spId g assignments resources, reads.servicePrincipal = .ok (some spId) ∧ reads.graphSp = .ok (some g) ∧
      reads.assignments spId = .ok assignments ∧
      grants = assignments.filterMap (fun a => resolveGrant resources a.resourceId a.appRoleId) ∧
      ((∃ e, reads.extraSp = .ok (some e) ∧
          resources = [rolesOf microsoftGraphAppId g, rolesOf extraAppId e]) ∨
        ((reads.extraSp = .ok none ∨ ∃ err, reads.extraSp = .error err) ∧
          resources = [rolesOf microsoftGraphAppId g])) := by
  unfold RoleReads.held at h
  cases hsp : reads.servicePrincipal with
  | error err => simp [hsp] at h
  | ok sp =>
    cases sp with
    | none =>
      simp only [hsp, Except.ok.injEq] at h
      exact .inl ⟨rfl, h.symm⟩
    | some spId =>
      simp only [hsp, RoleReads.heldOf, RoleReads.graphAndResourceRoles, RoleReads.graphResourceRoles] at h
      right
      cases hgraph : reads.graphSp with
      | error err => simp [hgraph] at h
      | ok g =>
        cases g with
        | none => simp [hgraph] at h
        | some g =>
          cases hassigned : reads.assignments spId with
          | error err =>
            rcases hextra : reads.extraSp with err | (_ | e) <;>
              simp [hgraph, hassigned, hextra] at h
          | ok assignments =>
            rcases hextra : reads.extraSp with err | (_ | e) <;>
              simp only [hgraph, hassigned, hextra, Except.ok.injEq] at h <;>
              refine ⟨spId, g, assignments, _, rfl, rfl, hassigned, h.symm, ?_⟩
            · exact .inr ⟨.inr ⟨err, rfl⟩, rfl⟩
            · exact .inr ⟨.inl rfl, rfl⟩
            · exact .inl ⟨e, rfl, rfl⟩

/-- What a tester sees is what the directory holds, but for a second index that could not be read. -/
theorem mem_held (htruth : reads.Truthful dir) {grants : List (Text × Text × Text)}
    (hheld : reads.held extraAppId = .ok grants) {resourceAppId value : Text} :
    (∃ spId, (resourceAppId, spId, value) ∈ grants) ↔
      (dir.seen reads).Holds extraAppId resourceAppId value := by
  rcases held_eq_ok hheld with ⟨hsp, rfl⟩ | ⟨spId, g, assignments, resources, hsp, hg, hassigned, rfl, hextra⟩
  · have hnone : (dir.seen reads).servicePrincipal = none := by
      rw [htruth.servicePrincipal _ hsp]
      unfold Directory.seen
      split <;> rfl
    unfold Directory.Holds
    simp [hnone]
  · have hdirSp := (htruth.servicePrincipal _ hsp).symm
    have hdirGraph := (htruth.graphSp _ hg).symm
    have hdirAssigned := htruth.assignments _ _ hassigned
    subst hdirAssigned
    have hgRoles := dir.graphRoles g hdirGraph
    have honly : (∃ spId', (resourceAppId, spId', value) ∈ (dir.assignments spId).filterMap
          (fun a => resolveGrant [rolesOf microsoftGraphAppId g] a.resourceId a.appRoleId)) ↔
        ∃ a ∈ dir.assignments spId, resourceAppId = microsoftGraphAppId ∧
          a.resourceId = g.id ∧ (⟨a.appRoleId, value⟩ : AppRole) ∈ g.appRoles := by
      simp only [List.mem_filterMap, resolveGrant_one hgRoles]
      constructor
      · rintro ⟨_, a, ha, happ, -, hid, hrole⟩
        exact ⟨a, ha, happ, hid, hrole⟩
      · rintro ⟨a, ha, happ, hid, hrole⟩
        exact ⟨g.id, a, ha, happ, rfl, hid, hrole⟩
    rcases hextra with ⟨e, he, rfl⟩ | ⟨hnone | ⟨err, herr⟩, rfl⟩
    · have hdirExtra := (htruth.extraSp _ he).symm
      rw [seen_ok he]
      unfold Directory.Holds
      simp only [List.mem_filterMap, resolveGrant_two (dir.apart g e hdirGraph hdirExtra) hgRoles
        (dir.extraRoles e hdirExtra)]
      constructor
      · rintro ⟨_, a, ha, ⟨happ, -, hid, hrole⟩ | ⟨happ, -, hid, hrole⟩⟩
        · exact ⟨spId, hdirSp, a, ha, g, .inl ⟨hdirGraph, happ⟩, hid, hrole⟩
        · exact ⟨spId, hdirSp, a, ha, e, .inr ⟨hdirExtra, happ⟩, hid, hrole⟩
      · rintro ⟨spId', hspId', a, ha, sp, ⟨hsp', happ⟩ | ⟨hsp', happ⟩, hid, hrole⟩
        · obtain rfl := Option.some.inj (hdirSp.symm.trans hspId')
          obtain rfl := Option.some.inj (hdirGraph.symm.trans hsp')
          exact ⟨g.id, a, ha, .inl ⟨happ, rfl, hid, hrole⟩⟩
        · obtain rfl := Option.some.inj (hdirSp.symm.trans hspId')
          obtain rfl := Option.some.inj (hdirExtra.symm.trans hsp')
          exact ⟨e.id, a, ha, .inr ⟨happ, rfl, hid, hrole⟩⟩
    · have hdirExtra := (htruth.extraSp _ hnone).symm
      rw [seen_ok hnone, honly]
      unfold Directory.Holds
      simp [hdirSp, hdirGraph, hdirExtra]
    · rw [holds_seen_error herr, honly]
      simp [hdirSp, hdirGraph]

end Held

/-! ## The order of an answer -/

/-- Two answers that agree up to `R`, or the same error. -/
def SameRead {ε α : Type} (R : α → α → Prop) : Except ε α → Except ε α → Prop
  | .ok a, .ok a' => R a a'
  | .error e, .error e' => e = e'
  | _, _ => False

def SameMembers {α : Type} (l l' : List α) : Prop := ∀ a, a ∈ l ↔ a ∈ l'

/-- The same resource, its roles in any order. -/
structure SameSp (sp sp' : ServicePrincipal) : Prop where
  id : sp.id = sp'.id
  roles : SameMembers sp.appRoles sp'.appRoles
  unique : (sp.appRoles.map (·.id)).Nodup
  unique' : (sp'.appRoles.map (·.id)).Nodup

structure RoleReads.Same (reads reads' : RoleReads) : Prop where
  servicePrincipal : reads.servicePrincipal = reads'.servicePrincipal
  graphSp : SameRead (Option.Rel SameSp) reads.graphSp reads'.graphSp
  extraSp : SameRead (Option.Rel SameSp) reads.extraSp reads'.extraSp
  assignments : ∀ spId, SameRead SameMembers (reads.assignments spId) (reads'.assignments spId)

section Same

variable {reads reads' : RoleReads} {extraAppId : Text}

theorem SameRead.ok {ε α : Type} {R : α → α → Prop} {r r' : Except ε α} (h : SameRead R r r') {a : α}
    (hr : r = .ok a) : ∃ a', r' = .ok a' ∧ R a a' := by
  subst hr
  cases r' with
  | ok a' => exact ⟨a', rfl, h⟩
  | error e => exact h.elim

theorem SameRead.error {ε α : Type} {R : α → α → Prop} {r r' : Except ε α} (h : SameRead R r r') {e : ε}
    (hr : r = .error e) : r' = .error e := by
  subst hr
  cases r' with
  | ok a' => exact h.elim
  | error e' => rw [show e = e' from h]

theorem lookup_rolesOf {sp sp' : ServicePrincipal} (h : SameSp sp sp') (id : Text) :
    (roleIndex sp.appRoles).lookup id = (roleIndex sp'.appRoles).lookup id := by
  ext value
  rw [lookup_roleIndex h.unique, lookup_roleIndex h.unique']
  exact h.roles _

theorem resolveGrant_cons_congr {sp sp' : ServicePrincipal} (h : SameSp sp sp') (appId : Text)
    {rest rest' : List ResourceRoles} {resourceId roleId : Text}
    (hrest : resolveGrant rest resourceId roleId = resolveGrant rest' resourceId roleId) :
    resolveGrant (rolesOf appId sp :: rest) resourceId roleId =
      resolveGrant (rolesOf appId sp' :: rest') resourceId roleId := by
  unfold resolveGrant rolesOf at *
  rw [List.find?_cons, List.find?_cons, h.id]
  cases hid : sp'.id == resourceId with
  | true => simp only [lookup_rolesOf h]
  | false => exact hrest

variable (extraAppId) in
theorem graphAndResourceRoles_same (h : reads.Same reads') :
    SameRead (fun resources resources' => ∀ r id, resolveGrant resources r id = resolveGrant resources' r id)
      (reads.graphAndResourceRoles extraAppId) (reads'.graphAndResourceRoles extraAppId) := by
  unfold RoleReads.graphAndResourceRoles RoleReads.graphResourceRoles
  cases hg : reads.graphSp with
  | error err =>
    rw [h.graphSp.error hg]
    rfl
  | ok g =>
    obtain ⟨g', hg', hgraph⟩ := h.graphSp.ok hg
    rw [hg']
    cases hgraph with
    | none => rfl
    | some hsame =>
      simp only
      cases he : reads.extraSp with
      | error err =>
        rw [h.extraSp.error he]
        exact fun r id => resolveGrant_cons_congr hsame _ rfl
      | ok e =>
        obtain ⟨e', he', hextra⟩ := h.extraSp.ok he
        rw [he']
        cases hextra with
        | none => exact fun r id => resolveGrant_cons_congr hsame _ rfl
        | some hsame' =>
          exact fun r id => resolveGrant_cons_congr hsame _ (resolveGrant_cons_congr hsame' _ rfl)

variable (extraAppId) in
/-- The grants that are seen do not depend on the order of an answer. -/
theorem held_same (h : reads.Same reads') :
    SameRead SameMembers (reads.held extraAppId) (reads'.held extraAppId) := by
  have hroles := graphAndResourceRoles_same extraAppId h
  unfold RoleReads.held
  rw [← h.servicePrincipal]
  cases reads.servicePrincipal with
  | error err => rfl
  | ok sp =>
    cases sp with
    | none => exact fun _ => Iff.rfl
    | some spId =>
      simp only [RoleReads.heldOf]
      cases hresources : reads.graphAndResourceRoles extraAppId with
      | error err =>
        rw [hroles.error hresources]
        rfl
      | ok resources =>
        obtain ⟨resources', hresources', hresolve⟩ := hroles.ok hresources
        rw [hresources']
        simp only
        cases hassigned : reads.assignments spId with
        | error err =>
          rw [(h.assignments spId).error hassigned]
          rfl
        | ok assignments =>
          obtain ⟨assignments', hassigned', hsame⟩ := (h.assignments spId).ok hassigned
          rw [hassigned']
          intro p
          rw [List.mem_filterMap, List.mem_filterMap]
          exact exists_congr fun a => and_congr (hsame a) (by rw [hresolve])

end Same

end Tester
