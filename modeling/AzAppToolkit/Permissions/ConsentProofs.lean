import AzAppToolkit.Permissions.Consent

set_option autoImplicit false

/-! # What a consent run leaves

One step of the loop at a time: a role, the failures of a block, a block's scopes. `Progress` says what is
held and what has been reported after any part of the run, and from it follows when the run grants
exactly what is declared. -/

namespace Permissions

open Prog
open Graph (GraphError)

/-! ## Grants -/

section Grants

variable {t : Tenant} {r r' : Text} {g : OAuth2PermissionGrant}

theorem adminGrant_eq_some (h : t.adminGrant r = some g) :
    g ∈ t.grants ∧ g.resourceId = r ∧ g.consentType = allPrincipals := by
  have hp := List.find?_some h
  rw [isAdminGrant, Bool.and_eq_true, beq_iff_eq, beq_iff_eq] at hp
  exact ⟨List.mem_of_find?_eq_some h, hp⟩

theorem isAdminGrant_patchScope (r id scope : Text) (g : OAuth2PermissionGrant) :
    isAdminGrant r (patchScope id scope g) = isAdminGrant r g := by
  unfold patchScope
  split <;> rfl

theorem adminGrant_patch (t : Tenant) (r id scope : Text) :
    (Tenant.mk (t.grants.map (patchScope id scope)) t.assignments).adminGrant r =
      (t.adminGrant r).map (patchScope id scope) := by
  unfold Tenant.adminGrant
  rw [List.find?_map]
  congr 2
  funext g
  exact isAdminGrant_patchScope r id scope g

/-- The grants of two resources are two grants. -/
theorem id_ne_of_resource_ne (hvalid : t.Valid) {g g' : OAuth2PermissionGrant} (h : t.adminGrant r = some g)
    (h' : t.adminGrant r' = some g') (hne : r' ≠ r) : g'.id ≠ g.id := by
  obtain ⟨hmem, hres, -⟩ := adminGrant_eq_some h
  obtain ⟨hmem', hres', -⟩ := adminGrant_eq_some h'
  intro hid
  have hsame := List.inj_on_of_nodup_map hvalid.distinct hmem' hmem hid
  exact hne (by rw [← hres', hsame, hres])

theorem valid_patch (hvalid : t.Valid) (id scope : Text) (assignments : List AppRoleAssignment) :
    Tenant.Valid ⟨t.grants.map (patchScope id scope), assignments⟩ := by
  have hsame : ∀ g : OAuth2PermissionGrant, (patchScope id scope g).id = g.id := by
    intro g
    unfold patchScope
    split <;> rfl
  refine ⟨?_, ?_⟩
  · intro g hg
    obtain ⟨g', hg', rfl⟩ := List.mem_map.1 hg
    rw [hsame]
    exact hvalid.ids g' hg'
  · show ((t.grants.map (patchScope id scope)).map (·.id)).Nodup
    rw [List.map_map]
    have hcomp : (fun g : OAuth2PermissionGrant => g.id) ∘ patchScope id scope = (·.id) := funext hsame
    rw [hcomp]
    exact hvalid.distinct

/-- The grants of single users. -/
def Tenant.userGrants (t : Tenant) : List OAuth2PermissionGrant :=
  t.grants.filter (fun g => g.consentType != allPrincipals)

/-- A patch of a grant for all principals leaves the others alone. -/
theorem userGrants_patch (hvalid : t.Valid) {id : Text} (h : t.adminGrant r = some g)
    (hid : g.id = some id) (scope : Text) :
    (Tenant.mk (t.grants.map (patchScope id scope)) t.assignments).userGrants = t.userGrants := by
  obtain ⟨hmem, -, htype⟩ := adminGrant_eq_some h
  unfold Tenant.userGrants
  rw [List.filter_map]
  have hsame : ((fun g : OAuth2PermissionGrant => g.consentType != allPrincipals) ∘ patchScope id scope) =
      (fun g => g.consentType != allPrincipals) := by
    funext g
    simp only [Function.comp_apply, patchScope]
    split <;> rfl
  rw [hsame]
  conv_rhs => rw [← List.map_id (t.grants.filter _)]
  apply List.map_congr_left
  intro g' hg'
  obtain ⟨hmem', htype'⟩ := List.mem_filter.1 hg'
  unfold patchScope
  rw [if_neg]
  · rfl
  · intro hid'
    have hsame' := List.inj_on_of_nodup_map hvalid.distinct hmem' hmem (hid'.trans hid.symm)
    rw [hsame', htype] at htype'
    exact absurd htype' (by simp)

end Grants

/-! ## Scopes after a block -/

def subsumed (current scopes : List Text) : Bool := scopes.all (fun s => List.contains current s)

theorem subsumed_iff {current scopes : List Text} :
    subsumed current scopes = true ↔ ∀ s ∈ scopes, s ∈ current := by
  unfold subsumed
  simp

/-- What the last block that was not subsumed brought. -/
def lastAdded (current : List Text) (blocks : List (List Text)) : List Text :=
  ((blocks.filter (fun scopes => !subsumed current scopes)).getLast?).getD []

/-- The grant of a resource after blocks that declare scopes on it. -/
def ScopesAfter (before : Option OAuth2PermissionGrant) (blocks : List (List Text))
    (after : Option OAuth2PermissionGrant) : Prop :=
  match before with
  | some g => ∃ scope, after = some { g with scope := scope } ∧ ∀ v, v ∈ Words.splitWhitespace scope ↔
      v ∈ Words.splitWhitespace g.scope ∨ v ∈ lastAdded (Words.splitWhitespace g.scope) blocks
  | none =>
    match blocks with
    | [] => after = none
    | scopes :: _ => ∃ g, after = some g ∧ Words.splitWhitespace g.scope = scopes

theorem lastAdded_append_subsumed {current scopes : List Text} (h : subsumed current scopes = true)
    (blocks : List (List Text)) : lastAdded current (blocks ++ [scopes]) = lastAdded current blocks := by
  unfold lastAdded
  rw [List.filter_append]
  simp [h]

theorem lastAdded_append_new {current scopes : List Text} (h : subsumed current scopes = false)
    (blocks : List (List Text)) : lastAdded current (blocks ++ [scopes]) = scopes := by
  unfold lastAdded
  rw [List.filter_append]
  simp [h]

theorem mem_mergedScopes {current desired : List Text} {v : Text} :
    v ∈ mergedScopes current desired ↔ v ∈ current ∨ v ∈ desired := by
  unfold mergedScopes
  rw [Text.mem_dedup, Text.mem_sort, List.mem_append]

/-! ## The run so far -/

/-- A failure that names an entry which is in place, or none. -/
def Spurious (f : GrantFailure) : Prop :=
  f.kind = "Role".toList ∨ (f.kind = "Scope".toList ∧ f.permissionId = none)

/-- The roles gone through that were not assigned at the start. -/
def missingRoles (t₀ : Tenant) (roles : List (Text × Text)) : List (Text × Text) :=
  roles.filter (fun p => !t₀.assigned p.1 p.2)

/-- What holds after the roles `roles`, the blocks of scopes `blocks` and the failures `expected`. -/
structure Progress (t₀ : Tenant) (roles : List (Text × Text)) (blocks : Text → List (List Text))
    (expected : List GrantFailure) (result : GrantResult) (t : Tenant) : Prop where
  valid : t.Valid
  assigned : ∀ r role, t.assigned r role = true ↔ t₀.assigned r role = true ∨ (r, role) ∈ roles
  granted : ∀ r, ScopesAfter (t₀.adminGrant r) (blocks r) (t.adminGrant r)
  users : t.userGrants = t₀.userGrants
  reported : ∀ f ∈ expected, f ∈ result.failures
  named : ∀ f ∈ result.failures, f ∈ expected ∨ Spurious f
  spurious : (∃ f ∈ result.failures, Spurious f) ↔
    ¬ (missingRoles t₀ roles).Nodup ∨ ∃ r, t₀.adminGrant r = none ∧ 2 ≤ (blocks r).length

variable {g : OAuth2PermissionGrant}

section Steps

variable {dir : Directory} {wording : Wording} {clientSpId : Text} {t₀ t : Tenant}
  {roles : List (Text × Text)} {blocks : Text → List (List Text)} {expected : List GrantFailure}
  {result : GrantResult}

theorem Progress.start (hvalid : t₀.Valid) (clientSpId : Text) :
    Progress t₀ [] (fun _ => []) [] ⟨clientSpId, [], [], [], []⟩ t₀ where
  valid := hvalid
  assigned r role := by simp
  granted r := by
    unfold ScopesAfter
    cases t₀.adminGrant r with
    | none => rfl
    | some g => exact ⟨g.scope, rfl, by simp [lastAdded]⟩
  users := rfl
  reported f hf := absurd hf List.not_mem_nil
  named f hf := absurd hf List.not_mem_nil
  spurious := by simp [missingRoles]

/-- The failures a block is known to have are reported. -/
theorem Progress.report (h : Progress t₀ roles blocks expected result t) {more : List GrantFailure}
    (hmore : ∀ f ∈ more, ¬ Spurious f) :
    Progress t₀ roles blocks (expected ++ more)
      { result with failures := result.failures ++ more } t where
  valid := h.valid
  assigned := h.assigned
  granted := h.granted
  users := h.users
  reported f hf := by
    rcases List.mem_append.1 hf with hf | hf
    · exact List.mem_append_left _ (h.reported f hf)
    · exact List.mem_append_right _ hf
  named f hf := by
    rcases List.mem_append.1 hf with hf | hf
    · exact (h.named f hf).imp (List.mem_append_left _) id
    · exact .inl (List.mem_append_right _ hf)
  spurious := by
    rw [← h.spurious]
    constructor
    · rintro ⟨f, hf, hspurious⟩
      rcases List.mem_append.1 hf with hf | hf
      · exact ⟨f, hf, hspurious⟩
      · exact absurd hspurious (hmore f hf)
    · rintro ⟨f, hf, hspurious⟩
      exact ⟨f, List.mem_append_left _ hf, hspurious⟩

theorem assigned_append (t : Tenant) (a : AppRoleAssignment) (r role : Text) :
    (Tenant.mk t.grants (t.assignments ++ [a])).assigned r role = true ↔
      t.assigned r role = true ∨ (r = a.resourceId ∧ role = a.appRoleId) := by
  unfold Tenant.assigned
  rw [List.any_append, Bool.or_eq_true]
  refine or_congr_right ?_
  rw [List.any_cons, List.any_nil, Bool.or_false, Bool.and_eq_true, beq_iff_eq, beq_iff_eq, eq_comm,
    eq_comm (b := role)]

theorem missingRoles_append (t₀ : Tenant) (roles : List (Text × Text)) (r role : Text) :
    missingRoles t₀ (roles ++ [(r, role)]) =
      if t₀.assigned r role then missingRoles t₀ roles else missingRoles t₀ roles ++ [(r, role)] := by
  unfold missingRoles
  rw [List.filter_append]
  cases h : t₀.assigned r role <;> simp [h]

/-- One role: skipped, refused because it is there, or assigned. -/
theorem eval_grantRole (existing : List AppRoleAssignment) (resource : RequiredResourceAccess)
    (sp : ServicePrincipal) (role : ResourceAccess) (result : GrantResult) (t : Tenant) :
    eval dir.serve (grantRole wording clientSpId existing resource sp result role) t =
      if existing.any (fun a => a.resourceId == sp.id && a.appRoleId == role.id) then
        ({ result with
          roleAssignmentsSkipped := result.roleAssignmentsSkipped ++
            [⟨resource.resourceAppId, role.id, "already assigned".toList⟩] }, t)
      else if t.assigned sp.id role.id then
        (result.fail ⟨resource.resourceAppId, some role.id, "Role".toList, wording.grantFailureMessage
          (.api 400 "Permission being assigned already exists on the object".toList)⟩, t)
      else
        ({ result with
          roleAssignmentsCreated := result.roleAssignmentsCreated ++ [⟨clientSpId, sp.id, role.id⟩] },
          { t with assignments := t.assignments ++ [⟨clientSpId, sp.id, role.id⟩] }) := by
  unfold grantRole
  split
  · rfl
  · cases hnow : t.assigned sp.id role.id <;> simp [call, Directory.serve, hnow]

variable (dir wording clientSpId) in
theorem Progress.role (h : Progress t₀ roles blocks expected result t) (resource : RequiredResourceAccess)
    (sp : ServicePrincipal) (role : ResourceAccess) :
    ∃ result' t', eval dir.serve (grantRole wording clientSpId t₀.assignments resource sp result role) t =
        (result', t') ∧ Progress t₀ (roles ++ [(sp.id, role.id)]) blocks expected result' t' := by
  have hany : (t₀.assignments.any (fun a => a.resourceId == sp.id && a.appRoleId == role.id)) =
      t₀.assigned sp.id role.id := rfl
  rw [eval_grantRole, hany]
  cases hheld : t₀.assigned sp.id role.id with
  | true =>
    refine ⟨_, t, rfl, ⟨h.valid, ?_, h.granted, h.users, h.reported, h.named, ?_⟩⟩
    · intro r role'
      rw [h.assigned]
      simp only [List.mem_append, List.mem_singleton, Prod.mk.injEq]
      constructor
      · exact fun hr => hr.imp id .inl
      · rintro (hr | hr | ⟨rfl, rfl⟩)
        · exact .inl hr
        · exact .inr hr
        · exact .inl hheld
    · rw [missingRoles_append, hheld, if_pos rfl]
      exact h.spurious
  | false =>
    have hmissing : missingRoles t₀ (roles ++ [(sp.id, role.id)]) =
        missingRoles t₀ roles ++ [(sp.id, role.id)] := by
      rw [missingRoles_append, hheld, if_neg Bool.false_ne_true]
    have hmem : (sp.id, role.id) ∈ missingRoles t₀ roles ↔ (sp.id, role.id) ∈ roles := by
      unfold missingRoles
      simp [hheld]
    cases hnow : t.assigned sp.id role.id with
    | true =>
      have hin : (sp.id, role.id) ∈ roles :=
        ((h.assigned _ _).1 hnow).resolve_left (by rw [hheld]; exact Bool.false_ne_true)
      refine ⟨_, t, rfl, ⟨h.valid, ?_, h.granted, h.users, ?_, ?_, ?_⟩⟩
      · intro r role'
        rw [h.assigned]
        simp only [List.mem_append, List.mem_singleton, Prod.mk.injEq]
        constructor
        · exact fun hr => hr.imp id .inl
        · rintro (hr | hr | ⟨rfl, rfl⟩)
          · exact .inl hr
          · exact .inr hr
          · exact .inr hin
      · exact fun f hf => List.mem_append_left _ (h.reported f hf)
      · intro f hf
        rcases List.mem_append.1 hf with hf | hf
        · exact h.named f hf
        · rw [List.mem_singleton.1 hf]
          exact .inr (.inl rfl)
      · refine iff_of_true ?_ ?_
        · exact ⟨_, List.mem_append_right _ (List.mem_singleton_self _), .inl rfl⟩
        · rw [hmissing]
          refine .inl (fun hnodup => ?_)
          exact (List.nodup_append.1 hnodup).2.2 _ (hmem.2 hin) _ (List.mem_singleton_self _) rfl
    | false =>
      have hnotIn : (sp.id, role.id) ∉ roles := by
        intro hin
        rw [(h.assigned _ _).2 (.inr hin)] at hnow
        exact Bool.noConfusion hnow
      refine ⟨_, _, rfl,
        ⟨⟨h.valid.ids, h.valid.distinct⟩, ?_, h.granted, h.users, h.reported, h.named, ?_⟩⟩
      · intro r role'
        rw [assigned_append, h.assigned]
        simp [or_assoc]
      · rw [hmissing]
        have hnodup : (missingRoles t₀ roles ++ [(sp.id, role.id)]).Nodup ↔ (missingRoles t₀ roles).Nodup := by
          rw [List.nodup_append]
          constructor
          · exact fun hn => hn.1
          · intro hn
            refine ⟨hn, List.nodup_singleton _, ?_⟩
            intro p hp q hq heq
            rw [List.mem_singleton.1 hq] at heq
            exact hnotIn (hmem.1 (heq ▸ hp))
        rw [hnodup]
        exact h.spurious

variable (dir wording clientSpId) in
/-- The roles of a block, one after the other. -/
theorem Progress.manyRoles (resource : RequiredResourceAccess) (sp : ServicePrincipal)
    (declared : List ResourceAccess) (h : Progress t₀ roles blocks expected result t) :
    ∃ result' t', eval dir.serve
        (declared.foldlM (grantRole wording clientSpId t₀.assignments resource sp) result) t = (result', t') ∧
      Progress t₀ (roles ++ declared.map (fun role => (sp.id, role.id))) blocks expected result' t' := by
  induction declared generalizing roles result t with
  | nil => exact ⟨result, t, rfl, by simpa using h⟩
  | cons role declared ih =>
    obtain ⟨result₁, t₁, heval, h₁⟩ := h.role dir wording clientSpId resource sp role
    obtain ⟨result₂, t₂, heval₂, h₂⟩ := ih h₁
    refine ⟨result₂, t₂, ?_, ?_⟩
    · rw [List.foldlM_cons, eval_bind, heval]
      exact heval₂
    · rw [List.map_cons, List.append_cons]
      exact h₂

/-- Only the failures of a result are looked at. -/
theorem Progress.of_failures (h : Progress t₀ roles blocks expected result t) {result' : GrantResult}
    (hsame : result'.failures = result.failures) : Progress t₀ roles blocks expected result' t :=
  ⟨h.valid, h.assigned, h.granted, h.users, hsame ▸ h.reported, hsame ▸ h.named, hsame ▸ h.spurious⟩

/-- The blocks of scopes with one more, if it has any. -/
def addScopes (blocks : Text → List (List Text)) (r : Text) (scopes : List Text) :
    Text → List (List Text) :=
  fun r' => if r' = r ∧ scopes ≠ [] then blocks r' ++ [scopes] else blocks r'

theorem addScopes_nil (blocks : Text → List (List Text)) (r : Text) : addScopes blocks r [] = blocks := by
  funext r'
  simp [addScopes]

section Upsert

variable {r : Text} {scopes : List Text}

theorem addScopes_self (hne : scopes ≠ []) : addScopes blocks r scopes r = blocks r ++ [scopes] := by
  simp [addScopes, hne]

theorem addScopes_other {r' : Text} (hr : r' ≠ r) : addScopes blocks r scopes r' = blocks r' := by
  simp [addScopes, hr]

/-- A grant that is there counts no blocks. -/
theorem spurious_addScopes_of_some (hg : t₀.adminGrant r = some g) :
    (∃ r', t₀.adminGrant r' = none ∧ 2 ≤ (addScopes blocks r scopes r').length) ↔
      ∃ r', t₀.adminGrant r' = none ∧ 2 ≤ (blocks r').length := by
  refine exists_congr fun r' => and_congr_right fun hnone => ?_
  have hr : r' ≠ r := by
    rintro rfl
    rw [hg] at hnone
    exact absurd hnone (Option.some_ne_none g)
  rw [addScopes_other hr]

theorem Progress.keep (h : Progress t₀ roles blocks expected result t) (hg : t₀.adminGrant r = some g)
    (hsub : subsumed (Words.splitWhitespace g.scope) scopes = true) :
    Progress t₀ roles (addScopes blocks r scopes) expected result t := by
  refine ⟨h.valid, h.assigned, ?_, h.users, h.reported, h.named, ?_⟩
  · intro r'
    have hgranted := h.granted r'
    by_cases hr : r' = r ∧ scopes ≠ []
    · obtain ⟨rfl, hne⟩ := hr
      rw [addScopes_self hne]
      rw [hg] at hgranted ⊢
      unfold ScopesAfter at hgranted ⊢
      simp only [lastAdded_append_subsumed hsub]
      exact hgranted
    · unfold addScopes
      rw [if_neg hr]
      exact hgranted
  · rw [spurious_addScopes_of_some hg]
    exact h.spurious

/-- A patch replaces the words of one grant. -/
theorem Progress.patch (h : Progress t₀ roles blocks expected result t)
    (hg : t₀.adminGrant r = some g) {id : Text} (hid : g.id = some id) (hne : scopes ≠ [])
    (hwords : ∀ v ∈ scopes, Words.IsWord v)
    (hsub : subsumed (Words.splitWhitespace g.scope) scopes = false) :
    t.grants.any (fun g => g.id = some id) = true ∧
    Progress t₀ roles (addScopes blocks r scopes) expected result
      { t with grants := t.grants.map (patchScope id
        (Text.join [' '] (mergedScopes (Words.splitWhitespace g.scope) scopes))) } := by
  generalize hscope : Text.join [' '] (mergedScopes (Words.splitWhitespace g.scope) scopes) = scope
  have hsplit : Words.splitWhitespace scope = mergedScopes (Words.splitWhitespace g.scope) scopes := by
    rw [← hscope]
    apply Words.splitWhitespace_join
    intro w hw
    rcases mem_mergedScopes.1 hw with hw | hw
    · exact Words.isWord_of_mem hw
    · exact hwords w hw
  have hcurrent := h.granted r
  rw [hg] at hcurrent
  obtain ⟨before, hbefore, -⟩ := hcurrent
  have hmem := (adminGrant_eq_some hbefore).1
  refine ⟨List.any_eq_true.2 ⟨_, hmem, decide_eq_true hid⟩,
    valid_patch h.valid id scope t.assignments, h.assigned, ?_, ?_, h.reported, h.named, ?_⟩
  · intro r'
    rw [adminGrant_patch]
    by_cases hr : r' = r
    · subst hr
      rw [addScopes_self hne, hg, hbefore]
      refine ⟨scope, ?_, ?_⟩
      · rw [Option.map_some, patchScope, if_pos hid]
      · intro v
        rw [hsplit, mem_mergedScopes, lastAdded_append_new hsub]
    · rw [addScopes_other hr]
      have hgranted := h.granted r'
      have hsame : (t.adminGrant r').map (patchScope id scope) = t.adminGrant r' := by
        cases hother : t.adminGrant r' with
        | none => rfl
        | some g' =>
          have hne' : g'.id ≠ some id := by
            have hids := id_ne_of_resource_ne h.valid hbefore hother hr
            exact fun heq => hids (heq.trans hid.symm)
          rw [Option.map_some, patchScope, if_neg hne']
      rw [hsame]
      exact hgranted
  · rw [userGrants_patch h.valid hbefore hid scope]
    exact h.users
  · rw [spurious_addScopes_of_some hg]
    exact h.spurious

/-- A first grant brings the words of its block. -/
theorem Progress.create (h : Progress t₀ roles blocks expected result t) (hnone₀ : t₀.adminGrant r = none)
    (hnone : t.adminGrant r = none) (hne : scopes ≠ []) (hwords : ∀ v ∈ scopes, Words.IsWord v)
    (dir : Directory) (clientSpId : Text) :
    Progress t₀ roles (addScopes blocks r scopes) expected result
      { t with grants := t.grants ++ [⟨some (dir.freshId t.grants), clientSpId, r, allPrincipals, none,
        Text.join [' '] scopes⟩] } := by
  have hblocks : blocks r = [] := by
    have hgranted := h.granted r
    rw [hnone₀] at hgranted
    unfold ScopesAfter at hgranted
    cases hblocks : blocks r with
    | nil => rfl
    | cons first rest =>
      rw [hblocks] at hgranted
      obtain ⟨g, hg, -⟩ := hgranted
      rw [hnone] at hg
      exact absurd hg.symm (Option.some_ne_none g)
  refine ⟨⟨?_, ?_⟩, h.assigned, ?_, ?_, h.reported, h.named, ?_⟩
  · intro g hg
    rcases List.mem_append.1 hg with hg | hg
    · exact h.valid.ids g hg
    · rw [List.mem_singleton.1 hg]
      rfl
  · rw [List.map_append, List.map_singleton, List.nodup_append]
    refine ⟨h.valid.distinct, List.nodup_singleton _, ?_⟩
    intro id hid id' hid' heq
    obtain ⟨g, hg, rfl⟩ := List.mem_map.1 hid
    rw [List.mem_singleton.1 hid'] at heq
    exact dir.fresh t.grants g hg heq
  · intro r'
    have hgranted := h.granted r'
    unfold Tenant.adminGrant at hnone hgranted ⊢
    rw [List.find?_append]
    by_cases hr : r' = r
    · subst hr
      rw [addScopes_self hne, hblocks]
      unfold Tenant.adminGrant at hnone₀
      rw [hnone, hnone₀, Option.none_or]
      refine ⟨_, List.find?_cons_of_pos (by simp [isAdminGrant]), ?_⟩
      exact Words.splitWhitespace_join hwords
    · rw [addScopes_other hr]
      have hsingle : [(⟨some (dir.freshId t.grants), clientSpId, r, allPrincipals, none,
          Text.join [' '] scopes⟩ : OAuth2PermissionGrant)].find? (isAdminGrant r') = none := by
        simp [isAdminGrant, Ne.symm hr]
      rw [hsingle, Option.or_none]
      exact hgranted
  · have husers := h.users
    unfold Tenant.userGrants at husers ⊢
    rw [List.filter_append, husers]
    simp
  · rw [h.spurious]
    refine or_congr_right (exists_congr fun r' => and_congr_right fun _ => ?_)
    by_cases hr : r' = r
    · subst hr
      rw [addScopes_self hne, hblocks]
      simp
    · rw [addScopes_other hr]

/-- A second grant for a resource is refused. -/
theorem Progress.refused (h : Progress t₀ roles blocks expected result t) (hnone₀ : t₀.adminGrant r = none)
    (hg : t.adminGrant r = some g) (hne : scopes ≠ []) (resourceAppId message : Text) :
    Progress t₀ roles (addScopes blocks r scopes) expected
      (result.fail ⟨resourceAppId, none, "Scope".toList, message⟩) t := by
  have hspurious : Spurious ⟨resourceAppId, none, "Scope".toList, message⟩ := .inr ⟨rfl, rfl⟩
  obtain ⟨first, rest, hblocks⟩ : ∃ first rest, blocks r = first :: rest := by
    have hgranted := h.granted r
    rw [hnone₀] at hgranted
    unfold ScopesAfter at hgranted
    cases hblocks : blocks r with
    | nil =>
      rw [hblocks] at hgranted
      rw [hg] at hgranted
      exact absurd hgranted (Option.some_ne_none g)
    | cons first rest => exact ⟨first, rest, rfl⟩
  refine ⟨h.valid, h.assigned, ?_, h.users, fun f hf => List.mem_append_left _ (h.reported f hf), ?_, ?_⟩
  · intro r'
    have hgranted := h.granted r'
    by_cases hr : r' = r
    · subst hr
      rw [addScopes_self hne, hblocks, hnone₀]
      rw [hblocks, hnone₀] at hgranted
      exact hgranted
    · rw [addScopes_other hr]
      exact hgranted
  · intro f hf
    rcases List.mem_append.1 hf with hf | hf
    · exact h.named f hf
    · rw [List.mem_singleton.1 hf]
      exact .inr hspurious
  · refine iff_of_true ⟨_, List.mem_append_right _ (List.mem_singleton_self _), hspurious⟩ (.inr ⟨r, hnone₀, ?_⟩)
    rw [addScopes_self hne, hblocks]
    simp

end Upsert

section Outcomes

variable {resourceSpId : Text} {desired : List Text} {existing : List OAuth2PermissionGrant}

/-- A grant that has all words is kept. -/
theorem eval_upsert_kept (hg : existing.find? (isAdminGrant resourceSpId) = some g)
    (hsub : subsumed (Words.splitWhitespace g.scope) desired = true) (t : Tenant) :
    eval dir.serve (upsertAdminOauth2GrantIn clientSpId resourceSpId desired existing) t = (.ok g, t) := by
  unfold subsumed at hsub
  unfold upsertAdminOauth2GrantIn
  simp only [hg, hsub, if_true, eval_pure]

theorem eval_upsert_patched {id : Text} (hg : existing.find? (isAdminGrant resourceSpId) = some g)
    (hsub : subsumed (Words.splitWhitespace g.scope) desired = false) (hid : g.id = some id)
    {t : Tenant} (hthere : t.grants.any (fun g => g.id = some id) = true) :
    eval dir.serve (upsertAdminOauth2GrantIn clientSpId resourceSpId desired existing) t =
      (.ok { g with scope := Text.join [' '] (mergedScopes (Words.splitWhitespace g.scope) desired) },
        { t with grants := t.grants.map (patchScope id
          (Text.join [' '] (mergedScopes (Words.splitWhitespace g.scope) desired))) }) := by
  have hserve : ∀ scope, eval dir.serve (call (.updateOauth2GrantScope id scope)) t =
      (.ok (), { t with grants := t.grants.map (patchScope id scope) }) := by
    intro scope
    show dir.serve t (.updateOauth2GrantScope id scope) = _
    unfold Directory.serve
    exact if_pos hthere
  unfold subsumed at hsub
  unfold upsertAdminOauth2GrantIn
  simp only [hg, hsub, hid, Bool.false_eq_true, if_false, eval_bind]
  rw [hserve]
  rfl

theorem eval_upsert_refused (hg : existing.find? (isAdminGrant resourceSpId) = none) {t : Tenant}
    (hthere : (t.adminGrant resourceSpId).isSome = true) :
    eval dir.serve (upsertAdminOauth2GrantIn clientSpId resourceSpId desired existing) t =
      (.error (.api 409 "Permission entry already exists.".toList), t) := by
  unfold upsertAdminOauth2GrantIn
  simp only [hg, call, eval_call, Directory.serve, hthere, BEq.rfl, Bool.and_self, if_true]

variable (dir clientSpId desired) in
theorem eval_upsert_created (hg : existing.find? (isAdminGrant resourceSpId) = none) {t : Tenant}
    (hthere : t.adminGrant resourceSpId = none) :
    ∃ g, eval dir.serve (upsertAdminOauth2GrantIn clientSpId resourceSpId desired existing) t =
      (.ok g, { t with grants := t.grants ++ [⟨some (dir.freshId t.grants), clientSpId, resourceSpId,
        allPrincipals, none, Text.join [' '] desired⟩] }) := by
  unfold upsertAdminOauth2GrantIn
  simp only [hg, call, eval_call, Directory.serve, hthere, Option.isSome_none, Bool.and_false,
    Bool.false_eq_true, if_false]
  exact ⟨_, rfl⟩

end Outcomes

variable (wording clientSpId) in
/-- The scopes of a block, whatever the directory holds for its resource. -/
theorem Progress.scopes (h : Progress t₀ roles blocks expected result t) (hvalid : t₀.Valid)
    (resource : RequiredResourceAccess) {sp : ServicePrincipal}
    (hsp : dir.resolve resource.resourceAppId = some sp) :
    ∃ result' t', eval dir.serve (grantScopes wording clientSpId t₀.grants resource sp result) t =
        (result', t') ∧
      Progress t₀ roles (addScopes blocks sp.id ((scopeIdsOf resource).filterMap (exposedValue sp)))
        (expected ++ unexposed resource sp) result' t' := by
  have hunexposed : ∀ f ∈ unexposed resource sp, ¬ Spurious f := by
    intro f hf
    obtain ⟨id, -, rfl⟩ := List.mem_map.1 hf
    rintro (hkind | ⟨-, hid⟩)
    · exact absurd hkind (by simp [scopeNotExposed])
    · exact absurd hid (by simp [scopeNotExposed])
  have hwords : ∀ v ∈ (scopeIdsOf resource).filterMap (exposedValue sp), Words.IsWord v := by
    intro v hv
    obtain ⟨id, -, hvalue⟩ := List.mem_filterMap.1 hv
    obtain ⟨s, hfind, rfl⟩ := Option.map_eq_some_iff.1 hvalue
    exact dir.words _ sp hsp s (List.mem_of_find?_eq_some hfind)
  have hreport := h.report hunexposed
  unfold grantScopes
  by_cases hids : scopeIdsOf resource = []
  · have hnone : unexposed resource sp = [] := by
      unfold unexposed
      rw [hids]
      rfl
    refine ⟨result, t, by simp [hids], ?_⟩
    rw [hids, List.filterMap_nil, addScopes_nil, hnone, List.append_nil]
    exact h
  · simp only [List.isEmpty_iff, hids, if_false]
    generalize (scopeIdsOf resource).filterMap (exposedValue sp) = scopes at hwords
    by_cases hne : scopes = []
    · refine ⟨_, t, by rw [if_pos hne]; rfl, ?_⟩
      rw [hne, addScopes_nil]
      exact hreport
    · rw [if_neg hne, eval_bind]
      cases hg : t₀.adminGrant sp.id with
      | some g =>
        cases hsub : subsumed (Words.splitWhitespace g.scope) scopes with
        | true =>
          rw [eval_upsert_kept hg hsub]
          exact ⟨_, t, rfl, (hreport.keep hg hsub).of_failures rfl⟩
        | false =>
          obtain ⟨id, hid⟩ := Option.isSome_iff_exists.1 (hvalid.ids g (adminGrant_eq_some hg).1)
          obtain ⟨hthere, hpatch⟩ := hreport.patch hg hid hne hwords hsub
          rw [eval_upsert_patched hg hsub hid hthere]
          exact ⟨_, _, rfl, hpatch.of_failures rfl⟩
      | none =>
        cases hnow : t.adminGrant sp.id with
        | some g =>
          rw [eval_upsert_refused hg (by rw [hnow]; rfl)]
          exact ⟨_, t, rfl, hreport.refused hg hnow hne _ _⟩
        | none =>
          obtain ⟨created, heval⟩ := eval_upsert_created dir clientSpId scopes hg hnow
          rw [heval]
          exact ⟨_, _, rfl, (hreport.create hg hnow hne hwords dir clientSpId).of_failures rfl⟩

variable (dir wording clientSpId) in
/-- One declared resource. -/
theorem Progress.resource (h : Progress t₀ roles blocks expected result t) (hvalid : t₀.Valid)
    (resource : RequiredResourceAccess) :
    ∃ result' t', eval dir.serve
        (grantResource wording clientSpId t₀.assignments t₀.grants result resource) t = (result', t') ∧
      Progress t₀ (roles ++ declaredRoles dir [resource])
        (fun r => blocks r ++ ([blockScopes dir r resource].filter (fun scopes => !scopes.isEmpty)))
        (expected ++ notInPlace dir [resource]) result' t' := by
  have hserve : eval dir.serve (call (.resolveResourceSp resource.resourceAppId)) t =
      (.ok (dir.resolve resource.resourceAppId), t) := rfl
  unfold grantResource
  rw [eval_bind, hserve]
  cases hsp : dir.resolve resource.resourceAppId with
  | none =>
    have hmissing : ∀ f ∈ [resourceMissing resource.resourceAppId], ¬ Spurious f := by
      intro f hf
      rw [List.mem_singleton.1 hf]
      rintro (hkind | ⟨hkind, -⟩) <;> exact absurd hkind (by simp [resourceMissing])
    refine ⟨_, t, rfl, ?_⟩
    simp only [declaredRoles, notInPlace, blockScopes, List.flatMap_cons, List.flatMap_nil, hsp,
      List.append_nil, List.isEmpty_nil, Bool.not_true, Bool.false_eq_true, not_false_eq_true,
      List.filter_cons_of_neg, List.filter_nil]
    exact h.report hmissing
  | some sp =>
    obtain ⟨result₁, t₁, heval, h₁⟩ := h.manyRoles dir wording clientSpId resource sp (rolesOf resource)
    obtain ⟨result₂, t₂, heval₂, h₂⟩ := h₁.scopes wording clientSpId
      hvalid resource hsp
    refine ⟨result₂, t₂, ?_, ?_⟩
    · simp only [eval_bind]
      rw [heval]
      exact heval₂
    · have hblocks : (fun r => blocks r ++
          ([blockScopes dir r resource].filter (fun scopes => !scopes.isEmpty))) =
          addScopes blocks sp.id ((scopeIdsOf resource).filterMap (exposedValue sp)) := by
        funext r
        unfold addScopes blockScopes
        simp only [hsp]
        by_cases hr : sp.id = r
        · subst hr
          cases hscopes : (scopeIdsOf resource).filterMap (exposedValue sp) <;> simp
        · simp [hr, Ne.symm hr]
      rw [hblocks]
      simp only [declaredRoles, notInPlace, List.flatMap_cons, List.flatMap_nil, hsp, List.append_nil]
      exact h₂

/-- The scopes declared on a resource, block by block. -/
def scopeBlocks (dir : Directory) (declared : List RequiredResourceAccess) (r : Text) : List (List Text) :=
  (declared.map (blockScopes dir r)).filter (fun scopes => !scopes.isEmpty)

variable (dir wording clientSpId) in
theorem Progress.manyBlocks (hvalid : t₀.Valid) (declared : List RequiredResourceAccess)
    (h : Progress t₀ roles blocks expected result t) :
    ∃ result' t', eval dir.serve
        (declared.foldlM (grantResource wording clientSpId t₀.assignments t₀.grants) result) t =
          (result', t') ∧
      Progress t₀ (roles ++ declaredRoles dir declared)
        (fun r => blocks r ++ scopeBlocks dir declared r) (expected ++ notInPlace dir declared) result' t' := by
  induction declared generalizing roles blocks expected result t with
  | nil => exact ⟨result, t, rfl, by simpa [declaredRoles, scopeBlocks, notInPlace] using h⟩
  | cons resource declared ih =>
    obtain ⟨result₁, t₁, heval, h₁⟩ := h.resource dir wording clientSpId hvalid resource
    obtain ⟨result₂, t₂, heval₂, h₂⟩ := ih h₁
    refine ⟨result₂, t₂, ?_, ?_⟩
    · rw [List.foldlM_cons, eval_bind, heval]
      exact heval₂
    · have hroles : declaredRoles dir (resource :: declared) =
          declaredRoles dir [resource] ++ declaredRoles dir declared := by
        simp [declaredRoles]
      have hexpected : notInPlace dir (resource :: declared) =
          notInPlace dir [resource] ++ notInPlace dir declared := by
        simp [notInPlace]
      have hblocks : ∀ r, scopeBlocks dir (resource :: declared) r =
          [blockScopes dir r resource].filter (fun scopes => !scopes.isEmpty) ++
            scopeBlocks dir declared r := by
        intro r
        unfold scopeBlocks
        rw [List.map_cons, ← List.singleton_append, List.filter_append]
      simp only [hroles, hexpected, hblocks, ← List.append_assoc]
      exact h₂

variable (dir wording clientSpId) in
/-- A whole run. -/
theorem eval_consentWithSp (hvalid : t₀.Valid) (declared : List RequiredResourceAccess) :
    ∃ result t₁, eval dir.serve (consentWithSp wording clientSpId declared) t₀ = (.ok result, t₁) ∧
      eval dir.serve (declared.foldlM (grantResource wording clientSpId t₀.assignments t₀.grants)
        ⟨clientSpId, [], [], [], []⟩) t₀ = (result, t₁) ∧
      Progress t₀ (declaredRoles dir declared) (scopeBlocks dir declared) (notInPlace dir declared)
        result t₁ := by
  obtain ⟨result, t₁, heval, hprogress⟩ :=
    Progress.manyBlocks dir wording clientSpId hvalid declared (Progress.start hvalid clientSpId)
  refine ⟨result, t₁, ?_, heval, by simpa using hprogress⟩
  have hassignments : eval dir.serve (call (.listAppRoleAssignments clientSpId)) t₀ =
      (.ok t₀.assignments, t₀) := rfl
  have hgrants : eval dir.serve (call (.listOauth2Grants clientSpId)) t₀ = (.ok t₀.grants, t₀) := rfl
  have hwarm : eval dir.serve (call (.prewarmResourceSps (declared.map (·.resourceAppId)))) t₀ = ((), t₀) := rfl
  unfold consentWithSp
  simp only [eval_bind, hassignments, hgrants, hwarm]
  rw [heval]
  rfl

end Steps

/-! ## A run over what is in place -/

section Settled

variable {dir : Directory} {wording : Wording} {clientSpId : Text} {t : Tenant}

/-- Nothing that is declared is missing. -/
structure Settled (dir : Directory) (declared : List RequiredResourceAccess) (t : Tenant) : Prop where
  roles : ∀ p ∈ declaredRoles dir declared, t.assigned p.1 p.2 = true
  scopes : ∀ r, ∀ scopes ∈ scopeBlocks dir declared r, ∀ v ∈ scopes, v ∈ t.scopes r

theorem Settled.tail {resource : RequiredResourceAccess} {declared : List RequiredResourceAccess}
    (h : Settled dir (resource :: declared) t) : Settled dir [resource] t ∧ Settled dir declared t := by
  have hroles : declaredRoles dir (resource :: declared) =
      declaredRoles dir [resource] ++ declaredRoles dir declared := by
    simp [declaredRoles]
  have hscopes : ∀ r, scopeBlocks dir (resource :: declared) r =
      scopeBlocks dir [resource] r ++ scopeBlocks dir declared r := by
    intro r
    unfold scopeBlocks
    rw [List.map_cons, ← List.singleton_append, List.filter_append]
    rfl
  refine ⟨⟨?_, ?_⟩, ⟨?_, ?_⟩⟩
  · exact fun p hp => h.roles p (by rw [hroles]; exact List.mem_append_left _ hp)
  · exact fun r scopes hs => h.scopes r scopes (by rw [hscopes]; exact List.mem_append_left _ hs)
  · exact fun p hp => h.roles p (by rw [hroles]; exact List.mem_append_right _ hp)
  · exact fun r scopes hs => h.scopes r scopes (by rw [hscopes]; exact List.mem_append_right _ hs)

theorem settled_roles (resource : RequiredResourceAccess) (sp : ServicePrincipal)
    (declared : List ResourceAccess) (hheld : ∀ role ∈ declared, t.assigned sp.id role.id = true)
    (result : GrantResult) :
    (eval dir.serve (declared.foldlM (grantRole wording clientSpId t.assignments resource sp) result) t).2 =
      t := by
  induction declared generalizing result with
  | nil => rfl
  | cons role declared ih =>
    have hrole : t.assignments.any (fun a => a.resourceId == sp.id && a.appRoleId == role.id) = true :=
      hheld role List.mem_cons_self
    rw [List.foldlM_cons, eval_bind, eval_grantRole, if_pos hrole]
    exact ih (fun role hmem => hheld role (List.mem_cons_of_mem _ hmem)) _

theorem settled_scopes (resource : RequiredResourceAccess) (sp : ServicePrincipal)
    (hheld : ∀ v ∈ (scopeIdsOf resource).filterMap (exposedValue sp), v ∈ t.scopes sp.id)
    (result : GrantResult) :
    (eval dir.serve (grantScopes wording clientSpId t.grants resource sp result) t).2 = t := by
  unfold grantScopes
  by_cases hids : scopeIdsOf resource = []
  · simp [hids]
  · simp only [List.isEmpty_iff, hids, if_false]
    generalize (scopeIdsOf resource).filterMap (exposedValue sp) = scopes at hheld
    by_cases hne : scopes = []
    · rw [if_pos hne]
      rfl
    · rw [if_neg hne, eval_bind]
      obtain ⟨v, hv⟩ := List.exists_mem_of_ne_nil _ hne
      unfold Tenant.scopes at hheld
      cases hg : t.adminGrant sp.id with
      | none =>
        rw [hg] at hheld
        exact absurd (hheld v hv) List.not_mem_nil
      | some g =>
        rw [hg] at hheld
        rw [eval_upsert_kept hg (subsumed_iff.2 hheld)]
        rfl

variable (wording clientSpId) in
/-- A run over what is in place writes nothing. -/
theorem settled_run (declared : List RequiredResourceAccess) (h : Settled dir declared t)
    (result : GrantResult) :
    (eval dir.serve (declared.foldlM (grantResource wording clientSpId t.assignments t.grants) result) t).2 =
      t := by
  induction declared generalizing result with
  | nil => rfl
  | cons resource declared ih =>
    obtain ⟨hhead, htail⟩ := h.tail
    have hstep : (eval dir.serve
        (grantResource wording clientSpId t.assignments t.grants result resource) t).2 = t := by
      have hserve : eval dir.serve (call (.resolveResourceSp resource.resourceAppId)) t =
          (.ok (dir.resolve resource.resourceAppId), t) := rfl
      unfold grantResource
      rw [eval_bind, hserve]
      cases hsp : dir.resolve resource.resourceAppId with
      | none => rfl
      | some sp =>
        have hroles := hhead.roles
        have hscopes := hhead.scopes sp.id
        simp only [declaredRoles, List.flatMap_cons, List.flatMap_nil, hsp, List.append_nil,
          List.mem_map, forall_exists_index, and_imp] at hroles
        simp only [scopeBlocks, blockScopes, List.map_cons, List.map_nil, hsp, if_true,
          List.mem_filter, List.mem_singleton] at hscopes
        simp only [eval_bind]
        rw [settled_roles resource sp _ (fun role hrole => hroles _ role hrole rfl)]
        refine settled_scopes resource sp (fun v hv => hscopes _ ⟨rfl, ?_⟩ v hv) _
        rw [Bool.not_eq_true', List.isEmpty_eq_false_iff]
        exact List.ne_nil_of_mem hv
    rw [List.foldlM_cons, eval_bind, hstep]
    exact ih htail _

end Settled

/-! ## When a run grants what is declared -/

section Granted

variable (dir : Directory) (wording : Wording) (clientSpId : Text) (declared : List RequiredResourceAccess)

/-- What a consent run is for. -/
structure GrantsDeclared (t₀ : Tenant) (result : GrantResult) (t₁ : Tenant) : Prop where
  assigned : ∀ r role, t₁.assigned r role = true ↔
    t₀.assigned r role = true ∨ (r, role) ∈ declaredRoles dir declared
  scopes : ∀ r v, v ∈ t₁.scopes r ↔ v ∈ t₀.scopes r ∨ ∃ scopes ∈ scopeBlocks dir declared r, v ∈ scopes
  users : t₁.userGrants = t₀.userGrants
  failures : ∀ f, f ∈ result.failures ↔ f ∈ notInPlace dir declared
  again : ∃ result', eval dir.serve (consentWithSp wording clientSpId declared) t₁ = (.ok result', t₁) ∧
    ∀ f ∈ result'.failures, f ∈ result.failures

/-- No role that is missing is declared twice. A resource without a grant has one block of scopes, and
of the blocks of the others the last that adds a scope brings all that the others add. -/
structure DeclaredOnce (t₀ : Tenant) : Prop where
  roles : (missingRoles t₀ (declaredRoles dir declared)).Nodup
  first : ∀ r, t₀.adminGrant r = none → (scopeBlocks dir declared r).length ≤ 1
  last : ∀ r g, t₀.adminGrant r = some g → ∀ scopes ∈ scopeBlocks dir declared r, ∀ v ∈ scopes,
    v ∈ Words.splitWhitespace g.scope ∨
      v ∈ lastAdded (Words.splitWhitespace g.scope) (scopeBlocks dir declared r)

end Granted

section Granted

variable {dir : Directory} {wording : Wording} {clientSpId : Text} {declared : List RequiredResourceAccess}
  {t₀ t₁ : Tenant} {result : GrantResult}

theorem mem_of_mem_lastAdded {current : List Text} {blocks : List (List Text)} {v : Text}
    (h : v ∈ lastAdded current blocks) : ∃ scopes ∈ blocks, v ∈ scopes := by
  unfold lastAdded at h
  cases hlast : (blocks.filter (fun scopes => !subsumed current scopes)).getLast? with
  | none =>
    rw [hlast] at h
    exact absurd h List.not_mem_nil
  | some scopes =>
    rw [hlast] at h
    exact ⟨scopes, (List.mem_filter.1 (List.mem_of_getLast? hlast)).1, h⟩

theorem not_spurious_of_notInPlace {f : GrantFailure} (h : f ∈ notInPlace dir declared) : ¬ Spurious f := by
  obtain ⟨b, -, hf⟩ := List.mem_flatMap.1 h
  cases hsp : dir.resolve b.resourceAppId with
  | none =>
    simp only [hsp, List.mem_singleton] at hf
    subst hf
    rintro (hkind | ⟨hkind, -⟩) <;> exact absurd hkind (by simp [resourceMissing])
  | some sp =>
    simp only [hsp] at hf
    obtain ⟨id, -, rfl⟩ := List.mem_map.1 hf
    rintro (hkind | ⟨-, hid⟩)
    · exact absurd hkind (by simp [scopeNotExposed])
    · exact absurd hid (by simp [scopeNotExposed])

/-- The failures are the expected ones exactly if no failure names an entry in place. -/
theorem Progress.failures_iff {roles : List (Text × Text)} {blocks : Text → List (List Text)}
    (h : Progress t₀ roles blocks (notInPlace dir declared) result t₁) :
    (∀ f, f ∈ result.failures ↔ f ∈ notInPlace dir declared) ↔
      (missingRoles t₀ roles).Nodup ∧ ∀ r, t₀.adminGrant r = none → (blocks r).length ≤ 1 := by
  have hspurious : (¬ ∃ f ∈ result.failures, Spurious f) ↔
      (missingRoles t₀ roles).Nodup ∧ ∀ r, t₀.adminGrant r = none → (blocks r).length ≤ 1 := by
    rw [h.spurious, not_or, not_not]
    refine and_congr_right fun _ => ?_
    constructor
    · intro hnone r hr
      by_contra hlong
      exact hnone ⟨r, hr, by omega⟩
    · rintro hshort ⟨r, hr, hlong⟩
      have := hshort r hr
      omega
  rw [← hspurious]
  constructor
  · rintro hsame ⟨f, hf, hspurious⟩
    exact not_spurious_of_notInPlace ((hsame f).1 hf) hspurious
  · intro hnone f
    constructor
    · intro hf
      exact (h.named f hf).resolve_right (fun hspurious => hnone ⟨f, hf, hspurious⟩)
    · exact h.reported f

theorem Progress.mem_scopes_iff {roles : List (Text × Text)} {blocks : Text → List (List Text)}
    {expected : List GrantFailure} (h : Progress t₀ roles blocks expected result t₁) {r : Text}
    (hg : t₀.adminGrant r = some g) (v : Text) :
    v ∈ t₁.scopes r ↔
      v ∈ Words.splitWhitespace g.scope ∨ v ∈ lastAdded (Words.splitWhitespace g.scope) (blocks r) := by
  have hgranted := h.granted r
  rw [hg] at hgranted
  obtain ⟨scope, hafter, hwords⟩ := hgranted
  unfold Tenant.scopes
  rw [hafter]
  exact hwords v

/-- The scopes after a run in which each resource's last block brings all. -/
theorem Progress.scopes_of_declaredOnce
    (h : Progress t₀ (declaredRoles dir declared) (scopeBlocks dir declared) (notInPlace dir declared)
      result t₁) (honce : DeclaredOnce dir declared t₀) (r v : Text) :
    v ∈ t₁.scopes r ↔ v ∈ t₀.scopes r ∨ ∃ scopes ∈ scopeBlocks dir declared r, v ∈ scopes := by
  cases hg : t₀.adminGrant r with
  | some g =>
    have hbefore : t₀.scopes r = Words.splitWhitespace g.scope := by
      unfold Tenant.scopes
      rw [hg]
    rw [h.mem_scopes_iff hg, hbefore]
    constructor
    · exact fun hv => hv.imp id mem_of_mem_lastAdded
    · rintro (hv | ⟨scopes, hscopes, hv⟩)
      · exact .inl hv
      · exact honce.last r g hg scopes hscopes v hv
  | none =>
    have hbefore : t₀.scopes r = [] := by
      unfold Tenant.scopes
      rw [hg]
    have hgranted := h.granted r
    have hshort := honce.first r hg
    rw [hg] at hgranted
    rw [hbefore]
    unfold ScopesAfter at hgranted
    unfold Tenant.scopes
    cases hblocks : scopeBlocks dir declared r with
    | nil =>
      rw [hblocks] at hgranted
      simp [hgranted]
    | cons scopes rest =>
      rw [hblocks, List.length_cons] at hshort
      rw [hblocks] at hgranted
      obtain ⟨g, hafter, hwords⟩ := hgranted
      have hrest : rest = [] := List.eq_nil_of_length_eq_zero (by omega)
      rw [hafter, hrest]
      simp [hwords]

/-- After such a run all that is declared is in place. -/
theorem Progress.settled
    (h : Progress t₀ (declaredRoles dir declared) (scopeBlocks dir declared) (notInPlace dir declared)
      result t₁) (honce : DeclaredOnce dir declared t₀) : Settled dir declared t₁ where
  roles p hp := (h.assigned p.1 p.2).2 (.inr hp)
  scopes r scopes hscopes v hv := (h.scopes_of_declaredOnce honce r v).2 (.inr ⟨scopes, hscopes, hv⟩)

/-- Over what is in place no role is missing, and every block finds its grant. -/
theorem Settled.declaredOnce (h : Settled dir declared t₁) : DeclaredOnce dir declared t₁ where
  roles := by
    have hnone : missingRoles t₁ (declaredRoles dir declared) = [] := by
      unfold missingRoles
      rw [List.filter_eq_nil_iff]
      intro p hp
      simp [h.roles p hp]
    rw [hnone]
    exact List.nodup_nil
  first r hg := by
    have hempty : scopeBlocks dir declared r = [] := by
      rw [List.eq_nil_iff_forall_not_mem]
      intro scopes hscopes
      have hne : scopes ≠ [] := by simpa using (List.mem_filter.1 hscopes).2
      obtain ⟨v, hv⟩ := List.exists_mem_of_ne_nil _ hne
      have hheld := h.scopes r scopes hscopes v hv
      unfold Tenant.scopes at hheld
      rw [hg] at hheld
      exact List.not_mem_nil hheld
    rw [hempty]
    exact Nat.zero_le _
  last r g hg scopes hscopes v hv := by
    have hheld := h.scopes r scopes hscopes v hv
    unfold Tenant.scopes at hheld
    rw [hg] at hheld
    exact .inl hheld

end Granted

/-- A consent run grants exactly what is declared, and a second run nothing more, exactly if no missing
role is declared twice and no later block of a resource takes back what an earlier one brought. -/
theorem consent_grants_declared_iff (dir : Directory) (wording : Wording) (clientSpId : Text)
    (declared : List RequiredResourceAccess) (t₀ : Tenant) (hvalid : t₀.Valid) :
    ∃ result t₁, eval dir.serve (consentWithSp wording clientSpId declared) t₀ = (.ok result, t₁) ∧
      (GrantsDeclared dir wording clientSpId declared t₀ result t₁ ↔ DeclaredOnce dir declared t₀) := by
  obtain ⟨result, t₁, heval, -, hprogress⟩ := eval_consentWithSp dir wording clientSpId hvalid declared
  refine ⟨result, t₁, heval, ?_, ?_⟩
  · intro hgrants
    obtain ⟨hroles, hfirst⟩ := hprogress.failures_iff.1 hgrants.failures
    refine ⟨hroles, hfirst, ?_⟩
    intro r g hg scopes hscopes v hv
    rw [← hprogress.mem_scopes_iff hg]
    exact (hgrants.scopes r v).2 (.inr ⟨scopes, hscopes, hv⟩)
  · intro honce
    have hfailures := hprogress.failures_iff.2 ⟨honce.roles, honce.first⟩
    refine ⟨hprogress.assigned, hprogress.scopes_of_declaredOnce honce, hprogress.users, hfailures, ?_⟩
    have hsettled := hprogress.settled honce
    obtain ⟨result', t₂, heval', hloop, hagain⟩ := eval_consentWithSp dir wording clientSpId hprogress.valid declared
    have hsame : t₂ = t₁ := by
      have hrun := settled_run wording clientSpId declared hsettled
        ⟨clientSpId, [], [], [], []⟩
      rw [hloop] at hrun
      exact hrun
    subst hsame
    refine ⟨result', heval', ?_⟩
    intro f hf
    have honce' := hsettled.declaredOnce
    exact (hfailures f).2 ((hagain.failures_iff.2 ⟨honce'.roles, honce'.first⟩ f).1 hf)

/-! ## A manifest that names its resource twice -/

def mailSp : ServicePrincipal :=
  { id := "mail-sp".toList
    oauth2PermissionScopes :=
      [⟨"1".toList, "Mail.Read".toList⟩, ⟨"2".toList, "Mail.Send".toList⟩] }

/-- An id longer than all that are there. -/
def longerId (grants : List OAuth2PermissionGrant) : Text :=
  grants.flatMap (fun g => g.id.getD []) ++ ['1']

theorem ne_longerId (grants : List OAuth2PermissionGrant) (hg : g ∈ grants) :
    g.id ≠ some (longerId grants) := by
  intro hid
  have hsub : (g.id.getD []).length ≤ (grants.flatMap (fun g => g.id.getD [])).length := by
    obtain ⟨before, after, rfl⟩ := List.append_of_mem hg
    simp only [List.flatMap_append, List.flatMap_cons, List.length_append]
    omega
  rw [hid, Option.getD_some, longerId, List.length_append, List.length_singleton] at hsub
  omega

def mailDirectory : Directory where
  resolve appId := if appId = "mail".toList then some mailSp else none
  freshId := longerId
  words appId sp hsp := by
    obtain ⟨-, hmail⟩ := Option.ite_none_right_eq_some.1 hsp
    obtain rfl := Option.some.inj hmail
    intro s hs
    rcases List.mem_cons.1 hs with rfl | hs
    · exact Words.isWord_of_all (by decide)
    · rw [List.mem_singleton.1 hs]
      exact Words.isWord_of_all (by decide)
  fresh grants g hg := ne_longerId grants hg

def scopeBlock (id : Text) : RequiredResourceAccess := ⟨"mail".toList, [⟨id, "Scope".toList⟩]⟩

def mailBlock : RequiredResourceAccess :=
  ⟨"mail".toList, [⟨"1".toList, "Scope".toList⟩, ⟨"2".toList, "Scope".toList⟩]⟩

/-- The client has one grant on the resource, for another scope. -/
def mailTenant : Tenant :=
  { grants := [⟨some "g".toList, "client".toList, "mail-sp".toList, allPrincipals, none, "openid".toList⟩]
    assignments := [] }

def plainWording : Wording := ⟨fun _ => [], fun _ => []⟩

theorem valid_mailTenant : mailTenant.Valid := ⟨by decide, by decide⟩

/-- One block declares both scopes, and both are granted beside the one that was. -/
theorem consent_grants_declared_iff_mail :
    ∃ result t₁,
      eval mailDirectory.serve (consentWithSp plainWording "client".toList [mailBlock]) mailTenant =
        (.ok result, t₁) ∧
      GrantsDeclared mailDirectory plainWording "client".toList [mailBlock] mailTenant result t₁ := by
  obtain ⟨result, t₁, heval, hiff⟩ := consent_grants_declared_iff mailDirectory plainWording "client".toList
    [mailBlock] mailTenant valid_mailTenant
  have hone : ∀ r, (scopeBlocks mailDirectory [mailBlock] r).length ≤ 1 := fun r => List.length_filter_le _ _
  refine ⟨result, t₁, heval, hiff.2 ⟨by decide, fun r _ => hone r, fun r g hg scopes hscopes v hv => ?_⟩⟩
  have hblocks : scopeBlocks mailDirectory [mailBlock] r = [scopes] := by
    obtain ⟨scopes', hscopes'⟩ := List.length_eq_one_iff.1 (le_antisymm (hone r) (List.length_pos_of_mem hscopes))
    rw [hscopes'] at hscopes ⊢
    rw [List.mem_singleton.1 hscopes]
  rw [hblocks]
  cases hsubsumed : subsumed (Words.splitWhitespace g.scope) scopes with
  | true => exact .inl (subsumed_iff.1 hsubsumed v hv)
  | false => exact .inr (by simpa [lastAdded, hsubsumed] using hv)

/-- The second block merges into the snapshot, so the first block's scope is gone. -/
theorem later_block_takes_back :
    mailTenant.Valid ∧
    ¬ ∃ result t₁,
      eval mailDirectory.serve (consentWithSp plainWording "client".toList
        [scopeBlock "1".toList, scopeBlock "2".toList]) mailTenant = (.ok result, t₁) ∧
      GrantsDeclared mailDirectory plainWording "client".toList
        [scopeBlock "1".toList, scopeBlock "2".toList] mailTenant result t₁ := by
  refine ⟨valid_mailTenant, ?_⟩
  rintro ⟨result, t₁, heval, hgrants⟩
  obtain ⟨result', t₁', heval', -, hprogress⟩ := eval_consentWithSp mailDirectory plainWording
    "client".toList valid_mailTenant [scopeBlock "1".toList, scopeBlock "2".toList]
  obtain ⟨hresult, rfl⟩ := Prod.mk.inj (heval.symm.trans heval')
  have hread : "Mail.Read".toList ∈ t₁.scopes "mail-sp".toList :=
    (hgrants.scopes _ _).2 (.inr ⟨["Mail.Read".toList], by decide, by decide⟩)
  have hg : mailTenant.adminGrant "mail-sp".toList = some
      ⟨some "g".toList, "client".toList, "mail-sp".toList, allPrincipals, none, "openid".toList⟩ := by decide
  rcases (hprogress.mem_scopes_iff hg _).1 hread with hbefore | hlast
  · exact absurd hbefore (by decide)
  · exact absurd hlast (by decide)

end Permissions
