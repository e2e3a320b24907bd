import AzAppToolkit.Remediation.Redundant

set_option autoImplicit false

/-! # What the redundant-permissions fix plans

The directory the fix works on, and what its two pure parts do: `mem_plan` says which removals are
planned, `dropDeclarations_spec` what the patched manifest still declares.

The directory answers truthfully or with an error. A write that is answered with an error may have
been done all the same. -/

namespace Remediation

open Graph (GraphError)
open Exchange (MailPermissionScope ScopableMailPermission)

/-! ## The directory -/

/-- The app in the directory. Assignments have ids of their own, and a role of a resource is
    assigned at most once. -/
structure Directory where
  appId : Text
  required : List RequiredResourceAccess
  servicePrincipal : Option Text
  assignments : List AppRoleAssignment
  ids_injective : ∀ a ∈ assignments, ∀ b ∈ assignments, a.id = b.id → a = b
  roles_injective : ∀ a ∈ assignments, ∀ b ∈ assignments,
    a.resourceId = b.resourceId → a.appRoleId = b.appRoleId → a = b
  unassigned : servicePrincipal = none → assignments = []

/-- What no run changes: the resources that resolve, and whether Exchange confines a permission. -/
structure Surroundings where
  resolve : Text → Option ResourceSp
  mailScopes : Text → Option MailPermissionScope
  resolve_injective : ∀ r r' sp sp', resolve r = some sp → resolve r' = some sp' → sp.id = sp'.id →
    r = r'

/-- Remove an assignment. -/
def Directory.revoke (s : Directory) (id : Text) : Directory where
  appId := s.appId
  required := s.required
  servicePrincipal := s.servicePrincipal
  assignments := s.assignments.filter (fun a => a.id != id)
  ids_injective := fun a ha b hb =>
    s.ids_injective a (List.mem_of_mem_filter ha) b (List.mem_of_mem_filter hb)
  roles_injective := fun a ha b hb =>
    s.roles_injective a (List.mem_of_mem_filter ha) b (List.mem_of_mem_filter hb)
  unassigned := fun h => by rw [s.unassigned h, List.filter_nil]

/-- Replace the manifest. -/
def Directory.patch (s : Directory) (next : List RequiredResourceAccess) : Directory :=
  { s with required := next }

/-- The directory's answers. -/
def world (env : Surroundings) : World Call.Answer Directory
  | s, .getApplication _, r, s' => s' = s ∧ ∀ app, r = .ok app → app = ⟨s.appId, s.required⟩
  | s, .resolveResourceSp id, r, s' => s' = s ∧
      (r.toOption.getD none) = env.resolve id
  | s, .getServicePrincipalByAppId _, r, s' => s' = s ∧ ∀ sp, r = .ok sp → sp = s.servicePrincipal
  | s, .listAppRoleAssignments _, r, s' => s' = s ∧ ∀ l, r = .ok l → l = s.assignments
  | s, .resolveMailScopes _ permissions, r, s' => s' = s ∧
      ∀ p ∈ permissions, (r.getD []).lookup p.value = env.mailScopes p.value
  | s, .removeAppRoleAssignment _ id, r, s' => s' = s.revoke id ∨ (s' = s ∧ ∃ e, r = .error e)
  | s, .updateApplication _ next, r, s' => s' = s.patch next ∨ (s' = s ∧ ∃ e, r = .error e)
  | s, .invalidateAppDetailState, _, s' => s' = s

/-- The assignment grants the value on the resource. -/
def Surroundings.Grants (env : Surroundings) (a : AppRoleAssignment) (resourceAppId value : Text) :
    Prop :=
  ∃ sp, env.resolve resourceAppId = some sp ∧ a.resourceId = sp.id ∧
    sp.index a.appRoleId = some value

/-- The veto over covering permissions. -/
def Surroundings.confined (env : Surroundings) : Text → Text → Bool :=
  broaderIsConfined env.mailScopes

/-- A block declares an access on the resource. -/
def Declares (required : List RequiredResourceAccess) (resourceAppId : Text) (a : ResourceAccess) :
    Prop :=
  ∃ block ∈ required, block.resourceAppId = resourceAppId ∧ a ∈ block.resourceAccess

/-- What a run from this state plans to remove. -/
def planned (env : Surroundings) (s : Directory) : List RedundantRemoval :=
  (planRedundantRemovals s.required (roleIndexes env.resolve) (grantedOn env.resolve s.assignments)
    env.confined).1

/-- No block declares two role ids of one value. -/
def ValuesDeclaredOnce (env : Surroundings) (s : Directory) : Prop :=
  ∀ block ∈ s.required, ∀ index, roleIndexes env.resolve block.resourceAppId = some index →
    ∀ d ∈ declaredRoles index block, ∀ d' ∈ declaredRoles index block, d.2 = d'.2 → d.1 = d'.1

/-! ## Collected maps -/

section Collect

variable {α : Type} {entries : List (Text × α)} {k : Text} {a : α}

theorem mem_of_collect (h : collect entries k = some a) : (k, a) ∈ entries := by
  unfold collect at h
  obtain ⟨l₁, l₂, heq, -⟩ := List.lookup_eq_some_iff.1 h
  rw [← List.mem_reverse, heq]
  simp

theorem exists_collect_of_mem (h : (k, a) ∈ entries) : ∃ a', collect entries k = some a' := by
  cases hlookup : collect entries k with
  | some a' => exact ⟨a', rfl⟩
  | none =>
    unfold collect at hlookup
    have hne := List.lookup_eq_none_iff.1 hlookup (k, a) (List.mem_reverse.2 h)
    exact absurd hne (by simp)

theorem collect_eq_of_mem (h : (k, a) ∈ entries) (hone : ∀ a', (k, a') ∈ entries → a' = a) :
    collect entries k = some a := by
  obtain ⟨a', ha'⟩ := exists_collect_of_mem h
  rw [ha', hone a' (mem_of_collect ha')]

end Collect

/-! ## What is planned -/

theorem mem_declaredRoles {index : Text → Option Text} {block : RequiredResourceAccess}
    {d : Text × Text} : d ∈ declaredRoles index block ↔
      ⟨d.1, roleType⟩ ∈ block.resourceAccess ∧ index d.1 = some d.2 := by
  unfold declaredRoles
  rw [List.mem_filterMap]
  constructor
  · rintro ⟨a, ha, hd⟩
    obtain ⟨hmem, htype⟩ := List.mem_filter.1 ha
    obtain ⟨v, hv, rfl⟩ := Option.map_eq_some_iff.1 hd
    have heq : a = ⟨a.id, roleType⟩ := by rw [← eq_of_beq htype]
    exact ⟨heq ▸ hmem, hv⟩
  · rintro ⟨hmem, hv⟩
    exact ⟨⟨d.1, roleType⟩, List.mem_filter.2 ⟨hmem, by simp⟩, by simp [hv]⟩

variable {declared : List (Text × Text)}

theorem mem_of_valueToId {v id : Text} (h : valueToId declared v = some id) : (id, v) ∈ declared := by
  have hmem := mem_of_collect h
  rw [List.mem_map] at hmem
  obtain ⟨d, hd, heq⟩ := hmem
  obtain ⟨rfl, rfl⟩ := Prod.mk.inj heq
  exact hd

theorem exists_valueToId_of_mem {v id : Text}
    (h : (id, v) ∈ declared) : ∃ id', valueToId declared v = some id' :=
  exists_collect_of_mem (List.mem_map.2 ⟨(id, v), h, rfl⟩)

variable {confined : Text → Text → Bool}

theorem mem_broadersOf {r : Text} {v b : Text} : b ∈ broadersOf r confined declared v ↔
      Audit.Subsumes b v ∧ (∃ id, valueToId declared b = some id) ∧ confined r b = false := by
  unfold broadersOf Audit.Subsumes
  rw [List.mem_filter, List.mem_filter, and_assoc, Option.isSome_iff_exists]
  simp

/-- The permission may go: a permission of the block covers it, and one that is granted does if it is
    granted itself. -/
structure Removable (r : Text) (grants : Text → Option Text) (confined : Text → Text → Bool)
    (declared : List (Text × Text)) (entry : Text × Text) : Prop where
  covered : ∃ b, b ∈ broadersOf r confined declared entry.2
  granted : (grants entry.1).isSome → ∃ b ∈ broadersOf r confined declared entry.2, ∃ id,
    valueToId declared b = some id ∧ (grants id).isSome

theorem decideRemoval_eq_remove {r : Text} {grants : Text → Option Text}
    {entry : Text × Text} {removal : RedundantRemoval} :
    decideRemoval r grants confined declared entry = .remove removal ↔
      Removable r grants confined declared entry ∧
        removal = ⟨r, entry.2, entry.1, grants entry.1⟩ := by
  have hsub : (∃ b, b ∈ broadersOf r confined declared entry.2) →
      ((Audit.subsumingAppPermissions entry.2).filter
        (fun b => (valueToId declared b).isSome)).isEmpty = false := by
    rintro ⟨b, hb⟩
    exact List.isEmpty_eq_false_iff_exists_mem.2 ⟨b, List.mem_of_mem_filter hb⟩
  have hany : (broadersOf r confined declared entry.2).any (isGranted grants declared) = true ↔
      ∃ b ∈ broadersOf r confined declared entry.2, ∃ id,
        valueToId declared b = some id ∧ (grants id).isSome := by
    rw [List.any_eq_true]
    refine exists_congr (fun b => and_congr_right (fun _ => ?_))
    unfold isGranted
    cases valueToId declared b <;> simp
  unfold decideRemoval
  constructor
  · intro h
    dsimp only at h
    split at h
    · exact absurd h (by simp)
    · split at h
      · exact absurd h (by simp)
      · next hbroaders =>
        split at h
        · exact absurd h (by simp)
        · next hgranted =>
          refine ⟨⟨List.isEmpty_eq_false_iff_exists_mem.1 (by simpa using hbroaders), ?_⟩,
            (Decision.remove.inj h).symm⟩
          intro hsome
          rw [← hany]
          rw [hsome, Bool.true_and, Bool.not_eq_true', Bool.not_eq_false] at hgranted
          exact hgranted
  · rintro ⟨⟨hcovered, hgranted⟩, rfl⟩
    dsimp only
    rw [hsub hcovered, List.isEmpty_eq_false_iff_exists_mem.2 hcovered]
    have hlive : ((grants entry.1).isSome &&
        !(broadersOf r confined declared entry.2).any (isGranted grants declared)) = false := by
      rw [Bool.and_eq_false_imp]
      intro hsome
      rw [hany.2 (hgranted hsome), Bool.not_true]
    simp only [Bool.false_eq_true, if_false]
    rw [hlive]
    simp

/-- A removal is planned for a declared permission of a block that may go. -/
structure PlannedIn (required : List RequiredResourceAccess)
    (indexes granted : Text → Option (Text → Option Text)) (confined : Text → Text → Bool)
    (block : RequiredResourceAccess) (index : Text → Option Text) (removal : RedundantRemoval) :
    Prop where
  block_mem : block ∈ required
  resource : removal.resourceAppId = block.resourceAppId
  indexed : indexes block.resourceAppId = some index
  declared : (removal.permissionId, removal.value) ∈ declaredRoles index block
  assignment : removal.assignmentId =
    (granted block.resourceAppId).getD (fun _ => none) removal.permissionId
  removable : Removable block.resourceAppId ((granted block.resourceAppId).getD (fun _ => none))
    confined (declaredRoles index block) (removal.permissionId, removal.value)

theorem mem_plan {required : List RequiredResourceAccess}
    {indexes granted : Text → Option (Text → Option Text)} {removal : RedundantRemoval} :
    removal ∈ (planRedundantRemovals required indexes granted confined).1 ↔
      ∃ block index, PlannedIn required indexes granted confined block index removal := by
  unfold planRedundantRemovals
  rw [List.mem_filterMap]
  constructor
  · rintro ⟨decision, hmem, hremoval⟩
    obtain ⟨block, hblock, hdecision⟩ := List.mem_flatMap.1 hmem
    unfold decideBlock at hdecision
    cases hindex : indexes block.resourceAppId with
    | none =>
      rw [hindex] at hdecision
      exact absurd hdecision (by simp)
    | some index =>
      rw [hindex] at hdecision
      obtain ⟨entry, hentry, heq⟩ := List.mem_map.1 hdecision
      cases decision with
      | keep => exact absurd hremoval (by simp [Decision.removal?])
      | skip value => exact absurd hremoval (by simp [Decision.removal?])
      | remove removal' =>
        obtain rfl : removal' = removal := Option.some.inj hremoval
        obtain ⟨hremovable, rfl⟩ := decideRemoval_eq_remove.1 heq
        exact ⟨block, index, hblock, rfl, hindex, hentry, rfl, hremovable⟩
  · rintro ⟨block, index, h⟩
    refine ⟨.remove removal, List.mem_flatMap.2 ⟨block, h.block_mem, ?_⟩, rfl⟩
    unfold decideBlock
    rw [h.indexed]
    refine List.mem_map.2 ⟨(removal.permissionId, removal.value), h.declared, ?_⟩
    refine decideRemoval_eq_remove.2 ⟨h.removable, ?_⟩
    dsimp only
    rw [← h.resource, h.resource, ← h.assignment, ← h.resource]

/-- The plan looks at the resources of its blocks and at the values these declare. -/
theorem plan_congr {required : List RequiredResourceAccess}
    {indexes indexes' granted granted' : Text → Option (Text → Option Text)}
    {confined confined' : Text → Text → Bool}
    (hindexes : ∀ block ∈ required, indexes block.resourceAppId = indexes' block.resourceAppId)
    (hgranted : ∀ block ∈ required, (granted block.resourceAppId).getD (fun _ => none)
      = (granted' block.resourceAppId).getD (fun _ => none))
    (hconfined : ∀ block ∈ required, ∀ index, indexes' block.resourceAppId = some index →
      ∀ d ∈ declaredRoles index block,
        confined block.resourceAppId d.2 = confined' block.resourceAppId d.2) :
    planRedundantRemovals required indexes granted confined
      = planRedundantRemovals required indexes' granted' confined' := by
  have hblocks : required.flatMap (decideBlock indexes granted confined)
      = required.flatMap (decideBlock indexes' granted' confined') := by
    refine List.flatMap_congr (fun block hblock => ?_)
    unfold decideBlock
    rw [hindexes block hblock]
    cases hindex : indexes' block.resourceAppId with
    | none => rfl
    | some index =>
      dsimp only
      rw [hgranted block hblock]
      refine List.map_congr_left (fun entry _ => ?_)
      have hbroaders : broadersOf block.resourceAppId confined (declaredRoles index block) entry.2
          = broadersOf block.resourceAppId confined' (declaredRoles index block) entry.2 := by
        refine List.filter_congr (fun b hb => ?_)
        obtain ⟨id, hid⟩ := Option.isSome_iff_exists.1 (List.mem_filter.1 hb).2
        rw [hconfined block hblock index hindex (id, b) (mem_of_valueToId hid)]
      unfold decideRemoval
      rw [hbroaders]
  unfold planRedundantRemovals
  rw [hblocks]

theorem grants_eq_some_iff (s : Directory) (sp : ResourceSp) (roleId id : Text) :
    sp.grants s.assignments roleId = some id ↔
      ∃ a ∈ s.assignments, a.resourceId = sp.id ∧ a.appRoleId = roleId ∧ a.id = id := by
  have hmem : ∀ id, (roleId, id) ∈ (s.assignments.filter (fun a => a.resourceId == sp.id)).map
      (fun a => (a.appRoleId, a.id)) ↔
        ∃ a ∈ s.assignments, a.resourceId = sp.id ∧ a.appRoleId = roleId ∧ a.id = id := by
    intro id
    simp only [List.mem_map, List.mem_filter, beq_iff_eq, Prod.mk.injEq, and_assoc]
  constructor
  · intro h
    exact (hmem id).1 (mem_of_collect h)
  · intro h
    refine collect_eq_of_mem ((hmem id).2 h) (fun id' h' => ?_)
    obtain ⟨a, ha, hresource, hrole, rfl⟩ := h
    obtain ⟨b, hb, hresource', hrole', rfl⟩ := (hmem id').1 h'
    rw [s.roles_injective a ha b hb (hresource.trans hresource'.symm) (hrole.trans hrole'.symm)]

/-! ## Dropping declarations -/

/-- The manifest after some declarations are dropped: nothing is added, and what is missing was to be
    dropped. -/
structure Dropped (removals : List RedundantRemoval) (required next : List RequiredResourceAccess) :
    Prop where
  blocks : ∀ block' ∈ next, ∃ block ∈ required, block'.resourceAppId = block.resourceAppId ∧
    block'.resourceAccess.Sublist block.resourceAccess
  missing : ∀ r a, Declares required r a → ¬ Declares next r a → ∃ removal ∈ removals,
    r = removal.resourceAppId ∧ a = ⟨removal.permissionId, roleType⟩

theorem Dropped.refl (required : List RequiredResourceAccess) : Dropped [] required required where
  blocks := fun block hblock => ⟨block, hblock, rfl, List.Sublist.refl _⟩
  missing := fun _ _ h hnot => absurd h hnot

theorem Dropped.declares {removals : List RedundantRemoval}
    {required next : List RequiredResourceAccess} (h : Dropped removals required next) {r : Text}
    {a : ResourceAccess} (hdeclares : Declares next r a) : Declares required r a := by
  obtain ⟨block', hblock', rfl, ha⟩ := hdeclares
  obtain ⟨block, hblock, hresource, hsub⟩ := h.blocks block' hblock'
  exact ⟨block, hblock, hresource.symm, hsub.subset ha⟩

theorem Dropped.trans {removals removals' : List RedundantRemoval}
    {required middle next : List RequiredResourceAccess} (h : Dropped removals required middle)
    (h' : Dropped removals' middle next) : Dropped (removals ++ removals') required next where
  blocks := by
    intro block'' hblock''
    obtain ⟨block', hblock', hresource', hsub'⟩ := h'.blocks block'' hblock''
    obtain ⟨block, hblock, hresource, hsub⟩ := h.blocks block' hblock'
    exact ⟨block, hblock, hresource'.trans hresource, hsub'.trans hsub⟩
  missing := by
    intro r a hdeclares hnot
    by_cases hmiddle : Declares middle r a
    · obtain ⟨removal, hmem, hentry⟩ := h'.missing r a hmiddle hnot
      exact ⟨removal, List.mem_append_right _ hmem, hentry⟩
    · obtain ⟨removal, hmem, hentry⟩ := h.missing r a hdeclares hmiddle
      exact ⟨removal, List.mem_append_left _ hmem, hentry⟩

theorem matchesEntry_iff {id : Text} {a : ResourceAccess} :
    matchesEntry id (some roleType) a = true ↔ a = ⟨id, roleType⟩ := by
  obtain ⟨aid, atype⟩ := a
  unfold matchesEntry
  simp only [Option.isNone_some, Bool.false_or, Bool.and_eq_true, beq_iff_eq, Option.some.injEq,
    ResourceAccess.mk.injEq]
  exact and_congr_right (fun _ => eq_comm)

/-- The block without the access. -/
theorem removeDeclaredAccess_spec (required : List RequiredResourceAccess)
    (removal : RedundantRemoval) :
    let step := removeDeclaredAccess required removal.resourceAppId removal.permissionId
      (some roleType)
    Dropped [removal] required step.1 ∧
      ¬ Declares step.1 removal.resourceAppId ⟨removal.permissionId, roleType⟩ ∧
      (step.2 = false → step.1 = required) := by
  intro step
  let strip (r : RequiredResourceAccess) : RequiredResourceAccess :=
    if r.resourceAppId == removal.resourceAppId then
      { r with resourceAccess :=
          r.resourceAccess.filter (fun a => !matchesEntry removal.permissionId (some roleType) a) }
    else r
  have hstrip : ∀ r, (strip r).resourceAppId = r.resourceAppId ∧
      (strip r).resourceAccess.Sublist r.resourceAccess ∧
      ∀ a, a ∈ (strip r).resourceAccess ↔ a ∈ r.resourceAccess ∧
        ¬ (r.resourceAppId = removal.resourceAppId ∧ a = ⟨removal.permissionId, roleType⟩) := by
    intro r
    by_cases hr : r.resourceAppId = removal.resourceAppId
    · simp only [strip, hr, beq_self_eq_true, if_true]
      refine ⟨trivial, List.filter_sublist, fun a => ?_⟩
      rw [List.mem_filter, ← matchesEntry_iff]
      simp
    · have hne : (r.resourceAppId == removal.resourceAppId) = false := by simpa using hr
      simp only [strip, hne, Bool.false_eq_true, if_false]
      exact ⟨trivial, List.Sublist.refl _, fun a => by simp [hr]⟩
  -- the blocks of the result are stripped blocks, and a stripped block is missing only when empty
  have hmem : ∀ block', block' ∈ step.1 → ∃ block ∈ required, block' = strip block := by
    intro block' hblock'
    have hmap : block' ∈ required.map strip := by
      unfold step removeDeclaredAccess at hblock'
      dsimp only at hblock'
      split at hblock'
      · exact List.mem_of_mem_filter hblock'
      · exact hblock'
    obtain ⟨block, hblock, rfl⟩ := List.mem_map.1 hmap
    exact ⟨block, hblock, rfl⟩
  have hkeep : ∀ block ∈ required, ∀ a, a ∈ (strip block).resourceAccess → strip block ∈ step.1 := by
    intro block hblock a ha
    have hmap : strip block ∈ required.map strip := List.mem_map_of_mem hblock
    unfold step removeDeclaredAccess
    dsimp only
    split
    · refine List.mem_filter.2 ⟨hmap, ?_⟩
      rw [Bool.not_eq_true', List.isEmpty_eq_false_iff_exists_mem]
      exact ⟨a, ha⟩
    · exact hmap
  have hnot : ¬ Declares step.1 removal.resourceAppId ⟨removal.permissionId, roleType⟩ := by
    rintro ⟨block', hblock', hresource, ha⟩
    obtain ⟨block, -, rfl⟩ := hmem block' hblock'
    rw [(hstrip block).1] at hresource
    exact ((hstrip block).2.2 _ |>.1 ha).2 ⟨hresource, rfl⟩
  refine ⟨⟨?_, ?_⟩, hnot, ?_⟩
  · intro block' hblock'
    obtain ⟨block, hblock, rfl⟩ := hmem block' hblock'
    exact ⟨block, hblock, (hstrip block).1, (hstrip block).2.1⟩
  · rintro r a ⟨block, hblock, rfl, ha⟩ hmissing
    refine ⟨removal, List.mem_singleton_self _, ?_⟩
    by_contra hne
    have ha' : a ∈ (strip block).resourceAccess := (hstrip block).2.2 a |>.2 ⟨ha, hne⟩
    exact hmissing ⟨strip block, hkeep block hblock a ha', (hstrip block).1, ha'⟩
  · intro hfalse
    -- without a hit no block changes
    unfold step removeDeclaredAccess at hfalse ⊢
    dsimp only at hfalse ⊢
    split at hfalse
    · exact absurd hfalse (by simp)
    · next hany =>
      rw [if_neg hany]
      refine (List.map_congr_left (fun block hblock => ?_)).trans (List.map_id _)
      by_cases hr : block.resourceAppId = removal.resourceAppId
      · rw [if_pos (by simpa using hr)]
        have hall : block.resourceAccess.filter
            (fun a => !matchesEntry removal.permissionId (some roleType) a)
              = block.resourceAccess := by
          refine List.filter_eq_self.2 (fun a ha => ?_)
          rw [Bool.not_eq_true']
          by_contra hmatch
          refine hany (List.any_eq_true.2 ⟨block, hblock, ?_⟩)
          rw [Bool.and_eq_true]
          exact ⟨by simpa using hr, List.any_eq_true.2 ⟨a, ha, by simpa using hmatch⟩⟩
        rw [hall]
        rfl
      · rw [if_neg (by simpa using hr)]
        rfl

theorem dropDeclarations_spec (required : List RequiredResourceAccess) (removals : List RedundantRemoval) :
    Dropped removals required (dropDeclarations required removals).1 ∧
      (∀ removal ∈ removals, ¬ Declares (dropDeclarations required removals).1
        removal.resourceAppId ⟨removal.permissionId, roleType⟩) ∧
      ((dropDeclarations required removals).2 = false →
        (dropDeclarations required removals).1 = required) := by
  induction removals using List.reverseRecOn with
  | nil => exact ⟨Dropped.refl required, by simp, fun _ => rfl⟩
  | append_singleton removals removal ih =>
    obtain ⟨hdropped, hgone, hsame⟩ := ih
    obtain ⟨hdropped', hgone', hsame'⟩ :=
      removeDeclaredAccess_spec (dropDeclarations required removals).1 removal
    have hfold : dropDeclarations required (removals ++ [removal])
        = ((removeDeclaredAccess (dropDeclarations required removals).1 removal.resourceAppId
            removal.permissionId (some roleType)).1,
          (dropDeclarations required removals).2 ||
            (removeDeclaredAccess (dropDeclarations required removals).1 removal.resourceAppId
              removal.permissionId (some roleType)).2) := by
      unfold dropDeclarations
      rw [List.foldl_append]
      rfl
    rw [hfold]
    refine ⟨hdropped.trans hdropped', ?_, ?_⟩
    · intro removal' hmem hdeclares
      rcases List.mem_append.1 hmem with hmem | hmem
      · exact hgone removal' hmem (hdropped'.declares hdeclares)
      · obtain rfl := List.mem_singleton.1 hmem
        exact hgone' hdeclares
    · intro hfalse
      rw [Bool.or_eq_false_iff] at hfalse
      exact (hsame' hfalse.2).trans (hsame hfalse.1)

end Remediation
