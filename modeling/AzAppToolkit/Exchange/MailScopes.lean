import AzAppToolkit.Exchange.Verdict

set_option autoImplicit false

/-! # The audit and the detail views

Both surfaces apply three rules to one permission: the rows fold to a verdict, a legacy policy
overrides an org-wide one, and a surviving org-wide grant defeats an RBAC scope. The detail path
overrides before it reconciles, the audit after, from a map keyed by the policies' own spelling of
the application id. This file computes what each of them reports and states exactly when the two
reports agree. -/

namespace Exchange

/-- What a verdict says about reach. -/
inductive ScopeClass where
  | orgWide
  | scopedBy (mechanism : ScopeMechanism)
  | undetermined
deriving DecidableEq

def MailPermissionScope.scopeClass : MailPermissionScope → ScopeClass
  | .orgWide => .orgWide
  | .scoped _ _ _ mechanism => .scopedBy mechanism
  | .notScopable | .unknown => .undetermined

/-- What the audit reports for a permission value. -/
def auditClass (exo : ExchangeReads) (appId : Text) (grants : List ResourcePermission)
    (orgwideGranted : List Text) (value : Text) : Option ScopeClass :=
  ((auditMailScopes exo appId grants orgwideGranted).lookup value).map (·.scopeClass)

/-- What the detail views report for a permission value. -/
def detailClass (exo : ExchangeReads) (appId : Text) (grants : List ResourcePermission)
    (orgwideGranted : List Text) (value : Text) : Option ScopeClass :=
  match resolveMailScopes exo appId (grants.filterMap ScopableMailPermission.ofGrant)
      orgwideGranted true with
  | .ok scopes => (scopes.lookup value).map (·.scopeClass)
  | .error _ => none

/-! ## The conditions the rules look at -/

/-- Some row confers the permission, and every row that does is confined. -/
def RowsConfine (rows : List ExoAuthorizationResult) (p : ScopableMailPermission) : Prop :=
  matchingRows rows p ≠ [] ∧ ∀ r ∈ matchingRows rows p, isOrgWideAuthRow r = false

instance (rows : List ExoAuthorizationResult) (p : ScopableMailPermission) :
    Decidable (RowsConfine rows p) := inferInstanceAs (Decidable (_ ∧ _))

/-- A `RestrictAccess` policy names the application, in any letter case. -/
def PolicyConfines (policies : List ExoApplicationAccessPolicy) (appId : Text) : Prop :=
  ∃ q ∈ policies, confines appId q = true

/-- Some policy spells the application id exactly so. -/
def PolicySpells (policies : List ExoApplicationAccessPolicy) (appId : Text) : Prop :=
  ∃ q ∈ policies, q.appId = some appId

instance (policies : List ExoApplicationAccessPolicy) (appId : Text) :
    Decidable (PolicyConfines policies appId) := inferInstanceAs (Decidable (∃ q ∈ policies, _))

instance (policies : List ExoApplicationAccessPolicy) (appId : Text) :
    Decidable (PolicySpells policies appId) := inferInstanceAs (Decidable (∃ q ∈ policies, _))

/-! ## The verdicts -/

theorem verdictFromRows_class (rows : List ExoAuthorizationResult) (p : ScopableMailPermission) :
    (RowsConfine rows p → ∃ name, verdictFromRows (matchingRows rows p)
      = .scoped name none none .rbac) ∧
    (¬ RowsConfine rows p → verdictFromRows (matchingRows rows p) = .orgWide) := by
  have hiff : RowsConfine rows p ↔
      ¬ (matchingRows rows p = [] ∨ (matchingRows rows p).any isOrgWideAuthRow = true) := by
    simp only [RowsConfine, not_or, List.any_eq_true, not_exists, not_and, Bool.not_eq_true]
  unfold verdictFromRows
  refine ⟨fun h => ⟨_, if_neg (hiff.1 h)⟩, fun h => if_pos ?_⟩
  rw [hiff, not_not] at h
  exact h

theorem aapVerdictFor_some {policies : List ExoApplicationAccessPolicy} {appId : Text}
    (h : PolicyConfines policies appId) : ∃ name filter,
    aapVerdictFor policies appId = some (.scoped name filter none .legacyApplicationAccessPolicy) := by
  obtain ⟨q, hq, hconfines⟩ := h
  have hne : policies.filter (confines appId) ≠ [] :=
    List.ne_nil_of_mem (List.mem_filter.2 ⟨hq, hconfines⟩)
  unfold aapVerdictFor
  exact ⟨_, _, if_neg hne⟩

theorem aapVerdictFor_none {policies : List ExoApplicationAccessPolicy} {appId : Text}
    (h : ¬ PolicyConfines policies appId) : aapVerdictFor policies appId = none := by
  unfold aapVerdictFor
  refine if_pos (List.filter_eq_nil_iff.2 (fun q hq hconfines => h ⟨q, hq, hconfines⟩))

/-- The display step keeps the class. -/
theorem enrichVerdict_class (exo : ExchangeReads) (matching : List ExoAuthorizationResult)
    (verdict : MailPermissionScope) :
    (enrichVerdict exo matching verdict).scopeClass = verdict.scopeClass := by
  unfold enrichVerdict
  split
  · split
    · split <;> rfl
    · rfl
  · rfl

theorem reconcileOrgwideGrant_rbac (name filter : Option Text) (count : Option Nat) (perm : Text)
    (granted : List Text) :
    (reconcileOrgwideGrant (.scoped name filter count .rbac) perm granted).scopeClass
      = if defeats perm granted then .orgWide else .scopedBy .rbac := by
  simp only [reconcileOrgwideGrant]
  split <;> rfl

/-! ## The detail path -/

section Paths

variable (rows : List ExoAuthorizationResult) (policies : List ExoApplicationAccessPolicy)
  (scopes : Text → Except ExchangeError (Option ExoManagementScope)) (appId : Text)
  (grants : List ResourcePermission) (granted : List Text)

/-- Both reads succeed. -/
def readsOf : ExchangeReads := ⟨.ok rows, .ok policies, scopes⟩

/-- The class of one round of the resolver's loop. -/
theorem permissionVerdict_class (aap : Option MailPermissionScope) (enrich : Bool)
    (p : ScopableMailPermission)
    (haap : ∀ v, aap = some v → v.scopeClass = .scopedBy .legacyApplicationAccessPolicy) :
    (permissionVerdict (readsOf rows policies scopes) rows aap granted enrich p).scopeClass
      = if RowsConfine rows p then
          if defeats p.value granted then .orgWide else .scopedBy .rbac
        else if p.aapConfinable = true ∧ aap.isSome then .scopedBy .legacyApplicationAccessPolicy
        else .orgWide := by
  have henrich : (permissionVerdict (readsOf rows policies scopes) rows aap granted enrich p).scopeClass
      = (permissionVerdict (readsOf rows policies scopes) rows aap granted false p).scopeClass := by
    cases enrich with
    | true => exact enrichVerdict_class _ _ _
    | false => rfl
  rw [henrich]
  simp only [permissionVerdict, Bool.false_eq_true, if_false]
  by_cases hrows : RowsConfine rows p
  · obtain ⟨name, hname⟩ := (verdictFromRows_class rows p).1 hrows
    rw [hname, if_pos hrows]
    exact reconcileOrgwideGrant_rbac _ _ _ _ _
  · rw [(verdictFromRows_class rows p).2 hrows, if_neg hrows]
    cases hconf : p.aapConfinable with
    | false => simp [reconcileOrgwideGrant, MailPermissionScope.scopeClass]
    | true =>
      cases aap with
      | none => simp [reconcileOrgwideGrant, MailPermissionScope.scopeClass]
      | some v =>
        have hv := haap v rfl
        simp only [Option.isSome_some, and_self, if_true]
        -- a legacy verdict is exempt from the reconciliation
        unfold reconcileOrgwideGrant
        split
        · exact absurd hv (by simp [MailPermissionScope.scopeClass])
        · exact hv

theorem legacyAapScope_class {v : MailPermissionScope} {exo : ExchangeReads}
    (h : legacyAapScope exo appId = some v) :
    v.scopeClass = .scopedBy .legacyApplicationAccessPolicy := by
  unfold legacyAapScope aapVerdictFor at h
  split at h
  · simp only [Option.ite_none_left_eq_some, Option.some.injEq] at h
    rw [← h.2]
    rfl
  · exact absurd h (by simp)

variable {g : ResourcePermission} {p : ScopableMailPermission}

/-- The resolver's table, at a permission it was asked about. -/
theorem resolveMailScopes_lookup (enrich : Bool)
    (hg : g ∈ grants) (hp : ScopableMailPermission.ofGrant g = some p) :
    ∃ table, resolveMailScopes (readsOf rows policies scopes) appId
        (grants.filterMap ScopableMailPermission.ofGrant) granted enrich = .ok table ∧
      table.lookup g.value = some (permissionVerdict (readsOf rows policies scopes) rows
        (if enrich then legacyAapScope (readsOf rows policies scopes) appId else none) granted
        enrich p) := by
  have hmem : p ∈ grants.filterMap ScopableMailPermission.ofGrant :=
    List.mem_filterMap.2 ⟨g, hg, hp⟩
  have hinj : ∀ p' ∈ grants.filterMap ScopableMailPermission.ofGrant, p'.value = p.value →
      p' = p := by
    intro p' hp' hvalue
    obtain ⟨g', -, hg'⟩ := List.mem_filterMap.1 hp'
    rw [ScopableMailPermission.ofGrant_value hg', ScopableMailPermission.ofGrant_value hp] at hvalue
    exact (ScopableMailPermission.ofGrant_value_inj hg' hp hvalue).2
  unfold resolveMailScopes
  rw [if_neg (List.ne_nil_of_mem hmem)]
  refine ⟨_, rfl, ?_⟩
  rw [← ScopableMailPermission.ofGrant_value hp]
  exact AList.lookup_foldl_insert (·.value) _ _ ∅ p hmem
    (fun p' hp' hvalue => by rw [hinj p' hp' hvalue])

theorem detailClass_eq (hg : g ∈ grants) (hp : ScopableMailPermission.ofGrant g = some p) :
    detailClass (readsOf rows policies scopes) appId grants granted g.value
      = some (if RowsConfine rows p then
          if defeats p.value granted then .orgWide else .scopedBy .rbac
        else if p.aapConfinable = true ∧ PolicyConfines policies appId then
          .scopedBy .legacyApplicationAccessPolicy
        else .orgWide) := by
  obtain ⟨table, htable, hlookup⟩ :=
    resolveMailScopes_lookup rows policies scopes appId grants granted true hg hp
  have hsome : (legacyAapScope (readsOf rows policies scopes) appId).isSome
      ↔ PolicyConfines policies appId := by
    simp only [legacyAapScope, readsOf]
    by_cases h : PolicyConfines policies appId
    · obtain ⟨name, filter, hv⟩ := aapVerdictFor_some h
      simp [hv, h]
    · simp [aapVerdictFor_none h, h]
  unfold detailClass
  rw [htable]
  simp only [hlookup, if_true, Option.map_some]
  rw [permissionVerdict_class rows policies scopes granted _ true p
    (fun v hv => legacyAapScope_class appId hv)]
  simp only [hsome]

/-! ## The audit path -/

/-- What a legacy verdict makes of a lean one. -/
def overridden (verdict : MailPermissionScope) : Option MailPermissionScope → MailPermissionScope
  | some (.scoped name filter count mechanism) => .scoped name filter count mechanism
  | _ => verdict

theorem overridden_class (verdict lean : MailPermissionScope) :
    (overridden verdict (some lean)).scopeClass = match lean.scopeClass with
      | .scopedBy mechanism => .scopedBy mechanism
      | _ => verdict.scopeClass := by
  cases lean <;> rfl

theorem overridden_idem (verdict : MailPermissionScope) (lean : Option MailPermissionScope) :
    overridden verdict (some (overridden verdict lean)) = overridden verdict lean := by
  have hself : overridden verdict (some verdict) = verdict := by cases verdict <;> rfl
  cases lean with
  | none => exact hself
  | some lean =>
    cases lean with
    | notScopable | orgWide | unknown => exact hself
    | _ => rfl

/-- One round of the override. -/
theorem applyLegacyGrant_lookup (verdict : MailPermissionScope)
    (table : Table Text MailPermissionScope) (g : ResourcePermission) (value : Text) :
    (applyLegacyGrant verdict table g).lookup value =
      if g.value = value ∧ g.confinable = true then some (overridden verdict (table.lookup value))
      else table.lookup value := by
  unfold applyLegacyGrant
  by_cases hconf : g.confinable = false
  · rw [if_pos hconf, if_neg (by simp [hconf])]
  · rw [if_neg hconf]
    rw [Bool.not_eq_false] at hconf
    by_cases hvalue : g.value = value
    · rw [if_pos ⟨hvalue, hconf⟩, ← hvalue]
      split
      · next h => rw [h]; rfl
      · next h =>
        rw [AList.lookup_insert_eq, if_pos rfl]
        unfold overridden
        split
        · next heq => exact absurd heq (h _ _ _ _)
        · rfl
    · rw [if_neg (fun h => hvalue h.1)]
      split
      · rfl
      · rw [AList.lookup_insert_eq, if_neg (fun h => hvalue h.symm)]

/-- The whole override: the grants a policy could govern take it, the others keep what they had. -/
theorem applyLegacyPolicyVerdict_lookup (verdict : MailPermissionScope)
    (table : Table Text MailPermissionScope) (value : Text) :
    (applyLegacyPolicyVerdict table grants (some verdict)).lookup value =
      if ∃ g ∈ grants, g.value = value ∧ g.confinable = true then
        some (overridden verdict (table.lookup value))
      else table.lookup value := by
  show (grants.foldl (applyLegacyGrant verdict) table).lookup value = _
  induction grants generalizing table with
  | nil => simp
  | cons g grants ih =>
    rw [List.foldl_cons, ih, applyLegacyGrant_lookup]
    by_cases hg : g.value = value ∧ g.confinable = true
    · have hhere : ∃ g' ∈ g :: grants, g'.value = value ∧ g'.confinable = true :=
        ⟨g, List.mem_cons_self, hg⟩
      rw [if_pos hg, if_pos hhere, overridden_idem, ite_self]
    · have hiff : (∃ g' ∈ g :: grants, g'.value = value ∧ g'.confinable = true) ↔
          ∃ g' ∈ grants, g'.value = value ∧ g'.confinable = true := by
        simp only [List.mem_cons, exists_eq_or_imp, hg, false_or]
      simp only [if_neg hg, hiff]

/-- One round of the policy map. -/
theorem prefetchPolicy_lookup (table : Table Text MailPermissionScope) (id a : Text)
    (htable : ∀ v, table.lookup a = some v → aapVerdictFor policies a = some v) :
    (prefetchPolicy policies table id).lookup a =
      if id = a then aapVerdictFor policies a else table.lookup a := by
  unfold prefetchPolicy
  by_cases hid : id = a
  · subst hid
    rw [if_pos rfl]
    cases hl : table.lookup id with
    | some v =>
      rw [htable v hl]
      exact hl
    | none =>
      cases hv : aapVerdictFor policies id with
      | none => exact hl
      | some v => rw [AList.lookup_insert_eq, if_pos rfl]
  · rw [if_neg hid]
    split
    · rfl
    · split
      · rw [AList.lookup_insert_eq, if_neg (fun h => hid h.symm)]
      · rfl

/-- The policy map answers for the ids the policies spell. -/
theorem prefetch_lookup : (prefetchLegacyAccessPolicies (readsOf rows policies scopes)).lookup appId
    = if PolicySpells policies appId then aapVerdictFor policies appId else none := by
  have hloop : ∀ (ids : List Text) (table : Table Text MailPermissionScope),
      (∀ v, table.lookup appId = some v → aapVerdictFor policies appId = some v) →
      (ids.foldl (prefetchPolicy policies) table).lookup appId
        = if appId ∈ ids then aapVerdictFor policies appId else table.lookup appId := by
    intro ids
    induction ids with
    | nil => exact fun table _ => by simp
    | cons id ids ih =>
      intro table htable
      have hround := prefetchPolicy_lookup policies table id appId htable
      rw [List.foldl_cons, ih]
      · rw [hround]
        by_cases hid : id = appId
        · simp [hid]
        · simp [hid, Ne.symm hid]
      · intro v hv
        rw [hround] at hv
        split at hv
        · exact hv
        · exact htable v hv
  have hspells : appId ∈ policies.filterMap (·.appId) ↔ PolicySpells policies appId :=
    List.mem_filterMap
  simp only [prefetchLegacyAccessPolicies, readsOf]
  rw [hloop _ _ (by simp)]
  simp only [hspells, AList.lookup_empty]

/-- Among the grants of a scopable value, the policy could govern some exactly if it could govern
    that permission. -/
theorem exists_confinable_iff (hg : g ∈ grants) (hp : ScopableMailPermission.ofGrant g = some p) :
    (∃ g' ∈ grants, g'.value = g.value ∧ g'.confinable = true) ↔ p.aapConfinable = true := by
  have hsame : g.confinable = p.aapConfinable := by
    obtain ⟨r, v⟩ := g
    cases r with
    | none => exact absurd hp (by simp [ScopableMailPermission.ofGrant])
    | some r =>
      obtain ⟨role, -, rfl⟩ := Option.map_eq_some_iff.1 hp
      rfl
  constructor
  · rintro ⟨g', hg', hvalue, hconf⟩
    -- a confinable grant is scopable, so it is this very permission
    obtain ⟨p', hp'⟩ : ∃ p', ScopableMailPermission.ofGrant g' = some p' := by
      obtain ⟨r, v⟩ := g'
      cases r with
      | none => exact absurd hconf (by simp [ResourcePermission.confinable])
      | some r =>
        simp only [ResourcePermission.confinable, Option.any_some, isAapConfinablePermission,
          Bool.and_eq_true] at hconf
        obtain ⟨role, hrole⟩ := Option.isSome_iff_exists.1 hconf.2
        refine ⟨⟨v, role, isAapConfinablePermission r v⟩, ?_⟩
        simp only [ScopableMailPermission.ofGrant, ScopableMailPermission.onResource, hrole,
          Option.map_some]
    obtain ⟨rfl, -⟩ := ScopableMailPermission.ofGrant_value_inj hp' hp hvalue
    rw [← hsame]
    exact hconf
  · exact fun h => ⟨g, hg, rfl, by rw [hsame]; exact h⟩

theorem auditClass_eq (hg : g ∈ grants) (hp : ScopableMailPermission.ofGrant g = some p) :
    auditClass (readsOf rows policies scopes) appId grants granted g.value
      = some (if RowsConfine rows p ∧ defeats p.value granted = false then .scopedBy .rbac
        else if p.aapConfinable = true ∧ PolicyConfines policies appId ∧
          PolicySpells policies appId then .scopedBy .legacyApplicationAccessPolicy
        else .orgWide) := by
  obtain ⟨table, htable, hlookup⟩ :=
    resolveMailScopes_lookup rows policies scopes appId grants granted false hg hp
  have hlean := permissionVerdict_class rows policies scopes granted none false p
    (fun v hv => absurd hv (by simp))
  simp only [Bool.false_eq_true, if_false, Option.isSome_none, and_false] at hlookup hlean
  simp only [auditClass, auditMailScopes, htable, prefetch_lookup]
  by_cases hhit : PolicySpells policies appId ∧ PolicyConfines policies appId
  · -- the override reaches every verdict but a scope that stands
    obtain ⟨name, filter, hv⟩ := aapVerdictFor_some hhit.2
    rw [if_pos hhit.1, hv, applyLegacyPolicyVerdict_lookup, hlookup]
    simp only [exists_confinable_iff grants hg hp, hhit, and_true]
    by_cases hconf : p.aapConfinable = true
    · rw [if_pos hconf, Option.map_some, overridden_class, hlean]
      by_cases hrows : RowsConfine rows p <;> by_cases hdef : defeats p.value granted = true <;>
        simp [hrows, hdef, hconf, MailPermissionScope.scopeClass]
    · rw [if_neg hconf, Option.map_some, hlean]
      by_cases hrows : RowsConfine rows p <;> by_cases hdef : defeats p.value granted = true <;>
        simp [hrows, hdef, hconf]
  · -- no policy verdict: the lean one stands
    have hnone : (if PolicySpells policies appId then aapVerdictFor policies appId else none)
        = none := by
      by_cases hspells : PolicySpells policies appId
      · rw [if_pos hspells, aapVerdictFor_none (fun h => hhit ⟨hspells, h⟩)]
      · rw [if_neg hspells]
    rw [hnone]
    simp only [applyLegacyPolicyVerdict, hlookup, Option.map_some, hlean]
    rw [if_neg (fun h : p.aapConfinable = true ∧ _ => hhit ⟨h.2.2, h.2.1⟩)]
    by_cases hrows : RowsConfine rows p <;> by_cases hdef : defeats p.value granted = true <;>
      simp [hrows, hdef]

/-! ## When the surfaces agree -/

/-- The rules meet in the same order: no policy could govern the permission or none confines the
    application; or the rows confine it, and no grant defeats them or the policies never spell the
    id so; or the rows do not, and the policies spell the id so. -/
def RulesCommute (p : ScopableMailPermission) : Prop :=
  p.aapConfinable = false ∨ ¬ PolicyConfines policies appId ∨
  (RowsConfine rows p ∧ (defeats p.value granted = false ∨ ¬ PolicySpells policies appId)) ∨
  (¬ RowsConfine rows p ∧ PolicySpells policies appId)

/-- The audit and the detail views classify a held permission alike exactly when the rules
    commute. -/
theorem audit_agrees_iff {g : ResourcePermission} {p : ScopableMailPermission} (hg : g ∈ grants)
    (hp : ScopableMailPermission.ofGrant g = some p) :
    auditClass (readsOf rows policies scopes) appId grants granted g.value
        = detailClass (readsOf rows policies scopes) appId grants granted g.value ↔
      RulesCommute rows policies appId granted p := by
  rw [auditClass_eq rows policies scopes appId grants granted hg hp,
    detailClass_eq rows policies scopes appId grants granted hg hp, RulesCommute]
  by_cases hrows : RowsConfine rows p <;> by_cases hdef : defeats p.value granted = true <;>
    by_cases hconf : p.aapConfinable = true <;>
    by_cases hpolicy : PolicyConfines policies appId <;>
    by_cases hspells : PolicySpells policies appId <;>
    simp [hrows, hdef, hconf, hpolicy, hspells]

end Paths

/-! ## A mid-migration tenant -/

/-- An application whose role is scoped, whose org-wide `Mail.Read` grant was not removed, and whose
    policy was not deleted. -/
def migratedRow : ExoAuthorizationResult where
  roleName := some "Application Mail.Read".toList
  grantedPermissions := none
  allowedResourceScope := some "app_scope".toList
  scopeType := some "CustomRecipientScope".toList

def leftoverPolicy : ExoApplicationAccessPolicy where
  identity := some "policy".toList
  appId := some "app".toList
  scopeName := some "group".toList
  scopeIdentity := none
  accessRight := some .restrictAccess
  description := none

def mailRead : ResourcePermission := ⟨some microsoftGraphAppId, "Mail.Read".toList⟩

def mailReadScopable : ScopableMailPermission :=
  ⟨"Mail.Read".toList, "Application Mail.Read".toList, true⟩

theorem ofGrant_mailRead : ScopableMailPermission.ofGrant mailRead = some mailReadScopable := by
  decide

/-- With the org-wide grant removed, both surfaces report the RBAC scope. -/
theorem audit_agrees_iff_stripped :
    auditClass (readsOf [migratedRow] [leftoverPolicy] (fun _ => .ok none)) "app".toList [mailRead]
        [] mailRead.value
      = detailClass (readsOf [migratedRow] [leftoverPolicy] (fun _ => .ok none)) "app".toList
        [mailRead] [] mailRead.value :=
  (audit_agrees_iff [migratedRow] [leftoverPolicy] (fun _ => .ok none) "app".toList [mailRead] []
    List.mem_cons_self ofGrant_mailRead).2
    (Or.inr (Or.inr (Or.inl ⟨by decide, Or.inl (by decide)⟩)))

/-- With the grant still there, the detail views report org-wide reach and the audit a legacy
    scope. -/
theorem audit_hides_surviving_grant :
    auditClass (readsOf [migratedRow] [leftoverPolicy] (fun _ => .ok none)) "app".toList [mailRead]
        ["Mail.Read".toList] mailRead.value
      = some (.scopedBy .legacyApplicationAccessPolicy) ∧
    detailClass (readsOf [migratedRow] [leftoverPolicy] (fun _ => .ok none)) "app".toList
        [mailRead] ["Mail.Read".toList] mailRead.value = some .orgWide := by
  rw [auditClass_eq _ _ _ _ _ _ List.mem_cons_self ofGrant_mailRead,
    detailClass_eq _ _ _ _ _ _ List.mem_cons_self ofGrant_mailRead]
  constructor <;> decide

end Exchange
