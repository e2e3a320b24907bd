import AzAppToolkit.Exchange.StrandGuard
import AzAppToolkit.Exchange.ScopeProof
import AzAppToolkit.Lib.History

set_option autoImplicit false

/-! # The legacy policies go last

`migrate_one` deletes an application's policies on the strength of a count: as many grants removed
as there were targets. The targets come from one read of the assignments and the removals from
another, so the two are compared here assignment by assignment: each assignment gives at most one
target, and the removals are a loop over the same assignments that takes the ones whose role is in
place. -/

namespace Exchange

open Prog

/-! ## One assignment, one target -/

variable {resources : List ResourceRoles}

theorem targetFromGrant_congr {a a' : AppRoleAssignment}
    (hresource : a.resourceId = a'.resourceId) (hrole : a.appRoleId = a'.appRoleId) :
    targetFromGrant resources a = targetFromGrant resources a' := by
  unfold targetFromGrant
  rw [hresource, hrole]

variable {a : AppRoleAssignment}

/-- A target is on the resource and the role of its assignment. -/
theorem targetFromGrant_eq_some
    {t : ExchangeTarget} : targetFromGrant resources a = some t ↔
      ∃ resourceAppId resourceSpId value, resolveGrant resources a.resourceId a.appRoleId
          = some (resourceAppId, resourceSpId, value) ∧
        isAapConfinablePermission resourceAppId value = true ∧
        exchangeTarget resourceAppId resourceSpId a.appRoleId value = some t := by
  unfold targetFromGrant
  constructor
  · intro h
    split at h
    · exact absurd h (by simp)
    · next resourceAppId resourceSpId value hresolve =>
      split at h
      · next hconfinable => exact ⟨_, _, _, hresolve, hconfinable, h⟩
      · exact absurd h (by simp)
  · rintro ⟨resourceAppId, resourceSpId, value, hresolve, hconfinable, htarget⟩
    rw [hresolve]
    simp only [hconfinable, if_true]
    exact htarget

theorem resolveGrant_resource {resourceSpId appRoleId resourceAppId found value : Text}
    (h : resolveGrant resources resourceSpId appRoleId = some (resourceAppId, found, value)) :
    found = resourceSpId := by
  unfold resolveGrant at h
  split at h
  · exact absurd h (by simp)
  · next r hfind =>
    obtain ⟨v, -, heq⟩ := Option.map_eq_some_iff.1 h
    simp only [Prod.mk.injEq] at heq
    have hresource := List.find?_some hfind
    rw [← heq.2.1]
    simpa using hresource

theorem grantsTarget_own
    {t : ExchangeTarget} (h : targetFromGrant resources a = some t) : grantsTarget a t = true := by
  obtain ⟨resourceAppId, resourceSpId, value, hresolve, -, htarget⟩ := targetFromGrant_eq_some.1 h
  obtain ⟨role, -, rfl⟩ := Option.map_eq_some_iff.1 htarget
  simp [grantsTarget, resolveGrant_resource hresolve]

/-- The assignments a target matches are the ones it could have come from. -/
theorem targetFromGrant_of_grantsTarget
    {a a' : AppRoleAssignment} {t : ExchangeTarget} (h : targetFromGrant resources a = some t)
    (hgrants : grantsTarget a' t = true) : targetFromGrant resources a' = some t := by
  have hown := grantsTarget_own h
  unfold grantsTarget at hown hgrants
  simp only [Bool.and_eq_true, beq_iff_eq] at hown hgrants
  rw [targetFromGrant_congr (hgrants.1.trans hown.1.symm) (hgrants.2.trans hown.2.symm), h]

section Strip

variable (appId scopeName spId : Text) (resources : List ResourceRoles)

/-! ## What becomes of a grant -/

/-- A deletion of the assignment failed. -/
def Refused (trace : Trace) (id : Text) : Prop :=
  ∃ err, (⟨.removeAppRoleAssignment spId id, .error err⟩ : Exchanged Answer) ∈ trace

/-- The deletion of the assignment succeeded, as often as it was asked for. -/
def Deleted (trace : Trace) (id : Text) : Prop :=
  (⟨.removeAppRoleAssignment spId id, .ok ()⟩ : Exchanged Answer) ∈ trace ∧ ¬ Refused spId trace id

/-- If a policy could have been confining the assignment, its scoped role is in place and its
    deletion succeeded. -/
def Rescoped (trace : Trace) (a : AppRoleAssignment) : Prop :=
  ∀ resourceAppId resourceSpId value,
    resolveGrant resources a.resourceId a.appRoleId = some (resourceAppId, resourceSpId, value) →
    isAapConfinablePermission resourceAppId value = true →
    ∃ role, exchangeRoleForResourcePermission resourceAppId value = some role ∧
      RoleOnScope appId scopeName trace role ∧ Deleted spId trace a.id

/-- Every read of the assignments of a principal gave the same list. -/
def Unchanged (trace : Trace) : Prop :=
  ∀ sp assignments assignments',
    (⟨.listAppRoleAssignments sp, .ok assignments⟩ : Exchanged Answer) ∈ trace →
    (⟨.listAppRoleAssignments sp, .ok assignments'⟩ : Exchanged Answer) ∈ trace →
    assignments = assignments'

variable {appId scopeName spId resources}

theorem Unchanged.of_subset {trace trace' : Trace} (h : Unchanged trace') (hsub : trace ⊆ trace') :
    Unchanged trace :=
  fun sp as as' hread hread' => h sp as as' (hsub hread) (hsub hread')

theorem rescoped_iff {trace : Trace} :
    Rescoped appId scopeName spId resources trace a ↔ ∀ t, targetFromGrant resources a = some t →
      RoleOnScope appId scopeName trace t.exchangeRole ∧ Deleted spId trace a.id := by
  constructor
  · intro h t ht
    obtain ⟨resourceAppId, resourceSpId, value, hresolve, hconfinable, htarget⟩ :=
      targetFromGrant_eq_some.1 ht
    obtain ⟨role, hrole, rfl⟩ := Option.map_eq_some_iff.1 htarget
    obtain ⟨role', hrole', hplace⟩ := h _ _ _ hresolve hconfinable
    obtain rfl : role = role' := Option.some.inj (hrole.symm.trans hrole')
    exact hplace
  · intro h resourceAppId resourceSpId value hresolve hconfinable
    have hsome : (exchangeRoleForResourcePermission resourceAppId value).isSome = true := by
      unfold isAapConfinablePermission at hconfinable
      exact (Bool.and_eq_true _ _ ▸ hconfinable).2
    obtain ⟨role, hrole⟩ := Option.isSome_iff_exists.1 hsome
    have htarget := targetFromGrant_eq_some.2
      ⟨_, _, _, hresolve, hconfinable, Option.map_eq_some_iff.2 ⟨role, hrole, rfl⟩⟩
    exact ⟨role, hrole, h _ htarget⟩

theorem mem_of_grew {kind : Call → Prop} {trace trace' : Trace} (hgrew : Grew kind trace trace')
    {c : Call} {r : Answer c} (hc : ¬ kind c) :
    (⟨c, r⟩ : Exchanged Answer) ∈ trace' ↔ (⟨c, r⟩ : Exchanged Answer) ∈ trace :=
  hgrew.mem_iff hc

/-- Calls about neither role assignments nor deletions change nothing of it. -/
theorem RoleOnScope.grew {kind : Call → Prop} {trace trace' : Trace} {role : Text}
    (hgrew : Grew kind trace trace') (hread : ∀ app, ¬ kind (.getRoleAssignments app))
    (hrole : ∀ app role s, ¬ kind (.newRoleAssignment app role s)) :
    RoleOnScope appId scopeName trace' role ↔ RoleOnScope appId scopeName trace role := by
  unfold RoleOnScope Landed
  simp only [mem_of_grew hgrew (hread appId), mem_of_grew hgrew (hrole appId role (some scopeName))]

theorem Rescoped.grew {kind : Call → Prop} {trace trace' : Trace}
    (hgrew : Grew kind trace trace') (hread : ∀ app, ¬ kind (.getRoleAssignments app))
    (hrole : ∀ app role s, ¬ kind (.newRoleAssignment app role s))
    (hdelete : ∀ sp id, ¬ kind (.removeAppRoleAssignment sp id)) :
    Rescoped appId scopeName spId resources trace' a ↔
      Rescoped appId scopeName spId resources trace a := by
  unfold Rescoped Deleted Refused
  simp only [RoleOnScope.grew hgrew hread hrole, mem_of_grew hgrew (hdelete spId a.id)]

/-! ## The strip, assignment by assignment -/

variable {assignments : List AppRoleAssignment}

/-- The strip selects an assignment exactly when it has a target whose role is in place. -/
theorem unscopedGrantValue_isSome {P : Text → Prop} {outcomes : List (ExchangeTarget × Bool)}
    (htargets : outcomes.map Prod.fst = targetsFromGrants assignments resources)
    (houtcome : ∀ p ∈ outcomes, p.2 = true ↔ P p.1.exchangeRole) (ha : a ∈ assignments) :
    (unscopedGrantValue (targetsSafeToStrip outcomes) a).isSome = true ↔
      ∃ t, targetFromGrant resources a = some t ∧ P t.exchangeRole := by
  unfold unscopedGrantValue
  rw [Option.isSome_map, List.find?_isSome]
  constructor
  · rintro ⟨t, hsafe, hgrants⟩
    have hout := mem_targetsSafeToStrip.1 hsafe
    have hmem : t ∈ targetsFromGrants assignments resources :=
      htargets ▸ List.mem_map.2 ⟨(t, true), hout, rfl⟩
    obtain ⟨a', -, ha'⟩ := List.mem_filterMap.1 hmem
    exact ⟨t, targetFromGrant_of_grantsTarget ha' hgrants, (houtcome _ hout).1 rfl⟩
  · rintro ⟨t, ht, hrole⟩
    have hmem : t ∈ outcomes.map Prod.fst := htargets ▸ List.mem_filterMap.2 ⟨a, ha, ht⟩
    obtain ⟨⟨t', b⟩, hout, rfl⟩ := List.mem_map.1 hmem
    obtain rfl : b = true := (houtcome _ hout).2 hrole
    exact ⟨t', mem_targetsSafeToStrip.2 hout, grantsTarget_own ht⟩

variable (spId resources)

/-- The state of the strip after the assignments in `before`, with `P` the roles in place. -/
structure Stripped (P : Text → Prop) (before : List AppRoleAssignment) (trace : Trace)
    (removed : List Text) : Prop where
  submitted : ∀ id r, (⟨.removeAppRoleAssignment spId id, r⟩ : Exchanged Answer) ∈ trace →
    ∃ a ∈ before, a.id = id ∧ (targetFromGrant resources a).isSome = true
  answered : ∀ a ∈ before, ∀ t, targetFromGrant resources a = some t → P t.exchangeRole →
    ∃ r, (⟨.removeAppRoleAssignment spId a.id, r⟩ : Exchanged Answer) ∈ trace
  bound : removed.length ≤ (targetsFromGrants before resources).length
  exact : removed.length = (targetsFromGrants before resources).length ↔
    ∀ a ∈ before, ∀ t, targetFromGrant resources a = some t →
      P t.exchangeRole ∧ ¬ Refused spId trace a.id

variable {spId resources}

section Round

variable {P : Text → Prop} {before : List AppRoleAssignment} {trace : Trace} {removed : List Text}
  {a : AppRoleAssignment} {t : ExchangeTarget}

theorem targetsFromGrants_snoc : targetsFromGrants (before ++ [a]) resources
    = targetsFromGrants before resources ++ (targetFromGrant resources a).toList := by
  unfold targetsFromGrants
  rw [List.filterMap_append]
  cases h : targetFromGrant resources a with
  | none | some t => simp [h]

theorem length_targetsFromGrants_snoc (ht : targetFromGrant resources a = some t) :
    (targetsFromGrants (before ++ [a]) resources).length
      = (targetsFromGrants before resources).length + 1 := by
  rw [targetsFromGrants_snoc, ht]
  simp

theorem refused_append {c : Call} {r : Answer c} {id : Text}
    (h : ∀ err, (⟨.removeAppRoleAssignment spId id, .error err⟩ : Exchanged Answer) ≠ ⟨c, r⟩) :
    Refused spId (trace ++ [⟨c, r⟩]) id ↔ Refused spId trace id := by
  unfold Refused
  constructor
  · rintro ⟨err, hmem⟩
    rw [List.mem_append, List.mem_singleton] at hmem
    exact ⟨err, hmem.resolve_right (h err)⟩
  · rintro ⟨err, hmem⟩
    exact ⟨err, List.mem_append_left _ hmem⟩

/-- A refusal so far is the refusal of an assignment gone through. -/
theorem Stripped.refused (h : Stripped spId resources P before trace removed) {id : Text}
    (hrefused : Refused spId trace id) : ∃ a ∈ before, a.id = id ∧
      ∃ t, targetFromGrant resources a = some t := by
  obtain ⟨err, hmem⟩ := hrefused
  obtain ⟨a, ha, hid, hsome⟩ := h.submitted id _ hmem
  exact ⟨a, ha, hid, Option.isSome_iff_exists.1 hsome⟩

/-- A line of the log says nothing of it. -/
theorem Stripped.warn (h : Stripped spId resources P before trace removed) (line : Warning) :
    Stripped spId resources P before (trace ++ [⟨.warn line, ()⟩]) removed := by
  refine ⟨fun id r hmem => ?_, fun a ha t ht hrole => ?_, h.bound, ?_⟩
  · exact h.submitted id r ((mem_append_of_ne (by simp)).1 hmem)
  · obtain ⟨r, hmem⟩ := h.answered a ha t ht hrole
    exact ⟨r, List.mem_append_left _ hmem⟩
  · have hkept : ∀ id, Refused spId (trace ++ [⟨.warn line, ()⟩]) id ↔ Refused spId trace id := by
      intro id
      exact refused_append (fun err heq => by cases heq)
    simp only [hkept, h.exact]

/-- An assignment without a target is passed over. -/
theorem Stripped.pass (h : Stripped spId resources P before trace removed)
    (hnone : targetFromGrant resources a = none) :
    Stripped spId resources P (before ++ [a]) trace removed := by
  have htargets : targetsFromGrants (before ++ [a]) resources
      = targetsFromGrants before resources := by
    rw [targetsFromGrants_snoc, hnone]
    simp
  refine ⟨fun id r hmem => ?_, fun a' ha' t ht hrole => ?_, htargets ▸ h.bound, ?_⟩
  · obtain ⟨a', ha', hid, hsome⟩ := h.submitted id r hmem
    exact ⟨a', List.mem_append_left _ ha', hid, hsome⟩
  · rcases List.mem_append.1 ha' with hold | hnew
    · exact h.answered a' hold t ht hrole
    · rw [List.mem_singleton.1 hnew, hnone] at ht
      exact absurd ht (by simp)
  · rw [htargets, h.exact]
    simp [or_imp, forall_and, hnone]

/-- One with a target whose role is not in place stays, and the counts part for good. -/
theorem Stripped.miss (h : Stripped spId resources P before trace removed)
    (ht : targetFromGrant resources a = some t) (hrole : ¬ P t.exchangeRole) :
    Stripped spId resources P (before ++ [a]) trace removed := by
  have hlen := @length_targetsFromGrants_snoc resources before a t ht
  have hbound := h.bound
  refine ⟨fun id r hmem => ?_, fun a' ha' t' ht' hrole' => ?_, by omega, ?_⟩
  · obtain ⟨a', ha', hid, hsome⟩ := h.submitted id r hmem
    exact ⟨a', List.mem_append_left _ ha', hid, hsome⟩
  · rcases List.mem_append.1 ha' with hold | hnew
    · exact h.answered a' hold t' ht' hrole'
    · rw [List.mem_singleton.1 hnew, ht] at ht'
      obtain rfl : t = t' := Option.some.inj ht'
      exact absurd hrole' hrole
  · constructor
    · intro heq
      omega
    · intro hall
      exact absurd (hall a (by simp) t ht).1 hrole

theorem Stripped.submit (h : Stripped spId resources P before trace removed)
    (ht : targetFromGrant resources a = some t) (r : Answer (.removeAppRoleAssignment spId a.id)) :
    (∀ id r', (⟨.removeAppRoleAssignment spId id, r'⟩ : Exchanged Answer)
        ∈ trace ++ [⟨.removeAppRoleAssignment spId a.id, r⟩] →
      ∃ a' ∈ before ++ [a], a'.id = id ∧ (targetFromGrant resources a').isSome = true) ∧
    ∀ a' ∈ before ++ [a], ∀ t', targetFromGrant resources a' = some t' → P t'.exchangeRole →
      ∃ r', (⟨.removeAppRoleAssignment spId a'.id, r'⟩ : Exchanged Answer)
        ∈ trace ++ [⟨.removeAppRoleAssignment spId a.id, r⟩] := by
  constructor
  · intro id r' hmem
    rw [List.mem_append, List.mem_singleton] at hmem
    rcases hmem with hmem | hmem
    · obtain ⟨a', ha', hid, hsome⟩ := h.submitted id r' hmem
      exact ⟨a', List.mem_append_left _ ha', hid, hsome⟩
    · have hcall := congrArg Sigma.fst hmem
      simp only [Call.removeAppRoleAssignment.injEq, true_and] at hcall
      exact ⟨a, by simp, hcall.symm, by simp [ht]⟩
  · intro a' ha' t' ht' hrole
    rcases List.mem_append.1 ha' with hold | hnew
    · obtain ⟨r', hmem⟩ := h.answered a' hold t' ht' hrole
      exact ⟨r', List.mem_append_left _ hmem⟩
    · rw [List.mem_singleton.1 hnew]
      exact ⟨r, by simp⟩

/-- A deletion that succeeds keeps the counts as they were to each other. -/
theorem Stripped.take (h : Stripped spId resources P before trace removed)
    (ht : targetFromGrant resources a = some t) (hrole : P t.exchangeRole) (value : Text) :
    Stripped spId resources P (before ++ [a])
      (trace ++ [⟨.removeAppRoleAssignment spId a.id, .ok ()⟩]) (removed ++ [value]) := by
  have hlen := @length_targetsFromGrants_snoc resources before a t ht
  have hbound := h.bound
  have hkept : ∀ id, Refused spId (trace ++ [⟨.removeAppRoleAssignment spId a.id, .ok ()⟩]) id ↔
      Refused spId trace id := by
    intro id
    refine refused_append (fun err heq => ?_)
    cases heq
  obtain ⟨hsubmitted, hanswered⟩ := h.submit ht (.ok ())
  refine ⟨hsubmitted, hanswered, by rw [hlen, List.length_append]; simpa using hbound, ?_⟩
  rw [hlen, List.length_append, List.length_singleton, Nat.add_right_cancel_iff, h.exact]
  simp only [hkept]
  constructor
  · intro hall a' ha' t' ht'
    rcases List.mem_append.1 ha' with hold | hnew
    · exact hall a' hold t' ht'
    · obtain rfl : a' = a := List.mem_singleton.1 hnew
      obtain rfl : t = t' := Option.some.inj (ht.symm.trans ht')
      refine ⟨hrole, fun hrefused => ?_⟩
      -- an earlier refusal of the same id is the refusal of an assignment gone through
      obtain ⟨a₁, ha₁, hid, t₁, ht₁⟩ := h.refused hrefused
      exact (hall a₁ ha₁ t₁ ht₁).2 (hid ▸ hrefused)
  · intro hall a' ha' t' ht'
    exact hall a' (List.mem_append_left _ ha') t' ht'

/-- One that fails parts them for good. -/
theorem Stripped.refuse (h : Stripped spId resources P before trace removed)
    (ht : targetFromGrant resources a = some t) (err : GraphError) :
    Stripped spId resources P (before ++ [a])
      (trace ++ [⟨.removeAppRoleAssignment spId a.id, .error err⟩]) removed := by
  have hlen := @length_targetsFromGrants_snoc resources before a t ht
  have hbound := h.bound
  obtain ⟨hsubmitted, hanswered⟩ := h.submit ht (.error err)
  refine ⟨hsubmitted, hanswered, by omega, ?_⟩
  constructor
  · intro heq
    omega
  · intro hall
    exact absurd ⟨err, by simp⟩ (hall a (by simp) t ht).2

end Round

/-! ## The count -/

theorem meets_stripAppRoleGrants {P : Text → Prop} {select : AppRoleAssignment → Option Text} {base : Trace}
    (hnone : ∀ id r, (⟨.removeAppRoleAssignment spId id, r⟩ : Exchanged Answer) ∉ base)
    (hselect : ∀ a ∈ assignments, (select a).isSome = true ↔
      ∃ t, targetFromGrant resources a = some t ∧ P t.exchangeRole) :
    Meets history (fun _ _ => True) (Stripped spId resources P assignments) base
      (stripAppRoleGrants spId assignments select) := by
  refine Meets.foldlM (Stripped spId resources P) ?_
    ⟨fun id r hmem => absurd hmem (hnone id r), by simp, by simp [targetsFromGrants],
      by simp [targetsFromGrants]⟩
  intro before a after s removed hsplit h
  have ha := hselect a (by rw [hsplit]; simp)
  cases hpick : select a with
  | none =>
    rw [hpick] at ha
    cases ht : targetFromGrant resources a with
    | none => exact Meets.pure (h.pass ht)
    | some t =>
      refine Meets.pure (h.miss ht (fun hrole => ?_))
      exact absurd (ha.2 ⟨t, ht, hrole⟩) (by simp)
  | some value =>
    rw [hpick] at ha
    obtain ⟨t, ht, hrole⟩ := ha.1 rfl
    refine Meets.bind (Meets.remember trivial (fun r => ?_))
    cases r with
    | ok _ => exact Meets.pure (h.take ht hrole value)
    | error err =>
      exact Meets.bind (meets_warn trivial (Meets.pure ((h.refuse ht err).warn _)))

/-- The counts agree exactly when everything a policy could have been confining is re-scoped. -/
theorem Stripped.rescoped {base trace : Trace} {removed : List Text}
    (h : Stripped spId resources (RoleOnScope appId scopeName base) assignments trace removed)
    (hgrew : Grew (fun c => c.strips = true) base trace) :
    removed.length = (targetsFromGrants assignments resources).length ↔
      ∀ a ∈ assignments, Rescoped appId scopeName spId resources trace a := by
  have hroles : ∀ role, RoleOnScope appId scopeName trace role ↔
      RoleOnScope appId scopeName base role :=
    fun role => RoleOnScope.grew hgrew (by simp [Call.strips]) (by simp [Call.strips])
  simp only [h.exact, rescoped_iff, hroles]
  constructor
  · intro hall a ha t ht
    obtain ⟨hrole, hkept⟩ := hall a ha t ht
    obtain ⟨r, hmem⟩ := h.answered a ha t ht hrole
    cases r with
    | ok _ => exact ⟨hrole, hmem, hkept⟩
    | error err => exact absurd ⟨err, hmem⟩ hkept
  · intro hall a ha t ht
    exact ⟨(hall a ha t ht).1, (hall a ha t ht).2.2⟩

/-- No target, nothing to re-scope. -/
theorem rescoped_of_no_targets {trace : Trace} (h : targetsFromGrants assignments resources = []) :
    ∀ a ∈ assignments, Rescoped appId scopeName spId resources trace a := by
  intro a ha
  refine rescoped_iff.2 (fun t ht => ?_)
  have hmem : t ∈ targetsFromGrants assignments resources := List.mem_filterMap.2 ⟨a, ha, ht⟩
  rw [h] at hmem
  exact absurd hmem (by simp)

/-- The strip of the targets of an earlier read. -/
theorem meets_removeUnscopedGrants_count {base : Trace} {outcomes : List (ExchangeTarget × Bool)}
    (hnone : ∀ id r, (⟨.removeAppRoleAssignment spId id, r⟩ : Exchanged Answer) ∉ base)
    (hread : (⟨.listAppRoleAssignments spId, .ok assignments⟩ : Exchanged Answer) ∈ base)
    (htargets : outcomes.map Prod.fst = targetsFromGrants assignments resources)
    (houtcome : ∀ p ∈ outcomes, p.2 = true ↔ RoleOnScope appId scopeName base p.1.exchangeRole) :
    Meets history (fun _ _ => True) (fun s strip => Unchanged s →
      (strip.removed.length = (targetsFromGrants assignments resources).length ↔
        ∀ a ∈ assignments, Rescoped appId scopeName spId resources s a)) base
      (removeUnscopedGrants spId outcomes) := by
  unfold removeUnscopedGrants
  refine Meets.bind (Meets.remember trivial (fun r => ?_))
  have hlisted : Grew (fun c => c.strips = true) base
      (base ++ [⟨.listAppRoleAssignments spId, r⟩]) := (Grew.refl _ base).snoc rfl
  cases r with
  | error err =>
    -- the second read failed: nothing was submitted
    refine Meets.bind (meets_warn trivial (Meets.pure (fun _ => ?_)))
    constructor
    · intro hzero
      exact rescoped_of_no_targets (List.length_eq_zero_iff.1 hzero.symm)
    · intro hall
      rw [eq_comm, List.length_nil, List.length_eq_zero_iff, List.eq_nil_iff_forall_not_mem]
      intro t ht
      obtain ⟨a, ha, htarget⟩ := List.mem_filterMap.1 ht
      have hmem := (rescoped_iff.1 (hall a ha) t htarget).2.1
      rw [mem_append_of_ne (by simp), mem_append_of_ne (by simp)] at hmem
      exact hnone a.id _ hmem
  | ok again =>
    by_cases hsame : again = assignments
    · subst hsame
      have hnone' : ∀ id r, (⟨.removeAppRoleAssignment spId id, r⟩ : Exchanged Answer) ∉
          base ++ [⟨.listAppRoleAssignments spId, .ok again⟩] := by
        intro id r hmem
        exact hnone id r ((mem_append_of_ne (by simp)).1 hmem)
      have hstrip := meets_stripAppRoleGrants hnone' (fun a ha =>
        unscopedGrantValue_isSome htargets houtcome ha)
      refine Meets.bind ((hstrip.within (only_stripAppRoleGrants spId again _)
        (fun _ _ _ => trivial)).mono (fun s removed hs => Meets.pure (fun _ => ?_)))
      exact hs.2.rescoped (hlisted.trans hs.1)
    · have hgrew : Meets history (fun _ _ => True) _ _ _ := (only_stripAppRoleGrants spId again
        (unscopedGrantValue (targetsSafeToStrip outcomes))).grew
          (fun _ _ _ => trivial) (base ++ [⟨.listAppRoleAssignments spId, .ok again⟩])
      refine Meets.bind (hgrew.mono (fun s removed hs => Meets.pure (fun hunchanged => ?_)))
      have hagain := hunchanged spId again assignments (hs.mem (by simp))
        (hs.mem (List.mem_append_left _ hread))
      exact absurd hagain hsame

end Strip

/-! ## The migration of one application -/

section Migration

variable (uni : Unicode) (ctx : MigrationContext) (appId : Text)

/-- Both mailbox resources were resolved, and every assignment a policy could have been confining is
    re-scoped. -/
def AllRescoped (trace : Trace) : Prop :=
  mailboxResourcesComplete ctx.resources = true ∧ ∃ entraSp assignments,
    (⟨.getServicePrincipalByAppId appId, .ok (some entraSp)⟩ : Exchanged Answer) ∈ trace ∧
    (⟨.listAppRoleAssignments entraSp.id, .ok assignments⟩ : Exchanged Answer) ∈ trace ∧
    ∀ a ∈ assignments,
      Rescoped appId (ctx.scopeNameOf appId) entraSp.id ctx.resources trace a

/-- A policy is removed only behind such a trace. -/
def PoliciesLast (trace : Trace) : Call → Prop
  | .removeApplicationAccessPolicy _ => Unchanged trace → AllRescoped ctx appId trace
  | _ => True

/-- The count of a finished migration says that everything was re-scoped. -/
def CountExact (trace : Trace) (migrated : MigratedApp) : Prop :=
  migrated.stopped = false → Unchanged trace → ∃ entraSp assignments,
    (⟨.getServicePrincipalByAppId appId, .ok (some entraSp)⟩ : Exchanged Answer) ∈ trace ∧
    (⟨.listAppRoleAssignments entraSp.id, .ok assignments⟩ : Exchanged Answer) ∈ trace ∧
    (migrated.item.removedEntraGrants.length
        = (targetsFromGrants assignments ctx.resources).length ↔
      ∀ a ∈ assignments,
        Rescoped appId (ctx.scopeNameOf appId) entraSp.id ctx.resources trace a)

/-- The principal and its assignments were read, and nothing was done about them yet. -/
structure Prepared (entraSp : EntraServicePrincipal) (assignments : List AppRoleAssignment)
    (trace : Trace) : Prop where
  found : (⟨.getServicePrincipalByAppId appId, .ok (some entraSp)⟩ : Exchanged Answer) ∈ trace
  read : (⟨.listAppRoleAssignments entraSp.id, .ok assignments⟩ : Exchanged Answer) ∈ trace
  untouched : ∀ e ∈ trace, e.1.onGrants = true → ∃ sp, e.1 = .listAppRoleAssignments sp

variable {ctx appId}

theorem policiesLast_of_ne {trace : Trace} {c : Call}
    (h : ∀ identity, c ≠ .removeApplicationAccessPolicy identity) :
    PoliciesLast ctx appId trace c := by
  cases c <;> first | trivial | exact absurd rfl (h _)

/-- A call that is not about what is granted. -/
def OffGrants (c : Call) : Prop := c.onGrants = false

theorem policiesLast_of_offGrants {trace : Trace} {c : Call} (h : OffGrants c) :
    PoliciesLast ctx appId trace c := by
  refine policiesLast_of_ne (fun identity heq => ?_)
  rw [heq] at h
  exact absurd h (by simp [OffGrants, Call.onGrants])

section Bind

variable {entraSp : EntraServicePrincipal} {assignments : List AppRoleAssignment} {trace : Trace}

theorem Prepared.grew {trace' : Trace} (h : Prepared appId entraSp assignments trace)
    (hgrew : Grew OffGrants trace trace') : Prepared appId entraSp assignments trace' := by
  refine ⟨hgrew.mem h.found, hgrew.mem h.read, fun e he hgrants => ?_⟩
  exact h.untouched e ((hgrew.mem_iff (by simp [OffGrants, hgrants])).1 he) hgrants

theorem Prepared.meets {α : Type} {p : Async α} (h : Prepared appId entraSp assignments trace)
    (hp : Only OffGrants p) : Meets history (PoliciesLast ctx appId)
      (fun s _ => Prepared appId entraSp assignments s) trace p :=
  (hp.grew (fun _ _ hc => policiesLast_of_offGrants hc) trace).mono (fun _ _ hgrew => h.grew hgrew)

theorem Assigned.outcome_iff {scopeName : Text} {existing : List ExoRoleAssignment}
    {before : List (ExchangeTarget × RoleStep)} {roles : ScopedRoles}
    (h : Assigned appId scopeName existing before trace roles) :
    ∀ p ∈ roles.outcomes, p.2 = true ↔ RoleOnScope appId scopeName trace p.1.exchangeRole := by
  intro p hp
  rw [h.outcome p hp]
  unfold RoleOnScope
  refine or_congr_left ?_
  constructor
  · intro hin
    exact ⟨existing, (h.snapshot existing).2 rfl, hin⟩
  · rintro ⟨existing', hread, hin⟩
    exact (h.snapshot existing').1 hread ▸ hin

/-- The calls of the last step. -/
def Call.finishes : Call → Bool
  | .removeApplicationAccessPolicy _ | .warn _ => true
  | _ => false

theorem Rescoped.finished {trace' : Trace} {scopeName spId : Text}
    (hgrew : Grew (fun c => c.finishes = true) trace trace') :
    Rescoped appId scopeName spId resources trace' a ↔
      Rescoped appId scopeName spId resources trace a :=
  Rescoped.grew hgrew (by simp [Call.finishes]) (by simp [Call.finishes]) (by simp [Call.finishes])

variable {removed : List Text}

/-- The last step, behind a count that says what it should. -/
theorem meets_removeIfSafe {identities : List Text}
    (hfound : (⟨.getServicePrincipalByAppId appId, .ok (some entraSp)⟩ : Exchanged Answer) ∈ trace)
    (hread : (⟨.listAppRoleAssignments entraSp.id, .ok assignments⟩ : Exchanged Answer) ∈ trace)
    (hcount : Unchanged trace →
      (removed.length = (targetsFromGrants assignments ctx.resources).length ↔ ∀ a ∈ assignments,
        Rescoped appId (ctx.scopeNameOf appId) entraSp.id ctx.resources trace a)) :
    Meets history (PoliciesLast ctx appId)
      (fun s _ => Grew (fun c => c.finishes = true) trace s) trace
      (removeIfSafe ctx identities (targetsFromGrants assignments ctx.resources) removed) := by
  unfold removeIfSafe
  split
  · next hsafe =>
    unfold policiesSafeToRemove at hsafe
    split at hsafe
    · exact absurd hsafe (by simp)
    · next hcomplete =>
      have hcomplete : mailboxResourcesComplete ctx.resources = true := by simpa using hcomplete
      have hall : Unchanged trace → ∀ a ∈ assignments,
          Rescoped appId (ctx.scopeNameOf appId) entraSp.id ctx.resources trace a := by
        intro hunchanged
        rw [Bool.or_eq_true, beq_iff_eq, beq_iff_eq] at hsafe
        rcases hsafe with hnone | heq
        · exact rescoped_of_no_targets (List.length_eq_zero_iff.1 hnone)
        · exact (hcount hunchanged).1 heq
      refine Meets.foldlM (fun _ s _ => Grew (fun c => c.finishes = true) trace s) ?_
        (Grew.refl _ trace)
      intro before identity after s acc _ hgrew
      have hok : PoliciesLast ctx appId s (.removeApplicationAccessPolicy identity) := by
        intro hunchanged
        refine ⟨hcomplete, entraSp, assignments, hgrew.mem hfound, hgrew.mem hread, ?_⟩
        intro a ha
        exact (Rescoped.finished hgrew).2
          (hall (hunchanged.of_subset (fun _ he => hgrew.mem he)) a ha)
      refine Meets.bind (Meets.remember hok (fun r => ?_))
      cases r with
      | ok _ => exact Meets.pure (hgrew.snoc rfl)
      | error err =>
        exact Meets.bind (meets_warn trivial (Meets.pure ((hgrew.snoc rfl).snoc rfl)))
  · exact Meets.bind (meets_warn trivial (Meets.pure ((Grew.refl _ trace).snoc rfl)))

/-- What the strip finds when the roles were assigned. -/
structure RolesSettled (ctx : MigrationContext) (appId : Text) (entraSp : EntraServicePrincipal)
    (assignments : List AppRoleAssignment) (trace : Trace) (roles : ScopedRoles) : Prop where
  found : (⟨.getServicePrincipalByAppId appId, .ok (some entraSp)⟩ : Exchanged Answer) ∈ trace
  read : (⟨.listAppRoleAssignments entraSp.id, .ok assignments⟩ : Exchanged Answer) ∈ trace
  unsubmitted : ∀ id r, (⟨.removeAppRoleAssignment entraSp.id id, r⟩ : Exchanged Answer) ∉ trace
  targets : roles.outcomes.map Prod.fst = targetsFromGrants assignments ctx.resources
  outcome : ∀ p ∈ roles.outcomes,
    p.2 = true ↔ RoleOnScope appId (ctx.scopeNameOf appId) trace p.1.exchangeRole

theorem meets_assignScopedRoles_settled (h : Prepared appId entraSp assignments trace) :
    Meets history (PoliciesLast ctx appId)
      (OnResult (RolesSettled ctx appId entraSp assignments) (fun _ _ => True)) trace
      (assignScopedRoles appId (ctx.scopeNameOf appId)
        (targetsFromGrants assignments ctx.resources)).run := by
  have hnot : ∀ {c : Call} {r : Answer c}, c.onGrants = true →
      (∀ sp, c ≠ .listAppRoleAssignments sp) → (⟨c, r⟩ : Exchanged Answer) ∉ trace := by
    intro c r hgrants hne hmem
    obtain ⟨sp, hsp⟩ := h.untouched _ hmem hgrants
    exact hne sp hsp
  have hunasked : ∀ role, ¬ Requested trace role := by
    rintro role ⟨app, s, answer, hmem⟩
    exact hnot rfl (by simp) hmem
  have hassign : Meets history (Guarded appId (ctx.scopeNameOf appId) entraSp.id
      (targetsFromGrants assignments ctx.resources)) _ trace
      (assignScopedRoles appId (ctx.scopeNameOf appId)
        (targetsFromGrants assignments ctx.resources)).run :=
    meets_assignScopedRoles (fun r => hnot rfl (by simp)) hunasked
  refine (hassign.within (only_assignScopedRoles _ _ _) (fun _ c hc => ?_)).mono
    (fun s result hs => ?_)
  · refine policiesLast_of_ne (fun identity heq => ?_)
    rw [heq] at hc
    exact absurd hc (by simp [Call.assigns])
  · obtain ⟨hgrew, hresult⟩ := hs
    cases result with
    | error err => trivial
    | ok roles =>
      obtain ⟨existing, hroles⟩ := hresult
      refine ⟨hgrew.mem h.found, hgrew.mem h.read, fun id r hmem => ?_, ?_, hroles.outcome_iff⟩
      · exact hnot rfl (by simp) ((mem_of_grew hgrew (by simp [Call.assigns])).1 hmem)
      · rw [hroles.targets,
          List.map_fst_zip (Nat.le_of_eq (length_planRoleAssignments _ _ _).symm)]

theorem meets_bindRoles {identities : List Text} {plan : MigrationPlan} {liveFilter : Text}
    (h : Prepared appId entraSp assignments trace) (hsp : plan.entraSp = entraSp)
    (hname : plan.scopeName = ctx.scopeNameOf appId)
    (htargets : plan.targets = targetsFromGrants assignments ctx.resources) :
    Meets history (PoliciesLast ctx appId) (OnResult (CountExact ctx appId) (fun _ _ => True)) trace
      (bindRoles ctx appId identities plan liveFilter).run := by
  unfold bindRoles
  rw [hsp, hname, htargets]
  refine Meets.tryThen (meets_assignScopedRoles_settled h) (fun _ _ _ => trivial)
    (fun s roles hroles => ?_)
  have hstrip := meets_removeUnscopedGrants_count hroles.unsubmitted hroles.read hroles.targets
    hroles.outcome
  refine Meets.liftBind ((hstrip.within (only_removeUnscopedGrants _ _) (fun _ c hc => ?_)).mono
    (fun s strip hs => ?_))
  · refine policiesLast_of_ne (fun identity heq => ?_)
    rw [heq] at hc
    exact absurd hc (by simp [Call.strips])
  · obtain ⟨hgrew, hcount⟩ := hs
    have hfound := hgrew.mem hroles.found
    have hread := hgrew.mem hroles.read
    refine Meets.liftBind ((meets_removeIfSafe hfound hread hcount).mono
      (fun s' result hfinished => Meets.pure (fun _ hunchanged => ?_)))
    refine ⟨entraSp, assignments, hfinished.mem hfound, hfinished.mem hread, ?_⟩
    rw [hcount (hunchanged.of_subset (fun _ he => hfinished.mem he))]
    simp only [Rescoped.finished hfinished]

end Bind

/-! ## From the first call on -/

section Steps

variable {uni}

theorem offGrants_of_quiet {c : Call} (h : Quiet c) : OffGrants c := h.2

theorem only_ensureManagementScope (name recipientRestrictionFilter : Text) :
    Only OffGrants (ensureManagementScope name recipientRestrictionFilter).run := by
  refine Only.tryBind (Only.call rfl) (fun existing => ?_)
  cases existing with
  | some existing => exact Only.pure
  | none => exact Only.call rfl

theorem only_reconcileScopeFilter (scopeName : Text) (existing : Option Text) (wantedFilter : Text)
    (mayRepoint : Bool) :
    Only OffGrants (reconcileScopeFilter uni scopeName existing wantedFilter mayRepoint).run := by
  unfold reconcileScopeFilter
  split
  · exact Only.pure
  · split
    · exact Only.pure
    · split
      · exact Only.pure
      · refine Only.tryBind (Only.lift (only_repointScopeIfStale uni (fun _ _ => rfl)
          (fun _ => rfl) (fun _ => rfl) _ _ _)) (fun _ => ?_)
        refine Only.tryBind (only_orUiError (only_call rfl)) (fun read => ?_)
        split
        · split
          · exact Only.pure
          · exact Only.pure
        · exact Only.pure

theorem only_existingScopeFilterChecked (scopeName consequence : Text) :
    Only OffGrants (existingScopeFilterChecked scopeName consequence).run :=
  Only.tryBind (only_orUiError (only_call rfl)) (fun _ => Only.pure)

variable {entraSp : EntraServicePrincipal} {assignments : List AppRoleAssignment} {trace : Trace}

theorem meets_scopeThenBind_policies {identities : List Text} {plan : MigrationPlan}
    (h : Prepared appId entraSp assignments trace) (hsp : plan.entraSp = entraSp)
    (hname : plan.scopeName = ctx.scopeNameOf appId)
    (htargets : plan.targets = targetsFromGrants assignments ctx.resources) :
    Meets history (PoliciesLast ctx appId) (OnResult (CountExact ctx appId) (fun _ _ => True)) trace
      (scopeThenBind uni ctx appId identities plan).run := by
  unfold scopeThenBind
  have hintends : OffGrants (.intends plan.scopeName plan.scopeFilter) := rfl
  refine Meets.liftBind ((h.meets (only_call hintends)).mono (fun s _ hs => ?_))
  refine meets_orUiError (hs.meets (only_ensureManagementScope _ _)).always (fun _ _ _ => trivial)
    (fun s _ hs => ?_)
  refine Meets.tryThen (hs.meets (only_reconcileScopeFilter _ _ _ _)).always (fun _ _ _ => trivial)
    (fun s liveFilter hs => ?_)
  refine meets_orUiError (hs.meets ((only_ensureServicePrincipal _ _ _).weaken
    (fun _ => offGrants_of_quiet))).always (fun _ _ _ => trivial) (fun s _ hs => ?_)
  exact meets_bindRoles hs hsp hname htargets

/-- Nothing was read or done about grants yet. -/
structure Untouched (appId : Text) (entraSp : EntraServicePrincipal) (trace : Trace) : Prop where
  found : (⟨.getServicePrincipalByAppId appId, .ok (some entraSp)⟩ : Exchanged Answer) ∈ trace
  untouched : ∀ e ∈ trace, OffGrants e.1

theorem Untouched.meets {α : Type} {p : Async α} (h : Untouched appId entraSp trace)
    (hp : Only OffGrants p) : Meets history (PoliciesLast ctx appId)
      (fun s _ => Untouched appId entraSp s) trace p := by
  refine (hp.grew (fun _ _ hc => policiesLast_of_offGrants hc) trace).mono (fun s _ hgrew => ?_)
  obtain ⟨t, rfl, ht⟩ := hgrew
  refine ⟨List.mem_append_left _ h.found, fun e he => ?_⟩
  exact (List.mem_append.1 he).elim (h.untouched e) (ht e)

theorem meets_migrateTargets_policies {identities dns : List Text} {existing : Option Text}
    {consolidation : ScopeGroupConsolidation} (h : Untouched appId entraSp trace) :
    Meets history (PoliciesLast ctx appId)
      (OnResult (fun s m => ctx.dryRun = false → CountExact ctx appId s m) (fun _ _ => True)) trace
      (migrateTargets uni ctx appId identities entraSp dns existing consolidation).run := by
  unfold migrateTargets
  have hread : Meets history (PoliciesLast ctx appId)
      (OnResult (fun s assignments => Prepared appId entraSp assignments s) (fun _ _ => True)) trace
      (call (.listAppRoleAssignments entraSp.id)) := by
    refine Meets.remember trivial (fun r => ?_)
    cases r with
    | error err => trivial
    | ok assignments =>
      refine ⟨List.mem_append_left _ h.found, by simp, fun e he hgrants => ?_⟩
      rcases List.mem_append.1 he with hold | hnew
      · exact absurd (h.untouched e hold) (by simp [OffGrants, hgrants])
      · exact ⟨entraSp.id, by rw [List.mem_singleton.1 hnew]⟩
  refine meets_orUiError hread (fun _ _ _ => trivial) (fun s assignments hs => ?_)
  refine Meets.liftBind ((hs.meets (only_warnAll (fun _ => rfl) _)).mono (fun s _ hs => ?_))
  split
  · next hdry =>
    refine Meets.lift ((hs.meets ((only_planned _ _ _ _).weaken
      (fun _ => offGrants_of_quiet))).mono (fun _ _ _ hreal => ?_))
    rw [hdry] at hreal
    exact absurd hreal (by simp)
  · refine (meets_scopeThenBind_policies hs rfl rfl rfl).mono (fun s result hresult => ?_)
    cases result with
    | ok migrated => exact fun _ => hresult
    | error err => trivial

theorem meets_migrateOne_policies (policies : List ExoApplicationAccessPolicy) :
    Meets history (PoliciesLast ctx (toAsciiLowercase appId))
      (OnResult (fun s m => ctx.dryRun = false → CountExact ctx (toAsciiLowercase appId) s m)
        (fun _ _ => True)) [] (migrateOne uni ctx appId policies).run := by
  unfold migrateOne migrateFolded
  have hfind : Meets history (PoliciesLast ctx (toAsciiLowercase appId))
      (OnResult (fun s found => ∀ entraSp, found = some entraSp →
        Untouched (toAsciiLowercase appId) entraSp s) (fun _ _ => True)) []
      (call (.getServicePrincipalByAppId (toAsciiLowercase appId))) := by
    refine Meets.remember trivial (fun r => ?_)
    cases r with
    | error err => trivial
    | ok found =>
      rintro entraSp rfl
      refine ⟨by simp, fun e he => ?_⟩
      rw [List.nil_append, List.mem_singleton] at he
      rw [he]
      rfl
  refine meets_orUiError hfind (fun _ _ _ => trivial) (fun s found hs => ?_)
  cases found with
  | none => trivial
  | some entraSp =>
    refine Meets.tryThen ((hs entraSp rfl).meets ((Only.tryFoldlM only_resolvePolicyGroup policies
      []).weaken (fun _ => offGrants_of_quiet))).always (fun _ _ _ => trivial)
      (fun s dns hs => ?_)
    refine Meets.liftBind ((hs.meets (only_warnAll (fun _ => rfl) _)).mono (fun s _ hs => ?_))
    refine Meets.tryThen (hs.meets (only_existingScopeFilterChecked _ _)).always
      (fun _ _ _ => trivial) (fun s existing hs => ?_)
    refine Meets.liftBind ((hs.meets ((only_consolidateScopeGroup uni _).weaken
      (fun _ => offGrants_of_quiet))).mono (fun s consolidation hs => ?_))
    split
    · refine Meets.liftBind ((hs.meets ((only_warn _).weaken
        (fun _ => offGrants_of_quiet))).mono (fun s _ _ => ?_))
      exact fun _ hstopped => absurd hstopped (by simp [stoppedApp])
    · exact meets_migrateTargets_policies hs

end Steps

end Migration

/-- In every run of the migration of one application, whatever the services answer: a legacy policy
    is removed only when both mailbox resources were resolved and, the two reads of the assignments
    agreeing, every assignment a policy could have been confining has its scoped role in place and
    was deleted; and of a run that got to the end the count of removed grants says exactly that. -/
theorem policies_go_last (uni : Unicode) (ctx : MigrationContext) (appId : Text)
    (policies : List ExoApplicationAccessPolicy) :
    (∀ trace identity, Asks history [] (migrateOne uni ctx appId policies).run trace
        (.removeApplicationAccessPolicy identity) →
      Unchanged trace → AllRescoped ctx (toAsciiLowercase appId) trace) ∧
    ∀ trace migrated, Exec history [] (migrateOne uni ctx appId policies).run trace (.ok migrated) →
      ctx.dryRun = false → CountExact ctx (toAsciiLowercase appId) trace migrated :=
  ⟨fun _ _ hasks => (meets_migrateOne_policies policies).asked hasks,
    fun _ _ hexec => (meets_migrateOne_policies policies).sound hexec⟩

/-! ## A run that removes its policy -/

/-- Both resources, and two permissions on Microsoft Graph. -/
def bothResources : List ResourceRoles := [
  ⟨microsoftGraphAppId, "graph".toList,
    ((∅ : Table Text Text).insert "r1".toList "Mail.Read".toList).insert "r2".toList "Mail.Send".toList⟩,
  ⟨office365ExchangeOnlineAppId, "exo".toList, ∅⟩]

def twoMailGrants : List AppRoleAssignment :=
  [⟨"a1".toList, "graph".toList, "r1".toList⟩, ⟨"a2".toList, "graph".toList, "r2".toList⟩]

/-- An application with two grants and one policy; its group cannot be copied. -/
def twoGrantAnswers : (c : Call) → Option (Answer c)
  | .getServicePrincipalByAppId _ => some (.ok (some ⟨"sp".toList, "App".toList⟩))
  | .getGroup _ => some (.ok (some ⟨some "CN=Sales".toList⟩))
  | .getManagementScope _ => some (.ok none)
  | .newManagementScope _ filter => some (.ok ⟨none, some filter⟩)
  | .listGroupMembers _ => some (.error .unauthorized)
  | .listAppRoleAssignments _ => some (.ok twoMailGrants)
  | .getExoServicePrincipal _ => some (.ok (some ⟨none, none⟩))
  | .getRoleAssignments _ => some (.ok [])
  | .newRoleAssignment _ role _ => some (.ok ⟨none, some role, none, none, none, none, none⟩)
  | .removeAppRoleAssignment _ _ => some (.ok ())
  | .removeApplicationAccessPolicy _ => some (.ok ())
  | .intends _ _ => some ()
  | .warn _ => some ()
  | _ => none

def onePolicy : List ExoApplicationAccessPolicy :=
  [⟨some "p1".toList, some "app".toList, some "Sales".toList, none, some .restrictAccess, none⟩]

def twoGrantContext : MigrationContext := ⟨bothResources, none, ⟨none, none⟩, false⟩

/-- A read of assignments gave the two grants. -/
def readsTwoGrants : Exchanged Answer → Bool
  | ⟨.listAppRoleAssignments _, r⟩ => r.toOption.all (fun l => l == twoMailGrants)
  | _ => true

theorem unchanged_of_readsTwoGrants {trace : Trace} (h : trace.all readsTwoGrants = true) :
    Unchanged trace := by
  intro sp as as' hread hread'
  have hall := List.all_eq_true.1 h
  have has : as = twoMailGrants := by simpa [readsTwoGrants, Except.toOption] using hall _ hread
  have has' : as' = twoMailGrants := by simpa [readsTwoGrants, Except.toOption] using hall _ hread'
  rw [has, has']

/-- The policy goes, and the count of removed grants is of the two there were. -/
theorem policy_goes_last_two_grants :
    (∃ trace identity, Asks history [] (migrateOne Opath.asciiUnicode twoGrantContext "APP".toList
        onePolicy).run trace (.removeApplicationAccessPolicy identity) ∧
      AllRescoped twoGrantContext "app".toList trace) ∧
    ∃ trace migrated, Exec history [] (migrateOne Opath.asciiUnicode twoGrantContext "APP".toList
        onePolicy).run trace (.ok migrated) ∧ migrated.item.removedEntraGrants.length = 2 ∧
      CountExact twoGrantContext "app".toList trace migrated := by
  have hlower : toAsciiLowercase "APP".toList = "app".toList := by decide
  have hfirst : (firstAsk (remembering (fun _ => twoGrantAnswers))
      (fun c => c == .removeApplicationAccessPolicy "p1".toList)
      (migrateOne Opath.asciiUnicode twoGrantContext "APP".toList onePolicy).run []).map
        (fun r => r.1.all readsTwoGrants) = some true := by decide
  obtain ⟨⟨trace, c⟩, hask, hreads⟩ := Option.map_eq_some_iff.1 hfirst
  obtain ⟨hasks, hstop⟩ := asks_of_firstAsk (history_of_remembering _) hask
  obtain rfl : c = .removeApplicationAccessPolicy "p1".toList := by simpa using hstop
  obtain ⟨result, trace', hexec, hview⟩ :=
    exists_exec_of_run (history_of_remembering (fun _ => twoGrantAnswers))
      (show (run (remembering (fun _ => twoGrantAnswers)) (migrateOne Opath.asciiUnicode
          twoGrantContext "APP".toList onePolicy).run []).map
            (fun r => r.1.toOption.map (fun m => m.item.removedEntraGrants.length))
          = some (some 2) by decide)
  refine ⟨⟨trace, _, hasks, ?_⟩, ?_⟩
  · have hlast := (policies_go_last Opath.asciiUnicode twoGrantContext "APP".toList onePolicy).1
      trace _ hasks (unchanged_of_readsTwoGrants hreads)
    rw [hlower] at hlast
    exact hlast
  · cases result with
    | error err => exact absurd hview (by simp [Except.toOption])
    | ok migrated =>
      have hcount := (policies_go_last Opath.asciiUnicode twoGrantContext "APP".toList
        onePolicy).2 trace' migrated hexec rfl
      rw [hlower] at hcount
      exact ⟨trace', migrated, hexec, Option.some.inj hview, hcount⟩

end Exchange
