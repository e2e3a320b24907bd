import AzAppToolkit.Remediation.RedundantPlan

set_option autoImplicit false

/-! # The redundant-permissions fix loses no access

The plan is made from one snapshot, so a permission may justify a removal and be removed itself. What
carries the argument is the table: going up from a revoked permission through permissions that are
granted and not confined ends at one that is covered by none of these, and that one is not planned. -/

namespace Remediation

open Graph (GraphError)
open Exchange (MailPermissionScope ScopableMailPermission)

/-! ## One run -/

/-- What a run has done to the directory: it took away assignments its plan names, and nothing
    else. -/
structure Revoked (plan : List RedundantRemoval) (s s' : Directory) : Prop where
  servicePrincipal : s'.servicePrincipal = s.servicePrincipal
  assignments : ∀ a ∈ s'.assignments, a ∈ s.assignments
  gone : ∀ a ∈ s.assignments, a ∉ s'.assignments → ∃ removal ∈ plan,
    removal.assignmentId = some a.id

theorem Revoked.refl (plan : List RedundantRemoval) (s : Directory) : Revoked plan s s where
  servicePrincipal := rfl
  assignments := fun _ h => h
  gone := fun _ h hnot => absurd h hnot

variable {plan : List RedundantRemoval}

theorem Revoked.trans {s s' s'' : Directory} (h : Revoked plan s s')
    (h' : Revoked plan s' s'') : Revoked plan s s'' where
  servicePrincipal := h'.servicePrincipal.trans h.servicePrincipal
  assignments := fun a ha => h.assignments a (h'.assignments a ha)
  gone := by
    intro a ha hnot
    by_cases hmiddle : a ∈ s'.assignments
    · exact h'.gone a hmiddle hnot
    · exact h.gone a ha hmiddle

theorem Revoked.mono {plan plan' : List RedundantRemoval} {s s' : Directory}
    (h : Revoked plan s s') (hsub : ∀ removal ∈ plan, removal ∈ plan') : Revoked plan' s s' where
  servicePrincipal := h.servicePrincipal
  assignments := h.assignments
  gone := fun a ha hnot => (h.gone a ha hnot).imp (fun removal hr => ⟨hsub removal hr.1, hr.2⟩)

theorem Revoked.revoke (s : Directory) {removal : RedundantRemoval}
    {id : Text} (hmem : removal ∈ plan) (hid : removal.assignmentId = some id) :
    Revoked plan s (s.revoke id) where
  servicePrincipal := rfl
  assignments := fun _ ha => List.mem_of_mem_filter ha
  gone := by
    intro a ha hnot
    have heq : a.id = id := by
      by_contra hne
      exact hnot (List.mem_filter.2 ⟨ha, by simpa using hne⟩)
    exact ⟨removal, hmem, by rw [hid, heq]⟩

variable {finished : Prop}

section Runs

variable {env : Surroundings} {ok : Directory → Call → Prop}

/-- What the revocation loop leaves behind. -/
structure RevokedSome (plan : List RedundantRemoval) (s s' : Directory) (r : Revocations) : Prop where
  revoked : Revoked plan s s'
  required : s'.required = s.required
  appId : s'.appId = s.appId
  to_drop : ∀ removal ∈ r.declarationsToDrop, removal ∈ plan ∧
    ∀ a ∈ s'.assignments, removal.assignmentId ≠ some a.id
  all : r.error = none → r.declarationsToDrop = plan

/-- One more removal in front. -/
theorem RevokedSome.cons {s s₁ s' : Directory} {r : Revocations}
    {removal : RedundantRemoval} {revoked : Bool} (h : RevokedSome plan s₁ s' r)
    (hstep : Revoked (removal :: plan) s s₁) (hrequired : s₁.required = s.required)
    (happ : s₁.appId = s.appId) (hgone : ∀ a ∈ s₁.assignments, removal.assignmentId ≠ some a.id) :
    RevokedSome (removal :: plan) s s' ⟨removal :: r.declarationsToDrop, revoked, r.error⟩ where
  revoked := hstep.trans (h.revoked.mono (fun _ => List.mem_cons_of_mem _))
  required := h.required.trans hrequired
  appId := h.appId.trans happ
  to_drop := by
    intro removal' hmem
    rcases List.mem_cons.1 hmem with rfl | hmem
    · exact ⟨List.mem_cons_self, fun a ha => hgone a (h.revoked.assignments a ha)⟩
    · exact ⟨List.mem_cons_of_mem _ (h.to_drop removal' hmem).1, (h.to_drop removal' hmem).2⟩
  all := fun herror => by rw [h.all herror]

theorem revokePlanned_meets (plan : List RedundantRemoval) (s : Directory) (hok : ∀ s c, plan ≠ [] → ok s c)
    (hplan : s.servicePrincipal = none → ∀ removal ∈ plan, removal.assignmentId = none) :
    Prog.Meets (world env) ok (RevokedSome plan s) s
      (revokePlanned s.servicePrincipal plan) := by
  suffices hloop : ∀ (spId : Option Text), (spId = none → ∀ removal ∈ plan,
      removal.assignmentId = none) → Prog.Meets (world env) ok (RevokedSome plan s) s
        (revokePlanned spId plan) from hloop s.servicePrincipal hplan
  clear hplan
  intro spId hplan
  induction plan generalizing s with
  | nil => exact ⟨Revoked.refl [] s, rfl, rfl, by simp, fun _ => rfl⟩
  | cons removal rest ih =>
    have hlater : ∀ s c, rest ≠ [] → ok s c := fun s c _ => hok s c (by simp)
    have hrest : spId = none → ∀ removal ∈ rest, removal.assignmentId = none :=
      fun h removal hmem => hplan h removal (List.mem_cons_of_mem _ hmem)
    have hnone : (∀ id sp, removal.assignmentId = some id → spId = some sp → False) →
        removal.assignmentId = none := by
      intro hnot
      cases hid : removal.assignmentId with
      | none => rfl
      | some id =>
        cases hsp : spId with
        | none => rw [← hid, hplan hsp removal List.mem_cons_self]
        | some sp => exact absurd hsp (hnot id sp hid)
    unfold revokePlanned
    split
    · next _ _ assignmentId sp hid =>
      refine Prog.Meets.bind ⟨hok _ _ (by simp), fun answer s₁ hstep => ?_⟩
      cases answer with
      | ok u =>
        have hs₁ : s₁ = s.revoke assignmentId := by
          rcases hstep with hs₁ | ⟨-, e, he⟩
          · exact hs₁
          · exact absurd he (by simp)
        subst hs₁
        refine Prog.Meets.bind ((ih (s.revoke assignmentId) hlater hrest).mono (fun s' r h => ?_))
        refine h.cons (Revoked.revoke s List.mem_cons_self hid) rfl rfl ?_
        intro a ha heq
        have hne := (List.mem_filter.1 ha).2
        rw [hid, Option.some.injEq] at heq
        rw [heq] at hne
        exact absurd hne (by simp)
      | error e =>
        refine ⟨?_, ?_, ?_, by simp, by simp⟩
        · rcases hstep with rfl | ⟨rfl, -⟩
          · exact Revoked.revoke s List.mem_cons_self hid
          · exact Revoked.refl _ _
        · rcases hstep with rfl | ⟨rfl, -⟩ <;> rfl
        · rcases hstep with rfl | ⟨rfl, -⟩ <;> rfl
    · next _ _ hnot =>
      have hid := hnone hnot
      refine Prog.Meets.bind ((ih s hlater hrest).mono (fun s' r h => ?_))
      exact h.cons (Revoked.refl _ s) rfl rfl (fun a _ => by rw [hid]; simp)

/-- What a run with this plan has done to the directory. -/
structure Ran (plan : List RedundantRemoval) (s s' : Directory) (finished : Prop) : Prop where
  revoked : Revoked plan s s'
  blocks : ∀ block' ∈ s'.required, ∃ block ∈ s.required,
    block'.resourceAppId = block.resourceAppId ∧ block'.resourceAccess.Sublist block.resourceAccess
  dropped : ∀ r a, Declares s.required r a → ¬ Declares s'.required r a → ∃ removal ∈ plan,
    r = removal.resourceAppId ∧ a = ⟨removal.permissionId, roleType⟩ ∧
      ∀ x ∈ s'.assignments, removal.assignmentId ≠ some x.id
  done : finished → ∀ removal ∈ plan,
    ¬ Declares s'.required removal.resourceAppId ⟨removal.permissionId, roleType⟩

theorem Ran.unfinished {s s' : Directory}
    (h : Revoked plan s s') (hrequired : s'.required = s.required) (hnot : ¬ finished) :
    Ran plan s s' finished where
  revoked := h
  blocks := fun block' hblock' => ⟨block', hrequired ▸ hblock', rfl, List.Sublist.refl _⟩
  dropped := fun _ _ hdeclares hmissing => absurd (hrequired ▸ hdeclares) hmissing
  done := fun h => absurd h hnot

theorem Ran.imp {s s' : Directory} {finished finished' : Prop}
    (h : Ran plan s s' finished) (himp : finished' → finished) : Ran plan s s' finished' :=
  { h with done := fun hfinished => h.done (himp hfinished) }

/-- The manifest once the patch is in. -/
theorem RevokedSome.ran {s s₁ s' : Directory} {r : Revocations}
    (h : RevokedSome plan s s₁ r) (hassignments : s'.assignments = s₁.assignments)
    (hprincipal : s'.servicePrincipal = s₁.servicePrincipal)
    (hrequired : s'.required = (dropDeclarations s.required r.declarationsToDrop).1)
    (hfinished : finished → r.error = none) : Ran plan s s' finished := by
  obtain ⟨hdropped, hgone, -⟩ := dropDeclarations_spec s.required r.declarationsToDrop
  constructor
  case revoked =>
    constructor
    case servicePrincipal => exact hprincipal.trans h.revoked.servicePrincipal
    case assignments => exact fun a ha => h.revoked.assignments a (hassignments ▸ ha)
    case gone => exact fun a ha hnot => h.revoked.gone a ha (hassignments ▸ hnot)
  case blocks =>
    rw [hrequired]
    exact hdropped.blocks
  case dropped =>
    rw [hrequired, hassignments]
    intro res a hdeclares hmissing
    obtain ⟨removal, hmem, hres, ha⟩ := hdropped.missing res a hdeclares hmissing
    exact ⟨removal, (h.to_drop removal hmem).1, hres, ha, (h.to_drop removal hmem).2⟩
  case done =>
    rw [hrequired]
    intro hfin removal hmem
    refine hgone removal ?_
    rw [h.all (hfinished hfin)]
    exact hmem

theorem patchManifest_meets {s s₁ : Directory} {r : Revocations}
    (objectId : Text) (hok : ∀ s c, plan ≠ [] → ok s c) (h : RevokedSome plan s s₁ r) :
    Prog.Meets (world env) ok (fun s' p => Ran plan s s' (p.2 = none)) s₁
      (patchManifest objectId s.required r) := by
  obtain ⟨-, -, hsame⟩ := dropDeclarations_spec s.required r.declarationsToDrop
  unfold patchManifest
  dsimp only
  split
  · next htrue =>
    have hplan : plan ≠ [] := by
      intro hnil
      have hnone : r.declarationsToDrop = [] := by
        refine List.eq_nil_iff_forall_not_mem.2 (fun removal hmem => ?_)
        exact absurd (hnil ▸ (h.to_drop removal hmem).1) (by simp)
      rw [hnone] at htrue
      exact absurd htrue (by simp [dropDeclarations])
    refine Prog.Meets.bind ⟨hok _ _ hplan, fun answer s' hstep => ?_⟩
    cases answer with
    | ok u =>
      have hs' : s' = s₁.patch (dropDeclarations s.required r.declarationsToDrop).1 := by
        rcases hstep with hs' | ⟨-, e, he⟩
        · exact hs'
        · exact absurd he (by simp)
      subst hs'
      exact h.ran rfl rfl rfl (fun herror => herror)
    | error e =>
      -- the patch may have landed all the same
      rcases hstep with rfl | ⟨rfl, -⟩
      · exact h.ran rfl rfl rfl (fun herror => absurd herror (by simp))
      · exact Ran.unfinished h.revoked h.required (by simp)
  · next hfalse =>
    refine h.ran rfl rfl ?_ (fun herror => herror)
    rw [h.required, hsame (by simpa using hfalse)]

theorem applyPlan_meets (objectId : Text) (s : Directory) (plan : List RedundantRemoval × List Text)
    (hread : ∀ s c, c.writes = false → ok s c) (hok : ∀ s c, plan.1 ≠ [] → ok s c)
    (hplan : s.servicePrincipal = none → ∀ removal ∈ plan.1, removal.assignmentId = none) :
    Prog.Meets (world env) ok (fun s' r => Ran plan.1 s s' (∃ o, r = .ok o)) s
      (applyPlan objectId s.required s.servicePrincipal plan).run := by
  unfold applyPlan
  refine Prog.Meets.liftBind ((revokePlanned_meets plan.1 s hok hplan).mono (fun s₁ r hr => ?_))
  refine Prog.Meets.liftBind ((patchManifest_meets objectId hok hr).mono (fun s₂ p hp => ?_))
  have hinvalidate : Prog.Meets (world env) ok (fun s' _ => s' = s₂) s₂
      (invalidateIf (r.grantsRevoked || p.1)) := by
    unfold invalidateIf
    split
    · exact ⟨hread _ _ rfl, fun _ s' hs' => hs'⟩
    · rfl
  refine Prog.Meets.liftBind (hinvalidate.mono (fun s₃ _ hs₃ => ?_))
  subst hs₃
  cases hp₂ : p.2 with
  | some e => exact hp.imp (fun ⟨o, ho⟩ => absurd ho (by simp))
  | none => exact hp.imp (fun _ => hp₂)

/-! ## Reading the directory -/

theorem lookup_snoc {α : Type} (l : List (Text × α)) (k key : Text) (a : α) :
    (l ++ [(k, a)]).lookup key = (l.lookup key).or (if key = k then some a else none) := by
  rw [List.lookup_append, List.lookup_cons, List.lookup_nil]
  by_cases h : key = k
  · simp [h]
  · simp [h, beq_false_of_ne h]

theorem resolveResources_meets (hread : ∀ s c, c.writes = false → ok s c)
    (s : Directory) (required : List RequiredResourceAccess) :
    Prog.Meets (world env) ok
      (fun s' resources => s' = s ∧ ∀ block ∈ required,
        resources.lookup block.resourceAppId = env.resolve block.resourceAppId) s
      (resolveResources required) := by
  unfold resolveResources
  refine (Prog.Meets.foldlM (fun before s' (resources : List (Text × ResourceSp)) => s' = s ∧
    (∀ block ∈ before, resources.lookup block.resourceAppId = env.resolve block.resourceAppId) ∧
    ∀ r sp, resources.lookup r = some sp → env.resolve r = some sp) ?_ ?_).mono
      (fun s' resources h => ⟨h.1, h.2.1⟩)
  · rintro before block - s' resources - ⟨rfl, hbefore, hsound⟩
    have hinv : ∀ resources' : List (Text × ResourceSp),
        (∀ r sp, resources.lookup r = some sp → resources'.lookup r = some sp) →
        (∀ r sp, resources'.lookup r = some sp → env.resolve r = some sp) →
        resources'.lookup block.resourceAppId = env.resolve block.resourceAppId →
        s' = s' ∧ (∀ b ∈ before ++ [block],
          resources'.lookup b.resourceAppId = env.resolve b.resourceAppId) ∧
          ∀ r sp, resources'.lookup r = some sp → env.resolve r = some sp := by
      intro resources' hgrow hsound' hblock
      refine ⟨rfl, fun b hb => ?_, hsound'⟩
      rcases List.mem_append.1 hb with hb | hb
      · cases hresolve : env.resolve b.resourceAppId with
        | some sp => exact hgrow _ sp ((hbefore b hb).trans hresolve)
        | none =>
          cases hlookup : resources'.lookup b.resourceAppId with
          | none => rfl
          | some sp => rw [← hsound' _ sp hlookup, hresolve]
      · rw [List.mem_singleton.1 hb]
        exact hblock
    split
    · next hknown =>
      obtain ⟨sp, hsp⟩ := Option.isSome_iff_exists.1 hknown
      exact hinv resources (fun _ _ h => h) hsound (by rw [hsp, hsound _ sp hsp])
    · next hnew =>
      have hnone : resources.lookup block.resourceAppId = none := Option.not_isSome_iff_eq_none.1 hnew
      have hsame : none = env.resolve block.resourceAppId →
          s' = s' ∧ (∀ b ∈ before ++ [block],
            resources.lookup b.resourceAppId = env.resolve b.resourceAppId) ∧
            ∀ r sp, resources.lookup r = some sp → env.resolve r = some sp :=
        fun h => hinv resources (fun _ _ h => h) hsound (hnone.trans h)
      refine Prog.Meets.bind ⟨hread _ _ rfl, fun answer s'' hstep => ?_⟩
      obtain ⟨rfl, hanswer⟩ := hstep
      cases answer with
      | error e => exact hsame hanswer
      | ok found =>
        cases found with
        | none => exact hsame hanswer
        | some sp =>
          replace hanswer : some sp = env.resolve block.resourceAppId := hanswer
          refine hinv (resources ++ [(block.resourceAppId, sp)]) ?_ ?_ ?_
          · intro r sp' h
            rw [lookup_snoc, h, Option.some_or]
          · intro r sp' h
            rw [lookup_snoc] at h
            cases hold : resources.lookup r with
            | some sp'' =>
              rw [hold, Option.some_or] at h
              exact hsound r sp' (hold.trans h)
            | none =>
              rw [hold, Option.none_or] at h
              split at h
              · next heq => rw [heq, ← hanswer, h]
              · exact absurd h (by simp)
          · rw [lookup_snoc, hnone, Option.none_or, if_pos rfl, hanswer]
  · exact ⟨rfl, by simp, by simp⟩

theorem getApplication_meets (hread : ∀ s c, c.writes = false → ok s c) (s : Directory) (objectId : Text) :
    Prog.Meets (world env) ok
      (Prog.OnResult (fun s' app => s' = s ∧ app = ⟨s.appId, s.required⟩) (fun s' _ => s' = s)) s
      (call (.getApplication objectId)) := by
  refine ⟨hread _ _ rfl, fun answer s' hstep => ?_⟩
  obtain ⟨rfl, hanswer⟩ := hstep
  cases answer with
  | ok app => exact ⟨rfl, hanswer app rfl⟩
  | error e => exact rfl

theorem getServicePrincipalByAppId_meets (hread : ∀ s c, c.writes = false → ok s c)
    (s : Directory) (appId : Text) :
    Prog.Meets (world env) ok
      (Prog.OnResult (fun s' sp => s' = s ∧ sp = s.servicePrincipal) (fun s' _ => s' = s)) s
      (call (.getServicePrincipalByAppId appId)) := by
  refine ⟨hread _ _ rfl, fun answer s' hstep => ?_⟩
  obtain ⟨rfl, hanswer⟩ := hstep
  cases answer with
  | ok sp => exact ⟨rfl, hanswer sp rfl⟩
  | error e => exact rfl

theorem liveAssignments_meets (hread : ∀ s c, c.writes = false → ok s c) (s : Directory) :
    Prog.Meets (world env) ok
      (Prog.OnResult (fun s' assignments => s' = s ∧ (assignments = some s.assignments ∨
        assignments = none ∧ s.assignments = [])) (fun s' _ => s' = s)) s
      (liveAssignments s.servicePrincipal).run := by
  unfold liveAssignments
  split
  · refine Prog.Meets.tryBind ⟨hread _ _ rfl, fun answer s' hstep => ?_⟩
    obtain ⟨rfl, hanswer⟩ := hstep
    cases answer with
    | ok assignments => exact ⟨rfl, Or.inl (by rw [hanswer assignments rfl])⟩
    | error e => exact rfl
  · next hnone => exact ⟨rfl, Or.inr ⟨rfl, s.unassigned hnone⟩⟩

theorem readMailScopes_meets (hread : ∀ s c, c.writes = false → ok s c) (s : Directory) (appId : Text)
    (permissions : List ScopableMailPermission) :
    Prog.Meets (world env) ok
      (fun s' scopes => s' = s ∧ ∀ p ∈ permissions, scopes p.value = env.mailScopes p.value) s
      (readMailScopes appId permissions) :=
  Prog.Meets.bind ⟨hread _ _ rfl, fun _ _ hstep => hstep⟩

theorem roleIndexes_congr {resolved resolved' : Text → Option ResourceSp} {r : Text}
    (h : resolved r = resolved' r) : roleIndexes resolved r = roleIndexes resolved' r := by
  unfold roleIndexes
  rw [h]

/-- A declared permission that Exchange can confine is asked about. -/
theorem confined_of_asked {s : Directory} {resolved : Text → Option ResourceSp}
    {scopes : Text → Option MailPermissionScope}
    (hresolved : ∀ block ∈ s.required, resolved block.resourceAppId = env.resolve block.resourceAppId)
    (hscopes : ∀ p ∈ scopablePermissions s.required resolved,
      scopes p.value = env.mailScopes p.value) {block : RequiredResourceAccess}
    (hblock : block ∈ s.required) {index : Text → Option Text}
    (hindex : roleIndexes env.resolve block.resourceAppId = some index) {d : Text × Text}
    (hd : d ∈ declaredRoles index block) :
    broaderIsConfined scopes block.resourceAppId d.2 = env.confined block.resourceAppId d.2 := by
  unfold Surroundings.confined broaderIsConfined
  split
  · rfl
  · next hscopable =>
    have hsome : (Exchange.exchangeRoleForResourcePermission block.resourceAppId d.2).isSome := by
      rw [Bool.not_eq_true', Bool.not_eq_false] at hscopable
      exact hscopable
    obtain ⟨role, hrole⟩ := Option.isSome_iff_exists.1 hsome
    have hasked : (⟨d.2, role, Exchange.isAapConfinablePermission block.resourceAppId d.2⟩ :
        ScopableMailPermission) ∈ scopablePermissions s.required resolved := by
      unfold scopablePermissions
      refine List.mem_flatMap.2 ⟨block, hblock, ?_⟩
      rw [roleIndexes_congr (hresolved block hblock), hindex]
      refine List.mem_filterMap.2 ⟨d, hd, ?_⟩
      unfold ScopableMailPermission.onResource
      rw [hrole, Option.map_some]
    rw [hscopes _ hasked]

theorem unassigned_of_planned {s : Directory} (h : s.servicePrincipal = none) :
    ∀ removal ∈ planned env s, removal.assignmentId = none := by
  intro removal hmem
  obtain ⟨block, index, hplanned⟩ := mem_plan.1 hmem
  rw [hplanned.assignment, s.unassigned h]
  unfold grantedOn
  cases env.resolve block.resourceAppId <;> rfl

/-- What was read gives the plan of the state it was read in. -/
theorem plan_of_reads {s : Directory} {resources : List (Text × ResourceSp)}
    {assignments : Option (List AppRoleAssignment)} {scopes : Text → Option MailPermissionScope}
    (hresources : ∀ block ∈ s.required,
      resources.lookup block.resourceAppId = env.resolve block.resourceAppId)
    (hassignments : assignments = some s.assignments ∨ assignments = none ∧ s.assignments = [])
    (hscopes : ∀ p ∈ scopablePermissions s.required (fun r => resources.lookup r),
      scopes p.value = env.mailScopes p.value) :
    planRedundantRemovals s.required (roleIndexes (fun r => resources.lookup r))
        (grantedMap (fun r => resources.lookup r) assignments) (broaderIsConfined scopes)
      = planRedundantRemovals s.required (roleIndexes env.resolve)
          (grantedOn env.resolve s.assignments) env.confined := by
  refine plan_congr (fun block hblock => roleIndexes_congr (hresources block hblock)) ?_
    (fun block hblock index hindex d hd => confined_of_asked hresources hscopes hblock hindex hd)
  intro block hblock
  rcases hassignments with rfl | ⟨rfl, hnil⟩
  · unfold grantedMap grantedOn
    dsimp only
    rw [hresources block hblock]
  · rw [hnil]
    unfold grantedMap grantedOn
    cases env.resolve block.resourceAppId <;> rfl

theorem core_meets (objectId : Text) (s : Directory)
    (hread : ∀ s c, c.writes = false → ok s c) (hok : ∀ t c, planned env s ≠ [] → ok t c) :
    Prog.Meets (world env) ok
      (fun s' r => Ran (planned env s) s s' (∃ o, r = .ok o)) s
      (removeRedundantPermissionsCore objectId).run := by
  have hfailed : ∀ (s' : Directory) (e : GraphError), s' = s → Ran (planned env s) s s'
      (∃ o, (.error e : Except GraphError RedundantPermissionsOutcome) = .ok o) := by
    rintro s' e rfl
    exact Ran.unfinished (Revoked.refl _ _) rfl (by simp)
  unfold removeRedundantPermissionsCore
  refine Prog.Meets.tryThen (getApplication_meets hread s objectId) hfailed ?_
  rintro s' app ⟨rfl, rfl⟩
  refine Prog.Meets.liftBind ((resolveResources_meets hread s' s'.required).mono ?_)
  rintro s resources ⟨rfl, hresources⟩
  refine Prog.Meets.tryThen (getServicePrincipalByAppId_meets hread s s.appId) hfailed ?_
  rintro s' sp ⟨rfl, rfl⟩
  refine Prog.Meets.tryThen (liveAssignments_meets hread s') hfailed ?_
  rintro s assignments ⟨rfl, hassignments⟩
  refine Prog.Meets.liftBind ((readMailScopes_meets hread s s.appId _).mono ?_)
  rintro s' scopes ⟨rfl, hscopes⟩
  rw [plan_of_reads hresources hassignments hscopes]
  exact applyPlan_meets objectId s' _ hread hok unassigned_of_planned

end Runs

/-! ## Nothing is lost -/

section Safety

variable {env : Surroundings} {s s' : Directory}

/-- An assignment grants one permission. -/
theorem Surroundings.Grants.unique {a : AppRoleAssignment} {r r' v v' : Text} (h : env.Grants a r v)
    (h' : env.Grants a r' v') : r = r' ∧ v = v' := by
  obtain ⟨sp, hsp, hid, hv⟩ := h
  obtain ⟨sp', hsp', hid', hv'⟩ := h'
  obtain rfl : r = r' := env.resolve_injective r r' sp sp' hsp hsp' (hid.symm.trans hid')
  obtain rfl : sp = sp' := Option.some.inj (hsp.symm.trans hsp')
  exact ⟨rfl, Option.some.inj (hv.symm.trans hv')⟩

/-- A permission is granted, and not confined. -/
def Held (env : Surroundings) (s : Directory) (r v : Text) : Prop :=
  (∃ a ∈ s.assignments, env.Grants a r v) ∧ env.confined r v = false

/-- What is known of a planned removal. -/
theorem resolve_of_planned {removal : RedundantRemoval} (h : removal ∈ planned env s) :
    ∃ sp, env.resolve removal.resourceAppId = some sp ∧
      removal.assignmentId = sp.grants s.assignments removal.permissionId ∧
      sp.index removal.permissionId = some removal.value ∧
      (removal.assignmentId.isSome → ∃ b, Audit.Subsumes b removal.value ∧
        Held env s removal.resourceAppId b) := by
  obtain ⟨block, index, hplanned⟩ := mem_plan.1 h
  obtain ⟨sp, hsp, rfl⟩ := Option.map_eq_some_iff.1 hplanned.indexed
  have hgrants : (grantedOn env.resolve s.assignments block.resourceAppId).getD (fun _ => none)
      = sp.grants s.assignments := by
    unfold grantedOn
    rw [hsp]
    rfl
  have hassignment := hplanned.assignment
  have hremovable := hplanned.removable
  rw [hgrants] at hassignment hremovable
  rw [hplanned.resource]
  refine ⟨sp, hsp, hassignment, (mem_declaredRoles.1 hplanned.declared).2, fun hsome => ?_⟩
  obtain ⟨b, hb, id, hid, hgranted⟩ := hremovable.granted (hassignment ▸ hsome)
  obtain ⟨hsubsumes, -, hconfined⟩ := mem_broadersOf.1 hb
  obtain ⟨aid, haid⟩ := Option.isSome_iff_exists.1 hgranted
  obtain ⟨a, ha, hresource, hrole, -⟩ := (grants_eq_some_iff s sp id aid).1 haid
  refine ⟨b, hsubsumes, ⟨a, ha, sp, hsp, hresource, ?_⟩, hconfined⟩
  rw [hrole]
  exact (mem_declaredRoles.1 (mem_of_valueToId hid)).2

/-- A revoked assignment was covered by another that was live. -/
theorem held_above_of_gone (h : Revoked (planned env s) s s') {a : AppRoleAssignment}
    (ha : a ∈ s.assignments) (hgone : a ∉ s'.assignments) :
    ∃ r v, env.Grants a r v ∧ ∃ b, Audit.Subsumes b v ∧ Held env s r b := by
  obtain ⟨removal, hmem, hid⟩ := h.gone a ha hgone
  obtain ⟨sp, hsp, hgrants, hindex, habove⟩ := resolve_of_planned hmem
  obtain ⟨a', ha', hresource, hrole, hid'⟩ :=
    (grants_eq_some_iff s sp removal.permissionId a.id).1 (hgrants ▸ hid)
  obtain rfl : a' = a := s.ids_injective a' ha' a ha hid'
  refine ⟨removal.resourceAppId, removal.value, ⟨sp, hsp, hresource, ?_⟩, habove (by simp [hid])⟩
  rw [hrole]
  exact hindex

theorem revoked_covered (h : Revoked (planned env s) s s') {a : AppRoleAssignment}
    (ha : a ∈ s.assignments) (hgone : a ∉ s'.assignments) :
    ∃ r v, env.Grants a r v ∧ ∃ b, Audit.Subsumes b v ∧ Held env s' r b := by
  obtain ⟨r, v, hgrants, b, hb, hheld⟩ := held_above_of_gone h ha hgone
  -- from a live permission go up while it is revoked itself
  have hup : ∀ v, Held env s r v → Held env s' r v ∨ ∃ b, Audit.Subsumes b v ∧ Held env s r b := by
    rintro v ⟨⟨x, hx, hxgrants⟩, hconfined⟩
    by_cases hkept : x ∈ s'.assignments
    · exact Or.inl ⟨⟨x, hkept, hxgrants⟩, hconfined⟩
    · obtain ⟨r', v', hxgrants', habove⟩ := held_above_of_gone h hx hkept
      obtain ⟨rfl, rfl⟩ := hxgrants.unique hxgrants'
      exact Or.inr habove
  rcases Audit.exists_kept_above hup b hheld with hkept | ⟨b', hb', hkept⟩
  · exact ⟨r, v, hgrants, b, hb, hkept⟩
  · exact ⟨r, v, hgrants, b', hb'.trans hb, hkept⟩

theorem dropped_not_granted (h : Ran (planned env s) s s' finished) {r : Text}
    {d : ResourceAccess} (hd : Declares s.required r d) (hdropped : ¬ Declares s'.required r d) :
    d.type = roleType ∧ ∃ sp, env.resolve r = some sp ∧ ∀ a ∈ s'.assignments,
      ¬ (a.resourceId = sp.id ∧ a.appRoleId = d.id) := by
  obtain ⟨removal, hmem, rfl, rfl, hgone⟩ := h.dropped r d hd hdropped
  obtain ⟨sp, hsp, hgrants, -⟩ := resolve_of_planned hmem
  refine ⟨rfl, sp, hsp, ?_⟩
  rintro a ha ⟨hresource, hrole⟩
  refine hgone a ha ?_
  rw [hgrants, grants_eq_some_iff]
  exact ⟨a, h.revoked.assignments a ha, hresource, hrole, rfl⟩

/-- A grant that is gone was planned to go. -/
theorem planned_of_grant_gone (h : Revoked (planned env s) s s') {r id : Text} {sp : ResourceSp}
    (hsp : env.resolve r = some sp) (hbefore : (sp.grants s.assignments id).isSome)
    (hafter : ¬ (sp.grants s'.assignments id).isSome) : ∃ removal ∈ planned env s,
      removal.resourceAppId = r ∧ removal.permissionId = id ∧ sp.index id = some removal.value := by
  obtain ⟨aid, haid⟩ := Option.isSome_iff_exists.1 hbefore
  obtain ⟨a, ha, haresource, harole, haid'⟩ := (grants_eq_some_iff s sp id aid).1 haid
  have hgone : a ∉ s'.assignments := by
    intro hlive
    refine hafter (Option.isSome_iff_exists.2 ⟨aid, ?_⟩)
    exact (grants_eq_some_iff s' sp id aid).2 ⟨a, hlive, haresource, harole, haid'⟩
  obtain ⟨removal, hmem, hid⟩ := h.gone a ha hgone
  obtain ⟨sp', hsp', hgrants', hindex', -⟩ := resolve_of_planned hmem
  obtain ⟨x, hx, hxresource, hxrole, hxid⟩ :=
    (grants_eq_some_iff s sp' removal.permissionId a.id).1 (hgrants' ▸ hid)
  obtain rfl : x = a := s.ids_injective x hx a ha hxid
  have hres : removal.resourceAppId = r :=
    env.resolve_injective _ _ sp' sp hsp' hsp (hxresource.symm.trans haresource)
  obtain rfl : sp' = sp := Option.some.inj (hsp'.symm.trans (hres ▸ hsp))
  have hperm : removal.permissionId = id := hxrole.symm.trans harole
  exact ⟨removal, hmem, hres, hperm, hperm ▸ hindex'⟩

/-- A later plan holds nothing new. -/
theorem planned_of_planned_after (h : Ran (planned env s) s s' finished)
    (honce : ValuesDeclaredOnce env s) {removal' : RedundantRemoval}
    (hmem' : removal' ∈ planned env s') : ∃ removal ∈ planned env s,
      removal.resourceAppId = removal'.resourceAppId ∧
      removal.permissionId = removal'.permissionId ∧ removal.value = removal'.value := by
  obtain ⟨block', index, hplanned⟩ := mem_plan.1 hmem'
  obtain ⟨block, hblock, hresource, hsub⟩ := h.blocks block' hplanned.block_mem
  obtain ⟨sp, hsp, rfl⟩ := Option.map_eq_some_iff.1 hplanned.indexed
  have hindexed : roleIndexes env.resolve block.resourceAppId = some sp.index := by
    rw [← hresource]
    exact hplanned.indexed
  have hgrants : ∀ t : Directory, (grantedOn env.resolve t.assignments block'.resourceAppId).getD
      (fun _ => none) = sp.grants t.assignments := by
    intro t
    unfold grantedOn
    rw [hsp]
    rfl
  -- the declarations of the block were there before, and a value had the same id
  have hdeclared : ∀ d ∈ declaredRoles sp.index block', d ∈ declaredRoles sp.index block := by
    intro d hd
    rw [mem_declaredRoles] at hd ⊢
    exact ⟨hsub.subset hd.1, hd.2⟩
  have hvalue : ∀ v id, valueToId (declaredRoles sp.index block') v = some id →
      valueToId (declaredRoles sp.index block) v = some id := by
    intro v id hid
    obtain ⟨id', hid'⟩ := exists_valueToId_of_mem (hdeclared _ (mem_of_valueToId hid))
    have heq : id' = id := honce block hblock sp.index hindexed (id', v) (mem_of_valueToId hid')
      (id, v) (hdeclared _ (mem_of_valueToId hid)) rfl
    rw [hid', heq]
  have hbroaders : ∀ v b, b ∈ broadersOf block'.resourceAppId env.confined
      (declaredRoles sp.index block') v → b ∈ broadersOf block.resourceAppId env.confined
        (declaredRoles sp.index block) v := by
    intro v b hb
    rw [mem_broadersOf] at hb ⊢
    obtain ⟨hsubsumes, ⟨id, hid⟩, hconfined⟩ := hb
    exact ⟨hsubsumes, ⟨id, hvalue b id hid⟩, hresource ▸ hconfined⟩
  have hshrink : ∀ id, (sp.grants s'.assignments id).isSome → (sp.grants s.assignments id).isSome := by
    intro id hsome
    obtain ⟨aid, haid⟩ := Option.isSome_iff_exists.1 hsome
    obtain ⟨a, ha, hrest⟩ := (grants_eq_some_iff s' sp id aid).1 haid
    rw [Option.isSome_iff_exists]
    exact ⟨aid, (grants_eq_some_iff s sp id aid).2 ⟨a, h.revoked.assignments a ha, hrest⟩⟩
  have hremovable := hplanned.removable
  rw [hgrants s'] at hremovable
  by_cases hrevoked : (sp.grants s.assignments removal'.permissionId).isSome ∧
      ¬ (sp.grants s'.assignments removal'.permissionId).isSome
  · obtain ⟨removal, hmem, hres, hperm, hindex⟩ :=
      planned_of_grant_gone h.revoked hsp hrevoked.1 hrevoked.2
    rw [(mem_declaredRoles.1 hplanned.declared).2] at hindex
    exact ⟨removal, hmem, hres.trans hplanned.resource.symm, hperm, (Option.some.inj hindex).symm⟩
  · refine ⟨⟨block.resourceAppId, removal'.value, removal'.permissionId,
      sp.grants s.assignments removal'.permissionId⟩,
      mem_plan.2 ⟨block, sp.index, hblock, rfl, hindexed, hdeclared _ hplanned.declared, ?_, ?_⟩,
      hresource.symm.trans hplanned.resource.symm, rfl, rfl⟩
    · rw [← hresource, hgrants s]
    · rw [← hresource, hgrants s]
      constructor
      · obtain ⟨b, hb⟩ := hremovable.covered
        exact ⟨b, hresource ▸ hbroaders _ b hb⟩
      · intro hsome
        have hlive : (sp.grants s'.assignments removal'.permissionId).isSome := by
          by_contra hnone
          exact hrevoked ⟨hsome, hnone⟩
        obtain ⟨b, hb, id, hid, hgranted⟩ := hremovable.granted hlive
        exact ⟨b, hresource ▸ hbroaders _ b hb, id, hvalue b id hid, hshrink id hgranted⟩

theorem planned_nil_of_finished (h : Ran (planned env s) s s' finished)
    (honce : ValuesDeclaredOnce env s) (hfinished : finished) : planned env s' = [] := by
  refine List.eq_nil_iff_forall_not_mem.2 (fun removal' hmem' => ?_)
  obtain ⟨removal, hmem, hresource, hperm, -⟩ := planned_of_planned_after h honce hmem'
  obtain ⟨block', index, hplanned⟩ := mem_plan.1 hmem'
  refine h.done hfinished removal hmem ⟨block', hplanned.block_mem, ?_, ?_⟩
  · rw [hresource, hplanned.resource]
  · rw [hperm]
    exact (mem_declaredRoles.1 hplanned.declared).1

end Safety

/-- However its writes fare, a run leaves every permission it revoked covered by one that is granted
    and not confined, and drops no declaration whose grant is live. What a later run plans was planned
    before, and after a run that succeeded there is nothing left to plan or to write. -/
theorem redundant_fix_loses_no_access (env : Surroundings) (objectId : Text) (s s' : Directory)
    (r : Except GraphError RedundantPermissionsOutcome)
    (hrun : Prog.Exec (world env) s (removeRedundantPermissionsCore objectId).run s' r) :
    (∀ a ∈ s.assignments, a ∉ s'.assignments → ∃ res v, env.Grants a res v ∧
      ∃ b ∈ s'.assignments, ∃ v' ∈ Audit.subsumingAppPermissions v,
        env.Grants b res v' ∧ env.confined res v' = false) ∧
    (∀ res d, Declares s.required res d → ¬ Declares s'.required res d →
      d.type = roleType ∧ ∃ sp, env.resolve res = some sp ∧ ∀ a ∈ s'.assignments,
        ¬ (a.resourceId = sp.id ∧ a.appRoleId = d.id)) ∧
    (ValuesDeclaredOnce env s →
      (∀ removal' ∈ planned env s', ∃ removal ∈ planned env s,
        removal.resourceAppId = removal'.resourceAppId ∧
        removal.permissionId = removal'.permissionId ∧ removal.value = removal'.value) ∧
      ((∃ outcome, r = .ok outcome) → planned env s' = [] ∧ ∀ objectId' t c,
        Prog.Asks (world env) s' (removeRedundantPermissionsCore objectId').run t c →
          c.writes = false)) := by
  have hmeets : Prog.Meets (world env) (fun _ _ => True)
      (fun t r => Ran (planned env s) s t (∃ outcome, r = .ok outcome)) s
      (removeRedundantPermissionsCore objectId).run :=
    core_meets objectId s (fun _ _ _ => trivial) (fun _ _ _ => trivial)
  have hran := hmeets.sound hrun
  refine ⟨?_, ?_, fun honce => ⟨?_, fun hdone => ?_⟩⟩
  · intro a ha hgone
    obtain ⟨res, v, hgrants, v', hv', ⟨b, hb, hbgrants⟩, hconfined⟩ :=
      revoked_covered hran.revoked ha hgone
    exact ⟨res, v, hgrants, b, hb, v', hv', hbgrants, hconfined⟩
  · intro res d hd hdropped
    exact dropped_not_granted hran hd hdropped
  · intro removal' hmem'
    exact planned_of_planned_after hran honce hmem'
  · have hnil := planned_nil_of_finished hran honce hdone
    refine ⟨hnil, fun objectId' t c hasks => ?_⟩
    have hquiet : Prog.Meets (world env) (fun _ c => c.writes = false)
        (fun t r => Ran (planned env s') s' t (∃ outcome, r = .ok outcome)) s'
        (removeRedundantPermissionsCore objectId').run :=
      core_meets objectId' s' (fun _ _ h => h) (fun _ _ h => absurd hnil h)
    exact hquiet.asked hasks

/-! ## Runs of it -/

/-- A directory that answers, and refuses the revocations `broken` picks. -/
def serve (env : Surroundings) (broken : Text → Bool) (s : Directory) :
    (c : Call) → Option (c.Answer × Directory)
  | .getApplication _ => some (.ok ⟨s.appId, s.required⟩, s)
  | .resolveResourceSp id => some (.ok (env.resolve id), s)
  | .getServicePrincipalByAppId _ => some (.ok s.servicePrincipal, s)
  | .listAppRoleAssignments _ => some (.ok s.assignments, s)
  | .resolveMailScopes _ permissions =>
    some (some (permissions.filterMap
      (fun p => (env.mailScopes p.value).map (fun scope => (p.value, scope)))), s)
  | .removeAppRoleAssignment _ id =>
    if broken id then some (.error (.server 503 []), s) else some (.ok (), s.revoke id)
  | .updateApplication _ next => some (.ok (), s.patch next)
  | .invalidateAppDetailState => some ((), s)

/-- The verdicts are those of the permissions asked about. -/
theorem lookup_verdicts (scopes : Text → Option MailPermissionScope)
    (permissions : List ScopableMailPermission) {p : ScopableMailPermission} (hp : p ∈ permissions) :
    (permissions.filterMap (fun p => (scopes p.value).map (fun scope => (p.value, scope)))).lookup
      p.value = scopes p.value := by
  induction permissions with
  | nil => exact absurd hp (by simp)
  | cons q rest ih =>
    by_cases heq : p.value = q.value
    · cases hscope : scopes q.value with
      | some scope => simp [heq, hscope]
      | none =>
        rw [heq, hscope, List.lookup_eq_none_iff]
        intro entry hentry
        obtain ⟨x, -, hx⟩ := List.mem_filterMap.1 hentry
        obtain ⟨scope, hsome, rfl⟩ := Option.map_eq_some_iff.1 hx
        by_contra hne
        rw [← show q.value = x.value by simpa using hne, hscope] at hsome
        exact absurd hsome (by simp)
    · have hmem : p ∈ rest := by
        rcases List.mem_cons.1 hp with rfl | hmem
        · exact absurd rfl heq
        · exact hmem
      rw [List.filterMap_cons]
      cases scopes q.value with
      | none => exact ih hmem
      | some scope =>
        dsimp only [Option.map_some]
        rw [List.lookup_cons, beq_false_of_ne heq]
        exact ih hmem

theorem world_of_serve (env : Surroundings) (broken : Text → Bool) (s : Directory) (c : Call)
    (answer : c.Answer) (s' : Directory) (h : serve env broken s c = some (answer, s')) :
    world env s c answer s' := by
  cases c with
  | resolveMailScopes appId permissions =>
    obtain ⟨rfl, rfl⟩ := Prod.mk.inj (Option.some.inj h)
    exact ⟨rfl, fun p hp => lookup_verdicts env.mailScopes permissions hp⟩
  | removeAppRoleAssignment sp id =>
    simp only [serve] at h
    split at h
    · obtain ⟨rfl, rfl⟩ := Prod.mk.inj (Option.some.inj h)
      exact Or.inr ⟨rfl, _, rfl⟩
    · obtain ⟨rfl, rfl⟩ := Prod.mk.inj (Option.some.inj h)
      exact Or.inl rfl
  | updateApplication objectId next =>
    obtain ⟨rfl, rfl⟩ := Prod.mk.inj (Option.some.inj h)
    exact Or.inl rfl
  | invalidateAppDetailState =>
    obtain ⟨-, rfl⟩ := Prod.mk.inj (Option.some.inj h)
    exact rfl
  | getApplication objectId =>
    obtain ⟨rfl, rfl⟩ := Prod.mk.inj (Option.some.inj h)
    exact ⟨rfl, fun app happ => (Except.ok.inj happ).symm⟩
  | resolveResourceSp id =>
    obtain ⟨rfl, rfl⟩ := Prod.mk.inj (Option.some.inj h)
    exact ⟨rfl, rfl⟩
  | getServicePrincipalByAppId appId =>
    obtain ⟨rfl, rfl⟩ := Prod.mk.inj (Option.some.inj h)
    exact ⟨rfl, fun sp hsp => (Except.ok.inj hsp).symm⟩
  | listAppRoleAssignments sp =>
    obtain ⟨rfl, rfl⟩ := Prod.mk.inj (Option.some.inj h)
    exact ⟨rfl, fun l hl => (Except.ok.inj hl).symm⟩

/-- Microsoft Graph exposes three mail roles, one of them under two ids, and none is confined. -/
def mailSurroundings : Surroundings where
  resolve := fun r =>
    if r = Exchange.microsoftGraphAppId then
      some ⟨"graph-sp".toList, [⟨"basic".toList, "Mail.ReadBasic".toList⟩,
        ⟨"read".toList, "Mail.Read".toList⟩, ⟨"read-again".toList, "Mail.Read".toList⟩,
        ⟨"write".toList, "Mail.ReadWrite".toList⟩]⟩
    else none
  mailScopes := fun _ => some .orgWide
  resolve_injective := by
    intro r r' sp sp' h h' _
    split at h
    · next hr =>
      split at h'
      · next hr' => rw [hr, hr']
      · exact absurd h' (by simp)
    · exact absurd h (by simp)

/-- One block that declares the roles. -/
def mailManifest (roles : List String) : List RequiredResourceAccess :=
  [⟨Exchange.microsoftGraphAppId, roles.map (fun id => ⟨id.toList, roleType⟩)⟩]

/-- An app that declares and holds `Mail.ReadBasic`, `Mail.Read` and `Mail.ReadWrite`. -/
def mailApp : Directory where
  appId := "app".toList
  required := mailManifest ["basic", "read", "write"]
  servicePrincipal := some "sp".toList
  assignments := [⟨"a-basic".toList, "basic".toList, "graph-sp".toList⟩,
    ⟨"a-read".toList, "read".toList, "graph-sp".toList⟩,
    ⟨"a-write".toList, "write".toList, "graph-sp".toList⟩]
  ids_injective := by decide
  roles_injective := by decide
  unassigned := by simp

/-- An app that declares `Mail.Read` under two ids, of which one is granted. -/
def twiceDeclaredApp : Directory where
  appId := "app".toList
  required := mailManifest ["basic", "read", "read-again", "write"]
  servicePrincipal := some "sp".toList
  assignments := [⟨"a-basic".toList, "basic".toList, "graph-sp".toList⟩,
    ⟨"a-read".toList, "read".toList, "graph-sp".toList⟩]
  ids_injective := by decide
  roles_injective := by decide
  unassigned := by simp

/-- The result of a run, and what is assigned and planned after it. -/
def outcomeOf (env : Surroundings) (broken : Text → Bool) (s : Directory) :
    Option (Option RedundantPermissionsOutcome × List Text × List Text) :=
  (Prog.run (serve env broken) (removeRedundantPermissionsCore "app".toList).run s).map (fun r =>
    (r.1.toOption, r.2.assignments.map (·.id), (planned env r.2).map (·.value)))

/-- Both narrower permissions go in one run, and `Mail.ReadWrite` covers them. -/
theorem mail_fix_loses_no_access : ∃ s' r,
    Prog.Exec (world mailSurroundings) mailApp (removeRedundantPermissionsCore "app".toList).run s' r ∧
    s'.assignments.map (·.id) = ["a-write".toList] ∧ planned mailSurroundings s' = [] ∧
    ∃ a ∈ mailApp.assignments, a ∉ s'.assignments ∧ ∃ res v, mailSurroundings.Grants a res v ∧
      ∃ b ∈ s'.assignments, ∃ v' ∈ Audit.subsumingAppPermissions v,
        mailSurroundings.Grants b res v' ∧ mailSurroundings.confined res v' = false := by
  have hview : outcomeOf mailSurroundings (fun _ => false) mailApp
      = some (some ⟨["Mail.ReadBasic".toList, "Mail.Read".toList], []⟩, ["a-write".toList], []) := by
    decide
  obtain ⟨r, s', hrun, heq⟩ :=
    Prog.exists_exec_of_run (world_of_serve mailSurroundings (fun _ => false)) hview
  have hids : s'.assignments.map (·.id) = ["a-write".toList] := congrArg (·.2.1) heq
  have hokay : ∃ outcome, r = .ok outcome := by
    cases r with
    | ok outcome => exact ⟨outcome, rfl⟩
    | error e => exact absurd (congrArg (·.1) heq) (by simp [Except.toOption])
  have honce : ValuesDeclaredOnce mailSurroundings mailApp := by
    intro block hblock index hindex
    obtain rfl : block = _ := List.mem_singleton.1 hblock
    obtain rfl := Option.some.inj hindex
    decide
  obtain ⟨hcovered, -, hplan⟩ :=
    redundant_fix_loses_no_access mailSurroundings "app".toList mailApp s' r hrun
  have hgone : (⟨"a-read".toList, "read".toList, "graph-sp".toList⟩ : AppRoleAssignment)
      ∉ s'.assignments := by
    intro hmem
    have hid := List.mem_map_of_mem (f := (·.id)) hmem
    rw [hids] at hid
    exact absurd hid (by decide)
  exact ⟨s', r, hrun, hids, ((hplan honce).2 hokay).1, _, by simp [mailApp], hgone,
    hcovered _ (by simp [mailApp]) hgone⟩

/-- A revocation that fails is planned again, and a permission kept because its cover was looked up
    under an ungranted id of the same value is removed by the next run. -/
theorem second_run_plans_again :
    (∃ s' r, Prog.Exec (world mailSurroundings) mailApp
      (removeRedundantPermissionsCore "app".toList).run s' r ∧ planned mailSurroundings s' ≠ []) ∧
    (∃ s' r, Prog.Exec (world mailSurroundings) twiceDeclaredApp
      (removeRedundantPermissionsCore "app".toList).run s' (.ok r) ∧
        planned mailSurroundings s' ≠ []) := by
  constructor
  · have hview : outcomeOf mailSurroundings (fun _ => true) mailApp
        = some (none, ["a-basic".toList, "a-read".toList, "a-write".toList],
            ["Mail.ReadBasic".toList, "Mail.Read".toList]) := by
      decide
    obtain ⟨r, s', hrun, heq⟩ :=
      Prog.exists_exec_of_run (world_of_serve mailSurroundings (fun _ => true)) hview
    refine ⟨s', r, hrun, fun hnil => ?_⟩
    rw [hnil] at heq
    exact absurd (congrArg (·.2.2) heq) (by simp)
  · have hview : outcomeOf mailSurroundings (fun _ => false) twiceDeclaredApp
        = some (some ⟨["Mail.Read".toList], ["Mail.ReadBasic".toList, "Mail.Read".toList]⟩,
            ["a-basic".toList, "a-read".toList], ["Mail.ReadBasic".toList]) := by
      decide
    obtain ⟨r, s', hrun, heq⟩ :=
      Prog.exists_exec_of_run (world_of_serve mailSurroundings (fun _ => false)) hview
    cases r with
    | ok outcome =>
      refine ⟨s', outcome, hrun, fun hnil => ?_⟩
      rw [hnil] at heq
      exact absurd (congrArg (·.2.2) heq) (by simp)
    | error e => exact absurd (congrArg (·.1) heq) (by simp [Except.toOption])

end Remediation
