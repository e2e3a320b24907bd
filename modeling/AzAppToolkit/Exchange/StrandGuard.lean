import AzAppToolkit.Exchange.Grants

set_option autoImplicit false

/-! # The strand guard

Over any answers Exchange and Graph may give: a grant is submitted for removal only when the role that
replaces it is in place on the scope. The loop that assigns keeps an invariant between the targets it
went through and the calls that were answered: a target counts as in place exactly when the snapshot
has its role on the scope, or a request for that role succeeded. -/

namespace Exchange

open Prog

variable (appId scopeName spId : Text) (targets : List ExchangeTarget)

/-! ## What the guard says -/

/-- The snapshot has the role on the scope, names compared without regard to case. -/
def InSnapshot (existing : List ExoRoleAssignment) (role : Text) : Prop :=
  ∃ a ∈ existing, a.isOnScope scopeName = true ∧
    ∃ r, a.role = some r ∧ r.eqIgnoreAsciiCase role = true

/-- A request for the role on the scope was answered with success. -/
def Landed (trace : Trace) (role : Text) : Prop :=
  ∃ made, (⟨.newRoleAssignment appId role (some scopeName), .ok made⟩ : Exchanged Answer) ∈ trace

/-- The role is assigned to the application on the scope, as far as the run was told. -/
def RoleOnScope (trace : Trace) (role : Text) : Prop :=
  (∃ existing, (⟨.getRoleAssignments appId, .ok existing⟩ : Exchanged Answer) ∈ trace ∧
    InSnapshot scopeName existing role) ∨ Landed appId scopeName trace role

/-- The role was asked for, on whatever scope. -/
def Requested (trace : Trace) (role : Text) : Prop :=
  ∃ app s answer, (⟨.newRoleAssignment app role s, answer⟩ : Exchanged Answer) ∈ trace

/-- What a call must meet, given the calls before it. -/
def Guarded (trace : Trace) : Call → Prop
  | .removeAppRoleAssignment sp id => sp = spId ∧ ∃ assignments,
      (⟨.listAppRoleAssignments spId, .ok assignments⟩ : Exchanged Answer) ∈ trace ∧
      ∃ a ∈ assignments, a.id = id ∧ ∃ t ∈ targets, grantsTarget a t = true ∧
        RoleOnScope appId scopeName trace t.exchangeRole
  | .newRoleAssignment app role s => app = appId ∧ s = some scopeName ∧
      (∃ t ∈ targets, t.exchangeRole = role) ∧ ¬ RoleOnScope appId scopeName trace role ∧
      ¬ Requested trace role
  | .outOfBounds => False
  | _ => True

variable {appId scopeName spId targets}

/-! ## One round of the assigning loop -/

theorem roleInPlace_iff {existing : List ExoRoleAssignment} {role : Text} :
    roleInPlace (rolesAlreadyScoped existing scopeName) role = true ↔
      InSnapshot scopeName existing role := by
  unfold roleInPlace rolesAlreadyScoped InSnapshot
  simp only [List.any_eq_true, List.mem_filterMap, List.mem_filter]
  constructor
  · rintro ⟨r, ⟨a, ⟨ha, hscope⟩, hrole⟩, heq⟩
    exact ⟨a, ha, hscope, r, hrole, heq⟩
  · rintro ⟨a, ha, hscope, r, hrole, heq⟩
    exact ⟨r, ⟨a, ⟨ha, hscope⟩, hrole⟩, heq⟩

/-- The state of the loop after the targets in `before`. -/
structure Assigned (appId scopeName : Text) (existing : List ExoRoleAssignment)
    (before : List (ExchangeTarget × RoleStep)) (trace : Trace) (roles : ScopedRoles) : Prop where
  /-- The snapshot is the only one there is. -/
  snapshot : ∀ existing', (⟨.getRoleAssignments appId, .ok existing'⟩ : Exchanged Answer) ∈ trace ↔
    existing' = existing
  /-- What was asked for is the role of a target already gone through. -/
  asked : ∀ role, Requested trace role → ∃ p ∈ before, p.1.exchangeRole = role
  targets : roles.outcomes.map Prod.fst = before.map Prod.fst
  outcome : ∀ p ∈ roles.outcomes,
    p.2 = true ↔ InSnapshot scopeName existing p.1.exchangeRole ∨
      Landed appId scopeName trace p.1.exchangeRole

section Round

variable {existing : List ExoRoleAssignment} {before : List (ExchangeTarget × RoleStep)}
    {trace : Trace} {roles : ScopedRoles}

/-- A step of the trace is about its own call only. -/
theorem mem_append_of_ne {c c' : Call} {r : Answer c} {r' : Answer c'} (h : c' ≠ c) :
    (⟨c', r'⟩ : Exchanged Answer) ∈ trace ++ [⟨c, r⟩] ↔ (⟨c', r'⟩ : Exchanged Answer) ∈ trace := by
  rw [List.mem_append, List.mem_singleton]
  constructor
  · rintro (he | he)
    · exact he
    · exact absurd (congrArg Sigma.fst he) h
  · exact Or.inl

theorem Landed.append_of_ne {c : Call} {r : Answer c} {role : Text}
    (h : .newRoleAssignment appId role (some scopeName) ≠ c) :
    Landed appId scopeName (trace ++ [⟨c, r⟩]) role ↔ Landed appId scopeName trace role := by
  unfold Landed
  constructor
  · rintro ⟨made, hmem⟩
    exact ⟨made, (mem_append_of_ne h).1 hmem⟩
  · rintro ⟨made, hmem⟩
    exact ⟨made, (mem_append_of_ne h).2 hmem⟩

/-- Nothing the invariant reads is in the new step. -/
theorem Assigned.quiet {c : Call} {r : Answer c} (h : Assigned appId scopeName existing before trace roles)
    (hread : ∀ app, c ≠ .getRoleAssignments app) (hrole : ∀ app role s, c ≠ .newRoleAssignment app role s) :
    Assigned appId scopeName existing before (trace ++ [⟨c, r⟩]) roles := by
  refine ⟨fun existing' => ?_, fun role hasked => ?_, h.targets, fun p hp => ?_⟩
  · rw [mem_append_of_ne (hread appId).symm]
    exact h.snapshot existing'
  · obtain ⟨app, s, answer, hmem⟩ := hasked
    rw [mem_append_of_ne (hrole app role s).symm] at hmem
    exact h.asked role ⟨app, s, answer, hmem⟩
  · rw [Landed.append_of_ne (hrole appId p.1.exchangeRole (some scopeName)).symm]
    exact h.outcome p hp

/-- One more target, whose outcome the step settles. -/
theorem Assigned.push {t : ExchangeTarget} {step : RoleStep} {b : Bool} {roles' : ScopedRoles}
    (h : Assigned appId scopeName existing before trace roles)
    (hroles : roles'.outcomes = roles.outcomes ++ [(t, b)])
    (hb : b = true ↔ InSnapshot scopeName existing t.exchangeRole ∨
      Landed appId scopeName trace t.exchangeRole) :
    Assigned appId scopeName existing (before ++ [(t, step)]) trace roles' := by
  refine ⟨h.snapshot, fun role hasked => ?_, ?_, fun p hp => ?_⟩
  · obtain ⟨p, hp, hrole⟩ := h.asked role hasked
    exact ⟨p, List.mem_append_left _ hp, hrole⟩
  · rw [hroles]
    simp [h.targets]
  · rw [hroles, List.mem_append, List.mem_singleton] at hp
    rcases hp with hp | rfl
    · exact h.outcome p hp
    · exact hb

theorem meets_assignRole {after : List (ExchangeTarget × RoleStep)} {t : ExchangeTarget} {step : RoleStep}
    (hplan : targets.zip (planRoleAssignments existing scopeName targets)
      = before ++ (t, step) :: after) (h : Assigned appId scopeName existing before trace roles) :
    Meets history (Guarded appId scopeName spId targets)
      (Assigned appId scopeName existing (before ++ [(t, step)])) trace
      (assignRole appId scopeName roles (t, step)) := by
  obtain ⟨htargets, hstep⟩ := zip_plan_split hplan
  have hlen : roles.outcomes.length = before.length := by
    rw [← List.length_map Prod.fst, h.targets, List.length_map]
  unfold assignRole
  cases step with
  | alreadyScoped =>
    refine Meets.pure (h.push rfl ?_)
    have hplace : roleInPlace (rolesAlreadyScoped existing scopeName) t.exchangeRole = true := by
      unfold roleStep at hstep
      split at hstep
      · next hplace => exact hplace
      · split at hstep
        · exact absurd hstep (by simp)
        · exact absurd hstep (by simp)
    exact ⟨fun _ => Or.inl (roleInPlace_iff.1 hplace), fun _ => rfl⟩
  | sameRoleAs m =>
    obtain ⟨hlt, first, hfirst, hrole, -⟩ := planRoleAssignments_mirrors htargets hstep.symm
    rw [List.length_map] at hlt
    have hm : m < roles.outcomes.length := by omega
    have hfst : (roles.outcomes[m]).1 = first := by
      have hat : (roles.outcomes.map Prod.fst)[m]? = some first := by
        rw [h.targets, ← hfirst, htargets, List.getElem?_append_left (by simpa using hlt)]
      rw [List.getElem?_map, List.getElem?_eq_getElem hm] at hat
      simpa using hat
    have hout := h.outcome _ (List.getElem_mem hm)
    rw [hfst, hrole] at hout
    have hindex : index roles.outcomes m = pure roles.outcomes[m] := by
      unfold index
      rw [List.getElem?_eq_getElem hm]
    show Meets history _ _ trace (index roles.outcomes m >>= _)
    rw [hindex]
    exact Meets.bind (Meets.pure (Meets.pure (h.push rfl hout)))
  | assign =>
    have hnew : roleInPlace (rolesAlreadyScoped existing scopeName) t.exchangeRole = false ∧
        ∀ p ∈ before, p.1.exchangeRole ≠ t.exchangeRole := by
      unfold roleStep at hstep
      split at hstep
      · exact absurd hstep (by simp)
      · next hplace =>
        split at hstep
        · exact absurd hstep (by simp)
        · next hnone =>
          refine ⟨by simpa using hplace, fun p hp heq => ?_⟩
          have hnot := List.findIdx?_eq_none_iff.1 hnone p.1 (List.mem_map.2 ⟨p, hp, rfl⟩)
          simp [heq] at hnot
    have hnotIn : ¬ InSnapshot scopeName existing t.exchangeRole := by
      rw [← roleInPlace_iff, hnew.1]
      simp
    have hnotAsked : ¬ Requested trace t.exchangeRole := by
      intro hasked
      obtain ⟨p, hp, heq⟩ := h.asked _ hasked
      exact hnew.2 p hp heq
    have hnotLanded : ¬ Landed appId scopeName trace t.exchangeRole := by
      rintro ⟨made, hmem⟩
      exact hnotAsked ⟨_, _, _, hmem⟩
    have hok : Guarded appId scopeName spId targets trace
        (.newRoleAssignment appId t.exchangeRole (some scopeName)) := by
      refine ⟨rfl, rfl, ⟨t, by rw [htargets]; simp, rfl⟩, ?_, hnotAsked⟩
      rintro (⟨existing', hread, hin⟩ | hlanded)
      · rw [(h.snapshot existing').1 hread] at hin
        exact hnotIn hin
      · exact hnotLanded hlanded
    have hasked : ∀ p ∈ before, Call.newRoleAssignment appId p.1.exchangeRole (some scopeName)
        ≠ .newRoleAssignment appId t.exchangeRole (some scopeName) := by
      intro p hp heq
      exact hnew.2 p hp (by simpa using heq)
    -- the answer settles this target, and touches no target gone through
    have hgrown : ∀ (r : Answer (.newRoleAssignment appId t.exchangeRole (some scopeName)))
        (b : Bool) (roles' : ScopedRoles), (b = true ↔ ∃ made, r = .ok made) →
        roles'.outcomes = roles.outcomes ++ [(t, b)] →
        Assigned appId scopeName existing (before ++ [(t, .assign)])
          (trace ++ [⟨.newRoleAssignment appId t.exchangeRole (some scopeName), r⟩]) roles' := by
      intro r b roles' hb hroles
      refine ⟨fun existing' => ?_, fun role hreq => ?_, by rw [hroles]; simp [h.targets],
        fun p hp => ?_⟩
      · rw [mem_append_of_ne (by simp)]
        exact h.snapshot existing'
      · obtain ⟨app, s, answer, hmem⟩ := hreq
        rw [List.mem_append, List.mem_singleton] at hmem
        rcases hmem with hmem | hmem
        · obtain ⟨p, hp, hrole⟩ := h.asked role ⟨app, s, answer, hmem⟩
          exact ⟨p, List.mem_append_left _ hp, hrole⟩
        · have hcall := congrArg Sigma.fst hmem
          simp only [Call.newRoleAssignment.injEq] at hcall
          exact ⟨(t, .assign), by simp, hcall.2.1.symm⟩
      · rw [hroles, List.mem_append, List.mem_singleton] at hp
        rcases hp with hp | rfl
        · obtain ⟨q, hq, hfst⟩ := List.mem_map.1
            (h.targets ▸ List.mem_map.2 ⟨p, hp, rfl⟩ : p.1 ∈ before.map Prod.fst)
          rw [Landed.append_of_ne (hfst ▸ hasked q hq)]
          exact h.outcome p hp
        · rw [hb]
          constructor
          · rintro ⟨made, rfl⟩
            exact Or.inr ⟨made, by simp⟩
          · rintro (hin | ⟨made, hmem⟩)
            · exact absurd hin hnotIn
            · rw [List.mem_append, List.mem_singleton] at hmem
              rcases hmem with hmem | hmem
              · exact absurd ⟨made, hmem⟩ hnotLanded
              · cases hmem
                exact ⟨made, rfl⟩
    refine Meets.bind (Meets.remember hok (fun r => ?_))
    cases r with
    | ok made => exact Meets.pure (hgrown (.ok made) true _ (by simp) rfl)
    | error err =>
      refine Meets.bind (Meets.remember trivial (fun _ => Meets.pure ?_))
      exact (hgrown (.error err) false _ (by simp) rfl).quiet (by simp) (by simp)

end Round

/-! ## Whole runs -/

theorem meets_warn {ok : Trace → Call → Prop} {post : Trace → Unit → Prop} {trace : Trace}
    {line : Warning} (hok : ok trace (.warn line)) (h : post (trace ++ [⟨.warn line, ()⟩]) ()) :
    Meets history ok post trace (warn line) :=
  Meets.remember hok (fun _ => h)

/-- Warnings leave what the statements read as it is. -/
theorem meets_warnAll {ok : Trace → Call → Prop} {P : Trace → Prop} {trace : Trace}
    {lines : List Warning} (hok : ∀ s line, ok s (.warn line))
    (hkeep : ∀ s line, P s → P (s ++ [⟨.warn line, ()⟩])) (h : P trace) :
    Meets history ok (fun s _ => P s) trace (warnAll lines) := by
  refine Meets.foldlM (fun _ s _ => P s) (fun _ line _ s _ _ hs => ?_) h
  exact Meets.remember (hok s line) (fun _ => hkeep s line hs)

/-- Behind a trace with nothing yet of what the loop reads. -/
theorem meets_assignScopedRoles {trace : Trace}
    (hunread : ∀ r, (⟨.getRoleAssignments appId, r⟩ : Exchanged Answer) ∉ trace)
    (hunasked : ∀ role, ¬ Requested trace role) :
    Meets history (Guarded appId scopeName spId targets)
      (OnResult (fun trace roles => ∃ existing, Assigned appId scopeName existing
        (targets.zip (planRoleAssignments existing scopeName targets)) trace roles)
        (fun _ _ => True)) trace (assignScopedRoles appId scopeName targets).run := by
  unfold assignScopedRoles
  have hread : Meets history (Guarded appId scopeName spId targets) (OnResult (fun s existing =>
    Assigned appId scopeName existing [] s ⟨[], [], []⟩) (fun _ _ => True)) trace
    (call (.getRoleAssignments appId)) := by
    refine Meets.remember trivial (fun r => ?_)
    cases r with
    | error err => trivial
    | ok existing =>
      refine ⟨fun existing' => ?_, fun role hasked => ?_, rfl, by simp⟩
      · rw [List.mem_append, or_iff_right (hunread _), List.mem_singleton]
        simp
      · obtain ⟨app, s, answer, hmem⟩ := hasked
        rw [mem_append_of_ne (by simp)] at hmem
        exact absurd ⟨app, s, answer, hmem⟩ (hunasked role)
  refine meets_orUiError hread (fun _ _ _ => trivial) (fun s existing hstart => ?_)
  have hwarned : Meets history (Guarded appId scopeName spId targets)
      (fun s _ => Assigned appId scopeName existing [] s ⟨[], [], []⟩) s
      (warnAll (orgwideAssignmentWarnings existing targets)) :=
    meets_warnAll (fun _ _ => trivial) (fun s line hs => hs.quiet (by simp) (by simp)) hstart
  refine Meets.liftBind (hwarned.mono (fun s _ hs => ?_))
  have hloop : Meets history (Guarded appId scopeName spId targets)
      (Assigned appId scopeName existing
        (targets.zip (planRoleAssignments existing scopeName targets))) s
      (assignPlanned appId scopeName
        (targets.zip (planRoleAssignments existing scopeName targets))) :=
    Meets.foldlM (Assigned appId scopeName existing)
      (fun before item after s b hplan hb => meets_assignRole hplan hb) hs
  exact Meets.lift (hloop.mono (fun s roles hroles => ⟨existing, hroles⟩))

theorem RoleOnScope.mono {trace trace' : Trace} {role : Text} (h : trace ⊆ trace')
    (hrole : RoleOnScope appId scopeName trace role) : RoleOnScope appId scopeName trace' role := by
  rcases hrole with ⟨existing, hread, hin⟩ | ⟨made, hmem⟩
  · exact Or.inl ⟨existing, h hread, hin⟩
  · exact Or.inr ⟨made, h hmem⟩

theorem mem_targetsSafeToStrip {outcomes : List (ExchangeTarget × Bool)} {t : ExchangeTarget} :
    t ∈ targetsSafeToStrip outcomes ↔ (t, true) ∈ outcomes := by
  unfold targetsSafeToStrip
  rw [List.mem_filterMap]
  constructor
  · rintro ⟨⟨t', b⟩, hp, hsome⟩
    cases b with
    | false => exact absurd hsome (by simp)
    | true =>
      obtain rfl : t' = t := by simpa using hsome
      exact hp
  · exact fun h => ⟨(t, true), h, by simp⟩

theorem meets_removeUnscopedGrants {outcomes : List (ExchangeTarget × Bool)} {trace : Trace}
    (h : ∀ t, (t, true) ∈ outcomes →
      t ∈ targets ∧ RoleOnScope appId scopeName trace t.exchangeRole) :
    Meets history (Guarded appId scopeName spId targets) (fun s _ => trace ⊆ s) trace
      (removeUnscopedGrants spId outcomes) := by
  unfold removeUnscopedGrants
  refine Meets.bind (Meets.remember trivial (fun r => ?_))
  cases r with
  | error err =>
    refine Meets.bind (Meets.remember trivial (fun _ => Meets.pure ?_))
    rw [List.append_assoc]
    exact List.subset_append_left _ _
  | ok assignments =>
    refine Meets.bind (Meets.mono ?_ (fun s removed (hs : trace ⊆ s ∧
      (⟨.listAppRoleAssignments spId, .ok assignments⟩ : Exchanged Answer) ∈ s) =>
        Meets.pure hs.1))
    refine Meets.foldlM (fun _ s _ => trace ⊆ s ∧
      (⟨.listAppRoleAssignments spId, .ok assignments⟩ : Exchanged Answer) ∈ s) ?_
      ⟨List.subset_append_left _ _, by simp⟩
    intro before a after s removed hsplit hs
    have ha : a ∈ assignments := by
      rw [hsplit]
      simp
    have hgrow : ∀ e, trace ⊆ s ++ [e] ∧
        (⟨.listAppRoleAssignments spId, .ok assignments⟩ : Exchanged Answer) ∈ s ++ [e] :=
      fun e => ⟨List.Subset.trans hs.1 (List.subset_append_left _ _),
        List.mem_append_left _ hs.2⟩
    cases hselect : unscopedGrantValue (targetsSafeToStrip outcomes) a with
    | none => exact Meets.pure hs
    | some value =>
      obtain ⟨t, hfind, -⟩ := Option.map_eq_some_iff.1 hselect
      have hsafe := mem_targetsSafeToStrip.1 (List.mem_of_find?_eq_some hfind)
      have hgrants : grantsTarget a t = true := List.find?_some hfind
      refine Meets.bind (Meets.remember ⟨rfl, assignments, hs.2, a, ha, rfl, t, (h t hsafe).1,
        hgrants, (h t hsafe).2.mono hs.1⟩ (fun r => ?_))
      cases r with
      | ok _ => exact Meets.pure (hgrow _)
      | error err =>
        refine Meets.bind (Meets.remember trivial (fun _ => Meets.pure ?_))
        rw [List.append_assoc]
        exact ⟨List.Subset.trans hs.1 (List.subset_append_left _ _),
          List.mem_append_left _ hs.2⟩

theorem meets_assignThenStrip :
    Meets history (Guarded appId scopeName spId targets)
      (OnResult (fun _ result => result.1.outcomes.map Prod.fst = targets ∧
        ∀ p ∈ result.1.outcomes, ∀ q ∈ result.1.outcomes,
          p.1.exchangeRole = q.1.exchangeRole → p.2 = q.2) (fun _ _ => True)) []
      (assignThenStrip appId scopeName spId targets).run := by
  unfold assignThenStrip
  have hnothing : ∀ role, ¬ Requested [] role := by
    rintro role ⟨app, s, answer, hmem⟩
    exact absurd hmem (by simp)
  refine Meets.tryThen (meets_assignScopedRoles (by simp) hnothing) (fun _ _ _ => trivial)
    (fun trace roles hr => ?_)
  obtain ⟨existing, hroles⟩ := hr
  have htargets : roles.outcomes.map Prod.fst = targets := by
    rw [hroles.targets, List.map_fst_zip (Nat.le_of_eq (length_planRoleAssignments _ _ _).symm)]
  have hsafe : ∀ t, (t, true) ∈ roles.outcomes →
      t ∈ targets ∧ RoleOnScope appId scopeName trace t.exchangeRole := by
    intro t ht
    refine ⟨htargets ▸ List.mem_map.2 ⟨(t, true), ht, rfl⟩, ?_⟩
    rcases (hroles.outcome _ ht).1 rfl with hin | hlanded
    · exact Or.inl ⟨existing, (hroles.snapshot existing).2 rfl, hin⟩
    · exact Or.inr hlanded
  refine Meets.liftBind ((meets_removeUnscopedGrants hsafe).mono (fun s strip _ => ?_))
  refine Meets.pure ⟨htargets, fun p hp q hq hrole => ?_⟩
  rw [Bool.eq_iff_iff, hroles.outcome p hp, hroles.outcome q hq, hrole]

/-- Whatever the services answer, every call of the two steps is `Guarded`: a grant is submitted for
    removal only when it matches a target whose role is on the scope, a role is asked for at most once
    and only when it is not in place, and no index is out of bounds. Targets that share a role get the
    same outcome, and a mirrored one points back at the target that assigns. -/
theorem strand_guard (appId scopeName spId : Text) (targets : List ExchangeTarget) :
    (∀ trace c, Asks history [] (assignThenStrip appId scopeName spId targets).run trace c →
      Guarded appId scopeName spId targets trace c) ∧
    (∀ trace roles strip, Exec history [] (assignThenStrip appId scopeName spId targets).run trace
        (.ok (roles, strip)) →
      roles.outcomes.map Prod.fst = targets ∧ ∀ p ∈ roles.outcomes, ∀ q ∈ roles.outcomes,
        p.1.exchangeRole = q.1.exchangeRole → p.2 = q.2) ∧
    ∀ (existing : List ExoRoleAssignment) (i m : Nat),
      (planRoleAssignments existing scopeName targets)[i]? = some (.sameRoleAs m) →
      m < i ∧ (planRoleAssignments existing scopeName targets)[m]? = some .assign := by
  refine ⟨fun trace c hasks => meets_assignThenStrip.asked hasks, fun trace roles strip hexec =>
    meets_assignThenStrip.sound hexec, fun existing i m hstep => ?_⟩
  obtain ⟨hi, -⟩ := List.getElem?_eq_some_iff.1 hstep
  rw [length_planRoleAssignments] at hi
  have hsplit : targets = targets.take i ++ targets[i] :: targets.drop (i + 1) := by
    rw [← List.drop_eq_getElem_cons hi, List.take_append_drop]
  have hplan := planRoleAssignments_eq existing scopeName hsplit
  rw [List.length_take_of_le (Nat.le_of_lt hi), hstep] at hplan
  obtain ⟨hlt, first, -, -, hassign⟩ :=
    planRoleAssignments_mirrors hsplit (Option.some.inj hplan).symm
  rw [List.length_take_of_le (Nat.le_of_lt hi)] at hlt
  exact ⟨hlt, hassign⟩

/-- Three grants on one resource; `Application Mail.Send` cannot be assigned. -/
def threeGrants : (c : Call) → Option (Answer c)
  | .getRoleAssignments _ => some (.ok [])
  | .newRoleAssignment _ role _ =>
    some (if role = "Application Mail.Send".toList then .error .unauthorized
      else .ok ⟨none, some role, none, none, none, none, none⟩)
  | .listAppRoleAssignments _ => some (.ok
      [⟨"a1".toList, "graph".toList, "r1".toList⟩, ⟨"a2".toList, "graph".toList, "r2".toList⟩,
        ⟨"a3".toList, "graph".toList, "r3".toList⟩])
  | .removeAppRoleAssignment _ _ => some (.ok ())
  | .warn _ => some ()
  | _ => none

/-- Their targets, two of them with one role. -/
def threeTargets : List ExchangeTarget := [
  ⟨"Mail.ReadBasic".toList, "Application Mail.ReadBasic".toList, "r1".toList, "graph".toList, true⟩,
  ⟨"Mail.Send".toList, "Application Mail.Send".toList, "r2".toList, "graph".toList, true⟩,
  ⟨"Mail.ReadBasic.All".toList, "Application Mail.ReadBasic".toList, "r3".toList, "graph".toList,
    true⟩]

/-- Two targets share a role that is assigned, the third one's request fails: two grants go. -/
theorem strand_guard_shared_role :
    ∃ roles strip trace, Exec history [] (assignThenStrip "app".toList "scope".toList "sp".toList
        threeTargets).run trace (.ok (roles, strip)) ∧
      roles.outcomes.map Prod.snd = [true, false, true] ∧
      strip.removed = ["Mail.ReadBasic".toList, "Mail.ReadBasic.All".toList] ∧
      ∀ p ∈ roles.outcomes, ∀ q ∈ roles.outcomes,
        p.1.exchangeRole = q.1.exchangeRole → p.2 = q.2 := by
  obtain ⟨result, trace, hexec, hview⟩ := exists_exec_of_run (history_of_remembering (fun _ => threeGrants))
    (show (run (remembering (fun _ => threeGrants)) (assignThenStrip "app".toList "scope".toList "sp".toList
        threeTargets).run []).map (fun r => r.1.toOption.map (fun (roles, strip) =>
              (roles.outcomes.map Prod.snd, strip.removed)))
        = some (some ([true, false, true],
            ["Mail.ReadBasic".toList, "Mail.ReadBasic.All".toList])) by decide)
  cases result with
  | error err => exact absurd hview (by simp [Except.toOption])
  | ok result =>
    obtain ⟨roles, strip⟩ := result
    have hview : (roles.outcomes.map Prod.snd, strip.removed) = _ := Option.some.inj hview
    obtain ⟨houtcomes, hremoved⟩ := Prod.mk.inj hview
    exact ⟨roles, strip, trace, hexec, houtcomes, hremoved,
      ((strand_guard _ _ _ _).2.1 trace roles strip hexec).2⟩

end Exchange
