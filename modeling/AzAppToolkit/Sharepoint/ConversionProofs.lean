import AzAppToolkit.Lib.History
import AzAppToolkit.Sharepoint.Conversion

set_option autoImplicit false

/-! # What a conversion leaves and says

The guard of every write of `convert_site_access_core`, and the report at its end: a deletion is made
behind `Sites.Selected` and a site grant, and the report is right unless one value had a deletion that
succeeded and one that failed. -/

namespace Sharepoint

open Prog Exchange Audit

/-! ## What a trace says -/

/-- The assignment grants the value on the resource, as the run read the resource. -/
def HeldOn (h : Trace) (a : AppRoleAssignment) (resource value : Text) : Prop :=
  ∃ sp : ServicePrincipal, ⟨.resolveResourceSp resource, .ok (some sp)⟩ ∈ h ∧
    a.resourceId = sp.id ∧ (roleIndex sp.appRoles).lookup a.appRoleId = some value

/-- The assignment is one of the snapshot. -/
def Listed (spId : Text) (h : Trace) (a : AppRoleAssignment) : Prop :=
  ∃ l, ⟨.listAppRoleAssignments spId, .ok l⟩ ∈ h ∧ a ∈ l

def Removed (spId : Text) (h : Trace) (a : AppRoleAssignment) : Prop :=
  ⟨.removeAppRoleAssignment spId a, .ok ()⟩ ∈ h

def Deleted (spId : Text) (h : Trace) (a : AppRoleAssignment) : Prop :=
  ∃ b, Removed spId h b ∧ b.id = a.id

/-- `Sites.Selected` was assigned before the run, or the run assigned it. -/
def SelectedAssigned (spId : Text) (h : Trace) : Prop :=
  ∃ (sp : ServicePrincipal) (role : Text), ⟨.resolveResourceSp microsoftGraphAppId, .ok (some sp)⟩ ∈ h ∧
    (roleIndex sp.appRoles).lookup role = some spSitesSelected ∧
    (⟨.grantAppRole spId sp.id role, .ok ()⟩ ∈ h ∨
      ∃ a, Listed spId h a ∧ a.resourceId = sp.id ∧ a.appRoleId = role)

def SiteGranted (h : Trace) (siteId : Text) : Prop :=
  ∃ appId appDisplayName roles perm,
    ⟨.grantSitePermission siteId appId appDisplayName roles, .ok perm⟩ ∈ h

/-- Where the writes of a conversion may be made. -/
def Allowed (spId : Text) (removeOrgwide : Bool) (h : Trace) : Call → Prop
  | .removeAppRoleAssignment spId' a =>
    spId' = spId ∧ removeOrgwide = true ∧ Listed spId h a ∧
    (∃ value, HeldOn h a microsoftGraphAppId value ∧ isSharepointOrgwide value = true) ∧
    SelectedAssigned spId h ∧ ∃ siteId, SiteGranted h siteId
  | .grantSitePermission siteId _ _ _ => ¬ SiteGranted h siteId
  | _ => True

/-- What is not deleted and org-wide is named, or is said not to have been checked. -/
def Reported (spId : Text) (h : Trace) (warnings : List Warning) : Prop :=
  ∀ a, Listed spId h a → ¬ Deleted spId h a →
    (∀ resource value, HeldOn h a resource value → isOrgwide resource value = true →
      ∃ held asked, .notEffective held asked ∈ warnings ∧ (resource, value) ∈ held) ∧
    (∀ (sp : ServicePrincipal) (err : Graph.GraphError),
      ⟨.resolveResourceSp microsoftGraphAppId, .ok (some sp)⟩ ∈ h →
      ⟨.resolveResourceSp office365SharePointOnlineAppId, .error err⟩ ∈ h →
      a.resourceId ≠ sp.id → .onlineUnreadable (.graph err) ∈ warnings)

/-- Neither strands the principal nor claims too much. -/
structure Honest (spId : Text) (removeOrgwide : Bool) (h : Trace) (r : Except UiError SiteScopeResult) :
    Prop where
  calls : Allows (Allowed spId removeOrgwide) h
  reported : ∀ result, r = .ok result → Reported spId h result.warnings

/-- Of the assignments of one value on Microsoft Graph all are deleted, or none is. -/
def EvenRemovals (spId : Text) (h : Trace) : Prop :=
  ∀ a b value, Listed spId h a → HeldOn h a microsoftGraphAppId value →
    HeldOn h b microsoftGraphAppId value → Removed spId h b → Deleted spId h a

/-! ## Kinds of calls -/

def isRead : Call → Prop
  | .resolveResourceSp _ => True
  | .listAppRoleAssignments _ => True
  | _ => False

def isSetup : Call → Prop
  | .getServicePrincipalByObjectId _ => True
  | .getApplication _ => True
  | .updateApplication _ _ => True
  | .grantAppRole _ _ _ => True
  | .invalidateAppDetailState => True
  | .invalidateSiteSweep => True
  | _ => False

def isSiteCall : Call → Prop
  | .getSiteByUrl _ => True
  | .grantSitePermission _ _ _ _ => True
  | _ => False

def isRemoval : Call → Prop
  | .removeAppRoleAssignment _ _ => True
  | _ => False

section Rules

variable {spId : Text} {removeOrgwide : Bool} {h h' : Trace}

theorem allowed_of_isSetup {c : Call} (hc : isSetup c) : Allowed spId removeOrgwide h c := by
  cases c <;> first | exact trivial | exact hc.elim

variable {kind : Call → Prop} {a : AppRoleAssignment}

theorem Listed.grew (ha : Listed spId h a) (hgrew : Grew kind h h') : Listed spId h' a := by
  obtain ⟨l, hl, ha⟩ := ha
  exact ⟨l, hgrew.mem hl, ha⟩

theorem HeldOn.grew {resource value : Text}
    (ha : HeldOn h a resource value) (hgrew : Grew kind h h') : HeldOn h' a resource value := by
  obtain ⟨sp, hsp, hrest⟩ := ha
  exact ⟨sp, hgrew.mem hsp, hrest⟩

theorem SelectedAssigned.grew (hs : SelectedAssigned spId h)
    (hgrew : Grew kind h h') : SelectedAssigned spId h' := by
  obtain ⟨sp, role, hsp, hrole, hheld⟩ := hs
  refine ⟨sp, role, hgrew.mem hsp, hrole, ?_⟩
  rcases hheld with hgrant | ⟨a, ha, hrest⟩
  · exact .inl (hgrew.mem hgrant)
  · exact .inr ⟨a, ha.grew hgrew, hrest⟩

theorem SiteGranted.grew {siteId : Text} (hs : SiteGranted h siteId)
    (hgrew : Grew kind h h') : SiteGranted h' siteId := by
  obtain ⟨appId, name, roles, perm, hmem⟩ := hs
  exact ⟨appId, name, roles, perm, hgrew.mem hmem⟩

/-- `?` on a client's result. -/
theorem meets_orUiError {α β : Type} {ok : Trace → Call → Prop} {toUi : Graph.GraphError → UiError}
    {p : Async (Except Graph.GraphError β)} {f : β → AsyncResult α}
    {post : Trace → Except UiError α → Prop} (good : Trace → β → Prop) (bad : Trace → Graph.GraphError → Prop)
    (hp : Meets history ok (OnResult good bad) h p) (hbad : ∀ h e, bad h e → post h (.error (toUi e)))
    (hgood : ∀ h b, good h b → Meets history ok post h (f b).run) :
    Meets history ok post h (orUiError toUi p >>= f).run := by
  refine Meets.tryBind (Meets.bind (hp.mono (fun s r hr => ?_)))
  cases r with
  | ok b => exact hgood s b hr
  | error e => exact hbad s e hr

/-! ## The steps -/

theorem graphRoleId_value {index : Table Text Text} {value role : Text}
    (h : graphRoleId index value = .ok role) : index.lookup role = some value := by
  unfold graphRoleId at h
  split at h
  · next r hr =>
    obtain rfl : r.1 = role := by simpa using h
    have hmem := List.mem_of_find?_eq_some hr
    have hvalue : r.2 = value := by simpa using List.find?_some hr
    rw [← AList.mem_entries_iff, ← hvalue]
    exact hmem
  · exact absurd h (by simp)

theorem only_declareGraphRole (principal : GraphRolePrincipal) (roleId : Text) :
    Only isSetup (declareGraphRole principal roleId).run := by
  unfold declareGraphRole
  split
  · exact Only.pure
  · refine Only.tryBind (Only.bind (Only.call trivial) (fun r => Only.pure)) (fun app => ?_)
    refine Only.tryBind Only.pure (fun _ => ?_)
    split
    · exact Only.pure
    · refine Only.tryBind (Only.bind (Only.call trivial) (fun r => Only.pure)) (fun _ => ?_)
      refine Only.tryBind (Only.lift (Only.call trivial)) (fun _ => ?_)
      exact Only.pure

variable {sp : ServicePrincipal} {existing : List AppRoleAssignment}

theorem meets_declareAndGrantGraphRole {principal : GraphRolePrincipal}
    (hsp : ⟨.resolveResourceSp microsoftGraphAppId, .ok (some sp)⟩ ∈ h)
    (hexisting : ⟨.listAppRoleAssignments principal.spObjectId, .ok existing⟩ ∈ h) :
    Meets history (Allowed spId removeOrgwide)
      (OnResult (fun h' _ => Grew isSetup h h' ∧ SelectedAssigned principal.spObjectId h')
        (fun h' _ => Grew isSetup h h')) h
      (declareAndGrantGraphRole principal sp.id (roleIndex sp.appRoles) existing
        spSitesSelected).run := by
  unfold declareAndGrantGraphRole
  refine Meets.ofExcept (fun _ _ => Grew.refl isSetup h) (fun roleId hrole => ?_)
  refine meets_orUiError (fun h' _ => Grew isSetup h h') (fun h' _ => Grew isSetup h h')
    ?_ (fun _ _ hgrew => hgrew) (fun h₁ found h₁grew => ?_)
  · refine Meets.remember trivial (fun r => ?_)
    have hgrew := (Grew.refl isSetup h).snoc (e := ⟨.getServicePrincipalByObjectId
      principal.spObjectId, r⟩) trivial
    cases r <;> exact hgrew
  · cases found with
    | none => exact h₁grew
    | some found =>
      refine Meets.ofExcept (fun _ _ => h₁grew) (fun _ _ => ?_)
      have hdeclare : Meets history (Allowed spId removeOrgwide) _ h₁ _ :=
        (only_declareGraphRole principal roleId).grew (fun _ _ hc => allowed_of_isSetup hc) h₁
      refine Meets.tryThen hdeclare.always (fun h₂ _ h₂grew => h₁grew.trans h₂grew)
        (fun h₂ declared h₂grew => ?_)
      have hgrew := h₁grew.trans h₂grew
      split
      · next hheld =>
        obtain ⟨a, ha, hsame⟩ := List.any_eq_true.1 hheld
        obtain ⟨hres, hrole'⟩ : a.resourceId = sp.id ∧ a.appRoleId = roleId := by simpa using hsame
        exact ⟨hgrew, sp, roleId, hgrew.mem hsp, graphRoleId_value hrole,
          .inr ⟨a, ⟨existing, hgrew.mem hexisting, ha⟩, hres, hrole'⟩⟩
      · refine meets_orUiError (fun h' _ => Grew isSetup h h' ∧
            ⟨.grantAppRole principal.spObjectId sp.id roleId, .ok ()⟩ ∈ h')
          (fun h' _ => Grew isSetup h h') ?_ (fun _ _ hgrew => hgrew) (fun h₃ _ hgood => ?_)
        · refine Meets.remember trivial (fun r => ?_)
          have hgrew' := hgrew.snoc (e := ⟨.grantAppRole principal.spObjectId sp.id roleId, r⟩) trivial
          cases r with
          | ok u => exact ⟨hgrew', by simp⟩
          | error e => exact hgrew'
        · exact ⟨hgood.1, sp, roleId, hgood.1.mem hsp, graphRoleId_value hrole, .inl hgood.2⟩

/-- The lines the report does not add. -/
def isStepLine : Warning → Prop
  | .notEffective _ _ => False
  | .onlineUnreadable _ => False
  | _ => True

theorem isStepLine_snoc {warnings : List Warning} {line : Warning} (hw : ∀ w ∈ warnings, isStepLine w)
    (hline : isStepLine line) : ∀ w ∈ warnings ++ [line], isStepLine w := by
  intro w hmem
  rcases List.mem_append.1 hmem with hold | hnew
  · exact hw w hold
  · exact List.mem_singleton.1 hnew ▸ hline

/-- The sites granted are those the trace has grants of. -/
structure SitesDone (h₀ h : Trace) (st : SiteLoop) : Prop where
  grew : Grew isSiteCall h₀ h
  granted : ∀ siteId, SiteGranted h siteId ↔ ∃ g ∈ st.sitesGranted, g.siteId = siteId
  lines : ∀ w ∈ st.warnings, isStepLine w

theorem siteGranted_snoc {e : Exchanged Answer} {siteId : Text}
    (he : ∀ appId name roles perm, e ≠ ⟨.grantSitePermission siteId appId name roles, .ok perm⟩) :
    SiteGranted (h ++ [e]) siteId ↔ SiteGranted h siteId := by
  constructor
  · rintro ⟨appId, name, roles, perm, hmem⟩
    rcases List.mem_append.1 hmem with hold | hnew
    · exact ⟨appId, name, roles, perm, hold⟩
    · exact absurd (List.mem_singleton.1 hnew).symm (he appId name roles perm)
  · rintro ⟨appId, name, roles, perm, hmem⟩
    exact ⟨appId, name, roles, perm, List.mem_append_left _ hmem⟩

theorem siteGranted_snoc_grant {site siteId appId name : Text} {roles : List Text}
    {perm : Sweeps.SitePermission} :
    SiteGranted (h ++ [⟨.grantSitePermission site appId name roles, .ok perm⟩]) siteId ↔
      SiteGranted h siteId ∨ site = siteId := by
  constructor
  · rintro ⟨appId', name', roles', perm', hmem⟩
    rcases List.mem_append.1 hmem with hold | hnew
    · exact .inl ⟨appId', name', roles', perm', hold⟩
    · have heq := congrArg Sigma.fst (List.mem_singleton.1 hnew)
      exact .inr (by simp at heq; exact heq.1.symm)
  · rintro (⟨appId', name', roles', perm', hmem⟩ | rfl)
    · exact ⟨appId', name', roles', perm', List.mem_append_left _ hmem⟩
    · exact ⟨appId, name, roles, perm, by simp⟩

theorem meets_grantSite {h₀ : Trace} {principal : GraphRolePrincipal} {conversion : SiteConversion}
    {st : SiteLoop} {url : Text} (hst : SitesDone h₀ h st) :
    Meets history (Allowed spId removeOrgwide) (SitesDone h₀) h
      (grantSite principal conversion st url) := by
  unfold grantSite
  refine Meets.bind (Meets.remember trivial (fun r => ?_))
  have hgrew := hst.grew.snoc (e := ⟨.getSiteByUrl url, r⟩) trivial
  have hgranted : ∀ siteId, SiteGranted (h ++ [⟨.getSiteByUrl url, r⟩]) siteId ↔
      ∃ g ∈ st.sitesGranted, g.siteId = siteId := by
    intro siteId
    rw [← hst.granted siteId]
    exact siteGranted_snoc (fun _ _ _ _ heq => absurd (congrArg Sigma.fst heq) (by simp))
  cases r with
  | error err => exact ⟨hgrew, hgranted, isStepLine_snoc hst.lines trivial⟩
  | ok site =>
    dsimp only
    split
    · exact ⟨hgrew, hgranted, hst.lines⟩
    · next hnew =>
      have hfree : ¬ SiteGranted (h ++ [⟨.getSiteByUrl url, .ok site⟩]) site.id := by
        intro hsite
        obtain ⟨g, hg, hid⟩ := (hgranted site.id).1 hsite
        exact hnew (List.any_eq_true.2 ⟨g, hg, by simpa using hid⟩)
      refine Meets.bind (Meets.remember hfree (fun r => ?_))
      have hgrew' := hgrew.snoc (e := ⟨.grantSitePermission site.id principal.appId
        conversion.appDisplayName [conversion.role], r⟩) trivial
      cases r with
      | ok perm =>
        refine ⟨hgrew', fun siteId => ?_, hst.lines⟩
        rw [siteGranted_snoc_grant, hgranted siteId]
        simp [or_and_right, exists_or]
      | error err =>
        refine ⟨hgrew', fun siteId => ?_, isStepLine_snoc hst.lines trivial⟩
        rw [← hgranted siteId]
        refine siteGranted_snoc (fun appId name roles perm heq => ?_)
        simp only [Sigma.mk.injEq, Call.grantSitePermission.injEq] at heq
        obtain ⟨⟨rfl, rfl, rfl, rfl⟩, hans⟩ := heq
        exact absurd (eq_of_heq hans) (by simp)

/-- The values removed are those of the deletions that succeeded. -/
structure StripDone (spId : Text) (select : AppRoleAssignment → Option Text) (h₀ : Trace)
    (tried : List AppRoleAssignment) (h : Trace) (st : Strip) : Prop where
  grew : Grew isRemoval h₀ h
  removals : ∀ spId' a r, ⟨.removeAppRoleAssignment spId' a, r⟩ ∈ h → a ∈ tried
  removed : ∀ value, value ∈ st.removed ↔ ∃ a ∈ tried, select a = some value ∧ Removed spId h a
  lines : ∀ w ∈ st.warnings, isStepLine w

theorem removed_snoc {a b : AppRoleAssignment} {r : Except Graph.GraphError Unit} :
    Removed spId (h ++ [⟨.removeAppRoleAssignment spId a, r⟩]) b ↔
      Removed spId h b ∨ a = b ∧ r = .ok () := by
  unfold Removed
  rw [List.mem_append, List.mem_singleton]
  refine or_congr_right ?_
  constructor
  · intro heq
    simp only [Sigma.mk.injEq, Call.removeAppRoleAssignment.injEq, true_and] at heq
    obtain ⟨rfl, hans⟩ := heq
    exact ⟨rfl, (eq_of_heq hans).symm⟩
  · rintro ⟨rfl, rfl⟩
    rfl

theorem StripDone.attempt {select : AppRoleAssignment → Option Text} {h₀ : Trace}
    {tried : List AppRoleAssignment} {st : Strip} (hst : StripDone spId select h₀ tried h st)
    {value : Text} (hvalue : select a = some value) (r : Except Graph.GraphError Unit) {st' : Strip}
    (hremoved : ∀ v, v ∈ st'.removed ↔ v ∈ st.removed ∨ v = value ∧ r = .ok ())
    (hlines : ∀ w ∈ st'.warnings, isStepLine w) :
    StripDone spId select h₀ (tried ++ [a]) (h ++ [⟨.removeAppRoleAssignment spId a, r⟩]) st' where
  grew := hst.grew.snoc trivial
  removals := by
    intro spId' b r' hmem
    rcases List.mem_append.1 hmem with hold | hnew
    · exact List.mem_append_left _ (hst.removals spId' b r' hold)
    · have heq := congrArg Sigma.fst (List.mem_singleton.1 hnew)
      obtain ⟨-, rfl⟩ : spId' = spId ∧ b = a := by simpa using heq
      simp
  removed := by
    intro v
    rw [hremoved v, hst.removed v]
    constructor
    · rintro (⟨b, hb, hbv, hbr⟩ | ⟨rfl, hr⟩)
      · exact ⟨b, List.mem_append_left _ hb, hbv, removed_snoc.2 (.inl hbr)⟩
      · exact ⟨a, by simp, hvalue, removed_snoc.2 (.inr ⟨rfl, hr⟩)⟩
    · rintro ⟨b, -, hbv, hbr⟩
      rcases removed_snoc.1 hbr with hold | ⟨rfl, hr⟩
      · exact .inl ⟨b, hst.removals _ _ _ hold, hbv, hold⟩
      · rw [hvalue] at hbv
        exact .inr ⟨(Option.some.inj hbv).symm, hr⟩
  lines := hlines

theorem meets_stripAppRoleGrants {assignments : List AppRoleAssignment}
    {select : AppRoleAssignment → Option Text} {warnings : List Warning}
    (hnone : ∀ spId' a r, ⟨.removeAppRoleAssignment spId' a, r⟩ ∉ h)
    (hallowed : ∀ h' a value, Grew isRemoval h h' → a ∈ assignments → select a = some value →
      Allowed spId removeOrgwide h' (.removeAppRoleAssignment spId a))
    (hlines : ∀ w ∈ warnings, isStepLine w) :
    Meets history (Allowed spId removeOrgwide) (StripDone spId select h assignments) h
      (stripAppRoleGrants spId assignments select warnings) := by
  unfold stripAppRoleGrants
  refine Meets.foldlM (StripDone spId select h) (fun before a after s st hsplit hst => ?_) ?_
  · have ha : a ∈ assignments := by rw [hsplit]; simp
    cases hvalue : select a with
    | none =>
      refine ⟨hst.grew, fun spId' b r hmem => ?_, fun v => ?_, hst.lines⟩
      · exact List.mem_append_left _ (hst.removals spId' b r hmem)
      · rw [hst.removed v]
        constructor
        · rintro ⟨b, hb, hrest⟩
          exact ⟨b, List.mem_append_left _ hb, hrest⟩
        · rintro ⟨b, hb, hbv, hbr⟩
          exact ⟨b, hst.removals _ _ _ hbr, hbv, hbr⟩
    | some value =>
      refine Meets.bind (Meets.remember (hallowed s a value hst.grew ha hvalue) (fun r => ?_))
      cases r with
      | ok u => exact hst.attempt hvalue _ (by simp) hst.lines
      | error err => exact hst.attempt hvalue _ (by simp) (isStepLine_snoc hst.lines trivial)
  · exact ⟨Grew.refl _ h, fun spId' a r hmem => absurd hmem (hnone spId' a r), by simp, hlines⟩

/-! ## The report -/

theorem mem_residualOrgwideReach_from {resources : List ResourceRoles} {removed : List Text}
    {resource value : Text} (l : List AppRoleAssignment) (held : List (Text × Text)) :
    (resource, value) ∈ l.foldl (fun held a =>
      match resolveGrant resources a.resourceId a.appRoleId with
      | none => held
      | some (resource, _, value) =>
        let gone := resource == microsoftGraphAppId && removed.contains value
        if isOrgwide resource value && !gone && !held.contains (resource, value) then
          held ++ [(resource, value)]
        else held) held ↔
      (resource, value) ∈ held ∨ ∃ a ∈ l, ∃ resourceSpId,
        resolveGrant resources a.resourceId a.appRoleId = some (resource, resourceSpId, value) ∧
        isOrgwide resource value = true ∧ ¬ (resource = microsoftGraphAppId ∧ value ∈ removed) := by
  induction l generalizing held with
  | nil => simp
  | cons a l ih =>
    rw [List.foldl_cons, ih]
    simp only [List.mem_cons, exists_eq_or_imp]
    cases hgrant : resolveGrant resources a.resourceId a.appRoleId with
    | none => simp
    | some grant =>
      obtain ⟨resource', spId', value'⟩ := grant
      rw [← or_assoc]
      refine or_congr_left ?_
      dsimp only
      split
      · next hadd =>
        rw [List.mem_append, List.mem_singleton]
        refine or_congr_right ?_
        constructor
        · intro heq
          obtain ⟨rfl, rfl⟩ := Prod.mk.inj heq
          refine ⟨spId', rfl, ?_⟩
          simp only [Bool.and_eq_true, Bool.not_eq_true', Bool.and_eq_false_iff, beq_eq_false_iff_ne,
            List.contains_eq_mem, decide_eq_false_iff_not] at hadd
          exact ⟨hadd.1.1, fun hgone => hadd.1.2.elim (· hgone.1) (· hgone.2)⟩
        · rintro ⟨_, heq, -⟩
          simp only [Option.some.injEq, Prod.mk.injEq] at heq
          rw [heq.1, heq.2.2]
      · next hskip =>
        constructor
        · exact .inl
        · rintro (hheld | ⟨_, heq, horg, hkept⟩)
          · exact hheld
          · simp only [Option.some.injEq, Prod.mk.injEq] at heq
            obtain ⟨rfl, -, rfl⟩ := heq
            by_contra hheld
            refine hskip ?_
            simp only [horg, Bool.true_and, Bool.and_eq_true, Bool.not_eq_true']
            refine ⟨?_, by simpa using hheld⟩
            simpa using hkept

theorem mem_residualOrgwideReach {resources : List ResourceRoles}
    {removed : List Text} {resource value : Text} :
    (resource, value) ∈ residualOrgwideReach resources existing removed ↔
      ∃ a ∈ existing, ∃ resourceSpId,
        resolveGrant resources a.resourceId a.appRoleId = some (resource, resourceSpId, value) ∧
        isOrgwide resource value = true ∧ ¬ (resource = microsoftGraphAppId ∧ value ∈ removed) := by
  exact (mem_residualOrgwideReach_from existing []).trans (or_iff_right (by simp))

/-! ## The whole run -/

/-- What a run reads before it writes. -/
def reads (spId : Text) (sp : ServicePrincipal) (online : Except Graph.GraphError (Option ServicePrincipal))
    (existing : List AppRoleAssignment) : Trace :=
  [⟨.resolveResourceSp microsoftGraphAppId, .ok (some sp)⟩,
    ⟨.resolveResourceSp office365SharePointOnlineAppId, online⟩,
    ⟨.listAppRoleAssignments spId, .ok existing⟩]

def rolesOf (appId : Text) (sp : ServicePrincipal) : ResourceRoles := ⟨appId, sp.id, roleIndex sp.appRoles⟩

def onlineRoles (online : Except Graph.GraphError (Option ServicePrincipal)) :
    Except UiError (Option ResourceRoles) :=
  match online with
  | .ok sp => .ok (sp.map (rolesOf office365SharePointOnlineAppId))
  | .error err => .error (.graph err)

/-- The values removed are those of the deletions that succeeded, over the whole run. -/
structure Stripped (spId : Text) (sp : ServicePrincipal)
    (online : Except Graph.GraphError (Option ServicePrincipal)) (existing : List AppRoleAssignment) (h : Trace)
    (strip : Strip) : Prop where
  grew : Grew (fun c => ¬ isRead c) (reads spId sp online existing) h
  removed : ∀ value, value ∈ strip.removed ↔ ∃ a ∈ existing,
    orgwideSitesValue sp.id (roleIndex sp.appRoles) a = some value ∧ Removed spId h a
  lines : ∀ w ∈ strip.warnings, isStepLine w

/-- How a run ends that returns a result. -/
def Finished (spId : Text) (removeOrgwide : Bool) (h : Trace) (result : SiteScopeResult) : Prop :=
  ∃ sp online existing strip, Stripped spId sp online existing h strip ∧
    result.warnings = reportReach (rolesOf microsoftGraphAppId sp) (onlineRoles online) existing
      removeOrgwide strip

/-- Nothing was deleted. -/
def NothingRemoved (h : Trace) : Prop := ∀ spId a r, ⟨.removeAppRoleAssignment spId a, r⟩ ∉ h

theorem NothingRemoved.grew (hn : NothingRemoved h)
    (hkind : ∀ spId a, ¬ kind (.removeAppRoleAssignment spId a)) (hgrew : Grew kind h h') :
    NothingRemoved h' :=
  fun spId a r hmem => hn spId a r ((hgrew.mem_iff (hkind spId a)).1 hmem)

theorem nothingRemoved_reads (spId : Text) (sp : ServicePrincipal)
    (online : Except Graph.GraphError (Option ServicePrincipal)) (existing : List AppRoleAssignment) :
    NothingRemoved (reads spId sp online existing) := by
  intro spId' a r hmem
  simp [reads] at hmem

theorem not_siteGranted_reads (spId : Text) (sp : ServicePrincipal)
    (online : Except Graph.GraphError (Option ServicePrincipal)) (existing : List AppRoleAssignment)
    (siteId : Text) : ¬ SiteGranted (reads spId sp online existing) siteId := by
  rintro ⟨appId, name, roles, perm, hmem⟩
  simp [reads] at hmem

theorem orgwideSitesValue_eq_some {value : Text} :
    orgwideSitesValue sp.id (roleIndex sp.appRoles) a = some value ↔
      a.resourceId = sp.id ∧ (roleIndex sp.appRoles).lookup a.appRoleId = some value ∧
      isSharepointOrgwide value = true := by
  unfold orgwideSitesValue
  by_cases hres : a.resourceId = sp.id
  · rw [if_neg (by simpa using hres), Option.filter_eq_some_iff]
    simp [hres]
  · rw [if_pos hres]
    simp [hres]

theorem Stripped.snoc {online : Except Graph.GraphError (Option ServicePrincipal)}
    {strip : Strip} (hs : Stripped spId sp online existing h strip)
    {e : Exchanged Answer} (he : isSetup e.1) : Stripped spId sp online existing (h ++ [e]) strip := by
  have hread : ¬ isRead e.1 := by
    intro hread
    obtain ⟨c, r⟩ := e
    cases c <;> first | exact he | exact hread
  have hremoved : ∀ a, Removed spId (h ++ [e]) a ↔ Removed spId h a := by
    intro a
    exact ((Grew.refl isSetup h).snoc he).mem_iff
      (fun hc : isSetup (.removeAppRoleAssignment spId a) => hc)
  refine ⟨hs.grew.snoc hread, fun value => ?_, hs.lines⟩
  simp only [hs.removed value, hremoved]

/-- The sites and the strip, behind the reads and the assignment of the scope. -/
theorem meets_grantAndStrip {principal : GraphRolePrincipal} {conversion : SiteConversion}
    {online : Except Graph.GraphError (Option ServicePrincipal)} {granted : GraphRoleGrant}
    (hgrew : Grew isSetup (reads principal.spObjectId sp online existing) h)
    (hselected : SelectedAssigned principal.spObjectId h) :
    Meets history (Allowed principal.spObjectId conversion.removeOrgwide)
      (OnResult (Finished principal.spObjectId conversion.removeOrgwide) (fun h _ => NothingRemoved h)) h
      (grantAndStrip principal conversion (rolesOf microsoftGraphAppId sp) (onlineRoles online) existing
        granted).run := by
  have hnothing : NothingRemoved h :=
    (nothingRemoved_reads _ sp online existing).grew (fun _ _ => id) hgrew
  have hstart : SitesDone h h ⟨[], []⟩ := by
    refine ⟨Grew.refl _ h, fun siteId => ?_, by simp⟩
    refine iff_of_false (fun hsite => ?_) (by simp)
    obtain ⟨appId, name, roles, perm, hmem⟩ := hsite
    have hold := (hgrew.mem_iff
      (fun hc : isSetup (.grantSitePermission siteId appId name roles) => hc)).1 hmem
    exact not_siteGranted_reads _ sp online existing siteId ⟨appId, name, roles, perm, hold⟩
  refine Meets.liftBind ((Meets.foldlM (fun _ => SitesDone h)
    (fun _ _ _ _ _ _ hst => meets_grantSite hst) hstart).mono (fun h₁ sites hsites => ?_))
  have hnothing₁ : NothingRemoved h₁ := hnothing.grew (fun _ _ => id) hsites.grew
  have hall₁ : Grew (fun c => ¬ isRead c) (reads principal.spObjectId sp online existing) h₁ :=
    (hgrew.weaken (fun c hc hread => by cases c <;> first | exact hc | exact hread)).trans
      (hsites.grew.weaken (fun c hc hread => by cases c <;> first | exact hc | exact hread))
  have hskip : ∀ strip : Strip, strip.removed = [] → (∀ w ∈ strip.warnings, isStepLine w) →
      Stripped principal.spObjectId sp online existing h₁ strip := by
    intro strip hnil hlines
    refine ⟨hall₁, fun value => ?_, hlines⟩
    rw [hnil]
    exact iff_of_false (by simp) (fun ⟨a, _, _, hr⟩ => hnothing₁ _ _ _ hr)
  have hstrip : Meets history (Allowed principal.spObjectId conversion.removeOrgwide)
      (Stripped principal.spObjectId sp online existing) h₁
      (if shouldRemoveOrgwide conversion.removeOrgwide (!sites.sitesGranted.isEmpty) then
        stripAppRoleGrants principal.spObjectId existing
          (orgwideSitesValue sp.id (roleIndex sp.appRoles)) sites.warnings
      else if conversion.removeOrgwide then pure ⟨[], sites.warnings ++ [.noSiteGranted]⟩
      else pure ⟨[], sites.warnings⟩) := by
    split
    · next hremove =>
      obtain ⟨hasked, hany⟩ : conversion.removeOrgwide = true ∧ sites.sitesGranted ≠ [] := by
        simpa [shouldRemoveOrgwide] using hremove
      obtain ⟨g, hg⟩ := List.exists_mem_of_ne_nil _ hany
      refine (meets_stripAppRoleGrants hnothing₁ (fun h' a value hgrew' ha hvalue => ?_)
        hsites.lines).mono (fun h₂ strip hdone => ?_)
      · obtain ⟨hres, hlookup, horg⟩ := orgwideSitesValue_eq_some.1 hvalue
        have hreads := hall₁.trans (hgrew'.weaken
          (fun c hc hread => by cases c <;> first | exact hc | exact hread))
        refine ⟨rfl, hasked, ⟨existing, hreads.mem (by simp [reads]), ha⟩,
          ⟨value, ⟨sp, hreads.mem (by simp [reads]), hres, hlookup⟩, horg⟩,
          (hselected.grew hsites.grew).grew hgrew', g.siteId, ?_⟩
        exact ((hsites.granted g.siteId).2 ⟨g, hg, rfl⟩).grew hgrew'
      · exact ⟨hall₁.trans (hdone.grew.weaken
          (fun c hc hread => by cases c <;> first | exact hc | exact hread)),
          hdone.removed, hdone.lines⟩
    · split
      · exact hskip _ rfl (isStepLine_snoc hsites.lines trivial)
      · exact hskip _ rfl hsites.lines
  refine Meets.liftBind (hstrip.mono (fun h₂ strip hdone => ?_))
  refine Meets.liftBind (Meets.remember trivial (fun r => ?_))
  have hdone' := hdone.snoc (e := ⟨.invalidateAppDetailState, r⟩) trivial
  split
  · refine Meets.liftBind (Meets.remember trivial (fun r => ?_))
    exact ⟨sp, online, existing, strip, hdone'.snoc trivial, rfl⟩
  · exact ⟨sp, online, existing, strip, hdone', rfl⟩

theorem meets_convertSiteAccessCore (principal : GraphRolePrincipal) (conversion : SiteConversion) :
    Meets history (Allowed principal.spObjectId conversion.removeOrgwide)
      (OnResult (Finished principal.spObjectId conversion.removeOrgwide) (fun h _ => NothingRemoved h)) []
      (convertSiteAccessCore principal conversion).run := by
  have hreads : ∀ {t : Trace}, (∀ e ∈ t, ¬ isRemoval e.1) → NothingRemoved t :=
    fun ht spId a r hmem => ht _ hmem trivial
  unfold convertSiteAccessCore graphResourceRoles
  refine Meets.tryBind (Meets.tryBind (Meets.bind (Meets.remember trivial (fun found => ?_))))
  cases found with
  | error err => exact hreads (by simp [isRemoval])
  | ok found =>
    cases found with
    | none => exact hreads (by simp [isRemoval])
    | some sp =>
      refine Meets.liftBind (Meets.bind (Meets.bind (Meets.remember trivial (fun online => ?_))))
      have hlisting : ∀ roles : Except UiError (Option ResourceRoles), roles = onlineRoles online →
          Meets history (Allowed principal.spObjectId conversion.removeOrgwide)
            (OnResult (Finished principal.spObjectId conversion.removeOrgwide)
              (fun h _ => NothingRemoved h))
            [⟨.resolveResourceSp microsoftGraphAppId, .ok (some sp)⟩,
              ⟨.resolveResourceSp office365SharePointOnlineAppId, online⟩]
            (orUiError .graph (call (.listAppRoleAssignments principal.spObjectId)) >>=
              fun existing => declareAndGrantGraphRole principal sp.id (roleIndex sp.appRoles) existing
                spSitesSelected >>= fun granted =>
              grantAndStrip principal conversion (rolesOf microsoftGraphAppId sp) roles existing
                granted).run := by
        rintro roles rfl
        refine Meets.tryBind (Meets.bind (Meets.remember trivial (fun listed => ?_)))
        cases listed with
        | error err => exact hreads (by simp [isRemoval])
        | ok existing =>
          refine Meets.tryThen (meets_declareAndGrantGraphRole (by simp) (by simp))
            (fun h _ hgrew => ?_) (fun h granted hgood => meets_grantAndStrip hgood.1 hgood.2)
          exact (nothingRemoved_reads _ sp online existing).grew (fun _ _ => id) hgrew
      cases online with
      | error err => exact hlisting _ rfl
      | ok online => exact hlisting _ rfl

/-! ## Is the report right? -/

section Report

variable {sp : ServicePrincipal} {online : Except Graph.GraphError (Option ServicePrincipal)}
  {existing : List AppRoleAssignment} {strip : Strip} {a : AppRoleAssignment} {resource value : Text}

theorem Stripped.mem_reads (hs : Stripped spId sp online existing h strip) {c : Call}
    {r : Answer c} (hc : isRead c) : ⟨c, r⟩ ∈ h ↔ ⟨c, r⟩ ∈ reads spId sp online existing :=
  hs.grew.mem_iff (fun hnot => hnot hc)

theorem Stripped.listed_iff (hs : Stripped spId sp online existing h strip) :
    Listed spId h a ↔ a ∈ existing := by
  constructor
  · rintro ⟨l, hl, ha⟩
    have hmem := (hs.mem_reads (c := .listAppRoleAssignments spId) trivial).1 hl
    obtain rfl : l = existing := by simpa [reads] using hmem
    exact ha
  · exact fun ha => ⟨existing,
      (hs.mem_reads (c := .listAppRoleAssignments spId) trivial).2 (by simp [reads]), ha⟩

theorem microsoftGraph_ne_sharePointOnline :
    microsoftGraphAppId ≠ office365SharePointOnlineAppId := by decide

theorem Stripped.resolved_graph (hs : Stripped spId sp online existing h strip)
    {r : Except Graph.GraphError (Option ServicePrincipal)} :
    ⟨.resolveResourceSp microsoftGraphAppId, r⟩ ∈ h ↔ r = .ok (some sp) := by
  rw [hs.mem_reads (c := .resolveResourceSp microsoftGraphAppId) trivial]
  simp [reads, microsoftGraph_ne_sharePointOnline]

theorem Stripped.resolved_online (hs : Stripped spId sp online existing h strip)
    {r : Except Graph.GraphError (Option ServicePrincipal)} :
    ⟨.resolveResourceSp office365SharePointOnlineAppId, r⟩ ∈ h ↔ r = online := by
  rw [hs.mem_reads (c := .resolveResourceSp office365SharePointOnlineAppId) trivial]
  simp [reads, microsoftGraph_ne_sharePointOnline.symm]

theorem Stripped.heldOn_graph (hs : Stripped spId sp online existing h strip) :
    HeldOn h a microsoftGraphAppId value ↔
      a.resourceId = sp.id ∧ (roleIndex sp.appRoles).lookup a.appRoleId = some value := by
  constructor
  · rintro ⟨sp', hsp', hheld⟩
    obtain rfl : sp' = sp := by simpa using hs.resolved_graph.1 hsp'
    exact hheld
  · exact fun hheld => ⟨sp, hs.resolved_graph.2 rfl, hheld⟩

theorem Stripped.heldOn_cases (hs : Stripped spId sp online existing h strip)
    (ha : HeldOn h a resource value) : resource = microsoftGraphAppId ∨
      resource = office365SharePointOnlineAppId ∧ ∃ o, online = .ok (some o) ∧ a.resourceId = o.id ∧
        (roleIndex o.appRoles).lookup a.appRoleId = some value := by
  obtain ⟨o, ho, hheld⟩ := ha
  have hmem := (hs.mem_reads (c := .resolveResourceSp resource) trivial).1 ho
  by_cases hgraph : resource = microsoftGraphAppId
  · exact .inl hgraph
  · obtain rfl : resource = office365SharePointOnlineAppId := by
      simp only [reads, List.mem_cons, List.not_mem_nil, or_false, Sigma.mk.injEq,
        Call.resolveResourceSp.injEq, reduceCtorEq, false_and, hgraph, false_or] at hmem
      exact hmem.1
    exact .inr ⟨rfl, o, (hs.resolved_online.1 ho).symm, hheld⟩

theorem Stripped.resolveGrant_of_heldOn (hs : Stripped spId sp online existing h strip)
    (hunique : ∀ o, online = .ok (some o) → o.id ≠ sp.id) (ha : HeldOn h a resource value) :
    ∃ resourceSpId, resolveGrant (resourcesRead (rolesOf microsoftGraphAppId sp) (onlineRoles online))
      a.resourceId a.appRoleId = some (resource, resourceSpId, value) := by
  rcases hs.heldOn_cases ha with rfl | ⟨rfl, o, rfl, hres, hlookup⟩
  · obtain ⟨hres, hlookup⟩ := hs.heldOn_graph.1 ha
    refine ⟨sp.id, ?_⟩
    simp [resolveGrant, resourcesRead, rolesOf, hres, hlookup]
  · have hne : sp.id ≠ o.id := (hunique o rfl).symm
    refine ⟨o.id, ?_⟩
    simp [resolveGrant, resourcesRead, onlineRoles, rolesOf, hres, hlookup, hne]

theorem reportReach_notEffective {held : List (Text × Text)} {asked : Bool}
    (hlines : ∀ w ∈ strip.warnings, isStepLine w) :
    .notEffective held asked ∈ reportReach (rolesOf microsoftGraphAppId sp) (onlineRoles online) existing
        removeOrgwide strip ↔
      held = residualOrgwideReach (resourcesRead (rolesOf microsoftGraphAppId sp) (onlineRoles online))
          existing strip.removed ∧
        asked = removeOrgwide ∧ held ≠ [] := by
  unfold reportReach
  rw [List.mem_append, List.mem_append]
  have hstep : .notEffective held asked ∉ strip.warnings := fun hmem => hlines _ hmem
  have hlast : .notEffective held asked ∉
      (onlineWarning (rolesOf microsoftGraphAppId sp) (onlineRoles online) existing).toList := by
    unfold onlineWarning
    split
    · simp
    · split <;> simp
  rw [or_iff_left hlast, or_iff_right hstep]
  unfold orgwideReachWarning
  split
  · next hempty =>
    rw [List.isEmpty_iff] at hempty
    rw [hempty]
    exact iff_of_false (by simp) (fun hbad => hbad.2.2 hbad.1)
  · next hsome =>
    rw [List.isEmpty_iff] at hsome
    simp only [Option.toList_some, List.mem_singleton, Warning.notEffective.injEq]
    constructor
    · rintro ⟨rfl, rfl⟩
      exact ⟨rfl, rfl, hsome⟩
    · exact fun hgood => ⟨hgood.1, hgood.2.1⟩

theorem Stripped.reported (hs : Stripped spId sp online existing h strip)
    (hunique : ∀ o, online = .ok (some o) → o.id ≠ sp.id) (heven : EvenRemovals spId h) :
    Reported spId h (reportReach (rolesOf microsoftGraphAppId sp) (onlineRoles online) existing
      removeOrgwide strip) := by
  intro a ha hkept
  have hexisting := hs.listed_iff.1 ha
  refine ⟨fun resource value hheld horg => ?_, fun sp' err hsp' herr hother => ?_⟩
  · obtain ⟨resourceSpId, hgrant⟩ := hs.resolveGrant_of_heldOn hunique hheld
    have hmem : (resource, value) ∈ residualOrgwideReach
        (resourcesRead (rolesOf microsoftGraphAppId sp) (onlineRoles online)) existing strip.removed := by
      refine mem_residualOrgwideReach.2 ⟨a, hexisting, resourceSpId, hgrant, horg, ?_⟩
      rintro ⟨rfl, hremoved⟩
      obtain ⟨b, -, hvalue, hb⟩ := (hs.removed value).1 hremoved
      obtain ⟨hres, hlookup, -⟩ := orgwideSitesValue_eq_some.1 hvalue
      exact hkept (heven a b value ha hheld (hs.heldOn_graph.2 ⟨hres, hlookup⟩) hb)
    exact ⟨_, _, (reportReach_notEffective hs.lines).2 ⟨rfl, rfl, List.ne_nil_of_mem hmem⟩, hmem⟩
  · obtain rfl : sp' = sp := by simpa using hs.resolved_graph.1 hsp'
    obtain rfl := hs.resolved_online.1 herr
    have hunidentified : holdsUnidentifiedGrant
        (resourcesRead (rolesOf microsoftGraphAppId sp') (onlineRoles (.error err))) existing = true := by
      refine List.any_eq_true.2 ⟨a, hexisting, ?_⟩
      simpa [resourcesRead, onlineRoles, rolesOf] using Ne.symm hother
    refine List.mem_append_right _ ?_
    show _ ∈ (if _ then some (Warning.onlineUnreadable (.graph err)) else none).toList
    rw [if_pos hunidentified]
    exact List.mem_singleton.2 rfl

theorem Stripped.even_of_reported (hs : Stripped spId sp online existing h strip)
    (hcalls : Allows (Allowed spId removeOrgwide) h)
    (hreported : Reported spId h (reportReach (rolesOf microsoftGraphAppId sp) (onlineRoles online) existing
      removeOrgwide strip)) : EvenRemovals spId h := by
  intro a b value ha haheld hbheld hb
  by_contra hkept
  obtain ⟨before, after, hsplit⟩ := List.append_of_mem hb
  obtain ⟨-, -, hlisted, ⟨value', hheld', horg⟩, -⟩ := hcalls before _ after hsplit
  have hgrew : Grew (fun _ => True) before h := ⟨_, hsplit, fun _ _ => trivial⟩
  obtain ⟨hres, hlookup⟩ := hs.heldOn_graph.1 hbheld
  obtain rfl : value' = value := by
    obtain ⟨-, hlookup'⟩ := hs.heldOn_graph.1 (hheld'.grew hgrew)
    exact Option.some.inj (hlookup'.symm.trans hlookup)
  have hreach : isOrgwide microsoftGraphAppId value' = true := by
    simp [isOrgwide, isSharepointOrgwidePermission, horg]
  obtain ⟨held, asked, hline, hmem⟩ := (hreported a ha hkept).1 _ value' haheld hreach
  obtain ⟨rfl, -, -⟩ := (reportReach_notEffective hs.lines).1 hline
  obtain ⟨_, -, _, -, -, hleft⟩ := mem_residualOrgwideReach.1 hmem
  refine hleft ⟨rfl, (hs.removed value').2 ⟨b, hs.listed_iff.1 (hlisted.grew hgrew), ?_, hb⟩⟩
  exact orgwideSitesValue_eq_some.2 ⟨hres, hlookup, horg⟩

end Report

end Rules

/-- A conversion deletes only behind the scope and a site grant, and grants each site once. Its report is
    right in exactly the runs in which no value of Microsoft Graph has one assignment deleted and another
    left. -/
theorem conversion_honest_iff {principal : GraphRolePrincipal} {conversion : SiteConversion} {h : Trace}
    {r : Except UiError SiteScopeResult}
    (hrun : Exec history [] (convertSiteAccessCore principal conversion).run h r)
    (hunique : ∀ sp o, ⟨.resolveResourceSp microsoftGraphAppId, .ok (some sp)⟩ ∈ h →
      ⟨.resolveResourceSp office365SharePointOnlineAppId, .ok (some o)⟩ ∈ h → o.id ≠ sp.id) :
    Honest principal.spObjectId conversion.removeOrgwide h r ↔ EvenRemovals principal.spObjectId h := by
  have hmeets := meets_convertSiteAccessCore principal conversion
  have hcalls := hmeets.calls_allowed hrun
  have hend := hmeets.sound hrun
  cases r with
  | error err =>
    refine iff_of_true ⟨hcalls, fun result hr => absurd hr (by simp)⟩ ?_
    exact fun a b value _ _ _ hb => absurd hb (hend _ _ _)
  | ok result =>
    obtain ⟨sp, online, existing, strip, hstripped, hwarnings⟩ := hend
    have hdistinct : ∀ o, online = .ok (some o) → o.id ≠ sp.id := by
      rintro o rfl
      exact hunique sp o (hstripped.resolved_graph.2 rfl) (hstripped.resolved_online.2 rfl)
    constructor
    · intro hhonest
      have hreported := hhonest.reported result rfl
      rw [hwarnings] at hreported
      exact hstripped.even_of_reported hcalls hreported
    · intro heven
      refine ⟨hcalls, fun result' hr => ?_⟩
      obtain rfl := Except.ok.inj hr
      rw [hwarnings]
      exact hstripped.reported hdistinct heven

/-! ## One value, assigned twice -/

def roleIdRead : Text := ['r']

def twoAssignments : List AppRoleAssignment := [⟨['1'], ['g'], roleIdRead⟩, ⟨['2'], ['g'], roleIdRead⟩]

def graphPrincipal : ServicePrincipal :=
  ⟨['g'], microsoftGraphAppId, [⟨roleIdRead, "Sites.Read.All".toList⟩, ⟨['s'], spSitesSelected⟩]⟩

def lonePrincipal : GraphRolePrincipal := ⟨none, ['p'], ['a']⟩

def oneSite : SiteConversion := ⟨['n'], [['u']], ['w'], true⟩

/-- A directory whose second deletion may fail. -/
def directory (second : Except Graph.GraphError Unit) :
    Trace → (c : Call) → Option (Answer c)
  | _, .resolveResourceSp appId =>
    some (.ok (if appId = microsoftGraphAppId then some graphPrincipal else none))
  | _, .listAppRoleAssignments _ => some (.ok twoAssignments)
  | _, .getServicePrincipalByObjectId id => some (.ok (some ⟨id, ['a'], []⟩))
  | _, .getApplication _ => none
  | _, .updateApplication _ _ => none
  | _, .grantAppRole _ _ _ => some (.ok ())
  | _, .getSiteByUrl url => some (.ok ⟨url, none, none⟩)
  | _, .grantSitePermission _ _ _ roles => some (.ok ⟨['z'], roles, []⟩)
  | _, .removeAppRoleAssignment _ a => some (if a.id = ['1'] then .ok () else second)
  | _, .invalidateAppDetailState => some ()
  | _, .invalidateSiteSweep => some ()

/-- The run that deletes the first assignment and tries the second. -/
def twoRemovals (second : Except Graph.GraphError Unit) : Trace := [
  ⟨.resolveResourceSp microsoftGraphAppId, .ok (some graphPrincipal)⟩,
  ⟨.resolveResourceSp office365SharePointOnlineAppId, .ok none⟩,
  ⟨.listAppRoleAssignments ['p'], .ok twoAssignments⟩,
  ⟨.getServicePrincipalByObjectId ['p'], .ok (some ⟨['p'], ['a'], []⟩)⟩,
  ⟨.grantAppRole ['p'] ['g'] ['s'], .ok ()⟩,
  ⟨.getSiteByUrl ['u'], .ok ⟨['u'], none, none⟩⟩,
  ⟨.grantSitePermission ['u'] ['a'] ['n'] [['w']], .ok ⟨['z'], [['w']], []⟩⟩,
  ⟨.removeAppRoleAssignment ['p'] ⟨['1'], ['g'], roleIdRead⟩, .ok ()⟩,
  ⟨.removeAppRoleAssignment ['p'] ⟨['2'], ['g'], roleIdRead⟩, second⟩,
  ⟨.invalidateAppDetailState, ()⟩,
  ⟨.invalidateSiteSweep, ()⟩]

/-- Its result when the second deletion fails. -/
def halfStripped : SiteScopeResult where
  grantedRoleAdded := true
  declaredPermission := false
  sitesGranted := [⟨['u'], none, ⟨['z'], [['w']], []⟩⟩]
  removedOrgwideGrants := ["Sites.Read.All".toList]
  warnings := [.grantNotRemoved "Sites.Read.All".toList .unauthorized]

theorem exec_halfStripped : Exec history [] (convertSiteAccessCore lonePrincipal oneSite).run
    (twoRemovals (.error .unauthorized)) (.ok halfStripped) :=
  exec_of_run (history_of_remembering (directory (.error .unauthorized))) rfl

/-- One of the two deletions fails, and no line says that the value is still held. -/
theorem value_left_once_is_not_named : ∃ h r,
    Exec history [] (convertSiteAccessCore lonePrincipal oneSite).run h r ∧
      ¬ Honest lonePrincipal.spObjectId oneSite.removeOrgwide h r := by
  refine ⟨_, _, exec_halfStripped, fun hhonest => ?_⟩
  have hlisted : Listed ['p'] (twoRemovals (.error .unauthorized)) ⟨['2'], ['g'], roleIdRead⟩ :=
    ⟨twoAssignments, by simp [twoRemovals], by simp [twoAssignments]⟩
  have hkept : ¬ Deleted ['p'] (twoRemovals (.error .unauthorized)) ⟨['2'], ['g'], roleIdRead⟩ := by
    rintro ⟨b, hb, hid⟩
    simp only [Removed, twoRemovals, List.mem_cons, Sigma.mk.injEq, Call.removeAppRoleAssignment.injEq,
      true_and, reduceCtorEq, false_and, List.not_mem_nil, or_false, false_or] at hb
    rcases hb with ⟨rfl, -⟩ | ⟨rfl, hans⟩
    · exact absurd hid (by decide)
    · exact absurd (eq_of_heq hans) (by simp)
  have hheld : HeldOn (twoRemovals (.error .unauthorized)) ⟨['2'], ['g'], roleIdRead⟩ microsoftGraphAppId
      "Sites.Read.All".toList :=
    ⟨graphPrincipal, by simp [twoRemovals], rfl, rfl⟩
  obtain ⟨held, asked, hline, -⟩ := (hhonest.reported halfStripped rfl _ hlisted hkept).1 _ _ hheld rfl
  simp [halfStripped] at hline

/-- Both deletions succeed, and the run is honest. -/
theorem value_deleted_twice_is_honest : ∃ r,
    Exec history [] (convertSiteAccessCore lonePrincipal oneSite).run (twoRemovals (.ok ())) r ∧
      Honest lonePrincipal.spObjectId oneSite.removeOrgwide (twoRemovals (.ok ())) r := by
  have hrun : Exec history [] (convertSiteAccessCore lonePrincipal oneSite).run (twoRemovals (.ok ()))
      (.ok ⟨true, false, [⟨['u'], none, ⟨['z'], [['w']], []⟩⟩],
        ["Sites.Read.All".toList, "Sites.Read.All".toList], []⟩) :=
    exec_of_run (history_of_remembering (directory (.ok ()))) rfl
  refine ⟨_, hrun, (conversion_honest_iff hrun ?_).2 ?_⟩
  · intro sp o _ ho
    simp [twoRemovals, microsoftGraph_ne_sharePointOnline.symm] at ho
  · rintro a b value ⟨l, hl, ha⟩ - - -
    obtain rfl : l = twoAssignments := by simpa [twoRemovals, lonePrincipal] using hl
    refine ⟨a, ?_, rfl⟩
    rcases List.mem_pair.1 ha with rfl | rfl <;> simp [Removed, twoRemovals, lonePrincipal]

end Sharepoint
