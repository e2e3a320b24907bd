import AzAppToolkit.Exchange.Migration
import AzAppToolkit.Exchange.OpathPieces

set_option autoImplicit false

/-! # Roles are bound to a scope that was proved

What a run knows of its management scope is the copies Exchange returned to it. Between any two
calls another administrator may create the scope or edit it, so the statements are about the history
of a run and leave the answers open. -/

namespace Exchange

open Prog

/-! ## Which calls a step makes -/

/-- The call returns a copy of a management scope, or states what the run wants of one. -/
def Call.aboutScope : Call → Bool
  | .getManagementScope _ | .newManagementScope _ _ | .setManagementScope _ _ | .intends _ _ => true
  | _ => false

/-- The call binds a role, or removes a grant because one was bound. -/
def Call.bindsRole : Call → Bool
  | .newRoleAssignment _ _ _ | .removeAppRoleAssignment _ _ => true
  | _ => false

/-- A step that says nothing about the scope. -/
def OffScope (c : Call) : Prop := c.aboutScope = false

/-- Nor binds a role. -/
def Preparing (c : Call) : Prop := c.aboutScope = false ∧ c.bindsRole = false

/-- The call reads or changes a grant, a role assignment or a policy. -/
def Call.onGrants : Call → Bool
  | .listAppRoleAssignments _ | .removeAppRoleAssignment _ _ | .getRoleAssignments _
  | .newRoleAssignment _ _ _ | .removeApplicationAccessPolicy _ => true
  | _ => false

/-- A step that is about neither the scope nor what is granted. -/
def Quiet (c : Call) : Prop := c.aboutScope = false ∧ c.onGrants = false

/-- The calls of `assign_scoped_roles`. -/
def Call.assigns : Call → Bool
  | .getRoleAssignments _ | .newRoleAssignment _ _ _ | .warn _ | .outOfBounds => true
  | _ => false

/-- The calls of `remove_unscoped_grants`. -/
def Call.strips : Call → Bool
  | .listAppRoleAssignments _ | .removeAppRoleAssignment _ _ | .warn _ => true
  | _ => false

variable {c : Call}

theorem offScope_of_assigns (h : c.assigns = true) : OffScope c := by
  cases c <;> first | rfl | exact absurd h (by simp [Call.assigns])

theorem offScope_of_strips (h : c.strips = true) : OffScope c := by
  cases c <;> first | rfl | exact absurd h (by simp [Call.strips])

theorem Quiet.preparing (h : Quiet c) : Preparing c := by
  refine ⟨h.1, ?_⟩
  obtain ⟨-, hgrants⟩ := h
  cases c <;> first | rfl | exact hgrants

section Calls

variable {allowed : Call → Prop} (uni : Unicode)

theorem only_orUiError {ε α : Type} {toUi : ε → UiError} {p : Async (Except ε α)}
    (h : Only allowed p) : Only allowed (orUiError toUi p).run :=
  Only.bind h (fun _ => Only.pure)

theorem only_call (h : allowed c) : Only allowed (call c) := Only.call h

theorem only_warn (line : Warning) : Only Quiet (warn line) := Only.call ⟨rfl, rfl⟩

theorem only_warnAll (hwarn : ∀ line, allowed (.warn line)) (lines : List Warning) :
    Only allowed (warnAll lines) := by
  unfold warnAll
  exact Only.foldlM (fun _ line => (Only.call (hwarn line) : Only allowed (warn line))) lines ()

theorem quiet_warn (line : Warning) : Quiet (.warn line) := ⟨rfl, rfl⟩

theorem only_ensureServicePrincipal (appId objectId displayName : Text) :
    Only Quiet (ensureServicePrincipal appId objectId displayName).run := by
  refine Only.tryBind (Only.call ⟨rfl, rfl⟩) (fun existing => ?_)
  cases existing with
  | some existing => exact Only.pure
  | none => exact Only.call ⟨rfl, rfl⟩

theorem only_ensureSecurityGroup (name groupAlias : Text) :
    Only Quiet (ensureSecurityGroup name groupAlias).run := by
  refine Only.tryBind (Only.call ⟨rfl, rfl⟩) (fun existing => ?_)
  cases existing with
  | some existing => exact Only.pure
  | none =>
    refine Only.tryBind (Only.call ⟨rfl, rfl⟩) (fun created => ?_)
    split
    · exact Only.pure
    · refine Only.tryBind (Only.call ⟨rfl, rfl⟩) (fun resolved => ?_)
      cases resolved with
      | some resolved => exact Only.pure
      | none => exact Only.pure

section Consolidation

variable (params : ConsolidateParams)

theorem only_keepSource (why : KeptBecause) (unverified : List Text) :
    Only Quiet (keepSource params why unverified) :=
  Only.bind (Only.call ⟨rfl, rfl⟩) (fun _ => Only.pure)

theorem only_refuse (why : Refusal) : Only Quiet (refuse params why) :=
  Only.bind (only_keepSource params _ _) (fun _ => Only.pure)

theorem only_readSources : Only Quiet (readSources params) :=
  Only.foldlM (fun _ _ => Only.bind (Only.call ⟨rfl, rfl⟩) (fun _ => Only.pure)) _ _

theorem only_managedIsLive : Only Quiet (managedIsLive uni params) := by
  unfold managedIsLive
  split
  · exact Only.pure
  · refine Only.bind (Only.call ⟨rfl, rfl⟩) (fun r => ?_)
    split
    · exact Only.pure
    · exact Only.pure

theorem only_readManaged (members : List SourceMember) (live : Bool) :
    Only Quiet (readManaged params members live) := by
  unfold readManaged
  split
  · exact Only.pure
  · refine Only.bind (Only.call ⟨rfl, rfl⟩) (fun r => ?_)
    cases r with
    | ok existing =>
      dsimp only
      by_cases hextras : (if live then [] else extraMembers members existing) ≠ []
      · rw [if_pos hextras]
        split
        · exact Only.pure
        · exact Only.bind (only_warn _) (fun _ => Only.pure)
      · rw [if_neg hextras]
        exact Only.pure
    | error err =>
      dsimp only
      split
      · exact Only.bind (only_warn _) (fun _ => Only.pure)
      · exact Only.pure

theorem only_copyMembers (groupName : Text) (members : List SourceMember) (alreadyIn : List Text) :
    Only Quiet (copyMembers groupName members alreadyIn) := by
  have hadd : ∀ missing, Only Quiet (addMissing groupName missing) := by
    intro missing
    refine Only.foldlM (fun outcomes m => Only.bind ?_ (fun _ => Only.pure)) missing []
    refine Only.bind (only_call ⟨rfl, rfl⟩) (fun gate => ?_)
    split
    · exact Only.pure
    · exact Only.bind (only_call ⟨rfl, rfl⟩) (fun _ => Only.pure)
  have hretry : ∀ copy item, Only Quiet (retryAdd groupName copy item) := by
    intro copy item
    refine Only.bind (only_call ⟨rfl, rfl⟩) (fun cancelled => ?_)
    split
    · exact Only.pure
    · refine Only.bind (only_call ⟨rfl, rfl⟩) (fun r => ?_)
      cases r with
      | ok _ | error err => exact Only.pure
  exact Only.bind (hadd _) (fun outcomes => Only.foldlM hretry _ _)

theorem only_verifyCopy (members : List SourceMember) (live : Bool) (managedDn : Option Text) :
    Only Quiet (verifyCopy uni params members live managedDn) := by
  refine Only.bind (only_call ⟨rfl, rfl⟩) (fun r => ?_)
  cases r with
  | error err => exact only_keepSource params _ _
  | ok list =>
    dsimp only
    split
    · exact Only.pure
    · exact Only.bind (only_warn _) (fun _ => Only.pure)

theorem only_copyStopped (copy : MemberCopy) : Only Quiet (copyStopped copy) := by
  unfold copyStopped
  split
  · exact Only.pure
  · exact Only.bind (only_call ⟨rfl, rfl⟩) (fun _ => Only.pure)

theorem only_copyAndVerify (members : List SourceMember) (live : Bool) (alreadyIn : List Text) :
    Only Quiet (copyAndVerify uni params members live alreadyIn) := by
  refine Only.bind (only_call ⟨rfl, rfl⟩) (fun cancelled => ?_)
  split
  · exact Only.bind (only_keepSource params _ _) (fun _ => Only.pure)
  · refine Only.bind (only_ensureSecurityGroup _ _) (fun g => ?_)
    cases g with
    | error err => exact only_keepSource params _ _
    | ok g =>
      refine Only.bind (only_copyMembers _ _ _) (fun copy => ?_)
      refine Only.bind (only_warnAll quiet_warn _) (fun _ => ?_)
      refine Only.bind (only_copyStopped copy) (fun stopped => ?_)
      split
      · exact Only.bind (only_keepSource params _ _) (fun _ => Only.pure)
      · exact only_verifyCopy uni params members live _

theorem only_consolidateScopeGroup : Only Quiet (consolidateScopeGroup uni params) := by
  refine Only.bind (only_readSources params) (fun reads => ?_)
  split
  · exact only_refuse params _
  · next members _ =>
    refine Only.bind (only_managedIsLive uni params) (fun live => ?_)
    refine Only.bind (only_readManaged params members live) (fun managed => ?_)
    split
    · exact only_refuse params _
    · split
      · exact Only.pure
      · exact only_copyAndVerify uni params members live _

end Consolidation

/-! ## Repointing -/

theorem only_setManagementScopeFilter
    (hset : ∀ name filter, allowed (.setManagementScope name filter))
    (hget : ∀ name, allowed (.getManagementScope name)) (name wanted : Text) :
    Only allowed (setManagementScopeFilter uni name wanted).run := by
  unfold setManagementScopeFilter
  split
  · exact Only.pure
  · refine Only.tryBind (only_call (hset _ _)) (fun updated => ?_)
    refine Only.tryBind ?_ (fun landedScope => Only.pure)
    unfold scopeAfterSet
    split
    · exact Only.pure
    · refine Only.tryBind (only_call (hget _)) (fun found => ?_)
      cases found with
      | some found | none => exact Only.pure

theorem only_repointScopeIfStale
    (hset : ∀ name filter, allowed (.setManagementScope name filter))
    (hget : ∀ name, allowed (.getManagementScope name)) (hwarn : ∀ line, allowed (.warn line))
    (scopeName current wanted : Text) :
    Only allowed (repointScopeIfStale uni scopeName current wanted) := by
  unfold repointScopeIfStale
  split
  · exact only_call (hwarn _)
  · split
    · exact Only.pure
    · refine Only.bind (only_setManagementScopeFilter uni hset hget _ _) (fun r => ?_)
      cases r with
      | ok _ | error err => exact only_call (hwarn _)

/-! ## The steps after the scope -/

theorem only_assignScopedRoles (appId scopeName : Text) (targets : List ExchangeTarget) :
    Only (fun c => c.assigns = true) (assignScopedRoles appId scopeName targets).run := by
  refine Only.tryBind (only_orUiError (only_call rfl)) (fun existing => ?_)
  refine Only.tryBind (Only.lift (only_warnAll (fun _ => rfl) _)) (fun _ => ?_)
  refine Only.lift (Only.foldlM (fun acc item => ?_) _ _)
  unfold assignRole
  split
  · exact Only.pure
  · next mirrors _ =>
    refine Only.bind ?_ (fun _ => Only.pure)
    unfold index
    split
    · exact Only.pure
    · exact ⟨rfl, fun r => r.elim⟩
  · refine Only.bind (only_call rfl) (fun r => ?_)
    cases r with
    | ok _ => exact Only.pure
    | error err => exact Only.bind (only_call rfl) (fun _ => Only.pure)

theorem only_stripAppRoleGrants (spId : Text) (assignments : List AppRoleAssignment)
    (select : AppRoleAssignment → Option Text) :
    Only (fun c => c.strips = true) (stripAppRoleGrants spId assignments select) := by
  refine Only.foldlM (fun removed a => ?_) _ _
  split
  · exact Only.pure
  · refine Only.bind (only_call rfl) (fun r => ?_)
    cases r with
    | ok _ => exact Only.pure
    | error err => exact Only.bind (only_call rfl) (fun _ => Only.pure)

theorem only_removeUnscopedGrants (spId : Text) (outcomes : List (ExchangeTarget × Bool)) :
    Only (fun c => c.strips = true) (removeUnscopedGrants spId outcomes) := by
  refine Only.bind (only_call rfl) (fun r => ?_)
  cases r with
  | error err => exact Only.bind (only_call rfl) (fun _ => Only.pure)
  | ok assignments =>
    exact Only.bind (only_stripAppRoleGrants _ _ _) (fun _ => Only.pure)

theorem only_stripIfAsked (params : ApplyExchangeMailboxScopeParams) (roles : ScopedRoles) :
    Only OffScope (stripIfAsked params roles) := by
  unfold stripIfAsked
  split
  · refine Only.bind ((only_removeUnscopedGrants _ _).weaken fun _ => offScope_of_strips)
      (fun strip => ?_)
    split
    · exact Only.bind (only_call rfl) (fun _ => Only.pure)
    · exact Only.pure
  · exact Only.bind (only_call rfl) (fun _ => Only.pure)

theorem only_bindRoles (ctx : MigrationContext) (appId : Text) (identities : List Text)
    (plan : MigrationPlan) (liveFilter : Text) :
    Only OffScope (bindRoles ctx appId identities plan liveFilter).run := by
  refine Only.tryBind ((only_assignScopedRoles _ _ _).weaken fun _ => offScope_of_assigns)
    (fun roles => ?_)
  refine Only.tryBind (Only.lift ((only_removeUnscopedGrants _ _).weaken
    fun _ => offScope_of_strips)) (fun strip => ?_)
  refine Only.tryBind (Only.lift ?_) (fun _ => Only.pure)
  unfold removeIfSafe
  split
  · refine Only.foldlM (fun acc identity => ?_) _ _
    refine Only.bind (only_call rfl) (fun r => ?_)
    cases r with
    | ok _ => exact Only.pure
    | error err => exact Only.bind (only_call rfl) (fun _ => Only.pure)
  · exact Only.bind (only_call rfl) (fun _ => Only.pure)

end Calls

/-! ## What Exchange showed of the scope -/

/-- The copy of scope `name` an answer carries. -/
def scopeCopy (name : Text) : Exchanged Answer → Option ExoManagementScope
  | ⟨.getManagementScope n, r⟩ => if n = name then r.toOption.join else none
  | ⟨.newManagementScope n _, r⟩ => if n = name then r.toOption else none
  | ⟨.setManagementScope n _, r⟩ => if n = name then r.toOption.join else none
  | _ => none

/-- The last copy of the scope Exchange returned to the run. -/
def lastCopy (name : Text) (trace : Trace) : Option ExoManagementScope :=
  trace.reverse.findSome? (scopeCopy name)

/-- The scope the run is about and the filter it wants there. -/
def intent : Exchanged Answer → Option (Text × Text)
  | ⟨.intends scopeName wanted, _⟩ => some (scopeName, wanted)
  | _ => none

def lastIntent (trace : Trace) : Option (Text × Text) := trace.reverse.findSome? intent

/-- The last copy carries a filter that agrees with the wanted one. -/
def scopeProved (uni : Unicode) (trace : Trace) : Bool :=
  (lastIntent trace).any (fun (scopeName, wanted) =>
    ((lastCopy scopeName trace).bind (·.recipientFilter)).any
      (fun f => scopeFilterAgrees uni f wanted))

/-- What `ensure_management_scope` gets back, the first copy after the wanted filter is settled,
    agrees with it, unless the scope did not agree already when the run looked before. -/
def EnsureAgrees (uni : Unicode) (trace : Trace) (e : Exchanged Answer) : Prop :=
  ∀ (scopeName wanted : Text) (before after : Trace),
    trace = before ++ ⟨.intends scopeName wanted, ()⟩ :: after →
    (∀ e' ∈ after, scopeCopy scopeName e' = none ∧ intent e' = none) →
    (∀ f, (lastCopy scopeName before).bind (·.recipientFilter) = some f →
      scopeFilterAgrees uni f wanted = true) →
    ∀ copy, scopeCopy scopeName e = some copy →
      copy.recipientFilter.any (fun f => scopeFilterAgrees uni f wanted) = true

/-- Any answers, but what `ensure_management_scope` gets back agrees. -/
def settled (uni : Unicode) : World Answer Trace :=
  fun s c r s' => history s c r s' ∧ EnsureAgrees uni s ⟨c, r⟩

theorem lastCopy_append (name : Text) (trace : Trace) (e : Exchanged Answer) :
    lastCopy name (trace ++ [e]) = (scopeCopy name e).or (lastCopy name trace) := by
  unfold lastCopy
  rw [List.reverse_append, List.reverse_singleton, List.singleton_append, List.findSome?_cons]
  cases scopeCopy name e with
  | none | some copy => rfl

theorem lastIntent_append (trace : Trace) (e : Exchanged Answer) :
    lastIntent (trace ++ [e]) = (intent e).or (lastIntent trace) := by
  unfold lastIntent
  rw [List.reverse_append, List.reverse_singleton, List.singleton_append, List.findSome?_cons]
  cases intent e with
  | none | some i => rfl

variable {r : Answer c}

theorem scopeCopy_offScope (name : Text) (h : OffScope c) : scopeCopy name ⟨c, r⟩ = none := by
  cases c <;> first | rfl | exact absurd h (by simp [OffScope, Call.aboutScope])

theorem intent_offScope (h : OffScope c) : intent ⟨c, r⟩ = none := by
  cases c <;> first | rfl | exact absurd h (by simp [OffScope, Call.aboutScope])

/-- A role is bound only when the scope is proved. -/
def BoundWhenProved (uni : Unicode) (trace : Trace) (c : Call) : Prop :=
  c.bindsRole = true → scopeProved uni trace = true

section Steps

variable {uni : Unicode} {scopeName wanted : Text} {existing : Option Text} {trace trace' : Trace}

theorem settled_trace (h : settled uni trace c r trace') : trace' = trace ++ [⟨c, r⟩] := h.1

theorem lastCopy_offScope (h : settled uni trace c r trace')
    (hc : OffScope c) : lastCopy scopeName trace' = lastCopy scopeName trace := by
  rw [settled_trace h, lastCopy_append, scopeCopy_offScope scopeName hc, Option.none_or]

theorem lastIntent_offScope (h : settled uni trace c r trace')
    (hc : OffScope c) : lastIntent trace' = lastIntent trace := by
  rw [settled_trace h, lastIntent_append, intent_offScope hc, Option.none_or]

/-- A program that says nothing about the scope, before the scope is proved. -/
theorem meets_preparing {α : Type} {p : Async α} {o : Option ExoManagementScope}
    (h : Only Preparing p) (hcopy : lastCopy scopeName trace = o) :
    Meets (settled uni) (BoundWhenProved uni) (fun s _ => lastCopy scopeName s = o) trace p := by
  refine h.meets (fun s c _ hc hbinds => ?_) (fun s c r s' hs hc hstep => ?_) hcopy
  · exact absurd hbinds (by simp [hc.2])
  · rw [lastCopy_offScope hstep hc.1, hs]

theorem meets_quiet {α : Type} {p : Async α} {o : Option ExoManagementScope}
    (h : Only Quiet p) (hcopy : lastCopy scopeName trace = o) :
    Meets (settled uni) (BoundWhenProved uni) (fun s _ => lastCopy scopeName s = o) trace p :=
  meets_preparing (h.weaken (fun _ hc => hc.preparing)) hcopy

/-- And after. -/
theorem meets_offScope {α : Type} {p : Async α} (h : Only OffScope p)
    (hproved : scopeProved uni trace = true) :
    Meets (settled uni) (BoundWhenProved uni) (fun _ _ => True) trace p := by
  have hkeep : Meets (settled uni) (BoundWhenProved uni) (fun s _ => scopeProved uni s = true)
      trace p := by
    have hok : ∀ s c, scopeProved uni s = true → OffScope c → BoundWhenProved uni s c :=
      fun s c hs _ _ => hs
    refine h.meets hok (fun s c r s' hs hc hstep => ?_) hproved
    unfold scopeProved at hs ⊢
    rw [lastIntent_offScope hstep hc]
    simpa only [lastCopy_offScope hstep hc] using hs
  exact hkeep.mono (fun _ _ _ => trivial)

/-- A call that binds no role. -/
theorem meets_call {post : Trace → Answer c → Prop} (hc : c.bindsRole = false)
    (h : ∀ r s', settled uni trace c r s' → post s' r) :
    Meets (settled uni) (BoundWhenProved uni) post trace (call c) :=
  Meets.call (fun hbinds => absurd hbinds (by simp [hc])) h

/-- The guard's read: what it returns is the filter of the only copy so far. -/
theorem meets_existingScopeFilterChecked {consequence : Text} (h : lastCopy scopeName trace = none) :
    Meets (settled uni) (BoundWhenProved uni)
      (OnResult (fun s existing => (lastCopy scopeName s).bind (·.recipientFilter) = existing)
        (fun _ _ => True)) trace (existingScopeFilterChecked scopeName consequence).run := by
  unfold existingScopeFilterChecked
  have hread : Meets (settled uni) (BoundWhenProved uni)
      (OnResult (fun s read => lastCopy scopeName s = read) (fun _ _ => True)) trace
      (call (.getManagementScope scopeName)) := by
    refine meets_call rfl (fun r s hstep => ?_)
    cases r with
    | error err => trivial
    | ok read =>
      show lastCopy scopeName s = read
      rw [settled_trace hstep, lastCopy_append, h, Option.or_none]
      simp [scopeCopy, Except.toOption]
  refine meets_orUiError hread (fun _ _ _ => trivial) (fun s read hcopy => ?_)
  show OnResult _ _ s (scopeFilterDecision read scopeName consequence)
  unfold scopeFilterDecision
  split
  · show (lastCopy scopeName s).bind _ = none
    rw [hcopy]
    rfl
  · next copy =>
    split
    · next filter hfilter =>
      show (lastCopy scopeName s).bind _ = some filter
      rw [hcopy]
      exact hfilter
    · trivial

/-- The wanted filter is settled, and no copy of the scope came since. -/
def Wanted (scopeName wanted : Text) (existing : Option Text) (trace : Trace) : Prop :=
  ∃ before after, trace = before ++ ⟨.intends scopeName wanted, ()⟩ :: after ∧
    (lastCopy scopeName before).bind (·.recipientFilter) = existing ∧
    ∀ e ∈ after, scopeCopy scopeName e = none ∧ intent e = none

/-- The scope is there; it is proved unless the guard's read did not agree. -/
def Ensured (uni : Unicode) (scopeName wanted : Text) (existing : Option Text) (trace : Trace) :
    Prop :=
  lastIntent trace = some (scopeName, wanted) ∧
    ((∀ f, existing = some f → scopeFilterAgrees uni f wanted = true) →
      scopeProved uni trace = true)

theorem Wanted.lastIntent (h : Wanted scopeName wanted existing trace) :
    lastIntent trace = some (scopeName, wanted) := by
  obtain ⟨before, after, rfl, -, hafter⟩ := h
  unfold Exchange.lastIntent
  have hnone : after.reverse.findSome? intent = none := by
    rw [List.findSome?_eq_none_iff]
    exact fun e he => (hafter e (List.mem_reverse.1 he)).2
  rw [List.reverse_append, List.reverse_cons, List.append_assoc, List.findSome?_append, hnone]
  rfl

/-- The first copy after the wanted filter is settled. -/
theorem Wanted.ensured {copy : ExoManagementScope}
    (h : Wanted scopeName wanted existing trace) (hstep : settled uni trace c r trace')
    (hintent : intent ⟨c, r⟩ = none) (hcopy : scopeCopy scopeName ⟨c, r⟩ = some copy) :
    Ensured uni scopeName wanted existing trace' := by
  have hlast : Exchange.lastIntent trace' = some (scopeName, wanted) := by
    rw [settled_trace hstep, lastIntent_append, hintent, Option.none_or, h.lastIntent]
  refine ⟨hlast, fun hagrees => ?_⟩
  obtain ⟨before, after, hsplit, hlooked, hafter⟩ := h
  have hproved := hstep.2 scopeName wanted before after hsplit hafter
    (fun f hf => hagrees f (hlooked ▸ hf)) copy hcopy
  unfold scopeProved
  rw [hlast]
  simp only [Option.any_some]
  rw [settled_trace hstep, lastCopy_append, hcopy]
  exact hproved

/-- An answer that carries no copy. -/
theorem Wanted.append {e : Exchanged Answer} (h : Wanted scopeName wanted existing trace)
    (hcopy : scopeCopy scopeName e = none) (hintent : intent e = none) :
    Wanted scopeName wanted existing (trace ++ [e]) := by
  obtain ⟨before, after, rfl, hlooked, hafter⟩ := h
  refine ⟨before, after ++ [e], by simp, hlooked, fun e' he' => ?_⟩
  rw [List.mem_append, List.mem_singleton] at he'
  rcases he' with he' | rfl
  · exact hafter e' he'
  · exact ⟨hcopy, hintent⟩

theorem meets_ensureManagementScope (h : Wanted scopeName wanted existing trace) :
    Meets (settled uni) (BoundWhenProved uni)
      (OnResult (fun s _ => Ensured uni scopeName wanted existing s) (fun _ _ => True)) trace
      (ensureManagementScope scopeName wanted).run := by
  unfold ensureManagementScope
  refine Meets.tryBind (meets_call rfl (fun r s hstep => ?_))
  cases r with
  | error err => trivial
  | ok found =>
    cases found with
    | some copy =>
      have hcopy : scopeCopy scopeName ⟨.getManagementScope scopeName, .ok (some copy)⟩
          = some copy := by simp [scopeCopy, Except.toOption]
      exact h.ensured hstep rfl hcopy
    | none =>
      have hwanted : Wanted scopeName wanted existing s := by
        rw [settled_trace hstep]
        exact h.append (by simp [scopeCopy, Except.toOption]) rfl
      refine meets_call rfl (fun r s hstep => ?_)
      cases r with
      | error err => trivial
      | ok copy =>
        have hcopy : scopeCopy scopeName ⟨.newManagementScope scopeName wanted, .ok copy⟩
            = some copy := by simp [scopeCopy, Except.toOption]
        exact hwanted.ensured hstep rfl hcopy

/-! ## The migration and the grant -/

/-- A call that does not state a wanted filter. -/
def KeepsIntent (c : Call) : Prop := (∀ n w, c ≠ .intends n w) ∧ c.bindsRole = false

theorem meets_reconcileScopeFilter {mayRepoint : Bool} (h : Ensured uni scopeName wanted existing trace) :
    Meets (settled uni) (BoundWhenProved uni)
      (OnResult (fun s _ => scopeProved uni s = true) (fun _ _ => True)) trace
      (reconcileScopeFilter uni scopeName existing wanted mayRepoint).run := by
  unfold reconcileScopeFilter
  split
  · exact Meets.pure (h.2 (fun f hf => absurd hf (by simp)))
  · next current =>
    split
    · next hagrees =>
      refine Meets.pure (h.2 (fun f hf => ?_))
      rw [← Option.some.inj hf]
      exact hagrees
    · split
      · trivial
      · have hkept : Meets (settled uni) (BoundWhenProved uni)
            (fun s _ => lastIntent s = some (scopeName, wanted)) trace
            (repointScopeIfStale uni scopeName current wanted) := by
          have honly : Only KeepsIntent (repointScopeIfStale uni scopeName current wanted) :=
            only_repointScopeIfStale uni (fun _ _ => ⟨by simp, rfl⟩) (fun _ => ⟨by simp, rfl⟩)
              (fun _ => ⟨by simp, rfl⟩) _ _ _
          refine honly.meets
            (fun s c _ hc hbinds => absurd hbinds (by simp [hc.2]))
            (fun s c r s' hs hc hstep => ?_) h.1
          rw [settled_trace hstep, lastIntent_append]
          have hintent : intent ⟨c, r⟩ = none := by
            cases c <;> first | rfl | exact absurd rfl (hc.1 _ _)
          rw [hintent, Option.none_or, hs]
        refine Meets.liftBind (hkept.mono (fun s _ hs => ?_))
        -- the read after the repoint is the last copy, and it is the one compared
        have hread : Meets (settled uni) (BoundWhenProved uni)
            (OnResult (fun s read => lastIntent s = some (scopeName, wanted) ∧
              ∀ copy, read = some copy → lastCopy scopeName s = some copy) (fun _ _ => True)) s
            (call (.getManagementScope scopeName)) := by
          refine meets_call rfl (fun r s' hstep => ?_)
          cases r with
          | error err => trivial
          | ok read =>
            rw [settled_trace hstep]
            refine ⟨by rw [lastIntent_append, hs]; rfl, fun copy hcopy => ?_⟩
            rw [lastCopy_append, hcopy]
            simp [scopeCopy, Except.toOption]
        refine meets_orUiError hread (fun _ _ _ => trivial) (fun s read hs => ?_)
        split
        · next f hfilter =>
          split
          · next hagrees =>
            refine Meets.pure ?_
            show scopeProved uni s = true
            obtain ⟨copy, hcopy, hf⟩ := Option.bind_eq_some_iff.1 hfilter
            unfold scopeProved
            rw [hs.1, Option.any_some]
            simp only [hs.2 copy hcopy, Option.bind_some, hf, Option.any_some, hagrees]
          · trivial
        · trivial

/-- From the wanted filter on, both functions go through the scope to the roles. -/
theorem Wanted.intends {r : Answer (.intends scopeName wanted)}
    (h : (lastCopy scopeName trace).bind (·.recipientFilter) = existing)
    (hstep : settled uni trace (.intends scopeName wanted) r trace') :
    Wanted scopeName wanted existing trace' :=
  ⟨trace, [], settled_trace hstep, h, by simp⟩

theorem meets_scopeThenBind {ctx : MigrationContext} {appId : Text} {identities : List Text}
    {plan : MigrationPlan}
    (h : (lastCopy plan.scopeName trace).bind (·.recipientFilter) = plan.existingFilter) :
    Meets (settled uni) (BoundWhenProved uni) (fun _ _ => True) trace
      (scopeThenBind uni ctx appId identities plan).run := by
  unfold scopeThenBind
  refine Meets.liftBind (meets_call rfl (fun r s hstep => ?_))
  refine meets_orUiError (meets_ensureManagementScope (Wanted.intends h hstep))
    (fun _ _ _ => trivial) (fun s _ hensured => ?_)
  refine Meets.tryThen (meets_reconcileScopeFilter hensured) (fun _ _ _ => trivial)
    (fun s liveFilter hproved => ?_)
  refine meets_offScope ?_ hproved
  refine Only.tryBind (only_orUiError ?_) (fun _ => only_bindRoles _ _ _ _ _)
  exact (only_ensureServicePrincipal _ _ _).weaken (fun c hc => hc.1)

theorem only_planned (ctx : MigrationContext) (appId : Text) (identities : List Text)
    (plan : MigrationPlan) : Only Quiet (planned uni ctx appId identities plan) :=
  Only.bind (only_warnAll quiet_warn _) (fun _ =>
    Only.bind (only_warnAll quiet_warn _) (fun _ => Only.pure))

theorem only_resolvePolicyGroup (dns : List Text) (policy : ExoApplicationAccessPolicy) :
    Only Quiet (resolvePolicyGroup dns policy).run := by
  unfold resolvePolicyGroup
  split
  · exact Only.pure
  · refine Only.tryBind (only_orUiError (only_call ⟨rfl, rfl⟩)) (fun group => ?_)
    split
    · exact Only.pure
    · split
      · exact Only.pure
      · exact Only.pure

theorem only_resolveGroup (acc : List ExchangeGroupRef × List Text) (identifier : Text) :
    Only Quiet (resolveGroup acc identifier).run := by
  refine Only.tryBind (only_orUiError (only_call ⟨rfl, rfl⟩)) (fun group => ?_)
  split
  · split
    · exact Only.pure
    · exact Only.tryBind (Only.lift (only_warn _)) (fun _ => Only.pure)
  · exact Only.tryBind (Only.lift (only_warn _)) (fun _ => Only.pure)

theorem meets_migrateTargets {ctx : MigrationContext} {appId : Text} {identities dns : List Text}
    {entraSp : EntraServicePrincipal} {consolidation : ScopeGroupConsolidation}
    (h : (lastCopy (ctx.scopeNameOf appId) trace).bind (·.recipientFilter) = existing) :
    Meets (settled uni) (BoundWhenProved uni) (fun _ _ => True) trace
      (migrateTargets uni ctx appId identities entraSp dns existing consolidation).run := by
  unfold migrateTargets
  have hnow : lastCopy (ctx.scopeNameOf appId) trace = lastCopy (ctx.scopeNameOf appId) trace := rfl
  refine meets_orUiError (meets_preparing (only_call ⟨rfl, rfl⟩) hnow).always
    (fun _ _ _ => trivial) (fun s assignments hs => ?_)
  refine Meets.liftBind ((meets_quiet (only_warnAll quiet_warn _) hs).mono (fun s _ hs => ?_))
  split
  · exact Meets.lift ((meets_quiet (only_planned _ _ _ _) hs).mono (fun _ _ _ => trivial))
  · exact meets_scopeThenBind (by rw [hs]; exact h)

theorem meets_migrateOne (ctx : MigrationContext) (appId : Text)
    (policies : List ExoApplicationAccessPolicy) :
    Meets (settled uni) (BoundWhenProved uni) (fun _ _ => True) []
      (migrateOne uni ctx appId policies).run := by
  unfold migrateOne migrateFolded
  have hnone : lastCopy (ctx.scopeNameOf (toAsciiLowercase appId)) [] = none := rfl
  refine meets_orUiError (meets_preparing (only_call ⟨rfl, rfl⟩) hnone).always
    (fun _ _ _ => trivial) (fun s found hs => ?_)
  cases found with
  | none => trivial
  | some entraSp =>
    refine Meets.tryThen (meets_quiet
      (Only.tryFoldlM only_resolvePolicyGroup policies []) hs).always
      (fun _ _ _ => trivial) (fun s dns hs => ?_)
    refine Meets.liftBind ((meets_quiet (only_warnAll quiet_warn _) hs).mono (fun s _ hs => ?_))
    refine Meets.tryThen (meets_existingScopeFilterChecked hs) (fun _ _ _ => trivial)
      (fun s existing hlooked => ?_)
    have hnow : lastCopy (ctx.scopeNameOf (toAsciiLowercase appId)) s
        = lastCopy (ctx.scopeNameOf (toAsciiLowercase appId)) s := rfl
    refine Meets.liftBind ((meets_quiet (only_consolidateScopeGroup uni _) hnow).mono
      (fun s consolidation hs => ?_))
    split
    · exact Meets.liftBind ((meets_quiet (only_warn _) hs).mono (fun _ _ _ => trivial))
    · exact meets_migrateTargets (by rw [hs]; exact hlooked)

theorem meets_applyExchangeMailboxScope (params : ApplyExchangeMailboxScopeParams) :
    Meets (settled uni) (BoundWhenProved uni) (fun _ _ => True) []
      (applyExchangeMailboxScope uni params).run := by
  unfold applyExchangeMailboxScope
  have hnone : lastCopy (params.tenantDefaults.scopeNameFor params.appId) [] = none := rfl
  refine meets_orUiError (meets_quiet (only_ensureServicePrincipal _ _ _) hnone).always
    (fun _ _ _ => trivial) (fun s _ hs => ?_)
  refine Meets.tryThen (meets_quiet
    (Only.tryFoldlM only_resolveGroup params.groups ([], [])) hs).always
    (fun _ _ _ => trivial) (fun s resolved hs => ?_)
  obtain ⟨groupRefs, dns⟩ := resolved
  dsimp only
  split
  · trivial
  · refine Meets.tryThen (meets_existingScopeFilterChecked hs) (fun _ _ _ => trivial)
      (fun s existing hlooked => ?_)
    split
    · trivial
    · next hguard =>
      refine Meets.liftBind (meets_call rfl (fun r s' hstep => ?_))
      refine meets_orUiError (meets_ensureManagementScope (Wanted.intends hlooked hstep))
        (fun _ _ _ => trivial) (fun s _ hensured => ?_)
      have hproved := hensured.2 (fun f hf => by
        rw [hf] at hguard
        simpa using hguard)
      refine meets_offScope ?_ hproved
      refine Only.tryBind ((only_assignScopedRoles _ _ _).weaken fun _ => offScope_of_assigns)
        (fun roles => ?_)
      exact Only.tryBind (Only.lift (only_stripIfAsked _ _)) (fun _ => Only.pure)

end Steps

/-- In every run in which what `ensure_management_scope` gets back agrees with the wanted filter
    (unless the scope did not agree already when the run first looked), a role assignment or a grant
    removal is issued only when the last copy of the scope that Exchange returned agrees. -/
theorem roles_bound_to_proved_scope (uni : Unicode) :
    (∀ (ctx : MigrationContext) (appId : Text) (policies : List ExoApplicationAccessPolicy)
      (trace : Trace) (c : Call),
      Asks (settled uni) [] (migrateOne uni ctx appId policies).run trace c → c.bindsRole = true →
      scopeProved uni trace = true) ∧
    ∀ (params : ApplyExchangeMailboxScopeParams) (trace : Trace) (c : Call),
      Asks (settled uni) [] (applyExchangeMailboxScope uni params).run trace c →
      c.bindsRole = true → scopeProved uni trace = true :=
  ⟨fun ctx appId policies _ _ hasks => (meets_migrateOne ctx appId policies).asked hasks,
    fun params _ _ hasks => (meets_applyExchangeMailboxScope params).asked hasks⟩

/-! ## A scope that appears between two reads -/

/-- A grant of `Mail.Read` on the members of one group. -/
def grantToGroup : ApplyExchangeMailboxScopeParams where
  tenantDefaults := ⟨none, none⟩
  appId := "app".toList
  spObjectId := "sp".toList
  displayName := "App".toList
  targets := [⟨"Mail.Read".toList, "Application Mail.Read".toList, "r".toList, "graph".toList, true⟩]
  groups := ["sales".toList]
  removeUnscoped := true

/-- What Exchange answers the grant: no scope at the first read, and `found` at the second. -/
def grantAnswers (found : Text → Option ExoManagementScope) (trace : Trace) :
    (c : Call) → Option (Answer c)
  | .getExoServicePrincipal _ => some (.ok (some ⟨none, none⟩))
  | .getGroup _ => some (.ok (some ⟨some "CN=Sales".toList⟩))
  | .getManagementScope _ => some (.ok ((lastIntent trace).bind (fun i => found i.2)))
  | .getRoleAssignments _ => some (.ok [])
  | .intends _ _ => some ()
  | .warn _ => some ()
  | _ => none

/-- The scope with the wanted filter, when that is a chain of groups. -/
def wantedScope (wanted : Text) : Option ExoManagementScope :=
  if scopeFilterAgrees Opath.asciiUnicode wanted wanted then some ⟨none, some wanted⟩ else none

theorem settled_of_wantedScope (s : Trace) (c : Call) (r : Answer c) (s' : Trace)
    (h : remembering (grantAnswers wantedScope) s c = some (r, s')) :
    settled Opath.asciiUnicode s c r s' := by
  refine ⟨history_of_remembering _ s c r s' h, ?_⟩
  intro scopeName wanted before after hsplit hafter _ copy hcopy
  obtain ⟨r', hanswer, heq⟩ := Option.map_eq_some_iff.1 h
  obtain ⟨rfl, -⟩ := Prod.mk.inj heq
  have hlast := Wanted.lastIntent ⟨before, after, hsplit, rfl, hafter⟩
  cases c with
  | getManagementScope name =>
    have hr : r' = .ok ((lastIntent s).bind (fun i => wantedScope i.2)) :=
      (Option.some.inj hanswer).symm
    rw [hr, hlast] at hcopy
    simp only [scopeCopy, Except.toOption, Option.bind_some] at hcopy
    unfold wantedScope at hcopy
    split at hcopy
    · split at hcopy
      · next hagrees =>
        obtain rfl : (⟨none, some wanted⟩ : ExoManagementScope) = copy := by simpa using hcopy
        exact hagrees
      · exact absurd hcopy (by simp)
    · exact absurd hcopy (by simp)
  | newManagementScope name filter | setManagementScope name filter =>
    exact absurd hanswer (by simp [grantAnswers])
  | _ => exact absurd hcopy (by simp [scopeCopy])

/-- A run in which the scope comes back with the wanted filter gets to bind its role. -/
theorem role_bound_to_wanted_scope : ∃ trace c,
    Asks (settled Opath.asciiUnicode) [] (applyExchangeMailboxScope Opath.asciiUnicode
      grantToGroup).run trace c ∧ c.bindsRole = true ∧
      scopeProved Opath.asciiUnicode trace = true := by
  have hfirst : (firstAsk (remembering (grantAnswers wantedScope)) Call.bindsRole
      (applyExchangeMailboxScope Opath.asciiUnicode grantToGroup).run []).isSome = true := by
    decide +kernel
  obtain ⟨⟨trace, c⟩, hask⟩ := Option.isSome_iff_exists.1 hfirst
  obtain ⟨hasks, hbinds⟩ := asks_of_firstAsk settled_of_wantedScope hask
  exact ⟨trace, c, hasks, hbinds,
    (roles_bound_to_proved_scope Opath.asciiUnicode).2 grantToGroup trace c hasks hbinds⟩

/-- Another administrator creates the scope, over another group, after the guard looked: the role is
    bound to it. -/
theorem role_bound_to_unproved_scope : ¬ ∀ (uni : Unicode) (params : ApplyExchangeMailboxScopeParams)
    (trace : Trace) (c : Call),
    Asks history [] (applyExchangeMailboxScope uni params).run trace c → c.bindsRole = true →
      scopeProved uni trace = true := by
  intro h
  have hfirst : (firstAsk (remembering (grantAnswers
      (fun _ => some ⟨none, some "MemberOfGroup -eq 'CN=Everyone'".toList⟩))) Call.bindsRole
      (applyExchangeMailboxScope Opath.asciiUnicode grantToGroup).run []).map
        (fun r => scopeProved Opath.asciiUnicode r.1) = some false := by decide +kernel
  obtain ⟨⟨trace, c⟩, hask, hnot⟩ := Option.map_eq_some_iff.1 hfirst
  obtain ⟨hasks, hbinds⟩ := asks_of_firstAsk (history_of_remembering _) hask
  have hproved := h Opath.asciiUnicode grantToGroup trace c hasks hbinds
  rw [hnot] at hproved
  exact absurd hproved (by simp)

end Exchange
