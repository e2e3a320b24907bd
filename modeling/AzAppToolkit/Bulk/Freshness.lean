import AzAppToolkit.App.CacheTiers
import AzAppToolkit.Bulk.Accounting

set_option autoImplicit false

/-! # What a bulk write leaves in the cache

A call that answered an error may have landed, and so may the calls of a task that never reported. Each
fold decides from what it has of the outcomes which tier to drop, and it is enough exactly when something
it looks at says that something landed. -/

namespace Bulk

open Prog Tiers

/-! ## Effects -/

/-- One effect, on the cache of a tenant. -/
def CacheEffect.apply (tenantId : Text) (c : AppCache) : CacheEffect → AppCache
  | .invalidateAppLists => Tiers.invalidateAppLists c tenantId
  | .recordDeletedApps ids => Tiers.recordDeletedApps c tenantId ids
  | .invalidateAppCredentials id => Tiers.invalidateAppCredentials c tenantId id
  | .invalidateAppDetailState => Tiers.invalidateAppDetailState c tenantId

def applyEffects (tenantId : Text) (effects : List CacheEffect) (c : AppCache) : AppCache :=
  effects.foldl (CacheEffect.apply tenantId) c

/-- Each app of the list has its credential tier dropped, and nothing else is. -/
theorem drops_credentials (tenantId : Text) (ids : List Text) (c : AppCache) :
    Drops c (applyEffects tenantId (ids.map .invalidateAppCredentials) c)
      (fun kind key => ∃ id ∈ ids, CredentialTier tenantId id kind key) := by
  induction ids generalizing c with
  | nil =>
    intro kind key
    exact ⟨fun ⟨_, hid, _⟩ => absurd hid List.not_mem_nil, fun _ => rfl⟩
  | cons id ids ih =>
    have hstep := (drops_appCredentials c tenantId id).trans (ih (Tiers.invalidateAppCredentials c tenantId id))
    refine hstep.congr fun kind key => ?_
    simp only [List.mem_cons, exists_eq_or_imp]

/-! ## Caches that hold one entry -/

/-- A cache with one entry, of which nothing more is said. -/
def holding (kind : CacheKind) (key : Text) : AppCache :=
  ⟨true, fun k t => if k = kind ∧ t = key then some ⟨true, .other⟩ else none⟩

theorem holding_entry (kind : CacheKind) (key : Text) :
    (holding kind key).entries kind key = some ⟨true, .other⟩ := if_pos ⟨rfl, rfl⟩

theorem rowsTrue_holding (appIdOf : Text → Text) (kind : CacheKind) (key : Text) :
    RowsTrue appIdOf (holding kind key) := by
  rintro k t e he r ⟨rows, htyped, -⟩
  unfold holding at he
  dsimp only at he
  split at he
  · obtain rfl := Option.some.inj he
    rcases htyped with htyped | htyped <;> cases htyped
  · exact absurd he.symm (Option.some_ne_none e)

theorem audit_in_listTier (tenantId : Text) : ListTier tenantId .audit (auditCacheKey tenantId) :=
  .inr (.inr (.inr ⟨rfl, rfl⟩))

/-- The enterprise list is no part of the detail tier. -/
theorem enterprise_not_detail (tenantId : Text) : ¬ DetailTier tenantId .lists (enterpriseKey tenantId) := by
  rintro (⟨-, hdetail | hscopes⟩ | ⟨hkind, -⟩)
  · have h := (List.prefix_append_right_inj tenantId).1 (List.isPrefixOf_iff_prefix.1 hdetail)
    exact absurd h (by decide)
  · have h := (List.prefix_append_right_inj tenantId).1 (List.isPrefixOf_iff_prefix.1 hscopes)
    exact absurd h (by decide)
  · cases hkind

/-- The detail payload of an app is in no other app's credential tier. -/
theorem detail_not_credential {tenantId id other : Text} (h : id ≠ other) :
    ¬ CredentialTier tenantId other .lists (appDetailKey tenantId id) := by
  have hkey : ∀ suffix : String, ¬ ('|' :: "app_detail|".toList) <+: ('|' :: suffix.toList) →
      appDetailKey tenantId id ≠ tenantKey suffix tenantId := by
    intro suffix hnot heq
    unfold appDetailKey appDetailPrefix tenantKey at heq
    rw [List.append_assoc] at heq
    exact hnot ⟨id, List.append_cancel_left heq⟩
  rintro (⟨-, heq | heq | heq⟩ | ⟨hkind, -⟩)
  · exact hkey _ (by decide) heq
  · exact hkey _ (by decide) heq
  · exact h (List.append_cancel_left heq)
  · cases hkind

/-! ## Lost tasks -/

section Lost

variable {T O : Type} {cmd : CappedCommand T O} {items : List T} {h : BulkHistory T O} {run : CappedRun O}

/-- The id's task never reported, and neither did another of that id. -/
def LostAlone (idOf : T → Text) (h : BulkHistory T O) (id : Text) : Prop :=
  (∃ t, (t, none) ∈ joinedIn h ∧ idOf t = id) ∧ ∀ t o, (t, some o) ∈ joinedIn h → idOf t ≠ id

theorem mem_outcomes (hend : RunEnd cmd items h run) {o : O} :
    o ∈ run.outcomes ↔ ∃ t, (t, some o) ∈ joinedIn h := by
  obtain ⟨started, s, -, hrun, hout, -, -⟩ := hend
  rw [hout, hrun.outcomes, List.mem_filterMap]
  constructor
  · rintro ⟨⟨t, r⟩, hj, rfl⟩
    exact ⟨t, hj⟩
  · rintro ⟨t, hj⟩
    exact ⟨_, hj, rfl⟩

theorem RunEnd.reports (hend : RunEnd cmd items h run) {t : T} {o : O} (hj : (t, some o) ∈ joinedIn h) :
    cmd.reports t o := by
  obtain ⟨started, s, -, hrun, -, -, -⟩ := hend
  exact hrun.reported t o hj

theorem mem_reportedIds (hend : RunEnd cmd items h run) {id : Text} :
    id ∈ run.outcomes.map cmd.out.objectId ↔ ∃ t o, (t, some o) ∈ joinedIn h ∧ cmd.idOf t = id := by
  rw [List.mem_map]
  constructor
  · rintro ⟨o, ho, rfl⟩
    obtain ⟨t, hj⟩ := (mem_outcomes hend).1 ho
    exact ⟨t, o, hj, (cmd.objectId_of_reports t o (hend.reports hj)).symm⟩
  · rintro ⟨t, o, hj, rfl⟩
    exact ⟨o, (mem_outcomes hend).2 ⟨t, hj⟩, cmd.objectId_of_reports t o (hend.reports hj)⟩

theorem mem_lost (hend : RunEnd cmd items h run) {id : Text} : id ∈ run.lost ↔ LostAlone cmd.idOf h id := by
  rw [hend.lost.mem_iff, List.mem_filter, List.mem_map, Bool.not_eq_true', ← Bool.not_eq_true,
    List.contains_iff_mem, mem_reportedIds hend]
  simp only [mem_lostTasks]
  constructor
  · rintro ⟨hlost, hnot⟩
    exact ⟨hlost, fun t o hj heq => hnot ⟨t, o, hj, heq⟩⟩
  · rintro ⟨hlost, hnot⟩
    exact ⟨hlost, fun ⟨t, o, hj, heq⟩ => hnot t o hj heq⟩

theorem lost_ne_nil (hend : RunEnd cmd items h run) : run.lost ≠ [] ↔ ∃ id, LostAlone cmd.idOf h id := by
  rw [ne_eq, List.eq_nil_iff_forall_not_mem]
  simp only [mem_lost hend, not_forall, not_not]

end Lost

/-! ## Delete -/

/-- What a bulk delete removed: every app whose DELETE was answered, and any of the others. -/
structure DeleteLanding (h : BulkHistory Text DeleteOutcome) where
  landed : Text → Prop
  answered : ∀ id, (id, some (.ok id)) ∈ joinedIn h → landed id
  dispatched : ∀ id, landed id → ∃ r, (id, r) ∈ joinedIn h

theorem mem_deletedOf {outcomes : List DeleteOutcome} {id : Text} :
    id ∈ deletedOf outcomes ↔ .ok id ∈ outcomes := by
  unfold deletedOf
  rw [List.mem_filterMap]
  constructor
  · rintro ⟨outcome, ho, heq⟩
    cases outcome with
    | error failure => cases heq
    | ok found =>
      obtain rfl := Option.some.inj heq
      exact ho
  · intro ho
    exact ⟨_, ho, rfl⟩

theorem failedOf_eq_nil {outcomes : List DeleteOutcome} :
    failedOf outcomes = [] ↔ ∀ failure, .error failure ∉ outcomes := by
  unfold failedOf
  rw [List.filterMap_eq_nil_iff]
  constructor
  · intro hall failure hin
    cases hall _ hin
  · intro hnone outcome ho
    cases outcome with
    | ok id => rfl
    | error failure => exact absurd ho (hnone failure)

/-- The rows and the audit say nothing of the apps that are gone. -/
def DeleteFresh (tenantId : Text) (appIdOf : Text → Text) (landed : Text → Prop) (c : AppCache) : Prop :=
  ∀ id, landed id → Unmentioned (ListTier tenantId) id (appIdOf id) c

section Delete

variable {items : List Text} {h : BulkHistory Text DeleteOutcome} {run : CappedRun DeleteOutcome}

theorem finishBulkDelete_effects (run : CappedRun DeleteOutcome) :
    (finishBulkDelete run).1 =
      if run.lost ≠ [] ∨ (deletedOf run.outcomes ≠ [] ∧ failedOf run.outcomes ≠ []) then [.invalidateAppLists]
      else if deletedOf run.outcomes ≠ [] then [.recordDeletedApps (deletedOf run.outcomes)]
      else [] := by
  unfold finishBulkDelete
  by_cases hlost : run.lost = []
  · simp [hlost]
  · simp [hlost]

theorem deleted_task (hend : RunEnd deleteCommand items h run) {app t : Text}
    (hj : (t, some (.ok app)) ∈ joinedIn h) : t = app :=
  (deleteCommand.objectId_of_reports t _ (hend.reports hj)).symm

/-- Where no task failed and none is lost, what landed was reported. -/
theorem landed_deleted (hend : RunEnd deleteCommand items h run) (l : DeleteLanding h)
    (hlost : run.lost = []) (hfailed : failedOf run.outcomes = []) {app : Text} (hlanded : l.landed app) :
    app ∈ deletedOf run.outcomes := by
  obtain ⟨r, hj⟩ := l.dispatched app hlanded
  have hreported : ∃ t o, (t, some o) ∈ joinedIn h ∧ t = app := by
    cases r with
    | some o => exact ⟨app, o, hj, rfl⟩
    | none =>
      by_contra hnone
      have hin : app ∈ run.lost := (mem_lost hend).2 ⟨⟨app, hj, rfl⟩, fun t o hj' heq => hnone ⟨t, o, hj', heq⟩⟩
      rw [hlost] at hin
      cases hin
  obtain ⟨t, o, hj', rfl⟩ := hreported
  have ho : o ∈ run.outcomes := (mem_outcomes hend).2 ⟨t, hj'⟩
  cases o with
  | error failure => exact absurd ho (failedOf_eq_nil.1 hfailed failure)
  | ok app =>
    obtain rfl := deleted_task hend hj'
    exact mem_deletedOf.2 ho

/-- A delete leaves nothing stale exactly if what landed shows in a call that succeeded, or in an app
    nobody reported. -/
theorem delete_fresh_iff (tenantId : Text) (hend : RunEnd deleteCommand items h run) (l : DeleteLanding h) :
    (∀ appIdOf c, RowsTrue appIdOf c →
        DeleteFresh tenantId appIdOf l.landed (applyEffects tenantId (finishBulkDelete run).1 c)) ↔
      ((∃ app, l.landed app) → (∃ app, (app, some (.ok app)) ∈ joinedIn h) ∨ ∃ app, LostAlone id h app) := by
  have hdeleted : deletedOf run.outcomes ≠ [] ↔ ∃ app, (app, some (.ok app)) ∈ joinedIn h := by
    rw [ne_eq, List.eq_nil_iff_forall_not_mem, not_forall]
    simp only [not_not, mem_deletedOf, mem_outcomes hend]
    constructor
    · rintro ⟨app, t, hj⟩
      obtain rfl := deleted_task hend hj
      exact ⟨t, hj⟩
    · rintro ⟨app, hj⟩
      exact ⟨app, app, hj⟩
  have hlost : run.lost ≠ [] ↔ ∃ app, LostAlone id h app := lost_ne_nil hend
  rw [← hdeleted, ← hlost]
  by_cases hlists : run.lost ≠ [] ∨ (deletedOf run.outcomes ≠ [] ∧ failedOf run.outcomes ≠ [])
  · -- the list tier goes, and with it every row
    have heffects : (finishBulkDelete run).1 = [.invalidateAppLists] := by
      rw [finishBulkDelete_effects, if_pos hlists]
    rw [heffects]
    refine iff_of_true (fun appIdOf c _ app _ => (drops_appLists c tenantId).dropped.unmentioned app _)
      fun _ => ?_
    exact hlists.elim .inr fun hboth => .inl hboth.1
  · have hnolost : run.lost = [] := not_not.1 fun hne => hlists (.inl hne)
    by_cases hrows : deletedOf run.outcomes ≠ []
    · -- every task ended well, so what landed is in the rows that go
      have hclean : failedOf run.outcomes = [] := not_not.1 fun hne => hlists (.inr ⟨hrows, hne⟩)
      have heffects : (finishBulkDelete run).1 = [.recordDeletedApps (deletedOf run.outcomes)] := by
        rw [finishBulkDelete_effects, if_neg hlists, if_pos hrows]
      rw [heffects]
      refine iff_of_true (fun appIdOf c htrue app hlanded => ?_) fun _ => .inl hrows
      exact recordDeletedApps_unmentioned htrue (landed_deleted hend l hnolost hclean hlanded)
    · have heffects : (finishBulkDelete run).1 = [] := by
        rw [finishBulkDelete_effects, if_neg hlists, if_neg hrows]
      rw [heffects]
      constructor
      · rintro hfresh ⟨app, hlanded⟩
        exact absurd trivial (hfresh id (holding .audit (auditCacheKey tenantId)) (rowsTrue_holding _ _ _) app hlanded
          .audit _ _ (audit_in_listTier tenantId) (holding_entry _ _))
      · intro hshown appIdOf c _ app hlanded
        rcases hshown ⟨app, hlanded⟩ with hdone | hgone
        · exact absurd hdone hrows
        · exact absurd hnolost hgone

end Delete

/-! ## Consent grant -/

/-- What a bulk consent left at Graph. The service principals it reports were created; a consent core
    that failed may have created one too, and a grant or assignment may stand where some were answered or
    some failed. -/
structure GrantLanding (h : BulkHistory Text GrantItem) where
  principal : Text → Prop
  consent : Text → Prop
  created : ∀ app item, (app, some item) ∈ joinedIn h → item.spCreated = true → principal app
  principal_from : ∀ app, principal app → ∃ r, (app, r) ∈ joinedIn h ∧ ∀ item, r = some item →
    item.spCreated = true ∨ ∃ e, item = grantItem app (.error e)
  consent_from : ∀ app, consent app → ∃ r, (app, r) ∈ joinedIn h ∧ ∀ item, r = some item →
    0 < item.outcome.granted ∨ 0 < item.outcome.failed

/-- A new service principal is a row of the lists; a grant shows in the details and the audit. -/
def GrantFresh (tenantId : Text) (principal consent : Text → Prop) (c : AppCache) : Prop :=
  ((∃ app, principal app) → Dropped (ListTier tenantId) c) ∧
    ((∃ app, consent app) → Dropped (DetailTier tenantId) c)

section Grant

variable {items : List Text} {h : BulkHistory Text GrantItem} {run : CappedRun GrantItem}

/-- Some task created a service principal, or was lost. -/
def PrincipalShown (h : BulkHistory Text GrantItem) : Prop :=
  (∃ app item, (app, some item) ∈ joinedIn h ∧ item.spCreated = true) ∨ ∃ app, LostAlone id h app

def GrantShown (h : BulkHistory Text GrantItem) : Prop :=
  ∃ app item, (app, some item) ∈ joinedIn h ∧ 0 < item.outcome.granted

theorem finishBulkGrant_effects (hend : RunEnd grantCommand items h run) :
    (PrincipalShown h → (finishBulkGrant run).1 = [.invalidateAppLists]) ∧
    (¬ PrincipalShown h → GrantShown h → (finishBulkGrant run).1 = [.invalidateAppDetailState]) ∧
    (¬ PrincipalShown h → ¬ GrantShown h → (finishBulkGrant run).1 = []) := by
  have hany : (run.outcomes.any (·.spCreated) || !run.lost.isEmpty) = true ↔ PrincipalShown h := by
    rw [Bool.or_eq_true, List.any_eq_true, Bool.not_eq_true', List.isEmpty_eq_false_iff, lost_ne_nil hend]
    unfold PrincipalShown
    refine or_congr ?_ Iff.rfl
    simp only [mem_outcomes hend]
    constructor
    · rintro ⟨item, ⟨app, hj⟩, hcreated⟩
      exact ⟨app, item, hj, hcreated⟩
    · rintro ⟨app, item, hj, hcreated⟩
      exact ⟨item, ⟨app, hj⟩, hcreated⟩
  have hgranted : ((run.outcomes.map (·.outcome) ++ run.lost.map lostGrant).any
      (fun o => decide (0 < o.granted))) = true ↔ GrantShown h := by
    simp only [List.any_append, Bool.or_eq_true, List.any_eq_true, List.mem_map, decide_eq_true_eq]
    constructor
    · rintro (⟨o, ⟨item, hitem, rfl⟩, hpos⟩ | ⟨o, ⟨app, -, rfl⟩, hpos⟩)
      · obtain ⟨app, hj⟩ := (mem_outcomes hend).1 hitem
        exact ⟨app, item, hj, hpos⟩
      · exact absurd hpos (Nat.lt_irrefl 0)
    · rintro ⟨app, item, hj, hpos⟩
      exact .inl ⟨_, ⟨item, (mem_outcomes hend).2 ⟨app, hj⟩, rfl⟩, hpos⟩
  refine ⟨fun hshown => if_pos (hany.2 hshown), fun hnot hshown => ?_, fun hnot hnone => ?_⟩
  · exact (if_neg (mt hany.1 hnot)).trans (if_pos (hgranted.2 hshown))
  · exact (if_neg (mt hany.1 hnot)).trans (if_neg (mt hgranted.1 hnone))

/-- A consent leaves nothing stale exactly if a service principal that was created shows in a task that
    says so or in an app nobody reported, and a grant that was made in either or in a task that counts one. -/
theorem grant_fresh_iff (tenantId : Text) (hend : RunEnd grantCommand items h run) (l : GrantLanding h) :
    (∀ c, GrantFresh tenantId l.principal l.consent (applyEffects tenantId (finishBulkGrant run).1 c)) ↔
      ((∃ app, l.principal app) → PrincipalShown h) ∧
        ((∃ app, l.consent app) → PrincipalShown h ∨ GrantShown h) := by
  obtain ⟨hlists, hdetails, hnone⟩ := finishBulkGrant_effects hend
  by_cases hshown : PrincipalShown h
  · rw [hlists hshown]
    refine iff_of_true (fun c => ?_) ⟨fun _ => hshown, fun _ => .inl hshown⟩
    have hdropped : Dropped (ListTier tenantId) (Tiers.invalidateAppLists c tenantId) :=
      (drops_appLists c tenantId).dropped
    exact ⟨fun _ => hdropped, fun _ kind key hdetail => hdropped kind key (.inr (.inr hdetail))⟩
  · have hprincipal : ∀ effects, (effects = [.invalidateAppDetailState] ∨ effects = []) →
        (∀ c, (∃ app, l.principal app) → Dropped (ListTier tenantId) (applyEffects tenantId effects c)) →
        ¬ ∃ app, l.principal app := by
      intro effects hcases hall happ
      have hgone := hall (holding .lists (enterpriseKey tenantId)) happ .lists (enterpriseKey tenantId)
        (.inr (.inl ⟨rfl, .inl rfl⟩))
      have hkept : (applyEffects tenantId effects (holding .lists (enterpriseKey tenantId))).entries .lists
          (enterpriseKey tenantId) = some ⟨true, .other⟩ := by
        rcases hcases with rfl | rfl
        · rw [← holding_entry .lists (enterpriseKey tenantId)]
          exact (drops_detailState _ tenantId .lists (enterpriseKey tenantId)).2 (enterprise_not_detail tenantId)
        · exact holding_entry _ _
      rw [hkept] at hgone
      exact absurd hgone (Option.some_ne_none _)
    by_cases hgranted : GrantShown h
    · rw [hdetails hshown hgranted]
      constructor
      · intro hfresh
        have hno := hprincipal _ (.inl rfl) fun c => (hfresh c).1
        exact ⟨fun happ => absurd happ hno, fun _ => .inr hgranted⟩
      · rintro ⟨hprincipals, -⟩ c
        exact ⟨fun happ => absurd (hprincipals happ) hshown, fun _ => (drops_detailState c tenantId).dropped⟩
    · rw [hnone hshown hgranted]
      constructor
      · intro hfresh
        have hno := hprincipal _ (.inr rfl) fun c => (hfresh c).1
        refine ⟨fun happ => absurd happ hno, fun happ => ?_⟩
        have hgone := (hfresh (holding .audit (auditCacheKey tenantId))).2 happ .audit _ (.inr ⟨rfl, rfl⟩)
        exact absurd (hgone.symm.trans (holding_entry _ _)).symm (Option.some_ne_none _)
      · rintro ⟨hprincipals, hconsents⟩ c
        refine ⟨fun happ => absurd (hprincipals happ) hshown, fun happ => ?_⟩
        exact absurd (hconsents happ) (by tauto)

end Grant

/-! ## Expired secrets -/

/-- The apps of which a secret is gone: those with a removal that was answered, and any with one that
    failed or with a task that was lost. -/
structure SweepLanding (h : BulkHistory Application SweepItem) where
  landed : Text → Prop
  answered : ∀ app item, (app, some item) ∈ joinedIn h → item.summary.removedKeyIds ≠ [] → landed app.id
  sent : ∀ objectId, landed objectId → ∃ app r, (app, r) ∈ joinedIn h ∧ app.id = objectId ∧
    ∀ item, r = some item → item.summary.removedKeyIds ≠ [] ∨ item.summary.failedKeyIds ≠ []

/-- The credential tier of every app that lost a secret is dropped. -/
def SweepFresh (tenantId : Text) (landed : Text → Prop) (c : AppCache) : Prop :=
  ∀ objectId, landed objectId → Dropped (CredentialTier tenantId objectId) c

/-- A task of the app counts a removal. -/
def RemovalShown (h : BulkHistory Application SweepItem) (objectId : Text) : Prop :=
  ∃ app item, (app, some item) ∈ joinedIn h ∧ app.id = objectId ∧ item.summary.removedKeyIds ≠ []

section Sweep

variable {now : Audit.Timestamp} {items : List Application} {h : BulkHistory Application SweepItem}
  {run : CappedRun SweepItem}

/-- The row of an item is its summary, up to the error. -/
theorem row_summary {item : SweepItem} {row : AppRemovalSummary} (hrow : item.row = some row) :
    row.objectId = item.summary.objectId ∧ row.removedKeyIds = item.summary.removedKeyIds := by
  have hmarked : item.marked.objectId = item.summary.objectId ∧
      item.marked.removedKeyIds = item.summary.removedKeyIds := by
    unfold SweepItem.marked
    split
    · exact ⟨rfl, rfl⟩
    · exact ⟨rfl, rfl⟩
  unfold SweepItem.row at hrow
  split at hrow
  · cases hrow
  · split at hrow
    · obtain rfl := Option.some.inj hrow
      exact hmarked
    · cases hrow

theorem row_of_removed {item : SweepItem} (hremoved : item.summary.removedKeyIds ≠ []) :
    item.row = some item.marked := by
  have htried : item.triedAny = true := by
    unfold SweepItem.triedAny
    rw [Bool.or_eq_true, Bool.not_eq_true', List.isEmpty_eq_false_iff]
    exact .inl hremoved
  have hstarted : item.neverStarted = false := by simp [SweepItem.neverStarted, htried]
  simp [SweepItem.row, hstarted, htried]

/-- The apps whose credential tier a sweep drops. -/
theorem finishExpiredSweep_effects (hend : RunEnd (sweepCommand now) items h run) (scanned : Nat)
    {unreadable : List AppRemovalSummary} (hunreadable : ∀ row ∈ unreadable, row.removedKeyIds = [])
    (nameOf : Text → Text) :
    ∃ ids : List Text, (finishExpiredSweep scanned unreadable run nameOf).1 = ids.map .invalidateAppCredentials ∧
      ∀ objectId, objectId ∈ ids ↔ RemovalShown h objectId ∨ LostAlone Application.id h objectId := by
  refine ⟨_, rfl, fun objectId => ?_⟩
  rw [List.mem_append, mem_lost hend]
  refine or_congr ?_ Iff.rfl
  rw [List.mem_map]
  constructor
  · rintro ⟨row, hrow, rfl⟩
    obtain ⟨hin, hremoved⟩ := List.mem_filter.1 hrow
    rw [Bool.not_eq_true', List.isEmpty_eq_false_iff] at hremoved
    rcases List.mem_append.1 hin with hfirst | hreported
    · exact absurd (hunreadable row hfirst) hremoved
    · obtain ⟨item, hitem, hitemrow⟩ := List.mem_filterMap.1 hreported
      obtain ⟨hid, hkeys⟩ := row_summary hitemrow
      obtain ⟨app, hj⟩ := (mem_outcomes hend).1 hitem
      have happ : item.summary.objectId = app.id :=
        (sweepCommand now).objectId_of_reports app item (hend.reports hj)
      exact ⟨app, item, hj, (hid.trans happ).symm, hkeys ▸ hremoved⟩
  · rintro ⟨app, item, hj, rfl, hremoved⟩
    have hrow := row_of_removed hremoved
    obtain ⟨hid, hkeys⟩ := row_summary hrow
    have happ : item.summary.objectId = app.id :=
      (sweepCommand now).objectId_of_reports app item (hend.reports hj)
    refine ⟨item.marked, List.mem_filter.2 ⟨List.mem_append_right _ (List.mem_filterMap.2
      ⟨item, (mem_outcomes hend).2 ⟨app, hj⟩, hrow⟩), ?_⟩, hid.trans happ⟩
    rw [Bool.not_eq_true', List.isEmpty_eq_false_iff, hkeys]
    exact hremoved

/-- A sweep leaves nothing stale exactly if each app that lost a secret has a removal that was answered,
    or was reported by nobody. -/
theorem sweep_fresh_iff (tenantId : Text) (hend : RunEnd (sweepCommand now) items h run) (scanned : Nat)
    {unreadable : List AppRemovalSummary} (hunreadable : ∀ row ∈ unreadable, row.removedKeyIds = [])
    (nameOf : Text → Text) (l : SweepLanding h) :
    (∀ c, SweepFresh tenantId l.landed
        (applyEffects tenantId (finishExpiredSweep scanned unreadable run nameOf).1 c)) ↔
      ∀ objectId, l.landed objectId → RemovalShown h objectId ∨ LostAlone Application.id h objectId := by
  obtain ⟨ids, heffects, hids⟩ := finishExpiredSweep_effects hend scanned hunreadable nameOf
  simp only [heffects, ← hids]
  constructor
  · intro hfresh objectId hlanded
    by_contra hnot
    have hgone := hfresh (holding .lists (appDetailKey tenantId objectId)) objectId hlanded .lists
      (appDetailKey tenantId objectId) (.inl ⟨rfl, .inr (.inr rfl)⟩)
    have hkept := (drops_credentials tenantId ids (holding .lists (appDetailKey tenantId objectId)) .lists
      (appDetailKey tenantId objectId)).2 (by
        rintro ⟨other, hother, hcovered⟩
        exact detail_not_credential (fun heq : objectId = other => hnot (heq ▸ hother)) hcovered)
    rw [holding_entry] at hkept
    exact absurd (hkept.symm.trans hgone) (Option.some_ne_none _)
  · intro hall c objectId hlanded kind key hcovered
    exact (drops_credentials tenantId ids c kind key).1 ⟨objectId, hall objectId hlanded, hcovered⟩

end Sweep

/-! ## The whole -/

/-- What the three bulk writes leave in the cache of a tenant, for every run and every pattern of what
    landed. After a delete no row is left of an app that is gone exactly if some DELETE was answered with
    success or some app was reported by nobody, where any is gone; after a consent the list tier is dropped
    for a service principal that was created, and the detail tier for a grant, exactly if the outcomes
    count one or an app was reported by nobody; after a sweep the credential tier of each app that lost a
    secret is dropped exactly if its own outcome counts a removal or nobody reported it. -/
theorem bulk_writes_fresh_iff (tenantId : Text) :
    (∀ items h run, Exec deleteCommand.world [] (runBulkCapped deleteOutcome id items) h run →
      ∀ l : DeleteLanding h,
        (∀ appIdOf c, RowsTrue appIdOf c →
          DeleteFresh tenantId appIdOf l.landed (applyEffects tenantId (finishBulkDelete run).1 c)) ↔
        ((∃ app, l.landed app) →
          (∃ app, (app, some (.ok app)) ∈ joinedIn h) ∨ ∃ app, LostAlone id h app)) ∧
    (∀ items h run, Exec grantCommand.world [] (runBulkCapped grantOutcome id items) h run →
      ∀ l : GrantLanding h,
        (∀ c, GrantFresh tenantId l.principal l.consent
          (applyEffects tenantId (finishBulkGrant run).1 c)) ↔
        ((∃ app, l.principal app) → PrincipalShown h) ∧
          ((∃ app, l.consent app) → PrincipalShown h ∨ GrantShown h)) ∧
    (∀ now items h run, Exec (sweepCommand now).world [] (runBulkCapped sweepOutcome Application.id items) h run →
      ∀ scanned unreadable nameOf, (∀ row ∈ unreadable, row.removedKeyIds = []) → ∀ l : SweepLanding h,
        (∀ c, SweepFresh tenantId l.landed
          (applyEffects tenantId (finishExpiredSweep scanned unreadable run nameOf).1 c)) ↔
        ∀ objectId, l.landed objectId → RemovalShown h objectId ∨ LostAlone Application.id h objectId) := by
  refine ⟨?_, ?_, ?_⟩
  · intro items h run hexec l
    exact delete_fresh_iff tenantId (runEnd_of_exec hexec) l
  · intro items h run hexec l
    exact grant_fresh_iff tenantId (runEnd_of_exec hexec) l
  · intro now items h run hexec scanned unreadable nameOf hunreadable l
    exact sweep_fresh_iff tenantId (runEnd_of_exec hexec) scanned hunreadable nameOf l

/-! ## Runs that can be looked at -/

/-- Every DELETE took effect, whatever was answered. -/
def allLanded (h : BulkHistory Text DeleteOutcome) : DeleteLanding h where
  landed app := ∃ r, (app, r) ∈ joinedIn h
  answered app hj := ⟨some (.ok app), hj⟩
  dispatched _ hlanded := hlanded

def gatewayError : Except BulkError Unit := .error ⟨"server_error".toList, "502".toList, true⟩

/-- One app, whose DELETE answers an error and has taken effect: no cache is touched, and the audit of the
    tenant still counts the app. -/
theorem failed_delete_leaves_audit : ∃ h run,
    Exec deleteCommand.world [] (runBulkCapped deleteOutcome id [['a']]) h run ∧
    ¬ ∀ appIdOf c, RowsTrue appIdOf c →
      DeleteFresh ['t'] appIdOf (allLanded h).landed (applyEffects ['t'] (finishBulkDelete run).1 c) := by
  have hplay : (Prog.run (deleteServe fun _ => some gatewayError)
      (runBulkCapped deleteOutcome id [['a']]) []).map
      (fun r => ((joinedIn r.2).map Prod.fst, (finishBulkDelete r.1).1)) = some ([['a']], []) := by
    decide
  obtain ⟨run, h, hexec, hview⟩ := exists_exec_of_run (world_of_deleteServe _) hplay
  obtain ⟨htasks, heffects⟩ := Prod.mk.inj hview
  refine ⟨h, run, hexec, fun hfresh => ?_⟩
  have htask : ['a'] ∈ (joinedIn h).map Prod.fst := by simp [htasks]
  obtain ⟨⟨app, r⟩, hj, rfl⟩ := List.mem_map.1 htask
  have hclean := hfresh id (holding .audit (auditCacheKey ['t'])) (rowsTrue_holding _ _ _) _ ⟨r, hj⟩
  rw [heffects] at hclean
  exact hclean .audit _ _ (audit_in_listTier ['t']) (holding_entry _ _) trivial

/-- Two apps, and the DELETE of the second answers an error: the audit is dropped. -/
theorem bulk_writes_fresh_iff_partial : ∃ h run,
    Exec deleteCommand.world [] (runBulkCapped deleteOutcome id [['a'], ['b']]) h run ∧
    DeleteFresh ['t'] id (allLanded h).landed
      (applyEffects ['t'] (finishBulkDelete run).1 (holding .audit (auditCacheKey ['t']))) := by
  have hplay : (Prog.run (deleteServe fun n => some (if n = 0 then .ok () else gatewayError))
      (runBulkCapped deleteOutcome id [['a'], ['b']]) []).map
      (fun r => (joinedIn r.2).filterMap (fun j => j.2.bind Except.toOption)) = some [['a']] := by
    decide
  obtain ⟨run, h, hexec, hview⟩ := exists_exec_of_run (world_of_deleteServe _) hplay
  refine ⟨h, run, hexec, ((bulk_writes_fresh_iff ['t']).1 _ h run hexec (allLanded h)).2 (fun _ => .inl ?_) id _
    (rowsTrue_holding _ _ _)⟩
  have hdone : ['a'] ∈ (joinedIn h).filterMap (fun j => j.2.bind Except.toOption) := by simp [hview]
  obtain ⟨⟨t, r⟩, hj, hok⟩ := List.mem_filterMap.1 hdone
  obtain ⟨outcome, rfl, hresult⟩ := Option.bind_eq_some_iff.1 hok
  cases outcome with
  | error failure => cases hresult
  | ok app =>
    obtain rfl := deleted_task (runEnd_of_exec hexec) hj
    exact ⟨t, hj⟩

end Bulk
