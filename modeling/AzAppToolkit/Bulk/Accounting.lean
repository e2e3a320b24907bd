import AzAppToolkit.Bulk.CappedProofs

set_option autoImplicit false

/-! # One row for each dispatched app

Every dispatched app is reported, or lost, once: exactly when no task that ended without an outcome has
the id of a task that reported one. What the three commands make of the run follows. -/

namespace Bulk

open Prog

/-! ## The driver -/

section Driver

variable {T O : Type} {cmd : CappedCommand T O} {items : List T} {h : BulkHistory T O}
  {run : CappedRun O}

/-- The items whose tasks ended without an outcome. -/
def lostTasks (h : BulkHistory T O) : List T :=
  (joinedIn h).filterMap (fun j => if j.2.isNone then some j.1 else none)

/-- No task that ended without an outcome has the id of one that reported. -/
def LostApart (idOf : T → Text) (h : BulkHistory T O) : Prop :=
  ∀ t t' o, (t, none) ∈ joinedIn h → (t', some o) ∈ joinedIn h → idOf t ≠ idOf t'

/-- The run accounts for what it dispatched. -/
structure Accounted (cmd : CappedCommand T O) (items : List T) (h : BulkHistory T O)
    (run : CappedRun O) : Prop where
  /-- A prefix of the list is dispatched. -/
  dispatched : spawnedIn h <+: items
  count : run.dispatched = (spawnedIn h).length
  /-- Every dispatched task ends once. -/
  once : ((joinedIn h).map Prod.fst).Perm (spawnedIn h)
  /-- Every task that reported is in the outcomes, once and in the order they ended. -/
  reported : run.outcomes = (joinedIn h).filterMap Prod.snd
  /-- Every dispatched id is among the reported and the lost ones, as often as it was dispatched. -/
  total : ((spawnedIn h).map cmd.idOf).Perm (run.outcomes.map cmd.out.objectId ++ run.lost)

theorem mem_lostTasks {t : T} : t ∈ lostTasks h ↔ (t, none) ∈ joinedIn h := by
  unfold lostTasks
  rw [List.mem_filterMap]
  constructor
  · rintro ⟨⟨t', r⟩, hmem, heq⟩
    cases r with
    | none =>
      obtain rfl : t' = t := by simpa using heq
      exact hmem
    | some o => exact absurd heq (by simp)
  · intro hmem
    exact ⟨(t, none), hmem, rfl⟩

/-- A list of joins, by the ids of those that reported and of those that did not. -/
theorem perm_reported_lost {joins : List (T × Option O)}
    (hreports : ∀ t o, (t, some o) ∈ joins → cmd.reports t o) :
    (joins.map (fun j => cmd.idOf j.1)).Perm ((joins.filterMap Prod.snd).map cmd.out.objectId ++
      (joins.filterMap (fun j => if j.2.isNone then some j.1 else none)).map cmd.idOf) := by
  induction joins with
  | nil => exact .refl _
  | cons j joins ih =>
    have ih := ih (fun t o hmem => hreports t o (List.mem_cons_of_mem _ hmem))
    obtain ⟨t, r⟩ := j
    cases r with
    | none =>
      exact (ih.cons (cmd.idOf t)).trans List.perm_middle.symm
    | some o =>
      have hid := cmd.objectId_of_reports t o (hreports t o List.mem_cons_self)
      have hcons := ih.cons (cmd.idOf t)
      rw [← hid] at hcons
      show (cmd.idOf t :: _).Perm _
      rw [← hid]
      exact hcons

/-- The ids dispatched are those reported and those of the lost tasks. -/
theorem RunEnd.perm (hend : RunEnd cmd items h run) :
    ((spawnedIn h).map cmd.idOf).Perm
      (run.outcomes.map cmd.out.objectId ++ (lostTasks h).map cmd.idOf) := by
  obtain ⟨started, s, -, hrun, hout, -, -⟩ := hend
  have hjoined := hrun.joined
  rw [List.append_nil, ← hrun.spawned] at hjoined
  rw [hout, hrun.outcomes]
  refine (hjoined.map cmd.idOf).symm.trans ?_
  rw [List.map_map]
  exact perm_reported_lost hrun.reported

/-- `lost` holds the ids of the lost tasks that nobody has reported. -/
theorem RunEnd.lost (hend : RunEnd cmd items h run) :
    run.lost.Perm (((lostTasks h).map cmd.idOf).filter
      (fun id => !(run.outcomes.map cmd.out.objectId).contains id)) := by
  have hperm := hend.perm
  obtain ⟨started, s, -, hrun, hout, hlost, -⟩ := hend
  have hids : s.dispatched = (spawnedIn h).map cmd.idOf := by rw [hrun.dispatched, hrun.spawned]
  rw [hlost, lostIds, hids, ← hout]
  refine (hperm.filter _).trans ?_
  rw [List.filter_append]
  have hnone : (run.outcomes.map cmd.out.objectId).filter
      (fun id => !(run.outcomes.map cmd.out.objectId).contains id) = [] := by
    rw [List.filter_eq_nil_iff]
    intro id hid
    rw [List.contains_iff_mem.2 hid]
    exact Bool.false_ne_true
  rw [hnone]
  exact .refl _

/-- The lost tasks are apart from the reported ones if filtering by the reported ids drops none. -/
theorem lostApart_iff (hend : RunEnd cmd items h run) :
    LostApart cmd.idOf h ↔ ∀ id ∈ (lostTasks h).map cmd.idOf,
      (!(run.outcomes.map cmd.out.objectId).contains id) = true := by
  obtain ⟨started, s, -, hrun, hout, -, -⟩ := hend
  have hmem : ∀ id, id ∈ run.outcomes.map cmd.out.objectId ↔
      ∃ t' o, (t', some o) ∈ joinedIn h ∧ cmd.idOf t' = id := by
    intro id
    rw [hout, hrun.outcomes, List.mem_map]
    constructor
    · rintro ⟨o, ho, rfl⟩
      obtain ⟨⟨t', r⟩, hj, rfl⟩ := List.mem_filterMap.1 ho
      exact ⟨t', o, hj, (cmd.objectId_of_reports t' o (hrun.reported t' o hj)).symm⟩
    · rintro ⟨t', o, hj, rfl⟩
      exact ⟨o, List.mem_filterMap.2 ⟨_, hj, rfl⟩, cmd.objectId_of_reports t' o (hrun.reported t' o hj)⟩
  constructor
  · intro hapart id hid
    obtain ⟨t, ht, rfl⟩ := List.mem_map.1 hid
    rw [Bool.not_eq_true', ← Bool.not_eq_true, List.contains_iff_mem]
    intro hin
    obtain ⟨t', o, hj, heq⟩ := (hmem _).1 hin
    exact hapart t t' o (mem_lostTasks.1 ht) hj heq.symm
  · intro hall t t' o ht hj heq
    have hnot := hall (cmd.idOf t) (List.mem_map_of_mem (mem_lostTasks.2 ht))
    rw [Bool.not_eq_true', ← Bool.not_eq_true, List.contains_iff_mem] at hnot
    exact hnot ((hmem _).2 ⟨t', o, hj, heq.symm⟩)

/-- Another list that holds the reported ids and some of the lost ones holds them all, or misses one. -/
theorem perm_lost_iff (hend : RunEnd cmd items h run) :
    ((spawnedIn h).map cmd.idOf).Perm (run.outcomes.map cmd.out.objectId ++ run.lost) ↔
      LostApart cmd.idOf h := by
  rw [lostApart_iff hend]
  constructor
  · intro hperm
    have hlost : ((lostTasks h).map cmd.idOf).Perm (((lostTasks h).map cmd.idOf).filter
        (fun id => !(run.outcomes.map cmd.out.objectId).contains id)) :=
      ((List.perm_append_left_iff _).1 (hend.perm.symm.trans hperm)).trans hend.lost
    intro id hid
    exact (List.mem_filter.1 (hlost.mem_iff.1 hid)).2
  · intro hall
    have hlost := hend.lost
    rw [List.filter_eq_self.2 hall] at hlost
    exact hend.perm.trans (hlost.symm.append_left _)

theorem runEnd_of_exec (hexec : Exec cmd.world [] (runBulkCapped cmd.out cmd.idOf items) h run) :
    RunEnd cmd items h run := (meets_runBulkCapped cmd items).sound hexec

theorem accounted_iff (hend : RunEnd cmd items h run) : Accounted cmd items h run ↔ LostApart cmd.idOf h := by
  constructor
  · intro haccounted
    exact (perm_lost_iff hend).1 haccounted.total
  · intro hapart
    have htotal := (perm_lost_iff hend).2 hapart
    obtain ⟨started, s, hpre, hrun, hout, -, hcount⟩ := hend
    refine ⟨?_, ?_, ?_, ?_, htotal⟩
    · rw [hrun.spawned]
      exact hpre
    · rw [hcount, hrun.dispatched, hrun.spawned, List.length_map]
    · have hjoined := hrun.joined
      rw [List.append_nil] at hjoined
      rw [hrun.spawned]
      exact hjoined
    · rw [hout, hrun.outcomes]

end Driver

/-! ## Delete -/

/-- The tasks of a bulk delete. -/
def deleteCommand : CappedCommand Text DeleteOutcome where
  out := deleteOutcome
  idOf := id
  reports objectId outcome := ∃ answer, outcome = deleteOne objectId answer
  objectId_of_reports := by
    rintro objectId outcome ⟨answer, rfl⟩
    cases answer with
    | ok u => rfl
    | error e => rfl

/-- The ids of the rows of a delete. -/
def BulkDeleteResult.rowIds (r : BulkDeleteResult) : List Text := r.deleted ++ r.failed.map (·.objectId)

theorem perm_deleted_failed (outcomes : List DeleteOutcome) :
    (deletedOf outcomes ++ (failedOf outcomes).map (·.objectId)).Perm (outcomes.map deleteId) := by
  induction outcomes with
  | nil => exact .refl _
  | cons outcome outcomes ih =>
    cases outcome with
    | ok objectId => exact ih.cons objectId
    | error failure => exact List.perm_middle.trans (ih.cons failure.objectId)

theorem perm_deleteRows (run : CappedRun DeleteOutcome) :
    ((finishBulkDelete run).2.rowIds).Perm (run.outcomes.map deleteId ++ run.lost) := by
  have hlost : (run.lost.map lostDelete).map (·.objectId) = run.lost := by
    rw [List.map_map]
    exact List.map_id' _
  show (deletedOf run.outcomes ++ (failedOf run.outcomes ++ run.lost.map lostDelete).map
    (·.objectId)).Perm _
  rw [List.map_append, hlost, ← List.append_assoc]
  exact (perm_deleted_failed run.outcomes).append_right _

/-! ## Consent grant -/

/-- The tasks of a bulk consent. -/
def grantCommand : CappedCommand Text GrantItem where
  out := grantOutcome
  idOf := id
  reports objectId item := ∃ answer, item = grantItem objectId answer
  objectId_of_reports := by
    rintro objectId item ⟨answer, rfl⟩
    cases answer with
    | error e => rfl
    | ok run =>
      show (grantItem objectId (.ok run)).outcome.objectId = objectId
      unfold grantItem
      split
      · next e heq => exact absurd heq (by simp)
      · split
        · rfl
        · rfl

theorem grantRows (run : CappedRun GrantItem) :
    (finishBulkGrant run).2.outcomes.map (·.objectId) =
      run.outcomes.map grantOutcome.objectId ++ run.lost := by
  have hlost : (run.lost.map lostGrant).map (·.objectId) = run.lost := by
    rw [List.map_map]
    exact List.map_id' _
  show (run.outcomes.map (·.outcome) ++ run.lost.map lostGrant).map (·.objectId) = _
  rw [List.map_append, hlost, List.map_map]
  rfl

/-! ## Expired secrets -/

/-- A removal was sent. -/
def IsRemoval : Exchanged SweepAnswer → Prop
  | ⟨.removePassword _ _, _⟩ => True
  | _ => False

/-- What the key loop keeps count of: the keys tried are as many as the removals sent. -/
def Tried (tried : Nat) (h : List (Exchanged SweepAnswer)) (s : Removals) : Prop :=
  s.removed.length + s.failed.length = tried ∧ (tried = 0 ↔ ∀ e ∈ h, ¬ IsRemoval e)

variable {h : List (Exchanged SweepAnswer)}

theorem Tried.quiet {tried : Nat} {s : Removals}
    {e : Exchanged SweepAnswer} (ht : Tried tried h s) (he : ¬ IsRemoval e) : Tried tried (h ++ [e]) s := by
  refine ⟨ht.1, ht.2.trans ⟨fun hall x hx => ?_, fun hall x hx => ?_⟩⟩
  · rcases List.mem_append.1 hx with hx | hx
    · exact hall x hx
    · exact List.mem_singleton.1 hx ▸ he
  · exact hall x (List.mem_append_left _ hx)

theorem Tried.removal {tried : Nat} {s s' : Removals}
    {e : Exchanged SweepAnswer} (ht : Tried tried h s) (he : IsRemoval e)
    (hs' : s'.removed.length + s'.failed.length = s.removed.length + s.failed.length + 1) :
    Tried (tried + 1) (h ++ [e]) s' := by
  refine ⟨by rw [hs', ht.1], fun hzero => absurd hzero (Nat.succ_ne_zero _), fun hall => ?_⟩
  exact absurd he (hall e (List.mem_append_right _ List.mem_cons_self))

theorem meets_sweepCall {c : SweepCall}
    {post : List (Exchanged SweepAnswer) → SweepAnswer c → Prop} (hpost : ∀ r, post (h ++ [⟨c, r⟩]) r) :
    Meets history (fun _ _ => True) post h (call c : SweepSteps (SweepAnswer c)) :=
  Meets.remember trivial hpost

/-- The key loop ends with the keys tried counted, not more of them than there are. -/
theorem meets_removeKeys (objectId : Text) (keys : List Text) {tried : Nat} {s : Removals}
    (ht : Tried tried h s) :
    Meets history (fun _ _ => True)
      (fun h' s' => ∃ tried', tried' ≤ tried + keys.length ∧ Tried tried' h' s') h
      (removeKeys objectId keys s) := by
  induction keys generalizing tried s h with
  | nil => exact ⟨tried, Nat.le_refl _, ht⟩
  | cons keyId keys ih =>
    have hstopped : Meets history (fun _ _ => True) (fun h' _ => Tried tried h' s) h sweepStopped := by
      refine Meets.bind (meets_sweepCall (c := .isCancelled) (fun cancelled => ?_))
      have ht₁ := ht.quiet (e := ⟨.isCancelled, cancelled⟩) id
      cases cancelled with
      | true => exact ht₁
      | false => exact meets_sweepCall (c := .isDead) (fun dead => ht₁.quiet id)
    refine Meets.bind (hstopped.mono (fun h₁ stopped ht₁ => ?_))
    cases stopped with
    | true => exact ⟨tried, Nat.le_add_right _ _, ht₁⟩
    | false =>
      refine Meets.bind (meets_sweepCall (c := .removePassword objectId keyId)
        (fun answer => ?_))
      have hnext : ∀ {h' s'}, Tried (tried + 1) h' s' → Meets history (fun _ _ => True)
          (fun h'' s'' => ∃ tried', tried' ≤ tried + (keyId :: keys).length ∧ Tried tried' h'' s'') h'
          (removeKeys objectId keys s') := by
        intro h' s' ht'
        refine (ih ht').mono (fun h'' s'' hr => ?_)
        obtain ⟨tried', hle, hr⟩ := hr
        exact ⟨tried', hle.trans (by simp only [List.length_cons]; omega), hr⟩
      cases answer with
      | ok u =>
        refine hnext (ht₁.removal trivial ?_)
        simp only [List.length_append, List.length_singleton]
        omega
      | error e =>
        refine Meets.bind (meets_sweepCall (c := .noteCode e.code) (fun _ => ?_))
        have ht₂ : Tried (tried + 1) _ ⟨s.removed, s.failed ++ [keyId], keptError s.error e⟩ :=
          (ht₁.removal (e := ⟨.removePassword objectId keyId, .error e⟩) trivial (by
            simp only [List.length_append, List.length_singleton]
            omega)).quiet (e := ⟨.noteCode e.code, ()⟩) id
        dsimp only
        split
        · exact ⟨tried + 1, by simp only [List.length_cons]; omega, ht₂⟩
        · exact hnext ht₂

/-- What a sweep of one app reports: every expired key was removed, failed or never tried, and it was
    never started exactly if it had a key to remove and sent no removal. -/
theorem sweepOne_reports {app : Application} {now : Audit.Timestamp}
    {item : SweepItem} (hexec : Exec history [] (sweepOne app now) h item) :
    item.summary.objectId = app.id ∧
    item.unattempted + item.summary.removedKeyIds.length + item.summary.failedKeyIds.length =
      (expiredPasswordKeyIds app now).length ∧
    (item.neverStarted = true ↔ expiredPasswordKeyIds app now ≠ [] ∧ ∀ e ∈ h, ¬ IsRemoval e) := by
  have hmeets : Meets history (fun _ _ => True) (fun h' item' => item'.summary.objectId = app.id ∧
      item'.unattempted + item'.summary.removedKeyIds.length + item'.summary.failedKeyIds.length =
        (expiredPasswordKeyIds app now).length ∧
      (item'.neverStarted = true ↔ expiredPasswordKeyIds app now ≠ [] ∧ ∀ e ∈ h', ¬ IsRemoval e)) []
      (sweepOne app now) := by
    have hnone : Tried 0 [] ⟨[], [], none⟩ := ⟨rfl, by simp⟩
    refine Meets.bind ((meets_removeKeys app.id (expiredPasswordKeyIds app now) hnone).mono
      (fun h' s hs => ?_))
    obtain ⟨tried, hle, hlen, hquiet⟩ := hs
    refine ⟨rfl, ?_, ?_⟩
    · show (expiredPasswordKeyIds app now).length - s.removed.length - s.failed.length +
        s.removed.length + s.failed.length = _
      omega
    · rw [← hquiet]
      unfold SweepItem.neverStarted SweepItem.triedAny
      simp only [Bool.and_eq_true, decide_eq_true_iff, Bool.not_eq_true', Bool.or_eq_false_iff,
        Bool.not_eq_false', List.isEmpty_iff_length_eq_zero, ne_eq, ← List.length_eq_zero_iff]
      omega
  exact hmeets.sound hexec

/-- The tasks of a sweep at the time `now`. -/
def sweepCommand (now : Audit.Timestamp) : CappedCommand Application SweepItem where
  out := sweepOutcome
  idOf := Application.id
  reports app item := ∃ h, Exec history [] (sweepOne app now) h item
  objectId_of_reports := by
    rintro app item ⟨h, hexec⟩
    exact (sweepOne_reports hexec).1

/-- An app that was stopped part-way is named in a row, with an error. -/
theorem interrupted_row {item : SweepItem} (hleft : 0 < item.unattempted) (htried : item.triedAny = true) :
    ∃ row, item.row = some row ∧ row.objectId = item.summary.objectId ∧ row.error.isSome := by
  have hmarked : item.marked.objectId = item.summary.objectId ∧ item.marked.error.isSome := by
    unfold SweepItem.marked
    split
    · exact ⟨rfl, rfl⟩
    · next hnot =>
      refine ⟨rfl, ?_⟩
      rw [Option.isSome_iff_ne_none]
      exact fun hnone => hnot ⟨hleft, hnone⟩
  refine ⟨item.marked, ?_, hmarked⟩
  have hstarted : item.neverStarted = false := by simp [SweepItem.neverStarted, htried]
  simp [SweepItem.row, hstarted, htried]

/-- What the sweep reached, without a subtraction. -/
theorem appsChecked_eq {now : Audit.Timestamp} {items : List Application}
    {h : BulkHistory Application SweepItem} {run : CappedRun SweepItem}
    (hend : RunEnd (sweepCommand now) items h run) (scanned : Nat)
    (unreadable : List AppRemovalSummary) (nameOf : Text → Text) :
    ∃ checked, (finishExpiredSweep scanned unreadable run nameOf).2.appsChecked = some checked ∧
      checked + run.outcomes.countP (·.neverStarted) = unreadable.length + (spawnedIn h).length := by
  have hlen := hend.perm.length_eq
  obtain ⟨started, s, -, hrun, -, -, hcount⟩ := hend
  rw [List.length_append, List.length_map, List.length_map, List.length_map] at hlen
  have hstarted := run.outcomes.countP_le_length (p := (·.neverStarted))
  refine ⟨unreadable.length + run.dispatched - run.outcomes.countP (·.neverStarted), rfl, ?_⟩
  rw [hcount, hrun.dispatched, ← hrun.spawned, List.length_map]
  omega

theorem lost_row {now : Audit.Timestamp} {items : List Application}
    {h : BulkHistory Application SweepItem} {run : CappedRun SweepItem}
    (hend : RunEnd (sweepCommand now) items h run) (hapart : LostApart Application.id h)
    (scanned : Nat) (unreadable : List AppRemovalSummary) (nameOf : Text → Text) {app : Application}
    (happ : (app, none) ∈ joinedIn h) :
    lostSweep nameOf app.id ∈ (finishExpiredSweep scanned unreadable run nameOf).2.summaries := by
  have hid : app.id ∈ (lostTasks h).map Application.id := List.mem_map_of_mem (mem_lostTasks.2 happ)
  have hkept := (lostApart_iff hend).1 hapart app.id hid
  have hlost : app.id ∈ run.lost := hend.lost.mem_iff.2 (List.mem_filter.2 ⟨hid, hkept⟩)
  exact List.mem_append_right _ (List.mem_map_of_mem hlost)

/-! ## The whole -/

/-- After any number of dispatch steps there are no more tasks in flight than the cap last read
    allows, and at least one always is. -/
theorem dispatch_keeps_cap {T O : Type} (cmd : CappedCommand T O) (items : List T) (total : Nat)
    {h : BulkHistory T O} {r : Bool × List T × BulkState O}
    (hexec : Exec cmd.world [] ((bulkFanOut cmd.out cmd.idOf total).dispatchItems items [] ⟨[], []⟩) h r) :
    inFlightIn h = r.2.1.length ∧ r.2.1.length ≤ max 1 ((lastLimit h).getD 1) := by
  have hstart : Running cmd [] [] [] (⟨[], []⟩ : BulkState O) :=
    ⟨rfl, rfl, .refl _, rfl, fun _ _ hmem => absurd hmem (by simp [joinedIn])⟩
  have hcap : CapRead 1 ([] : BulkHistory T O) := rfl
  obtain ⟨started, n, -, hcap', hroom', hrun, -⟩ := ((bulkFanOut_keeps cmd total).dispatchItems items
    hstart hcap (Nat.le_max_left _ _)).sound hexec
  have hread : (lastLimit h).getD 1 = n := hcap'
  rw [hread]
  exact ⟨inFlightIn_of_running hrun, (Nat.le_succ _).trans hroom'⟩

/-- A capped bulk run accounts for every app, whatever is lost, cancelled or dies: a prefix is
    dispatched, never over the cap; every dispatched task ends once and its outcome is kept; and each
    dispatched id is reported or lost as often as it was dispatched exactly if no task that ended
    without an outcome has the id of one that reported. So do the rows of a delete and of a consent
    grant; and what a sweep has checked is the unreadable apps and the dispatched ones, less those
    stopped before their first removal, with a row for each app that was interrupted or lost. -/
theorem capped_runs_account_for_every_app {T O : Type} (cmd : CappedCommand T O) (items : List T)
    (h : BulkHistory T O) :
    ((∀ run, Exec cmd.world [] (runBulkCapped cmd.out cmd.idOf items) h run →
        (Accounted cmd items h run ↔ LostApart cmd.idOf h)) ∧
      (∀ item, Asks cmd.world [] (runBulkCapped cmd.out cmd.idOf items) h (.spawn item) →
        inFlightIn h + 1 ≤ max 1 ((lastLimit h).getD 1)) ∧
      (∀ total r, Exec cmd.world []
          ((bulkFanOut cmd.out cmd.idOf total).dispatchItems items [] ⟨[], []⟩) h r →
        inFlightIn h = r.2.1.length ∧ r.2.1.length ≤ max 1 ((lastLimit h).getD 1))) ∧
    (∀ items h run, Exec deleteCommand.world [] (runBulkCapped deleteOutcome id items) h run →
      ((finishBulkDelete run).2.rowIds.Perm (spawnedIn h) ↔ LostApart id h)) ∧
    (∀ items h run, Exec grantCommand.world [] (runBulkCapped grantOutcome id items) h run →
      (((finishBulkGrant run).2.outcomes.map (·.objectId)).Perm (spawnedIn h) ↔ LostApart id h)) ∧
    (∀ now items h run, Exec (sweepCommand now).world []
        (runBulkCapped sweepOutcome Application.id items) h run →
      ∀ scanned unreadable nameOf,
        (∃ checked, (finishExpiredSweep scanned unreadable run nameOf).2.appsChecked = some checked ∧
          checked + run.outcomes.countP (·.neverStarted) = unreadable.length + (spawnedIn h).length) ∧
        (∀ item ∈ run.outcomes, 0 < item.unattempted → item.triedAny = true →
          ∃ row ∈ (finishExpiredSweep scanned unreadable run nameOf).2.summaries,
            row.objectId = item.summary.objectId ∧ row.error.isSome) ∧
        (LostApart Application.id h → ∀ app, (app, none) ∈ joinedIn h →
          lostSweep nameOf app.id ∈ (finishExpiredSweep scanned unreadable run nameOf).2.summaries)) ∧
    (∀ app now h item, Exec history [] (sweepOne app now) h item →
      (item.neverStarted = true ↔ expiredPasswordKeyIds app now ≠ [] ∧ ∀ e ∈ h, ¬ IsRemoval e)) := by
  refine ⟨⟨fun run hexec => accounted_iff (runEnd_of_exec hexec),
    fun item hasks => (meets_runBulkCapped cmd items).asked hasks item rfl,
    fun total r hexec => dispatch_keeps_cap cmd items total hexec⟩, ?_, ?_, ?_, ?_⟩
  · intro items h run hexec
    have hend : RunEnd deleteCommand items h run := runEnd_of_exec hexec
    have hspawned : (spawnedIn h).map deleteCommand.idOf = spawnedIn h := List.map_id _
    refine Iff.trans ?_ (perm_lost_iff hend)
    rw [hspawned]
    exact ⟨fun hperm => hperm.symm.trans (perm_deleteRows run),
      fun hperm => (perm_deleteRows run).trans hperm.symm⟩
  · intro items h run hexec
    have hend : RunEnd grantCommand items h run := runEnd_of_exec hexec
    have hspawned : (spawnedIn h).map grantCommand.idOf = spawnedIn h := List.map_id _
    refine Iff.trans ?_ (perm_lost_iff hend)
    rw [hspawned, grantRows]
    exact List.perm_comm
  · intro now items h run hexec scanned unreadable nameOf
    have hend : RunEnd (sweepCommand now) items h run := runEnd_of_exec hexec
    refine ⟨appsChecked_eq hend scanned unreadable nameOf, fun item hitem hleft htried => ?_,
      fun hapart app happ => lost_row hend hapart scanned unreadable nameOf happ⟩
    obtain ⟨row, hrow, hnamed⟩ := interrupted_row hleft htried
    refine ⟨row, List.mem_append_left _ (List.mem_append_right _ ?_), hnamed⟩
    exact List.mem_filterMap.2 ⟨item, hitem, hrow⟩
  · intro app now h item hexec
    exact (sweepOne_reports hexec).2.2

/-! ## Runs that can be looked at -/

/-- A bulk delete nobody stops: the task that was started first ends first, as `ends` says. -/
def deleteServe (ends : Nat → Option (Except BulkError Unit))
    (h : BulkHistory Text DeleteOutcome) (c : BulkCall Text) :
    Option (BulkAnswer Text DeleteOutcome c × BulkHistory Text DeleteOutcome) :=
  let answer : Option (BulkAnswer Text DeleteOutcome c) := match c with
    | .limit => some 4
    | .meterDone => some 2
    | .tick => some (0, 4)
    | .isCancelled => some false
    | .isDead => some false
    | .noteFatal _ => some ()
    | .spawn _ => some ()
    | .next [] => none
    | .next (item :: _) => some (0, (ends (joinedIn h).length).map (deleteOne item))
    | .emit _ => some ()
  answer.map (fun r => (r, h ++ [⟨c, r⟩]))

theorem world_of_deleteServe (ends : Nat → Option (Except BulkError Unit))
    (h : BulkHistory Text DeleteOutcome) (c : BulkCall Text) (r : BulkAnswer Text DeleteOutcome c)
    (h' : BulkHistory Text DeleteOutcome) (hserve : deleteServe ends h c = some (r, h')) :
    deleteCommand.world h c r h' := by
  obtain ⟨r', hanswer, heq⟩ := Option.map_eq_some_iff.1 hserve
  obtain ⟨rfl, rfl⟩ := Prod.mk.inj heq
  refine ⟨?_, rfl⟩
  cases c with
  | next inFlight =>
    cases inFlight with
    | nil => exact absurd hanswer (by simp)
    | cons item rest =>
      obtain rfl := Option.some.inj hanswer
      refine ⟨item, rfl, fun o ho => ?_⟩
      obtain ⟨answer, -, heq⟩ := Option.map_eq_some_iff.1 ho
      exact ⟨answer, heq.symm⟩
  | _ => trivial

/-- The first delete reports, the second is lost. -/
def secondLost : Nat → Option (Except BulkError Unit)
  | 0 => some (.ok ())
  | _ => none

/-- What the tasks of a run came to. -/
def endings (r : CappedRun DeleteOutcome × BulkHistory Text DeleteOutcome) : List (Text × Bool) :=
  (joinedIn r.2).map (fun j => (j.1, j.2.isNone))

/-- One app twice in the list: the delete that is lost is in no row. -/
theorem lost_duplicate_is_unaccounted : ∃ h run,
    Exec deleteCommand.world [] (runBulkCapped deleteOutcome id [['a'], ['a']]) h run ∧
    ¬ Accounted deleteCommand [['a'], ['a']] h run ∧
    ¬ (finishBulkDelete run).2.rowIds.Perm (spawnedIn h) := by
  have hplay : (Prog.run (deleteServe secondLost) (runBulkCapped deleteOutcome id [['a'], ['a']]) []).map
      endings = some [(['a'], false), (['a'], true)] := by
    decide
  obtain ⟨run, h, hexec, hview⟩ := exists_exec_of_run (world_of_deleteServe secondLost) hplay
  have hend : RunEnd deleteCommand [['a'], ['a']] h run := runEnd_of_exec hexec
  have hnot : ¬ LostApart deleteCommand.idOf h := by
    intro hapart
    have hlost : (['a'], true) ∈ endings (run, h) := by simp [hview]
    have hreported : (['a'], false) ∈ endings (run, h) := by simp [hview]
    obtain ⟨⟨t, r⟩, hj, heq⟩ := List.mem_map.1 hlost
    obtain ⟨⟨t', r'⟩, hj', heq'⟩ := List.mem_map.1 hreported
    obtain ⟨rfl, hnone⟩ := Prod.mk.inj heq
    obtain ⟨rfl, hsome⟩ := Prod.mk.inj heq'
    cases r with
    | some o => exact absurd hnone (by simp)
    | none =>
      cases r' with
      | none => exact absurd hsome (by simp)
      | some o => exact hapart _ _ o hj hj' rfl
  refine ⟨h, run, hexec, fun haccounted => hnot ((accounted_iff hend).1 haccounted), fun hperm => ?_⟩
  refine hnot ((perm_lost_iff hend).1 ?_)
  rw [show (spawnedIn h).map deleteCommand.idOf = spawnedIn h from List.map_id _]
  exact hperm.symm.trans (perm_deleteRows run)

/-- Two apps: the lost one has its row. -/
theorem lost_app_has_its_row : ∃ h run,
    Exec deleteCommand.world [] (runBulkCapped deleteOutcome id [['a'], ['b']]) h run ∧
    (finishBulkDelete run).2.rowIds.Perm (spawnedIn h) := by
  have hplay : (Prog.run (deleteServe secondLost) (runBulkCapped deleteOutcome id [['a'], ['b']]) []).map
      endings = some [(['a'], false), (['b'], true)] := by
    decide
  obtain ⟨run, h, hexec, hview⟩ := exists_exec_of_run (world_of_deleteServe secondLost) hplay
  refine ⟨h, run, hexec,
    ((capped_runs_account_for_every_app deleteCommand [] []).2.1 _ h run hexec).2 ?_⟩
  intro t t' o ht ht' heq
  have hlost : (t, true) ∈ endings (run, h) := List.mem_map.2 ⟨_, ht, rfl⟩
  have hreported : (t', false) ∈ endings (run, h) := List.mem_map.2 ⟨_, ht', rfl⟩
  rw [hview] at hlost hreported
  obtain rfl : t = ['b'] := by simpa using hlost
  obtain rfl : t' = ['a'] := by simpa using hreported
  exact absurd heq (by decide)

end Bulk
