import AzAppToolkit.Bulk.Dispatch
import AzAppToolkit.Audit.Scoring

set_option autoImplicit false

/-! # Capped bulk runs

The three bulk writes of `commands/bulk.rs` that fan out over `dispatch_capped`: delete, consent grant
and the expired-secret sweep.

Modelling choices:
* a command's own work on an item is the relation between the item and the outcomes its task may
  report; the sweep's is modelled (`sweepOne`), since its result is read key by key;
* the flags are read where the source reads them, and may change between any two reads. -/

namespace Bulk

open Prog

/-! ## The capped driver -/

structure BulkProgress where
  done : Nat
  total : Nat
  currentApp : Option Text
  cancelled : Bool
  inFlightCap : Option Nat

/-- What `run_bulk_capped` needs from an outcome. -/
structure CappedOutcome (O : Type) where
  sessionFatal : O → Bool
  objectId : O → Text
  progressLabel : O → Text

structure CappedRun (O : Type) where
  outcomes : List O
  lost : List Text
  dispatched : Nat
  cancelled : Bool

inductive BulkCall (T : Type) where
  /-- `meter.limit()`. -/
  | limit
  /-- `meter.done()`. -/
  | meterDone
  /-- `ticker.tick()`. -/
  | tick
  | isCancelled
  | isDead
  | noteFatal (fatal : Bool)
  | spawn (item : T)
  /-- `in_flight.next().await`, with tasks in flight. -/
  | next (inFlight : List T)
  | emit (progress : BulkProgress)

abbrev BulkAnswer (T O : Type) : BulkCall T → Type
  | .limit => Nat
  | .meterDone => Nat
  | .tick => Nat × Nat
  | .isCancelled => Bool
  | .isDead => Bool
  | .noteFatal _ => Unit
  | .spawn _ => Unit
  | .next _ => Nat × Option O
  | .emit _ => Unit

section Driver

variable {T O : Type}

abbrev BulkSteps (T O α : Type) := Prog (BulkAnswer T O) α

/-- What the two closures of `run_bulk_capped` share. -/
structure BulkState (O : Type) where
  outcomes : List O
  dispatched : List Text

def readLimit : BulkSteps T O Nat := call BulkCall.limit

def readCancelled : BulkSteps T O Bool := call BulkCall.isCancelled

def readDead : BulkSteps T O Bool := call BulkCall.isDead

def tick : BulkSteps T O (Nat × Nat) := call BulkCall.tick

def nextJoined (inFlight : List T) : BulkSteps T O (Nat × Option O) := call (BulkCall.next inFlight)

/-- The spawn gate. -/
def spawnGate (idOf : T → Text) (s : BulkState O) (item : T) : BulkSteps T O (BulkState O × Bool) := do
  let cancelled ← readCancelled
  if cancelled then .done (s, false)
  else do
    let dead ← readDead
    if dead then .done (s, false)
    else do
      call (BulkCall.spawn item)
      .done ({ s with dispatched := s.dispatched ++ [idOf item] }, true)

/-- What a joined task leaves: the latch is noted, and the outcome kept. -/
def noteJoined (out : CappedOutcome O) (s : BulkState O) :
    Option O → BulkSteps T O (BulkState O × Option Text)
  | some outcome => do
      call (BulkCall.noteFatal (out.sessionFatal outcome))
      .done ({ s with outcomes := s.outcomes ++ [outcome] }, some (out.progressLabel outcome))
  | none => .done (s, none)

def collectJoined (out : CappedOutcome O) (total : Nat) (s : BulkState O) (joined : Option O) :
    BulkSteps T O (BulkState O) := do
  let ticked ← tick
  let noted ← noteJoined out s joined
  let cancelled ← readCancelled
  call (BulkCall.emit ⟨ticked.1, total, noted.2, cancelled, some ticked.2⟩)
  .done noted.1

def bulkFanOut (out : CappedOutcome O) (idOf : T → Text) (total : Nat) :
    FanOut (BulkAnswer T O) T O (BulkState O) where
  cap := readLimit
  spawn := spawnGate idOf
  next := nextJoined
  collect := collectJoined out total

/-- `stopped_by_cancel`. -/
def stoppedByCancel (cancelledEarly : Bool) : BulkSteps T O Bool := do
  let cancelled ← readCancelled
  if cancelled then .done true
  else if cancelledEarly then do
    let dead ← readDead
    .done (!dead)
  else .done false

/-- Dispatched minus reported. -/
def lostIds (out : CappedOutcome O) (s : BulkState O) : List Text :=
  s.dispatched.filter (fun id => !(s.outcomes.map out.objectId).contains id)

def runBulkCapped (out : CappedOutcome O) (idOf : T → Text) (items : List T) :
    BulkSteps T O (CappedRun O) := do
  let cap ← readLimit
  call (BulkCall.emit ⟨0, items.length, none, false, some cap⟩)
  let dispatch ← (bulkFanOut out idOf items.length).dispatchCapped items ⟨[], []⟩
  let cancelled ← stoppedByCancel dispatch.1
  let joinedInAll : Nat ← call BulkCall.meterDone
  let cap ← readLimit
  call (BulkCall.emit ⟨joinedInAll, items.length, none, cancelled, some cap⟩)
  .done ⟨dispatch.2.outcomes, lostIds out dispatch.2, dispatch.2.dispatched.length, cancelled⟩

end Driver

/-! ## Errors and rows -/

structure BulkError where
  code : Text
  message : Text
  retryable : Bool

def lostTask : Text := "lost_task".toList

def interrupted : Text := "interrupted".toList

/-- What a run does to the caches. -/
inductive CacheEffect where
  | invalidateAppLists
  | recordDeletedApps (ids : List Text)
  | invalidateAppCredentials (id : Text)
  | invalidateAppDetailState
deriving DecidableEq

/-! ## Delete -/

structure BulkDeleteFailure where
  objectId : Text
  message : Text
  code : Option Text

structure BulkDeleteResult where
  deleted : List Text
  failed : List BulkDeleteFailure
  cancelled : Bool

abbrev DeleteOutcome := Except BulkDeleteFailure Text

def deleteId : DeleteOutcome → Text
  | .ok id => id
  | .error failure => failure.objectId

def deleteOutcome : CappedOutcome DeleteOutcome where
  sessionFatal
    | .ok _ => false
    | .error failure => failure.code.any isReauthFatal
  objectId := deleteId
  progressLabel := deleteId

/-- `delete_one`, from what Graph answers the DELETE. -/
def deleteOne (objectId : Text) : Except BulkError Unit → DeleteOutcome
  | .ok () => .ok objectId
  | .error e => .error ⟨objectId, e.message, some e.code⟩

def deletedOf (outcomes : List DeleteOutcome) : List Text :=
  outcomes.filterMap (fun outcome => match outcome with
    | .ok id => some id
    | .error _ => none)

def failedOf (outcomes : List DeleteOutcome) : List BulkDeleteFailure :=
  outcomes.filterMap (fun outcome => match outcome with
    | .ok _ => none
    | .error failure => some failure)

def lostDelete (objectId : Text) : BulkDeleteFailure :=
  ⟨objectId, ("its delete ended without reporting an outcome; check Recently deleted " ++
    "before re-running").toList, some lostTask⟩

def finishBulkDelete (run : CappedRun DeleteOutcome) : List CacheEffect × BulkDeleteResult :=
  let deleted := deletedOf run.outcomes
  let failed := failedOf run.outcomes ++ run.lost.map lostDelete
  let effects :=
    if !run.lost.isEmpty || (!deleted.isEmpty && !failed.isEmpty) then [.invalidateAppLists]
    else if !deleted.isEmpty then [.recordDeletedApps deleted]
    else []
  (effects, ⟨deleted, failed, run.cancelled⟩)

/-! ## Consent grant -/

structure BulkGrantOutcome where
  objectId : Text
  granted : Nat
  skipped : Nat
  failed : Nat
  error : Option BulkError

structure GrantItem where
  outcome : BulkGrantOutcome
  spCreated : Bool

structure BulkGrantResult where
  outcomes : List BulkGrantOutcome
  cancelled : Bool

def grantOutcome : CappedOutcome GrantItem where
  sessionFatal item := item.outcome.error.any (fun e => isReauthFatal e.code)
  objectId item := item.outcome.objectId
  progressLabel item := item.outcome.objectId

/-- What of a consent run a row is made of: the counts, the first failure, and the error that ended it. -/
structure GrantRun where
  roleAssignmentsCreated : Nat
  scopeGrantsUpserted : Nat
  roleAssignmentsSkipped : Nat
  failures : List Text
  error : Option BulkError
  spCreated : Bool

def failedOutright (objectId : Text) (error : BulkError) (spCreated : Bool) : GrantItem :=
  ⟨⟨objectId, 0, 0, 0, some error⟩, spCreated⟩

def grantItem (objectId : Text) : Except BulkError GrantRun → GrantItem
  | .error e => failedOutright objectId e false
  | .ok run =>
    match run.error with
    | some e => failedOutright objectId e run.spCreated
    | none => ⟨⟨objectId, run.roleAssignmentsCreated + run.scopeGrantsUpserted,
        run.roleAssignmentsSkipped, run.failures.length,
        run.failures.head?.map (fun message => ⟨"partial_failure".toList, message, false⟩)⟩,
        run.spCreated⟩

def lostGrant (objectId : Text) : BulkGrantOutcome :=
  ⟨objectId, 0, 0, 0, some ⟨lostTask, ("its consent grant ended without reporting an outcome; " ++
    "check the app's permissions before re-running").toList, false⟩⟩

def finishBulkGrant (run : CappedRun GrantItem) : List CacheEffect × BulkGrantResult :=
  let anySpCreated := run.outcomes.any (·.spCreated) || !run.lost.isEmpty
  let outcomes := run.outcomes.map (·.outcome) ++ run.lost.map lostGrant
  let effects :=
    if anySpCreated then [.invalidateAppLists]
    else if outcomes.any (fun o => decide (0 < o.granted)) then [.invalidateAppDetailState]
    else []
  (effects, ⟨outcomes, run.cancelled⟩)

/-! ## Expired secrets -/

structure PasswordCredential where
  keyId : Text
  endDateTime : Option Audit.Timestamp

/-- What the sweep reads of an application. -/
structure Application where
  id : Text
  displayName : Text
  passwordCredentials : List PasswordCredential

def isExpired (endDateTime : Option Audit.Timestamp) (now : Audit.Timestamp) : Bool :=
  endDateTime.any (fun e => decide (Audit.numDays (e - now) < 0))

def expiredPasswordKeyIds (app : Application) (now : Audit.Timestamp) : List Text :=
  (app.passwordCredentials.filter (fun c => isExpired c.endDateTime now)).map (·.keyId)

structure AppRemovalSummary where
  objectId : Text
  displayName : Text
  removedKeyIds : List Text
  failedKeyIds : List Text
  error : Option BulkError

structure SweepItem where
  summary : AppRemovalSummary
  unattempted : Nat

def sweepOutcome : CappedOutcome SweepItem where
  sessionFatal item := item.summary.error.any (fun e => isReauthFatal e.code)
  objectId item := item.summary.objectId
  progressLabel item := item.summary.displayName

inductive SweepCall where
  | isCancelled
  | isDead
  | removePassword (objectId keyId : Text)
  | noteCode (code : Text)

abbrev SweepAnswer : SweepCall → Type
  | .isCancelled => Bool
  | .isDead => Bool
  | .removePassword _ _ => Except BulkError Unit
  | .noteCode _ => Unit

abbrev SweepSteps (α : Type) := Prog SweepAnswer α

/-- What the key loop has done so far. -/
structure Removals where
  removed : List Text
  failed : List Text
  error : Option BulkError

/-- `cancel.is_cancelled() || session.is_dead()`. -/
def sweepStopped : SweepSteps Bool := do
  let cancelled : Bool ← call SweepCall.isCancelled
  if cancelled then .done true
  else call SweepCall.isDead

def removePassword (objectId keyId : Text) : SweepSteps (Except BulkError Unit) :=
  call (SweepCall.removePassword objectId keyId)

/-- The failure an app keeps: the first, unless a later one is fatal. -/
def keptError (error : Option BulkError) (e : BulkError) : Option BulkError :=
  if isReauthFatal e.code || error.isNone then some e else error

/-- The key loop. -/
def removeKeys (objectId : Text) : List Text → Removals → SweepSteps Removals
  | [], s => .done s
  | keyId :: keys, s => do
      let stopped ← sweepStopped
      if stopped then .done s
      else do
        match ← removePassword objectId keyId with
        | .ok () => removeKeys objectId keys { s with removed := s.removed ++ [keyId] }
        | .error e => do
            call (SweepCall.noteCode e.code)
            let s' := ⟨s.removed, s.failed ++ [keyId], keptError s.error e⟩
            if isReauthFatal e.code then .done s' else removeKeys objectId keys s'

def sweepOne (app : Application) (now : Audit.Timestamp) : SweepSteps SweepItem := do
  let keys := expiredPasswordKeyIds app now
  let s ← removeKeys app.id keys ⟨[], [], none⟩
  .done ⟨⟨app.id, app.displayName, s.removed, s.failed, s.error⟩,
    keys.length - s.removed.length - s.failed.length⟩

structure BulkRemoveExpiredResult where
  appsScanned : Nat
  summaries : List AppRemovalSummary
  cancelled : Bool
  appsChecked : Option Nat

def SweepItem.triedAny (item : SweepItem) : Bool :=
  !item.summary.removedKeyIds.isEmpty || !item.summary.failedKeyIds.isEmpty

/-- A Cancel or a dead session stopped the app before its first removal. -/
def SweepItem.neverStarted (item : SweepItem) : Bool := decide (0 < item.unattempted) && !item.triedAny

def interruptedError (unattempted : Nat) : BulkError :=
  ⟨interrupted,
    if unattempted = 1 then
      "the run stopped before 1 more expired secret was removed; re-run to finish".toList
    else "the run stopped before ".toList ++ (toString unattempted).toList ++
      " more expired secrets were removed; re-run to finish".toList, false⟩

/-- The row of a reported app. -/
def SweepItem.marked (item : SweepItem) : AppRemovalSummary :=
  if 0 < item.unattempted ∧ item.summary.error = none then
    { item.summary with error := some (interruptedError item.unattempted) }
  else item.summary

/-- The row, if the app has something to say. -/
def SweepItem.row (item : SweepItem) : Option AppRemovalSummary :=
  if item.neverStarted then none
  else if item.triedAny || item.marked.error.isSome then some item.marked
  else none

def lostSweep (nameOf : Text → Text) (objectId : Text) : AppRemovalSummary :=
  ⟨objectId, nameOf objectId, [], [],
    some ⟨lostTask, ("its expired-secret removal ended without reporting an outcome; check the " ++
      "app's credentials before re-running").toList, false⟩⟩

def finishExpiredSweep (appsScanned : Nat) (summaries : List AppRemovalSummary)
    (run : CappedRun SweepItem) (nameOf : Text → Text) :
    List CacheEffect × BulkRemoveExpiredResult :=
  let unreadable := summaries.length
  let neverStarted := run.outcomes.countP (·.neverStarted)
  let rows := summaries ++ run.outcomes.filterMap SweepItem.row
  let appsChecked := unreadable + run.dispatched - neverStarted
  let mutated := rows.filter (fun row => !row.removedKeyIds.isEmpty)
  let effects := (mutated.map (·.objectId) ++ run.lost).map CacheEffect.invalidateAppCredentials
  (effects, ⟨appsScanned, rows ++ run.lost.map (lostSweep nameOf), run.cancelled, some appsChecked⟩)

end Bulk
