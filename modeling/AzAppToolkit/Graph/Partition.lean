import AzAppToolkit.Graph.Errors
import AzAppToolkit.Lib.Program

set_option autoImplicit false

/-! # The partitioned directory scan

`client/partition.rs`: a tenant-wide scan of one collection. Page one is fetched beside `/$count`;
where that pays, the rest is read as sixteen slices by the first character of `appId`, merged and
checked, and a merge that cannot be trusted is thrown away for the serial `nextLink` read. What a
client has learned about slicing a collection is its `SliceMemo`.

Modelling choices:
* one collection, so one memo. A scan reads and updates it by calls, since other scans of the same
  client do so in between;
* a page request is a call answered with the decoded page or the client's error; its retries and the
  origin check of a `nextLink` are inside the call;
* the slices of a wave are read one after the other. They share nothing, and `try_join_all` hands back
  the error that comes first: which of the failed slices that is, is a call answered freely;
* the strategy, which the source only logs, is kept in the result. -/

namespace Graph

/-- A row a partitioned scan can split and de-duplicate. -/
class DirectoryRow (Row : Type) where
  objectId : Row → Text
  appId : Row → Text

open DirectoryRow

structure Paged (Row : Type) where
  items : List Row
  nextLink : Option Text

/-! ## The memo -/

inductive SliceMode where
  | plain
  | advanced
  | serial
deriving DecidableEq

/-- What a client remembers about one collection's slicing. -/
structure SliceMemo where
  mode : Option SliceMode
  lagRefusals : Nat
  transientRefusals : Nat

def SliceMemo.default : SliceMemo := ⟨none, 0, 0⟩

def minPagesToPartition : Nat := 4

def maxLagRefusals : Nat := 2

def maxTransientRefusals : Nat := 3

def maxPages : Nat := 200

/-- `u8::saturating_add(1)`. -/
def saturatingIncr (n : Nat) : Nat := min (n + 1) 255

/-- Why a sliced read was refused. -/
inductive Refusal where
  | slicePageLimit
  | prefixMismatch
  | unslicedRow
  | probeRowMissing
  | countShortfall
  | sliceFailed
  | sliceTransient
  | modeRejected

def Refusal.isStructural : Refusal → Bool
  | .slicePageLimit | .prefixMismatch | .unslicedRow => true
  | _ => false

def Refusal.isTransient : Refusal → Bool
  | .sliceTransient => true
  | _ => false

/-- A refused merge: the failed check, and the ids the slices did return. -/
structure Refused where
  reason : Refusal
  union : List Text

/-- What a scan does to the memo. -/
inductive MemoUpdate where
  /-- The collection cannot be sliced. -/
  | pin
  /-- A merge validated. -/
  | validated (mode : SliceMode)
  /-- The serial read after a refusal returned. -/
  | refused (reason : Refusal) (structural slicesWereComplete : Bool)

def MemoUpdate.apply : MemoUpdate → SliceMemo → SliceMemo
  | .pin, memo => { memo with mode := some .serial }
  | .validated mode, _ => ⟨some mode, 0, 0⟩
  | .refused reason structural slicesWereComplete, memo =>
    if structural then { memo with mode := some .serial }
    else if reason.isTransient then
      let n := saturatingIncr memo.transientRefusals
      { memo with
        transientRefusals := n
        mode := if maxTransientRefusals ≤ n then some .serial else memo.mode }
    else if !slicesWereComplete then
      let n := saturatingIncr memo.lagRefusals
      { memo with
        lagRefusals := n
        mode := if maxLagRefusals ≤ n then some .serial else memo.mode }
    else memo

/-! ## Calls -/

inductive PageRequest where
  | first
  | slice (start : Char) (advanced : Bool)
  | next (link : Text) (eventual : Bool)
deriving DecidableEq

inductive ScanCall where
  | readMemo
  | updateMemo (update : MemoUpdate)
  | page (request : PageRequest)
  | count
  /-- Which of `others + 1` failed slices failed first. -/
  | firstFailure (others : Nat)
  /-- The warning that a partitioned read failed validation. -/
  | warnRefused (reason : Refusal)

@[reducible] def ScanAnswer (Row : Type) : ScanCall → Type
  | .readMemo => SliceMemo
  | .updateMemo _ => Unit
  | .page _ => Except GraphError (Paged Row)
  | .count => Except GraphError Nat
  | .firstFailure others => Fin (others + 1)
  | .warnRefused _ => Unit

section Scan

variable {Row : Type}

def readMemo : Prog (ScanAnswer Row) SliceMemo := Prog.call ScanCall.readMemo

def updateMemo (update : MemoUpdate) : Prog (ScanAnswer Row) Unit :=
  Prog.call (ScanCall.updateMemo update)

def getPage (request : PageRequest) : Prog (ScanAnswer Row) (Except GraphError (Paged Row)) :=
  Prog.call (ScanCall.page request)

def countCollection : Prog (ScanAnswer Row) (Except GraphError Nat) := Prog.call ScanCall.count

def firstFailure (others : Nat) : Prog (ScanAnswer Row) (Fin (others + 1)) :=
  Prog.call (ScanCall.firstFailure others)

def warnRefused (reason : Refusal) : Prog (ScanAnswer Row) Unit :=
  Prog.call (ScanCall.warnRefused reason)

/-! ## The serial read -/

/-- The loop of `collect_all_pages_capped`: the rows so far and the link of the last page. The page
    limit is the guard against a chain that does not advance. -/
def collectPages (maxItems : Nat) (eventual : Bool) : (pagesLeft : Nat) → List Row → Option Text →
    Prog (ScanAnswer Row) (Except GraphError (List Row × Bool))
  | pagesLeft, out, nextLink =>
    if out.length < maxItems then
      match nextLink with
      | none => return .ok (out, false)
      | some link =>
        match pagesLeft with
        | 0 => return .ok (out.take maxItems, true)
        | pagesLeft + 1 => do
            match ← getPage (.next link eventual) with
            | .error e => return .error e
            | .ok page =>
              collectPages maxItems eventual pagesLeft (out ++ page.items) page.nextLink
    else return .ok (out.take maxItems, decide (maxItems < out.length) || nextLink.isSome)

def collectAllPagesCapped (page : Paged Row) (maxItems : Nat) (eventual : Bool) :
    Prog (ScanAnswer Row) (Except GraphError (List Row × Bool)) :=
  collectPages maxItems eventual (maxPages - 1) page.items page.nextLink

inductive Strategy where
  | singlePage
  | serial
  | serialNoCount
  | serialSmall
  | serialOverCap
  | serialFallback
  | partitioned
  | partitionedAdvanced

/-- The scan returned the merge of its slices. -/
def Strategy.isSliced : Strategy → Bool
  | .partitioned | .partitionedAdvanced => true
  | _ => false

structure Scanned (Row : Type) where
  rows : List Row
  truncated : Bool
  strategy : Strategy

def serialRest (probe : Paged Row) (cap : Nat) (strategy : Strategy) :
    Prog (ScanAnswer Row) (Except GraphError (Scanned Row)) := do
  match ← collectAllPagesCapped probe cap false with
  | .error e => return .error e
  | .ok (rows, truncated) => return .ok ⟨rows, truncated, strategy⟩

variable [DirectoryRow Row]

/-! ## Slices -/

def slicePrefixes : List Char := "0123456789abcdef".toList

structure Slice (Row : Type) where
  start : Char
  rows : List Row
  truncated : Bool

inductive SliceError where
  | rejected
  | mismatch
  | graph (err : GraphError)

/-- The slice a row belongs to: the first character of its `appId`. -/
def sliceOf (row : Row) : Option Char := (appId row).head?.map Char.toLower

/-- One slice, read to its end or to the cap. -/
def readSlice (cap : Nat) (advanced : Bool) (start : Char) :
    Prog (ScanAnswer Row) (Except SliceError (Slice Row)) := do
  match ← getPage (.slice start advanced) with
  | .error (.api status body) =>
    return .error (if status = 400 then .rejected else .graph (.api status body))
  | .error e => return .error (.graph e)
  | .ok page =>
    if page.items.any (fun r => sliceOf r != some start) then return .error .mismatch
    else
      match ← collectAllPagesCapped page cap advanced with
      | .error e => return .error (.graph e)
      | .ok (rows, truncated) => return .ok ⟨start, rows, truncated⟩

/-- The good results in order, and the errors. -/
def partitionResults {ε α : Type} : List (Except ε α) → List α × List ε
  | [] => ([], [])
  | .ok a :: rest => (a :: (partitionResults rest).1, (partitionResults rest).2)
  | .error e :: rest => ((partitionResults rest).1, e :: (partitionResults rest).2)

/-- The sixteen slices in order, or the error of one that failed. -/
def readSlices (cap : Nat) (mode : SliceMode) :
    Prog (ScanAnswer Row) (Except SliceError (List (Slice Row))) := do
  let results ← Prog.joinAll (slicePrefixes.map (readSlice cap (mode == .advanced)))
  match partitionResults results with
  | (slices, []) => return .ok slices
  | (_, e :: errors) =>
    let i ← firstFailure errors.length
    return .error ((e :: errors).get i)

/-! ## The merge -/

/-- Add the rows of one slice that are not there yet. -/
def mergeRows (start : Char) : List Row → List Row → Except Refusal (List Row)
  | rows, [] => .ok rows
  | rows, row :: rest =>
    if sliceOf row != some start then .error .prefixMismatch
    else if (rows.map objectId).contains (objectId row) then mergeRows start rows rest
    else mergeRows start (rows ++ [row]) rest

/-- The union of the slices, and whether one of them was cut. -/
def unionSlices (cap : Nat) : List Row → Bool → List (Slice Row) → Except Refusal (List Row × Bool)
  | rows, anyTruncated, [] => .ok (rows, anyTruncated)
  | rows, anyTruncated, slice :: slices =>
    if slice.truncated && decide (slice.rows.length < cap) then .error .slicePageLimit
    else
      match mergeRows slice.start rows slice.rows with
      | .error reason => .error reason
      | .ok rows => unionSlices cap rows (anyTruncated || slice.truncated) slices

/-- Merge the slices in order, and check that the result can be trusted. -/
def mergeSlices (probe : List Row) (slices : List (Slice Row)) (count cap : Nat) :
    Except Refused (List Row × Bool) :=
  match unionSlices cap [] false slices with
  | .error reason => .error ⟨reason, []⟩
  | .ok (rows, anyTruncated) =>
    let seen := rows.map objectId
    if probe.any (fun r => (appId r).isEmpty) then .error ⟨.unslicedRow, []⟩
    else if probe.any (fun r => !seen.contains (objectId r)) then .error ⟨.probeRowMissing, seen⟩
    else if !anyTruncated && decide (rows.length < count) then .error ⟨.countShortfall, seen⟩
    else .ok (rows.take cap, anyTruncated || decide (cap < rows.length))

/-! ## The scan -/

/-- The update of a refusal, judged by what the serial read returned. -/
def judge (refused : Refused) (scanned : Scanned Row) : MemoUpdate :=
  let structural := refused.reason.isStructural || scanned.rows.any (fun r => (appId r).isEmpty)
  let slicesWereComplete := !structural && !scanned.truncated && !refused.union.isEmpty &&
    scanned.rows.all (fun r => refused.union.contains (objectId r))
  .refused refused.reason structural slicesWereComplete

/-- The serial read after a refusal, and what the client keeps of it. -/
def refuseRest (probe : Paged Row) (cap : Nat) (refused : Refused) :
    Prog (ScanAnswer Row) (Except GraphError (Scanned Row)) := do
  match ← serialRest probe cap .serialFallback with
  | .error e => return .error e
  | .ok scanned =>
    updateMemo (judge refused scanned)
    return .ok scanned

def refuse (probe : Paged Row) (cap : Nat) (refused : Refused) :
    Prog (ScanAnswer Row) (Except GraphError (Scanned Row)) := do
  warnRefused refused.reason
  if refused.reason.isStructural then
    updateMemo .pin
    refuseRest probe cap refused
  else refuseRest probe cap refused

/-- What a failed wave is refused for; nothing when its error ends the scan. -/
def waveRefusal (err : GraphError) : Option Refusal :=
  match err with
  | .throttled _ => some .sliceTransient
  | .api status _ => if err.isRetryable || status == 400 then some .sliceFailed else none
  | _ => if err.isRetryable then some .sliceFailed else none

/-- One wave for each mode left to try. -/
def tryModes (probe : Paged Row) (known : Option SliceMode) (count cap : Nat) :
    List SliceMode → Prog (ScanAnswer Row) (Except GraphError (Scanned Row))
  | [] =>
    -- a mode that validated before is judged like any failed wave, not pinned outright
    if known.isSome then refuse probe cap ⟨.modeRejected, []⟩
    else do
      updateMemo .pin
      serialRest probe cap .serialFallback
  | mode :: modes => do
      match ← readSlices cap mode with
      | .error .rejected => tryModes probe known count cap modes
      | .error .mismatch => refuse probe cap ⟨.prefixMismatch, []⟩
      | .error (.graph err) =>
        match waveRefusal err with
        | some reason => refuse probe cap ⟨reason, []⟩
        | none => return .error err
      | .ok slices =>
        match mergeSlices probe.items slices count cap with
        | .error refused => refuse probe cap refused
        | .ok (rows, truncated) =>
          updateMemo (.validated mode)
          return .ok ⟨rows, truncated,
            if mode = .advanced then .partitionedAdvanced else .partitioned⟩

def modesFor : Option SliceMode → List SliceMode
  | some .plain => [.plain]
  | some .advanced => [.advanced]
  | _ => [.plain, .advanced]

/-- Everything after page one. -/
def finishScan (probe : Paged Row) (count : Option (Except GraphError Nat))
    (known : Option SliceMode) (cap : Nat) :
    Prog (ScanAnswer Row) (Except GraphError (Scanned Row)) :=
  if probe.nextLink.isNone then serialRest probe cap .singlePage
  else match count with
    | none => serialRest probe cap .serial
    | some (.error _) => serialRest probe cap .serialNoCount
    | some (.ok count) =>
      let pageSize := max probe.items.length 1
      if (count + pageSize - 1) / pageSize < minPagesToPartition then
        serialRest probe cap .serialSmall
      -- far past the cap the slices would hold up to sixteen times the cap
      else if min (cap * 2) (2 ^ 64 - 1) < count then serialRest probe cap .serialOverCap
      else if probe.items.any (fun r => (appId r).isEmpty) then
        refuse probe cap ⟨.unslicedRow, []⟩
      else tryModes probe known count cap (modesFor known)

/-- The scan once its memo, page one and the count are read. -/
def scanRest (cap : Nat) (known : Option SliceMode) (probe : Except GraphError (Paged Row))
    (count : Option (Except GraphError Nat)) :
    Prog (ScanAnswer Row) (Except GraphError (Scanned Row)) :=
  match probe with
  | .error e => return .error e
  | .ok probe => do
      match ← finishScan probe count known cap with
      | .error e => return .error e
      | .ok scanned =>
        -- a row with no `appId` can be in no slice, whichever path returned it
        if scanned.rows.any (fun r => (appId r).isEmpty) then
          updateMemo .pin
          return .ok scanned
        else return .ok scanned

def scanDirectoryCapped (cap : Nat) : Prog (ScanAnswer Row) (Except GraphError (Scanned Row)) := do
  let memo ← readMemo
  if memo.mode = some .serial then
    let probe ← getPage .first
    scanRest cap memo.mode probe none
  else
    let probe ← getPage .first
    let count ← countCollection
    scanRest cap memo.mode probe (some count)

end Scan

end Graph
