import AzAppToolkit.Graph.Transport

set_option autoImplicit false

/-! # JSON batching

`client/batch.rs`: many GETs in a few `POST /$batch`, one result for each URL in order. A chunk keys
its sub-requests by their index in the chunk; the throttled and failed ones are sent again, under the
indices they had, while the retry budget lasts. `checked_sub_urls` and `rejoin_refused` leave out the
inputs whose id is refused and put their refusals back.

Modelling choices:
* a call `post` is `send_core_url_with` and the decoding of its envelope, and names its chunk;
* the chunks of a group run one after the other here: they share nothing, and their answers are free;
* a sub-response's `body` is a value of any type, with the decoding `serde` derives and the text
  `to_string` writes as parameters; its headers are in the order the map yields them;
* what is only logged or told to the throttle observer is left out. -/

namespace Graph

/-- `slice::chunks`. -/
def chunks {α : Type} (size : Nat) (l : List α) : List (List α) :=
  (List.range ((l.length + size - 1) / size)).map (fun c => (l.drop (c * size)).take size)

namespace Batch

variable {Json T : Type}

/-- Sub-requests in one POST. -/
def batchMax : Nat := 20

/-- POSTs in flight at once. -/
def chunkConcurrency : Nat := 4

structure BatchSubResponse (Json : Type) where
  id : Text
  status : Nat
  body : Json
  headers : List (Text × Text)

def BatchSubResponse.retryAfterSecs (sub : BatchSubResponse Json) : Option Nat :=
  (sub.headers.find? (fun header => Text.eqIgnoreAsciiCase header.1 "retry-after".toList)).bind
    (fun header => parseRetryAfterSeconds (some header.2))

structure SubRequest where
  id : Text
  url : Text

inductive Call where
  | post (chunk : Nat) (requests : List SubRequest)
  | wait (retryAfterSecs : Option Nat) (delayMs : Nat)

@[reducible] def Answer (Json : Type) : Call → Type
  | .post _ _ => Except GraphError (List (BatchSubResponse Json))
  | .wait _ _ => Unit

def post (chunk : Nat) (requests : List SubRequest) :
    Prog (Answer Json) (Except GraphError (List (BatchSubResponse Json))) :=
  Prog.call (Call.post chunk requests)

def wait (retryAfterSecs : Option Nat) (delayMs : Nat) : Prog (Answer Json) Unit :=
  Prog.call (Call.wait retryAfterSecs delayMs)

/-! ## Refused inputs -/

/-- The sub-URLs of the inputs `build` accepts, and for each input its refusal. -/
def checkedSubUrls {ι : Type} (build : ι → Except GraphError Text) :
    List ι → List Text × List (Option GraphError)
  | [] => ([], [])
  | input :: inputs =>
    let (urls, refused) := checkedSubUrls build inputs
    match build input with
    | .ok url => (url :: urls, none :: refused)
    | .error e => (urls, some e :: refused)

def answeredFewer : GraphError :=
  .protocol "$batch answered fewer sub-requests than it was sent".toList

/-- One result for each input: the batch's in order, with the refusals in between. -/
def rejoinRefused : List (Option GraphError) → List (Except GraphError T) →
    List (Except GraphError T)
  | [], _ => []
  | some e :: refused, batched => .error e :: rejoinRefused refused batched
  | none :: refused, [] => .error answeredFewer :: rejoinRefused refused []
  | none :: refused, result :: batched => result :: rejoinRefused refused batched

/-! ## A chunk -/

section Chunk

variable (decode : Json → Except Text T) (render : Json → Text)

/-- The result an individual GET with this response would yield. -/
def mapBatchResponse (sub : BatchSubResponse Json) : Except GraphError T :=
  if 200 ≤ sub.status ∧ sub.status < 300 then (decode sub.body).mapError .deserialize
  else .error (mapErrorStatus sub.status (render sub.body) sub.retryAfterSecs)

/-- Whether a sub-response's request is sent again. -/
def retriedSubStatus (status : Nat) : Bool := status == 429 || 500 ≤ status

/-- `Option::max`, with `None` below every value. -/
def laterWait : Option Nat → Option Nat → Option Nat
  | some a, some b => some (max a b)
  | a, b => a.or b

/-- What a round makes of an envelope. -/
structure Round (T : Type) where
  results : List (Option (Except GraphError T))
  retry : List Nat
  maxRetryAfter : Option Nat

def Round.take (mayRetry : Bool) (round : Round T) (sub : BatchSubResponse Json) : Round T :=
  match Text.parseUnsigned 64 sub.id with
  | none => round
  | some idx =>
    match round.results[idx]? with
    | none => round
    | some (some _) => round
    | some none =>
      if retriedSubStatus sub.status && mayRetry then
        { round with
          retry := round.retry ++ [idx]
          maxRetryAfter := laterWait round.maxRetryAfter sub.retryAfterSecs }
      else
        { round with
          results := round.results.set idx (some (mapBatchResponse decode render sub)) }

/-- The sub-requests still pending. Every pending index is one of the chunk's. -/
def requestsFor (urls : List Text) (pending : List Nat) : List SubRequest :=
  pending.map (fun i => ⟨(toString i).toList, urls.getD i []⟩)

/-- The rounds of a chunk, by the retries left. -/
def batchRounds (chunk : Nat) (urls : List Text) :
    (left delayMs : Nat) → List (Option (Except GraphError T)) → List Nat →
      Prog (Answer Json) (Except GraphError (List (Option (Except GraphError T))))
  | left, delayMs, results, pending => do
      if pending.isEmpty then return .ok results
      match ← post chunk (requestsFor urls pending) with
      | .error e => return .error e
      | .ok responses =>
        let round := responses.foldl (Round.take decode render (0 < left)) ⟨results, [], none⟩
        if round.retry.isEmpty then return .ok round.results
        match left with
        -- nothing is put aside without a retry left
        | 0 => return .ok round.results
        | left + 1 =>
          wait round.maxRetryAfter delayMs
          batchRounds chunk urls left (nextBackoffMs delayMs) round.results round.retry

def missingResponse : GraphError := .protocol "missing batch response".toList

def batchChunk (chunk : Nat) (urls : List Text) :
    Prog (Answer Json) (Except GraphError (List (Except GraphError T))) := do
  match ← batchRounds decode render chunk urls RetryBudget.new.left RetryBudget.new.delayMs
      (List.replicate urls.length none) (List.range urls.length) with
  | .error e => return .error e
  | .ok results => return .ok (results.map (fun r => r.getD (.error missingResponse)))

/-! ## The batch -/

/-- The results of a group's chunks, appended in order; the first failed chunk fails the call. -/
def extendAll : List (Except GraphError T) → List (Except GraphError (List (Except GraphError T))) →
    Except GraphError (List (Except GraphError T))
  | out, [] => .ok out
  | _, .error e :: _ => .error e
  | out, .ok results :: rest => extendAll (out ++ results) rest

/-- The groups left to send, and the results so far. -/
def batchGroups : List (List (List Text × Nat)) → List (Except GraphError T) →
    Prog (Answer Json) (Except GraphError (List (Except GraphError T)))
  | [], out => return .ok out
  | group :: groups, out => do
      let results ← Prog.joinAll (group.map (fun c => batchChunk decode render c.2 c.1))
      match extendAll out results with
      | .error e => return .error e
      | .ok out => batchGroups groups out

def batchGetJson (urls : List Text) :
    Prog (Answer Json) (Except GraphError (List (Except GraphError T))) :=
  batchGroups decode render (chunks chunkConcurrency (chunks batchMax urls).zipIdx) []

/-- The shape of every checked batch read: refuse, batch, rejoin. -/
def checkedBatchGetJson {ι : Type} (build : ι → Except GraphError Text) (inputs : List ι) :
    Prog (Answer Json) (Except GraphError (List (Except GraphError T))) := do
  let (urls, refused) := checkedSubUrls build inputs
  match ← batchGetJson decode render urls with
  | .error e => return .error e
  | .ok batched => return .ok (rejoinRefused refused batched)

end Chunk

end Batch

end Graph
