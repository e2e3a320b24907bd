import AzAppToolkit.Lib.Program
import AzAppToolkit.Graph.Errors

set_option autoImplicit false

/-! # The retrying transport

`http_retry.rs` and `send_core_url_with` of `client/transport.rs`: the shared retry loop, and around
it the loop that answers a Continuous Access Evaluation challenge with one freshly minted token.

Modelling choices:
* `RetryBudget` counts the retries left instead of those spent, so that a loop over a budget is a
  recursion on it;
* a response carries its body as `read_success_body` and as `read_error_body` read it: which of them
  runs is decided by the status;
* `HeaderValue::from_str` belongs to the `http` crate; `validHeader` is what it accepts;
* the throttle observer, which is only told, and the log lines are left out. -/

namespace Graph

/-! ## The retry policy -/

def maxRetries : Nat := 3

def baseDelayMs : Nat := 1000

def maxDelayMs : Nat := 30000

def nextBackoffMs (delayMs : Nat) : Nat := min (2 * delayMs) maxDelayMs

/-- Why an attempt may be retried. -/
inductive RetryReason where
  /-- A 429: the service refused before it did any work. -/
  | throttled
  /-- No response, or a 5xx: the outcome is unknown. -/
  | transient
deriving DecidableEq

/-- Whether a request can be sent again when its outcome is unknown. -/
inductive RetryClass where
  | idempotent
  | nonIdempotent
deriving DecidableEq

/-- How one attempt ended. -/
inductive Attempt (α ε : Type) where
  | done (result : Except ε α)
  | retry (reason : RetryReason) (retryAfterSecs : Option Nat) (err : ε)

structure RetryBudget where
  left : Nat
  delayMs : Nat

namespace RetryBudget

def new : RetryBudget := ⟨maxRetries, baseDelayMs⟩

end RetryBudget

section WithRetries

variable {Call : Type} {Answer : Call → Type} {α ε : Type}

/-- `with_retries` from a budget on; `wait` sleeps before the next attempt. -/
def withRetriesFrom (wait : Option Nat → Nat → Prog Answer Unit) (retryClass : RetryClass)
    (attempt : Prog Answer (Attempt α ε)) : (left delayMs : Nat) → Prog Answer (Except ε α)
  | left, delayMs => do
      match ← attempt with
      | .done result => return result
      | .retry reason retryAfterSecs err =>
        -- replaying a mutation whose outcome is unknown could commit it twice
        if reason = .transient ∧ retryClass = .nonIdempotent then return .error err
        else match left with
          | 0 => return .error err
          | left + 1 =>
            wait retryAfterSecs delayMs
            withRetriesFrom wait retryClass attempt left (nextBackoffMs delayMs)

/-- Run `attempt` under the shared budget and backoff. -/
def withRetries (wait : Option Nat → Nat → Prog Answer Unit) (retryClass : RetryClass)
    (attempt : Prog Answer (Attempt α ε)) : Prog Answer (Except ε α) :=
  withRetriesFrom wait retryClass attempt RetryBudget.new.left RetryBudget.new.delayMs

end WithRetries

/-! ## Requests and responses -/

inductive Method where
  | get | head | put | delete | post | patch
  | other (name : Text)

/-- The class of a verb. -/
def retryClassFor : Method → RetryClass
  | .get | .head | .put | .delete => .idempotent
  | _ => .nonIdempotent

/-- A request, less its bearer. -/
structure Request where
  method : Method
  url : Text
  query : List (Text × Text)
  consistencyEventual : Bool
  body : Option Text
  preferHeader : Option Text

abbrev Bytes := List UInt8

structure Response where
  status : Nat
  retryAfter : Option Text
  wwwAuthenticate : Option Text
  body : Except GraphError Bytes
  errorBody : Text

inductive Call where
  | bearer
  | bearerWithClaims (challenge : Text)
  | send (request : Request) (bearer : Text)
  | wait (retryAfterSecs : Option Nat) (delayMs : Nat)

/-- A send that got no response is answered with the chain of its error. -/
@[reducible] def Answer : Call → Type
  | .bearer => Except TokenError Text
  | .bearerWithClaims _ => Except TokenError Text
  | .send _ _ => Except Text Response
  | .wait _ _ => Unit

/-- The challenge of a `WWW-Authenticate: Bearer … error="insufficient_claims", claims="…"`. -/
def parseClaimsChallenge (wwwAuthenticate : Text) : Option Text := do
  if !Text.contains "insufficient_claims".toList wwwAuthenticate then none
  let (_, rest) ← Text.breakOn "claims=".toList wwwAuthenticate
  let piece := match Text.breakOn "claims=".toList rest with
    | some (piece, _) => piece
    | none => rest
  let after := piece.dropWhile isWhitespace
  let value ← match after with
    | '"' :: quoted => (Text.splitOn (· == '"') quoted).head?
    | bare => (Text.splitOn (fun c => c == ',' || c == ' ') bare).head?
  let value := Text.trim value
  if value.isEmpty then none else some value

/-- What one attempt produced. -/
inductive Outcome where
  | body (bytes : Bytes)
  | claimsChallenge (challenge : Text)

def isSuccess (status : Nat) : Bool := 200 ≤ status && status < 300

/-- How one attempt ended, by its response. -/
def classify : Except Text Response → Attempt Outcome GraphError
  | .error chain => .retry .transient none (.network chain)
  | .ok resp =>
    if isSuccess resp.status then .done (resp.body.map Outcome.body)
    else
      let retryAfter := parseRetryAfterSeconds resp.retryAfter
      let bodyText := sanitizeErrorBody resp.errorBody
      let code := resp.status
      if code = 401 then
        match resp.wwwAuthenticate.bind parseClaimsChallenge with
        | some challenge => .done (.ok (.claimsChallenge challenge))
        | none => .done (.error .unauthorized)
      else if code = 403 then .done (.error (.forbidden bodyText))
      else if code = 404 then .done (.error (.notFound bodyText))
      else if 400 ≤ code ∧ code < 500 ∧ code ≠ 429 then .done (.error (.api code bodyText))
      else if code = 429 then .retry .throttled retryAfter (.throttled retryAfter)
      else .retry .transient retryAfter (.server code bodyText)

/-! ## The send -/

section Send

variable (validHeader : Text → Bool)

def invalidHeader : Text := "failed to parse header value".toList

/-- The `Authorization` header of a bearer. -/
def authorization (bearer : Text) : Except GraphError Text :=
  if validHeader ("Bearer ".toList ++ bearer) then .ok bearer
  else .error (.token (TokenError.unclassified invalidHeader))

def checkPrefer (request : Request) : Except GraphError Unit :=
  match request.preferHeader with
  | some value => if validHeader value then .ok () else .error (.protocol invalidHeader)
  | none => .ok ()

def bearer : Prog Answer (Except TokenError Text) := Prog.call Call.bearer

def bearerWithClaims (challenge : Text) : Prog Answer (Except TokenError Text) :=
  Prog.call (Call.bearerWithClaims challenge)

def send (request : Request) (bearer : Text) : Prog Answer (Except Text Response) :=
  Prog.call (Call.send request bearer)

def wait (retryAfterSecs : Option Nat) (delayMs : Nat) : Prog Answer Unit :=
  Prog.call (Call.wait retryAfterSecs delayMs)

/-- One attempt at the request. -/
def attemptSend (request : Request) (bearer : Text) : Prog Answer (Attempt Outcome GraphError) := do
  return classify (← send request bearer)

/-- The outer loop. `remints` is how often a challenge may still be answered: one before `cae_retried`
    is set, none after. -/
def sendLoop (retryClass : RetryClass) (request : Request) :
    (remints : Nat) → Text → Prog Answer (Except GraphError Bytes)
  | remints, bearer => do
      match ← withRetries wait retryClass (attemptSend request bearer) with
      | .error err => return .error err
      | .ok (.body bytes) => return .ok bytes
      | .ok (.claimsChallenge challenge) =>
        match remints with
        | 0 => return .error .unauthorized
        | remints + 1 =>
          match ← bearerWithClaims challenge with
          | .ok bearer =>
            match authorization validHeader bearer with
            | .error err => return .error err
            | .ok bearer => sendLoop retryClass request remints bearer
          | .error e =>
            return .error (if (passthroughCode e.code).isSome then .token e else .unauthorized)

def sendCoreUrlWith (retryClass : RetryClass) (request : Request) :
    Prog Answer (Except GraphError Bytes) := do
  match ← bearer with
  | .error e => return .error (.token e)
  | .ok bearer =>
    match authorization validHeader bearer with
    | .error err => return .error err
    | .ok bearer =>
      match checkPrefer validHeader request with
      | .error err => return .error err
      | .ok () => sendLoop validHeader retryClass request 1 bearer

/-- The send of a verb: its class is the verb's. -/
def sendCoreUrl (request : Request) : Prog Answer (Except GraphError Bytes) :=
  sendCoreUrlWith validHeader (retryClassFor request.method) request

end Send

end Graph
