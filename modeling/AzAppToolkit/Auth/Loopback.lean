import AzAppToolkit.Lib.Bytes
import AzAppToolkit.Lib.Run

set_option autoImplicit false

/-! # The wait for the redirect

`listen_with` of `azapptoolkit-auth/src/service/loopback.rs`: connections are accepted and read at the same
time, and the first one that carries the pending `state` ends the wait. What a peer sends is fixed for
each connection; in which chunks it arrives, when a read gives up and which connection goes on when, is up
to the run.

Modelling choices: a read that fails is a stall; the pages that are written back and the time a task takes
to write them are left out, so that a task has ended once its head was read; a peer that resets before it
is accepted is no event. -/

namespace Loopback

/-! ## Requests -/

inductive AuthError where
  | loopback (message : Text)
  | cancelled
  | authorization (message : Text)
deriving DecidableEq

/-- The code, or why there is none. -/
abbrev Outcome := Except AuthError Text

/-- `request.lines().next()`: up to the first line feed, less a carriage return right before it. -/
def firstLine (request : Text) : Text :=
  let line := request.takeWhile (· != '\n')
  if request.any (· == '\n') then
    if line.getLast? == some '\r' then line.dropLast else line
  else line

def splitWhitespace (s : Text) : List Text :=
  (Text.splitOn isWhitespace s).filter (fun part => !part.isEmpty)

def methodOf (line : Text) : Text := (splitWhitespace line)[0]?.getD []

def pathOf (line : Text) : Text := (splitWhitespace line)[1]?.getD []

/-- `path.split('?').nth(1)`. -/
def queryOf (line : Text) : Text := (Text.splitOn (· == '?') (pathOf line))[1]?.getD []

/-- The parameters of a request line, decoded. -/
def paramsOf (line : Text) : List (Text × Text) := Bytes.formParse (Bytes.encode (queryOf line))

structure Params where
  code : Option Text
  state : Option Text
  error : Option Text
  errorSubcode : Option Text
  errorDescription : Option Text

/-- The body of the loop over the parameters: a later one of a name takes the place of an earlier. -/
def noteParam (p : Params) (pair : Text × Text) : Params :=
  if pair.1 = "code".toList then { p with code := some pair.2 }
  else if pair.1 = "state".toList then { p with state := some pair.2 }
  else if pair.1 = "error".toList then { p with error := some pair.2 }
  else if pair.1 = "error_subcode".toList then { p with errorSubcode := some pair.2 }
  else if pair.1 = "error_description".toList then { p with errorDescription := some pair.2 }
  else p

def readParams (line : Text) : Params := (paramsOf line).foldl noteParam ⟨none, none, none, none, none⟩

/-! ## Errors -/

/-- Pulls the first `AADSTSnnnnn` out of a description. -/
def extractAadstsCode (description : Text) : Option Text :=
  (Text.breakOn "AADSTS".toList description).bind (fun parts =>
    let digits := parts.2.takeWhile Char.isDigit
    if digits.isEmpty then none else some ("AADSTS".toList ++ digits))

def redactAadError (error : Text) (description : Option Text) : Text :=
  match description.bind extractAadstsCode with
  | some code => error ++ " (".toList ++ code ++ ")".toList
  | none => error

def isUserCancel (error : Text) (subcode description : Option Text) : Bool :=
  error == "access_denied".toList &&
    (subcode == some "cancel".toList || description.any (fun d => (extractAadstsCode d).isNone))

/-- `[a-z_]{1,64}`, over the bytes. -/
def wellFormed (error : Text) : Bool :=
  let bytes := Bytes.encode error
  1 ≤ bytes.length && bytes.length ≤ 64 &&
    bytes.all (fun b => (97 ≤ b.toNat && b.toNat ≤ 122) || b.toNat == 95)

def redirectError (error : Text) (subcode description : Option Text) : AuthError :=
  if isUserCancel error subcode description then .cancelled
  else
    let gated := if wellFormed error then error else "unrecognized_error".toList
    .authorization (redactAadError gated description)

/-! ## One connection -/

def outcomeOf (p : Params) : Outcome :=
  match p.error, p.code with
  | some err, _ => .error (redirectError err p.errorSubcode p.errorDescription)
  | none, some code => .ok code
  | none, none => .error (.authorization "no code returned".toList)

/-- What `handle_connection` makes of a request that was read. -/
def handleRequest (expectedState : Text) (request : Text) : Option Outcome :=
  let line := firstLine request
  let p := readParams line
  if methodOf line != "GET".toList || (p.code.isNone && p.state.isNone && p.error.isNone) then none
  else if p.state != some expectedState then none
  else some (outcomeOf p)

def maxHead : Nat := 16 * 1024

def chunkSize : Nat := 2048

/-- `buf.windows(4).any(|w| w == b"\r\n\r\n")`. -/
def hasHeadEnd (buf : List UInt8) : Bool := buf.tails.any (fun t => [13, 10, 13, 10].isPrefixOf t)

/-- The head is there, or too long. -/
def headRead (buf : List UInt8) : Bool := hasHeadEnd buf || decide (maxHead < buf.length)

inductive Task where
  | reading (buf : List UInt8)
  | ended (outcome : Option Outcome)
deriving DecidableEq

/-- The task, once the loop of `read_request_head` is left with these bytes. -/
def afterHead (expectedState : Text) (buf : List UInt8) : Task :=
  .ended (if buf.isEmpty then none else handleRequest expectedState (Bytes.decodeLossy buf))

/-- The task, once a chunk was read. -/
def afterChunk (expectedState : Text) (buf : List UInt8) : Task :=
  if headRead buf then afterHead expectedState buf else .reading buf

/-! ## The wait -/

def maxInflightConnections : Nat := 16

structure Connection where
  id : Nat
  task : Task

structure Listener where
  /-- How many were accepted, which is the id of the next. -/
  accepted : Nat
  inflight : List Connection
  /-- What was returned, and whose outcome it is. -/
  returned : Option (Nat × Outcome)

def Listener.start : Listener := ⟨0, [], none⟩

inductive Event where
  | accept
  | deliver (id : Nat) (chunk : List UInt8)
  | endOfStream (id : Nat)
  /-- The read times out, or fails. -/
  | stall (id : Nat)
  /-- `inflight.join_next()`. -/
  | join (id : Nat)

/-- One step of the wait: `sent` is what the peers send until they close. -/
inductive Step (expectedState : Text) (sent : Nat → List UInt8) : Listener → Event → Listener → Prop
  | accept {s : Listener} (hwaiting : s.returned = none) (hslot : s.inflight.length < maxInflightConnections) :
      Step expectedState sent s .accept
        { s with accepted := s.accepted + 1, inflight := s.inflight ++ [⟨s.accepted, .reading []⟩] }
  | deliver {s : Listener} {pre post : List Connection} {id : Nat} {buf chunk : List UInt8}
      (hwaiting : s.returned = none) (hconn : s.inflight = pre ++ ⟨id, .reading buf⟩ :: post)
      (hchunk : chunk ≠ []) (hsize : chunk.length ≤ chunkSize) (hsent : buf ++ chunk <+: sent id) :
      Step expectedState sent s (.deliver id chunk)
        { s with inflight := pre ++ ⟨id, afterChunk expectedState (buf ++ chunk)⟩ :: post }
  | endOfStream {s : Listener} {pre post : List Connection} {id : Nat} {buf : List UInt8}
      (hwaiting : s.returned = none) (hconn : s.inflight = pre ++ ⟨id, .reading buf⟩ :: post)
      (hsent : buf = sent id) :
      Step expectedState sent s (.endOfStream id)
        { s with inflight := pre ++ ⟨id, afterHead expectedState buf⟩ :: post }
  | stall {s : Listener} {pre post : List Connection} {id : Nat} {buf : List UInt8}
      (hwaiting : s.returned = none) (hconn : s.inflight = pre ++ ⟨id, .reading buf⟩ :: post) :
      Step expectedState sent s (.stall id) { s with inflight := pre ++ ⟨id, .ended none⟩ :: post }
  | join {s : Listener} {pre post : List Connection} {id : Nat} {outcome : Option Outcome}
      (hwaiting : s.returned = none) (hconn : s.inflight = pre ++ ⟨id, .ended outcome⟩ :: post) :
      Step expectedState sent s (.join id)
        { s with inflight := pre ++ post, returned := outcome.map (fun o => (id, o)) }

end Loopback
