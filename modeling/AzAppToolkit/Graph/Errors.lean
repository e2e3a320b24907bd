import AzAppToolkit.Lib.Text

set_option autoImplicit false

/-! # Errors of the Graph client

`GraphError` as `http_error_enum!` of `azapptoolkit-core/src/http_error.rs` generates it, the codes
of `reauth.rs`, and the one table from a status to an error, `map_error_status`. -/

namespace Graph

/-! ## Codes -/

def unauthorizedCode : Text := "unauthorized".toList

def reauthFatalCodes : List Text := ["refresh_missing", "not_signed_in"].map String.toList

def passthroughNonFatalCodes : List Text :=
  ["consent_required", "network_error", "interaction_required"].map String.toList

/-- The code a client passes through its own error instead of flattening it. -/
def passthroughCode (code : Text) : Option Text :=
  (reauthFatalCodes ++ passthroughNonFatalCodes).find? (· == code)

def isRetryableCode (uiCode : Text) : Bool :=
  uiCode == "throttled".toList || uiCode == "server_error".toList ||
    uiCode == "network_error".toList

/-! ## Errors -/

/-- How a token could not be had. -/
structure TokenError where
  code : Text
  message : Text
deriving DecidableEq

/-- `TokenError::opaque`: a failure with no better classification. -/
def TokenError.unclassified (message : Text) : TokenError := ⟨"token_error".toList, message⟩

inductive GraphError where
  | unauthorized
  | forbidden (body : Text)
  | notFound (body : Text)
  | throttled (retryAfterSecs : Option Nat)
  | api (status : Nat) (body : Text)
  | server (status : Nat) (body : Text)
  | network (message : Text)
  | deserialize (message : Text)
  | token (err : TokenError)
  | protocol (message : Text)
deriving DecidableEq

namespace GraphError

/-- The wire code the front end branches on. -/
def uiCode : GraphError → Text
  | .unauthorized => unauthorizedCode
  | .forbidden _ => "forbidden".toList
  | .notFound _ => "not_found".toList
  | .throttled _ => "throttled".toList
  | .api _ _ => "graph_error".toList
  | .server _ _ => "server_error".toList
  | .network _ => "network_error".toList
  | .deserialize _ => "deserialize_error".toList
  | .token err => (passthroughCode err.code).getD "token_error".toList
  | .protocol _ => "protocol_error".toList

def isRetryable (err : GraphError) : Bool := isRetryableCode err.uiCode

end GraphError

/-! ## From a response to an error -/

def errorBodyMaxChars : Nat := 800

/-- Control characters out, trimmed, cut to `errorBodyMaxChars`. -/
def sanitizeErrorBody (raw : Text) : Text :=
  let cleaned := raw.filter (fun c => !Text.isControl c || c == '\n' || c == '\r' || c == '\t')
  let trimmed := Text.trim cleaned
  if trimmed.isEmpty then "<no body>".toList
  else
    let out := trimmed.take errorBodyMaxChars
    if trimmed.length > errorBodyMaxChars then out ++ ['…'] else out

/-- The error of a status that is no success, for the reads outside the retrying core. -/
def mapErrorStatus (code : Nat) (body : Text) (retryAfter : Option Nat) : GraphError :=
  let body := sanitizeErrorBody body
  if code = 401 then .unauthorized
  else if code = 403 then .forbidden body
  else if code = 404 then .notFound body
  else if code = 429 then .throttled retryAfter
  else if 500 ≤ code then .server code body
  else .api code body

/-- `Retry-After` in seconds; a date or a malformed value is no value. -/
def parseRetryAfterSeconds (header : Option Text) : Option Nat :=
  header.bind (fun value => Text.parseUnsigned 64 (Text.trim value))

end Graph
