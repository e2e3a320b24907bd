import AzAppToolkit.Graph.Transport
import AzAppToolkit.Lib.Table

set_option autoImplicit false

/-! # Rotating a client secret into Key Vault

`rotate_app_credential_core` of `commands/keyvault.rs`: who owns the vault secret is read first, a client
secret is minted, the vault is written, and the previous credentials go.

Modelling choices:
* a listing and a call to Graph are one call each, with pages and retries inside; the write of the vault
  is modelled down to its attempts, because a write that fails is judged by whether a request left;
* what a reply is parsed to, the header values that `http` accepts and how errors are worded are a
  `Wire`; of a version its tags and its creation time are kept, of a reply what an attempt reads;
* dates are seconds; the settings are one call, of which only the failure is looked at. -/

namespace Keyvault

open Prog
open Graph (GraphError TokenError RetryReason Attempt withRetries parseRetryAfterSeconds sanitizeErrorBody
  isSuccess)

/-! ## Data -/

abbrev Tags := Table Text Text

structure SecretAttributes where
  created : Option Int

/-- One version of a secret, without its value. -/
structure SecretItem where
  tags : Option Tags
  attributes : Option SecretAttributes

structure PasswordCredential where
  keyId : Text
  secretText : Option Text
  endDateTime : Option Int

structure SecretAttributesRequest where
  enabled : Option Bool
  expires : Option Int
  notBefore : Option Int

structure SecretSetRequest where
  value : Text
  contentType : Option Text
  tags : Option Tags
  attributes : Option SecretAttributesRequest

inductive KeyVaultError where
  | unauthorized
  | forbidden (body : Text)
  | notFound (body : Text)
  | throttled (retryAfterSecs : Option Nat)
  | api (status : Nat) (body : Text)
  | server (status : Nat) (body : Text)
  | network (message : Text)
  | deserialize (message : Text)
  | token (err : TokenError)
  | protocol (message : Text)
  | invalidName (message : Text)

/-- The call failed before any request left. -/
def KeyVaultError.sentNothing : KeyVaultError → Bool
  | .token _ => true
  | .invalidName _ => true
  | _ => false

structure UiError where
  code : Text
  message : Text
  retryable : Bool

structure RotateCredentialInput where
  objectId : Text
  appId : Option Text
  vaultName : Text
  secretName : Text
  lifetimeDays : Option Nat
  removeKeyIds : List Text

structure RotateCredentialResult where
  newKeyId : Text
  vaultName : Text
  secretName : Text
  expires : Option Int
  removedKeyIds : List Text
  warnings : List Text

structure AppVaultBinding where
  vaultName : Text
  secretName : Option Text

/-! ## Calls -/

/-- Why the body of a success could not be read. -/
inductive BodyError where
  | tooLarge (message : Text)
  | broken (message : Text)

structure Response where
  status : Nat
  retryAfter : Option Text
  body : Except BodyError Graph.Bytes
  errorBody : Text

inductive Call where
  | listSecretVersions (vault secret : Text)
  | today
  | addPassword (objectId displayName : Text) (lifetimeSecs : Nat)
  | removePassword (objectId keyId : Text)
  | bearer
  | put (vault secret : Text) (req : SecretSetRequest)
  | wait (retryAfterSecs : Option Nat) (delayMs : Nat)
  | invalidateAppCredentials (objectId : Text)
  | setAppVaultBinding (appId : Text) (binding : AppVaultBinding)

/-- A `put` that got no response is answered with the chain of its error. -/
abbrev Answer : Call → Type
  | .listSecretVersions _ _ => Except KeyVaultError (List SecretItem)
  | .today => Text
  | .addPassword _ _ _ => Except GraphError PasswordCredential
  | .removePassword _ _ => Except GraphError Unit
  | .bearer => Except TokenError Text
  | .put _ _ _ => Except Text Response
  | .wait _ _ => Unit
  | .invalidateAppCredentials _ => Unit
  | .setAppVaultBinding _ _ => Except Text Unit

abbrev Async (α : Type) := Prog Answer α

abbrev Trace := List (Prog.Exchanged Answer)

def call (c : Call) : Async (Answer c) := Prog.call c

/-- What the code takes from the crates it uses, and its wordings. -/
structure Wire where
  parse : Graph.Bytes → Except Text SecretItem
  validHeader : Text → Bool
  /-- `{:?}` of a text. -/
  debug : Text → Text
  showVault : KeyVaultError → Text
  showGraph : GraphError → Text
  /-- `UiError::from`. -/
  uiVault : KeyVaultError → UiError
  uiGraph : GraphError → UiError

/-! ## Who owns a secret -/

def tagAppId : Text := "azapptoolkit-app-id".toList

def tagObjectId : Text := "azapptoolkit-object-id".toList

def tagKeyId : Text := "azapptoolkit-key-id".toList

def normalized (id : Text) : Text := toAsciiLowercase (Text.trim id)

/-- `app_id.map(str::trim).filter(|a| !a.is_empty())`. -/
def presentAppId (appId : Option Text) : Option Text :=
  (appId.map Text.trim).filter (fun a => !a.isEmpty)

def rotationTags (appId : Option Text) (objectId keyId : Text) : Tags :=
  let tags : Tags := (∅ : Tags).insert tagObjectId (normalized objectId)
  let tags := match presentAppId appId with
    | some a => tags.insert tagAppId (toAsciiLowercase a)
    | none => tags
  tags.insert tagKeyId keyId

/-- The application the tags name, when it is another one. -/
def ownedByOtherApp (tags : Tags) (objectId : Text) (appId : Option Text) : Option Text :=
  match tags.lookup tagObjectId with
  | some owner => (some owner).filter (· != normalized objectId)
  | none =>
    match tags.lookup tagAppId with
    | some owner =>
      match presentAppId appId with
      | some mine => (some owner).filter (· != toAsciiLowercase mine)
      | none => some owner
    | none => none

def claimsAnOwner (version : SecretItem) : Bool :=
  version.tags.any (fun tags => (tags.lookup tagObjectId).isSome || (tags.lookup tagAppId).isSome)

def created (version : SecretItem) : Option Int := version.attributes.bind (·.created)

def currentOwnerIfOther (versions : List SecretItem) (objectId : Text) (appId : Option Text) : Option Text :=
  let claimed := versions.filter claimsAnOwner
  let newest := (claimed.filterMap created).max?
  (claimed.filter (fun v => (created v).all (fun c => some c == newest))).findSome?
    (fun v => v.tags.bind (fun tags => ownedByOtherApp tags objectId appId))

/-! ## The vault client -/

def validSecretName (name : Text) : Bool :=
  1 ≤ name.length && name.length ≤ 127 && name.all (fun c => c.isAlphanum || c == '-')

def validVaultName (name : Text) : Bool :=
  3 ≤ name.length && name.length ≤ 24 && name.head?.any Char.isAlpha &&
    name.getLast?.any Char.isAlphanum && name.all (fun c => c.isAlphanum || c == '-') &&
    !Text.contains "--".toList name

section Client

variable (wire : Wire)

def validateSecretName (name : Text) : Except KeyVaultError Unit :=
  if validSecretName name then .ok ()
  else .error (.invalidName (wire.debug name ++ " is not a valid Key Vault secret name".toList))

def validateVaultName (name : Text) : Except KeyVaultError Unit :=
  if validVaultName name then .ok ()
  else .error (.invalidName (wire.debug name ++ " is not a valid Key Vault name".toList))

def listSecretVersions (vault secret : Text) : Async (Except KeyVaultError (List SecretItem)) :=
  match validateSecretName wire secret with
  | .error err => pure (.error err)
  | .ok () => call (.listSecretVersions vault secret)

def readBody : Except BodyError Graph.Bytes → Except KeyVaultError Graph.Bytes
  | .ok bytes => .ok bytes
  | .error (.tooLarge message) => .error (.protocol message)
  | .error (.broken message) => .error (.network message)

/-- How one attempt ended, by its response. -/
def classify : Except Text Response → Attempt Graph.Bytes KeyVaultError
  | .error chain => .retry .transient none (.network chain)
  | .ok resp =>
    if isSuccess resp.status then .done (readBody resp.body)
    else
      let retryAfter := parseRetryAfterSeconds resp.retryAfter
      let body := sanitizeErrorBody resp.errorBody
      let status := resp.status
      if status = 401 then .done (.error .unauthorized)
      else if status = 403 then .done (.error (.forbidden body))
      else if status = 404 then .done (.error (.notFound body))
      else if status = 429 then .retry .throttled retryAfter (.throttled retryAfter)
      else if 400 ≤ status ∧ status < 500 then .done (.error (.api status body))
      else .retry .transient retryAfter (.server status body)

def attemptPut (vault secret : Text) (req : SecretSetRequest) :
    Async (Attempt Graph.Bytes KeyVaultError) := do
  return classify (← call (.put vault secret req))

/-- `send_core_url` for the write: the bearer is minted once, before the first attempt. -/
def sendCoreUrl (vault secret : Text) (req : SecretSetRequest) :
    Async (Except KeyVaultError Graph.Bytes) := do
  match ← call .bearer with
  | .error err => return .error (.token err)
  | .ok bearer =>
    if wire.validHeader ("Bearer ".toList ++ bearer) then
      withRetries (fun secs delay => call (.wait secs delay)) (Graph.retryClassFor .put)
        (attemptPut vault secret req)
    else return .error (.token (TokenError.unclassified Graph.invalidHeader))

def setSecret (vault secret : Text) (req : SecretSetRequest) : Async (Except KeyVaultError SecretItem) :=
  match validateSecretName wire secret with
  | .error err => pure (.error err)
  | .ok () => do
      match ← sendCoreUrl wire vault secret req with
      | .error err => return .error err
      | .ok bytes => return (wire.parse bytes).mapError .deserialize

end Client

/-! ## The rotation -/

/-- Why a rotation stopped after its mint. -/
structure Unstored where
  err : UiError
  leftOnApp : Bool

section Rotate

variable (wire : Wire)

def ownershipUnknown (secretName : Text) (err : KeyVaultError) : UiError :=
  let e := wire.uiVault err
  { e with message := e.message ++ "\n\nCouldn't read the tags on vault secret '".toList ++ secretName ++
      "' to check which app owns it, so nothing was minted.".toList }

def rollBack (objectId : Text) (minted : PasswordCredential) (displayName : Text) (err : UiError) :
    Async Unstored := do
  match ← call (.removePassword objectId minted.keyId) with
  | .ok () => return ⟨err, false⟩
  | .error rollback =>
    return ⟨{ err with
      message := err.message ++ "\n\nThe new client secret '".toList ++ displayName ++
        "' (key id ".toList ++ minted.keyId ++ ") couldn't be removed again (".toList ++
        wire.showGraph rollback ++ ("). Nobody holds its value: refresh this app, then delete it from " ++
          "the Credentials tab.").toList
      retryable := false }, true⟩

def carriesKey (keyId : Text) (version : SecretItem) : Bool :=
  version.tags.any (fun tags => tags.lookup tagKeyId == some keyId)

def vaultHoldsKey (vault secret keyId : Text) : Async (Except KeyVaultError Bool) := do
  match ← listSecretVersions wire vault secret with
  | .ok versions => return .ok (versions.any (carriesKey keyId))
  | .error (.notFound _) => return .ok false
  | .error err => return .error err

/-- The error of a write that may have landed. -/
def keptError (input : RotateCredentialInput) (minted : PasswordCredential) (displayName : Text)
    (err readBack : KeyVaultError) : UiError :=
  let e := wire.uiVault err
  { e with
    message := e.message ++ "\n\nCouldn't check whether the vault stored the new secret anyway (".toList ++
      wire.showVault readBack ++ "), so client secret '".toList ++ displayName ++ "' (key id ".toList ++
      minted.keyId ++ (") was kept on the app rather than revoked while the vault may hold it. " ++
        "If no version of '").toList ++ input.secretName ++ "' is tagged ".toList ++ tagKeyId ++
      " = ".toList ++ minted.keyId ++
      ", delete that client secret from this app's Credentials tab.".toList
    retryable := false }

def storeMinted (input : RotateCredentialInput) (minted : PasswordCredential) (displayName : Text) :
    Async (Except Unstored (List Text)) := do
  match minted.secretText with
  | none => do
      let err : UiError := ⟨"no_secret_value".toList, "Graph did not return the new secret value".toList,
        false⟩
      return .error (← rollBack wire input.objectId minted displayName err)
  | some value =>
    let req : SecretSetRequest := {
      value := value
      contentType := none
      tags := some (rotationTags input.appId input.objectId minted.keyId)
      attributes := minted.endDateTime.map (fun e => ⟨some true, some e, none⟩) }
    match ← setSecret wire input.vaultName input.secretName req with
    | .ok _ => return .ok []
    | .error err =>
      if err.sentNothing then
        return .error (← rollBack wire input.objectId minted displayName (wire.uiVault err))
      else
        match ← vaultHoldsKey wire input.vaultName input.secretName minted.keyId with
        | .ok true =>
          return .ok ["Key Vault reported an error storing the new version (".toList ++
            wire.showVault err ++ "), but the vault holds it, so the rotation went ahead".toList]
        | .ok false =>
          return .error (← rollBack wire input.objectId minted displayName (wire.uiVault err))
        | .error readBack => return .error ⟨keptError wire input minted displayName err readBack, true⟩

/-- What the removal of the previous credentials has so far. -/
structure Removal where
  removed : List Text
  warnings : List Text

def removePrevious (objectId newKeyId : Text) (keyIds : List Text) (warnings : List Text) :
    Async Removal :=
  keyIds.foldlM (fun st keyId =>
    if keyId == newKeyId then pure st
    else do
      match ← call (.removePassword objectId keyId) with
      | .ok () => return { st with removed := st.removed ++ [keyId] }
      | .error e => return { st with
          warnings := st.warnings ++
            ["failed to remove ".toList ++ keyId ++ ": ".toList ++ wire.showGraph e] })
    ⟨[], warnings⟩

def defaultSecretLifetimeDays : Nat := 180

def maxSecretLifetimeDays : Nat := 730

/-- `.unwrap_or(DEFAULT).clamp(1, MAX)`, in seconds. -/
def lifetimeSecs (lifetimeDays : Option Nat) : Nat :=
  max 1 (min (lifetimeDays.getD defaultSecretLifetimeDays) maxSecretLifetimeDays) * 86400

/-- The gate before the mint. -/
def checkOwner (input : RotateCredentialInput) : Async (Except UiError Unit) := do
  match ← listSecretVersions wire input.vaultName input.secretName with
  | .ok versions =>
    match currentOwnerIfOther versions input.objectId input.appId with
    | some owner =>
      return .error ⟨"secret_owned_by_other_app".toList,
        "'".toList ++ input.secretName ++ "' is tagged as owned by a different app (".toList ++ owner ++
          ("). Rotate it from that app, or pick another secret name — nothing was minted.").toList,
        false⟩
    | none => return .ok ()
  | .error (.notFound _) => return .ok ()
  | .error err => return .error (ownershipUnknown wire input.secretName err)

/-- Step 3 and what follows: the minted secret is live. -/
def finishRotation (input : RotateCredentialInput) (minted : PasswordCredential) (warnings : List Text) :
    Async RotateCredentialResult := do
  let st ← removePrevious wire input.objectId minted.keyId input.removeKeyIds warnings
  call (.invalidateAppCredentials input.objectId)
  let warnings ← match input.appId with
    | none => pure st.warnings
    | some appId => do
        match ← call (.setAppVaultBinding appId ⟨input.vaultName, some input.secretName⟩) with
        | .ok () => pure st.warnings
        | .error e => pure (st.warnings ++
            ["rotation succeeded, but couldn't remember the vault for next time: ".toList ++ e])
  return ⟨minted.keyId, input.vaultName, input.secretName, minted.endDateTime, st.removed, warnings⟩

/-- Steps 1 to 3. -/
def mintAndStore (input : RotateCredentialInput) : Async (Except UiError RotateCredentialResult) := do
  let displayName := "rotated-".toList ++ (← call .today)
  match ← call (.addPassword input.objectId displayName (lifetimeSecs input.lifetimeDays)) with
  | .error err => return .error (wire.uiGraph err)
  | .ok minted =>
    match ← storeMinted wire input minted displayName with
    | .ok warnings => return .ok (← finishRotation wire input minted warnings)
    | .error unstored =>
      if unstored.leftOnApp then
        call (.invalidateAppCredentials input.objectId)
      return .error unstored.err

def rotateAppCredentialCore (input : RotateCredentialInput) :
    Async (Except UiError RotateCredentialResult) := do
  match validateVaultName wire input.vaultName with
  | .error err => return .error (wire.uiVault err)
  | .ok () =>
    match ← checkOwner wire input with
    | .error err => return .error err
    | .ok () => mintAndStore wire input

end Rotate

end Keyvault
