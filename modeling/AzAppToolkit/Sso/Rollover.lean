import AzAppToolkit.Graph.Errors
import AzAppToolkit.Lib.Program

set_option autoImplicit false

/-! # The rollover of a SAML signing certificate

`sso/rollover.rs`, the removal of `client/credentials.rs` and `thumbprint.rs`: the commands that stage,
activate, revert and retire a signing certificate, each on the state it reads anew.

Modelling choices: of a key credential its key id, its identifier and its expiry are kept, and of a
password credential its key id and its identifier; what the view only shows (names, start dates, the
metadata URL) is left out. Dates are nanoseconds; one that is missing or does not parse is none. -/

namespace Sso

open Prog
open Graph (GraphError)

/-! ## Thumbprints -/

/-- The six bits of a character of the standard alphabet. -/
def base64Value (c : Char) : Option Nat :=
  if 'A' ≤ c ∧ c ≤ 'Z' then some (c.toNat - 'A'.toNat)
  else if 'a' ≤ c ∧ c ≤ 'z' then some (c.toNat - 'a'.toNat + 26)
  else if '0' ≤ c ∧ c ≤ '9' then some (c.toNat - '0'.toNat + 52)
  else if c = '+' then some 62
  else if c = '/' then some 63
  else none

/-- `STANDARD.decode`: padded, with no bits left over. -/
def base64Decode : Text → Option (List UInt8)
  | [] => some []
  | [a, b, '=', '='] => do
      let a ← base64Value a
      let b ← base64Value b
      if b % 16 = 0 then some [UInt8.ofNat (a * 4 + b / 16)] else none
  | [a, b, c, '='] => do
      let a ← base64Value a
      let b ← base64Value b
      let c ← base64Value c
      if c % 4 = 0 then
        some [UInt8.ofNat (a * 4 + b / 16), UInt8.ofNat (b % 16 * 16 + c / 4)]
      else none
  | a :: b :: c :: d :: rest => do
      let a ← base64Value a
      let b ← base64Value b
      let c ← base64Value c
      let d ← base64Value d
      let rest ← base64Decode rest
      some (UInt8.ofNat (a * 4 + b / 16) :: UInt8.ofNat (b % 16 * 16 + c / 4) ::
        UInt8.ofNat (c % 4 * 64 + d) :: rest)
  | _ => none

def hexDigits : List Char :=
  ['0', '1', '2', '3', '4', '5', '6', '7', '8', '9', 'A', 'B', 'C', 'D', 'E', 'F']

def hexDigit (n : Nat) : Char := hexDigits.getD n '0'

def hexUpper (bytes : List UInt8) : Text :=
  bytes.flatMap (fun b => [hexDigit (b.toNat / 16), hexDigit (b.toNat % 16)])

def isHexDigit (c : Char) : Bool :=
  hexDigits.contains c || ['a', 'b', 'c', 'd', 'e', 'f'].contains c

/-- The uppercase hex of an identifier that is hex already, or base64. -/
def canonical (customKeyIdentifier : Text) : Option Text :=
  let raw := Text.trim customKeyIdentifier
  if raw.isEmpty then none
  else if raw.length = 40 ∧ raw.all isHexDigit = true then some (raw.map Char.toUpper)
  else match base64Decode raw with
    | none => none
    | some bytes => if bytes.isEmpty then none else some (hexUpper bytes)

/-! ## Service principals -/

structure KeyCredential where
  keyId : Text
  customKeyIdentifier : Option Text
  endDateTime : Option Int
deriving DecidableEq

structure PasswordCredential where
  keyId : Text
  customKeyIdentifier : Option Text

structure ServicePrincipal where
  appId : Text
  preferredTokenSigningKeyThumbprint : Option Text
  keyCredentials : List KeyCredential
  passwordCredentials : List PasswordCredential

def KeyCredential.thumbprint (c : KeyCredential) : Option Text := c.customKeyIdentifier.bind canonical

def PasswordCredential.thumbprint (c : PasswordCredential) : Option Text :=
  c.customKeyIdentifier.bind canonical

/-! ## The view -/

inductive CertStatus where
  | active
  | staged
  | superseded
  | expired
deriving DecidableEq

inductive RolloverPhase where
  | steady
  | staged
  | pendingRetire
  | unconfigured
deriving DecidableEq

/-- One row of the view. -/
structure SigningCert where
  keyId : Text
  thumbprint : Text
  endDateTime : Option Int
  isActive : Bool
  daysToExpiry : Option Int
  status : CertStatus
deriving DecidableEq

structure SigningCertRollover where
  appId : Text
  certs : List SigningCert
  activeThumbprint : Option Text
  stagedThumbprint : Option Text
  phase : RolloverPhase
  autoPromoteDeadline : Option Int

/-- The preferred thumbprint in canonical form, when it is the hex it should be. -/
def preferredThumbprint (sp : ServicePrincipal) : Option Text :=
  sp.preferredTokenSigningKeyThumbprint.map (fun raw =>
    ((canonical raw).filter (fun c => Text.eqIgnoreAsciiCase c (Text.trim raw))).getD raw)

def isActiveRow (preferred : Option Text) (thumbprint : Text) : Bool :=
  preferred.any (fun p => Text.eqIgnoreAsciiCase (Text.trim p) thumbprint)

/-- `TimeDelta::num_seconds`, towards zero. -/
def numSeconds (nanos : Int) : Int := nanos.tdiv 1000000000

def rowOf (preferred : Option Text) (now : Int) (cred : KeyCredential) (thumbprint : Text) : SigningCert where
  keyId := cred.keyId
  thumbprint := thumbprint
  endDateTime := cred.endDateTime
  isActive := isActiveRow preferred thumbprint
  daysToExpiry := cred.endDateTime.map (fun e => numSeconds (e - now) / 86400)
  status := .expired

/-- The `Sign` and `Verify` halves down to one row for each certificate. -/
def collectCerts (preferred : Option Text) (now : Int) (creds : List KeyCredential) : List SigningCert :=
  creds.foldl (fun certs cred =>
    match cred.thumbprint with
    | none => certs
    | some thumbprint =>
      if certs.any (fun c => Text.eqIgnoreAsciiCase c.thumbprint thumbprint) then certs
      else certs ++ [rowOf preferred now cred thumbprint]) []

def isExpired (now : Int) (endDateTime : Option Int) : Bool := endDateTime.any (· ≤ now)

/-- The status of a row, by the expiry of the active one. -/
def statusOf (now : Int) (activeEnd : Option Int) (cert : SigningCert) : CertStatus :=
  if isExpired now cert.endDateTime then .expired
  else if cert.isActive then .active
  else if isExpired now activeEnd || activeEnd.all (fun a => cert.endDateTime.any (a < ·)) then .staged
  else .superseded

/-- Newest first; undated rows last. -/
def newestFirst (a b : SigningCert) : Bool :=
  match a.endDateTime, b.endDateTime with
  | some a, some b => b ≤ a
  | some _, none => true
  | none, some _ => false
  | none, none => true

def certRows (preferred : Option Text) (now : Int) (creds : List KeyCredential) : List SigningCert :=
  let certs := collectCerts preferred now creds
  let activeEnd := (certs.find? (·.isActive)).bind (·.endDateTime)
  (certs.map (fun cert => { cert with status := statusOf now activeEnd cert })).mergeSort newestFirst

def buildRollover (sp : ServicePrincipal) (now : Int) : SigningCertRollover :=
  let preferred := preferredThumbprint sp
  let certs := certRows preferred now sp.keyCredentials
  let stagedThumbprint := (certs.find? (fun c => c.status = .staged)).map (·.thumbprint)
  let phase :=
    if preferred.isNone || certs.isEmpty then .unconfigured
    else if stagedThumbprint.isSome then .staged
    else if !certs.any (fun c => c.status = .active) then .unconfigured
    else if certs.any (fun c => c.status = .superseded) then .pendingRetire
    else .steady
  { appId := sp.appId
    certs := certs
    activeThumbprint := preferred
    stagedThumbprint := stagedThumbprint
    phase := phase
    autoPromoteDeadline :=
      if phase = .staged then (certs.find? (·.isActive)).bind (·.endDateTime) else none }

/-! ## Guards -/

inductive UiError where
  | validation (code message : Text)
  | notFound (resource message : Text)
  | graph (err : GraphError)

def retireTarget (roll : SigningCertRollover) (keyId : Text) : Except UiError SigningCert :=
  match roll.certs.find? (fun c => c.keyId == keyId) with
  | none => .error (.notFound "cert".toList
      "That certificate is no longer on the service principal.".toList)
  | some target =>
    if target.isActive then
      .error (.validation "cert_is_active".toList
        (if target.status = .expired then
          ("That certificate has expired but is still nominated as the signing key. " ++
            "Activate its replacement first — then it can be removed.").toList
        else
          ("That certificate is signing assertions right now. " ++
            "Activate its replacement first.").toList))
    else if target.status = .staged then
      .error (.validation "cert_is_staged".toList
        ("That certificate is staged for the next rollover, not retired. " ++
          "Activate it or let it expire.").toList)
    else .ok target

/-- The row to activate; none when it is active already. -/
def activationTarget (roll : SigningCertRollover) (thumbprint : Text) :
    Except UiError (Option SigningCert) :=
  match roll.certs.find? (fun c => Text.eqIgnoreAsciiCase c.thumbprint thumbprint) with
  | none => .error (.validation "cert_not_staged".toList
      "That certificate is no longer on the service principal — stage a new one.".toList)
  | some target =>
    if target.status = .expired then
      .error (.validation "cert_expired".toList
        ("That certificate has expired. Entra won't sign with it — " ++
          "stage a new one instead.").toList)
    else if target.isActive then .ok none
    else .ok (some target)

/-! ## The commands -/

structure SelfSignedCertificate where
  thumbprint : Text
  key : Option Text
  endDateTime : Option Int

inductive Call where
  | getSsoFields
  | utcNow
  | patchPreferred (thumbprint : Text)
  | getCredentials
  | patchCredentials (keys : List KeyCredential) (passwords : List PasswordCredential)
  | addTokenSigningCertificate (displayName : Text) (endDateTime : Int)
  | invalidateCertBoard

abbrev Answer : Call → Type
  | .getSsoFields => Except GraphError (Option ServicePrincipal)
  | .utcNow => Int
  | .patchPreferred _ => Except GraphError Unit
  | .getCredentials => Except GraphError (List KeyCredential × List PasswordCredential)
  | .patchCredentials _ _ => Except GraphError Unit
  | .addTokenSigningCertificate _ _ => Except GraphError SelfSignedCertificate
  | .invalidateCertBoard => Unit

abbrev Async (α : Type) := Prog Answer α

def call (c : Call) : Async (Answer c) := Prog.call c

def getSigningCertRollover : Async (Except UiError SigningCertRollover) := do
  match ← call .getSsoFields with
  | .error err => return .error (.graph err)
  | .ok none => return .error (.notFound "service_principal".toList "Service principal not found.".toList)
  | .ok (some sp) => return .ok (buildRollover sp (← call .utcNow))

def maxCertLifetimeDays : Nat := 1095

def defaultCertLifetimeDays : Nat := 365

def resolveCertLifetimeDays (days : Option Nat) : Except UiError Nat :=
  let days := days.getD defaultCertLifetimeDays
  if days = 0 ∨ maxCertLifetimeDays < days then
    .error (.validation "invalid_cert_lifetime".toList
      (("certificate lifetime must be between 1 and 1095 days (3 years, Entra's maximum); got ").toList ++
        (toString days).toList))
  else .ok days

def validateCertSubject (subject : Text) : Except UiError Unit :=
  if "CN=".toList.isPrefixOf (subject.map Char.toUpper) then .ok ()
  else .error (.validation "invalid_cert_subject".toList
    "certificate subject must start with 'CN=' (e.g. CN=Contoso SSO)".toList)

def mintSigningCertificate (subject : Text) (lifetimeDays : Option Nat) :
    Async (Except UiError SelfSignedCertificate) :=
  match resolveCertLifetimeDays lifetimeDays with
  | .error err => pure (.error err)
  | .ok days =>
    let subject := if subject.isEmpty then "CN=SSO".toList else subject
    match validateCertSubject subject with
    | .error err => pure (.error err)
    | .ok () => do
        let now ← call .utcNow
        match ← call (.addTokenSigningCertificate subject (now + days * 86400000000000)) with
        | .error err => return .error (.graph err)
        | .ok cert => return .ok cert

/-- What a command answers. -/
inductive Outcome where
  | cert (cert : SelfSignedCertificate)
  | rollover (roll : SigningCertRollover)

def stageSamlSigningCertificate (subject : Text) (lifetimeDays : Option Nat) :
    Async (Except UiError Outcome) := do
  match ← mintSigningCertificate subject lifetimeDays with
  | .error err => return .error err
  | .ok cert =>
    call .invalidateCertBoard
    return .ok (.cert cert)

/-- The activation and the revert. -/
def setPreferredSigningKey (thumbprint : Text) : Async (Except UiError Outcome) := do
  match ← getSigningCertRollover with
  | .error err => return .error err
  | .ok before =>
    match activationTarget before thumbprint with
    | .error err => return .error err
    | .ok none => return .ok (.rollover before)
    | .ok (some target) =>
      match ← call (.patchPreferred target.thumbprint) with
      | .error err => return .error (.graph err)
      | .ok () =>
        call .invalidateCertBoard
        return (← getSigningCertRollover).map .rollover

/-- The text of two identifiers is the same but for case. -/
def sameIdentifier (identifier target : Option Text) : Bool :=
  match target, identifier with
  | some target, some tp => Text.eqIgnoreAsciiCase tp target
  | _, _ => false

def removeServicePrincipalKeyCredential (keyId : Text) : Async (Except UiError Unit) := do
  match ← call .getCredentials with
  | .error err => return .error (.graph err)
  | .ok (entries, passwords) =>
    match entries.find? (fun c => c.keyId == keyId) with
    | none => return .error (.graph (.notFound
        ("signing key ".toList ++ keyId ++ " is not on the service principal".toList)))
    | some target =>
      let thumbprint := target.customKeyIdentifier
      let kept := entries.filter (fun c =>
        if sameIdentifier c.customKeyIdentifier thumbprint then false else c.keyId != keyId)
      let keptPasswords := passwords.filter (fun c => !sameIdentifier c.customKeyIdentifier thumbprint)
      match ← call (.patchCredentials kept keptPasswords) with
      | .error err => return .error (.graph err)
      | .ok () => return .ok ()

def retireSamlSigningCertificate (keyId : Text) : Async (Except UiError Outcome) := do
  match ← getSigningCertRollover with
  | .error err => return .error err
  | .ok before =>
    match retireTarget before keyId with
    | .error err => return .error err
    | .ok _ =>
      match ← removeServicePrincipalKeyCredential keyId with
      | .error err => return .error err
      | .ok () =>
        call .invalidateCertBoard
        return (← getSigningCertRollover).map .rollover

inductive Command where
  | stage (subject : Text) (lifetimeDays : Option Nat)
  | activate (thumbprint : Text)
  | revert (thumbprint : Text)
  | retire (keyId : Text)

def Command.program : Command → Async (Except UiError Outcome)
  | .stage subject lifetimeDays => stageSamlSigningCertificate subject lifetimeDays
  | .activate thumbprint => setPreferredSigningKey thumbprint
  | .revert thumbprint => setPreferredSigningKey thumbprint
  | .retire keyId => retireSamlSigningCertificate keyId

end Sso
