import AzAppToolkit.Audit.Scoring

set_option autoImplicit false

/-! # The cap on a secret's lifetime

`iso_duration_days` of `azapptoolkit-core/src/audit/credentials.rs` and the policy resolution on top of
it (`entry_cap`, `min_cap`, `enforced_secret_max_days`).

An `i64` is an `Int` in its range. `+=` on it is `addI64`: a build with overflow checks panics where
the sum leaves the range, one without them wraps. -/

namespace Audit

/-! ## `i64` -/

def i64Max : Int := 9223372036854775807

/-- Two's complement wrap onto `i64`. -/
def wrapI64 (x : Int) : Int := (x + 9223372036854775808) % 18446744073709551616 - 9223372036854775808

/-- A build with overflow checks, or without. -/
inductive Profile where
  | debug
  | release

inductive Panic where
  | overflow
deriving DecidableEq

/-- `a + b` of two `i64`s. -/
def addI64 (profile : Profile) (a b : Int) : Except Panic Int :=
  if wrapI64 (a + b) = a + b then .ok (a + b)
  else
    match profile with
    | .debug => .error .overflow
    | .release => .ok (wrapI64 (a + b))

/-- `i64::checked_mul`. -/
def checkedMul (a b : Int) : Option Int := if wrapI64 (a * b) = a * b then some (a * b) else none

/-- The number the decimal digits write. -/
def decimalValue (digits : Text) : Nat :=
  digits.foldl (fun n c => 10 * n + (c.toNat - '0'.toNat)) 0

/-- `str::parse::<i64>` of a text of digits. -/
def parseI64 (digits : Text) : Option Int :=
  if digits.isEmpty then none
  else if (decimalValue digits : Int) ≤ i64Max then some (decimalValue digits)
  else none

/-! ## `iso_duration_days` -/

/-- The amounts and their units; digits must precede a unit. -/
def datePairs : Text → Text → Option (List (Int × Char))
  | [], digits => if digits.isEmpty then some [] else none
  | c :: rest, digits =>
    if c.isDigit then datePairs rest (digits ++ [c])
    else do
      let n ← parseI64 digits
      let pairs ← datePairs rest []
      pure ((n, c) :: pairs)

/-- The days a pair adds. Years and months have no length in days, and a product that does not fit
    none either. -/
def addend (n : Int) (unit : Char) : Option Int :=
  if unit = 'Y' ∨ unit = 'M' then none
  else if unit = 'W' then checkedMul n 7
  else if unit = 'D' then some n
  else none

/-- Add the pairs up in days. The sum is not checked. -/
def sumDays (profile : Profile) : List (Int × Char) → Int → Except Panic (Option Int)
  | [], days => .ok (if days > 0 then some days else none)
  | pair :: pairs, days =>
    match addend pair.1 pair.2 with
    | none => .ok none
    | some m => do
        let total ← addI64 profile days m
        sumDays profile pairs total

/-- The text before the first `T`. -/
def datePart (rest : Text) : Text := ((Text.breakOn ['T'] rest).map (·.1)).getD rest

/-- An ISO 8601 duration in whole days. -/
def isoDurationDays (profile : Profile) (s : Text) : Except Panic (Option Int) :=
  match s.trim with
  | 'P' :: rest =>
    if rest.isEmpty then .ok none
    else
      match datePairs (datePart rest) [] with
      | none => .ok none
      | some pairs => sumDays profile pairs 0
  | _ => .ok none

/-! ## Policies -/

structure CredentialRestrictionConfiguration where
  restrictionType : Option Text
  state : Option Text
  maxLifetime : Option Text
  restrictForAppsCreatedAfterDateTime : Option Timestamp

/-- The secret restrictions of a policy, and those of the copy nested in it. -/
structure AppManagementConfiguration where
  passwordCredentials : List CredentialRestrictionConfiguration
  applicationRestrictions : Option (List CredentialRestrictionConfiguration)

def AppManagementConfiguration.passwordEntries (c : AppManagementConfiguration) :
    List CredentialRestrictionConfiguration :=
  c.passwordCredentials ++ c.applicationRestrictions.getD []

structure TenantAppManagementPolicy where
  isEnabled : Bool
  applicationRestrictions : Option AppManagementConfiguration

structure AppManagementPolicy where
  isEnabled : Bool
  restrictions : Option AppManagementConfiguration

inductive EntryCap where
  | irrelevant
  | unknown
  | cap (days : Int)

/-- An enabled restriction of a secret's lifetime. -/
def CredentialRestrictionConfiguration.enforced (e : CredentialRestrictionConfiguration) : Bool :=
  e.state == some "enabled".toList && e.restrictionType == some "passwordLifetime".toList

/-- What one entry says for an application created then, durations being read by `days`. -/
def entryCap (days : Text → Except Panic (Option Int)) (created : Option Timestamp)
    (e : CredentialRestrictionConfiguration) : Except Panic EntryCap :=
  if !e.enforced then .ok .irrelevant
  else do
    let parsed ← match e.maxLifetime with
      | none => .ok none
      | some text => days text
    match parsed with
    | none => .ok .unknown
    | some cap =>
      match e.restrictForAppsCreatedAfterDateTime with
      | none => .ok (.cap cap)
      | some gate =>
        match created with
        | some created => .ok (if created > gate then .cap cap else .irrelevant)
        | none => .ok .unknown

/-- The caps of the entries, unless one is unknown. -/
def capsOf (days : Text → Except Panic (Option Int)) (created : Option Timestamp) :
    List CredentialRestrictionConfiguration → Except Panic (Option (List Int))
  | [] => .ok (some [])
  | e :: entries => do
      match ← entryCap days created e with
      | .irrelevant => capsOf days created entries
      | .unknown => .ok none
      | .cap c =>
        let rest ← capsOf days created entries
        .ok (rest.map (c :: ·))

/-- The strictest cap. -/
def minCap (days : Text → Except Panic (Option Int))
    (entries : List CredentialRestrictionConfiguration) (created : Option Timestamp) :
    Except Panic (Option Int) := do
  let caps ← capsOf days created entries
  .ok (caps.bind List.min?)

/-- The cap a policy enforces for one application: its own policy's, else the tenant's. -/
def enforcedSecretMaxDays (days : Text → Except Panic (Option Int))
    (custom : Option AppManagementPolicy) (default : Option TenantAppManagementPolicy)
    (created : Option Timestamp) : Except Panic (Option Int) :=
  let view : Option (Bool × Option AppManagementConfiguration) :=
    match custom, default with
    | some c, _ => some (c.isEnabled, c.restrictions)
    | none, some d => some (d.isEnabled, d.applicationRestrictions)
    | none, none => none
  match view with
  | none => .ok none
  | some (enabled, restrictions) =>
    if !enabled then .ok none
    else
      match restrictions with
      | none => .ok none
      | some r => minCap days r.passwordEntries created

end Audit
