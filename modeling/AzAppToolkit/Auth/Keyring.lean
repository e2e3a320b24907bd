import AzAppToolkit.Auth.Chunks
import AzAppToolkit.Lib.Rely
import AzAppToolkit.Lib.Table

set_option autoImplicit false

/-! # The keyring

Saving, loading and deleting a refresh token, `azapptoolkit-auth/src/token_cache.rs`, one operation on
one keyring entry at a time. Any operation may fail; one that changes an entry may have changed it
all the same.

Modelling choices:
* opening an entry and operating on it fail alike at every place, so they are one call;
* the chunk-set lock is left out: a second process does not share it, and within one process it only
  rules out interleavings;
* the loops that stop at a missing entry have no bound of their own and take `fuel`; a result that is
  not there yet is `none`;
* a generation is drawn by a call that names the save it is drawn for; nothing reads the name. -/

namespace Auth

open Prog

/-! ## Entries -/

inductive EntryError where
  | noEntry
  | failed (message : Text)

inductive EntryCall where
  | ensureKeyringStore
  | newChunkGen (account : Account) (token : RefreshToken)
  | setPassword (label value : Text)
  | getPassword (label : Text)
  | deleteCredential (label : Text)

abbrev EntryAnswer : EntryCall → Type
  | .ensureKeyringStore => Except Text Unit
  | .newChunkGen _ _ => Text
  | .setPassword _ _ => Except Text Unit
  | .getPassword _ => Except EntryError Text
  | .deleteCredential _ => Except EntryError Unit

inductive KeyringError where
  | keyringUnavailable (message : Text)
  | keyring (message : Text)

/-- A program over keyring entries. -/
abbrev Entries (α : Type) := Prog EntryAnswer α

def ensureKeyringStore : Entries (Except Text Unit) := call EntryCall.ensureKeyringStore

def newChunkGen (account : Account) (token : RefreshToken) : Entries Text :=
  call (EntryCall.newChunkGen account token)

def setPassword (label value : Text) : Entries (Except Text Unit) := call (EntryCall.setPassword label value)

def getPassword (label : Text) : Entries (Except EntryError Text) := call (EntryCall.getPassword label)

def deleteCredential (label : Text) : Entries (Except EntryError Unit) :=
  call (EntryCall.deleteCredential label)

/-- `ensure_keyring_store()?`, then the rest. -/
def withStore {α : Type} (p : Entries (Option (Except KeyringError α))) :
    Entries (Option (Except KeyringError α)) := do
  match ← ensureKeyringStore with
  | .error e => pure (some (.error (.keyringUnavailable e)))
  | .ok () => p

/-! ## Deleting -/

def gapTolerance : Nat := 4

/-- One round of `delete_chunks`: the index and the length of the gap so far. -/
def deleteRound (account : Account) (state : Nat × Nat) :
    Entries ((Nat × Nat) ⊕ Except KeyringError Unit) := do
  match ← deleteCredential (account.label state.1) with
  | .ok () => pure (.inl (state.1 + 1, 0))
  | .error .noEntry =>
    if gapTolerance ≤ state.2 + 1 then pure (.inr (.ok ()))
    else pure (.inl (state.1 + 1, state.2 + 1))
  | .error (.failed e) => pure (.inr (.error (.keyring e)))

def deleteChunks (fuel : Nat) (account : Account) : Entries (Option (Except KeyringError Unit)) :=
  loop (deleteRound account) fuel (0, 0)

def deleteRefreshToken (fuel : Nat) (account : Account) :
    Entries (Option (Except KeyringError Unit)) :=
  withStore (deleteChunks fuel account)

/-! ## Saving -/

/-- The chunks from `idx` on; says too whether chunk 0 was replaced. -/
def writeFrom (account : Account) (total : Nat) (chunkGen : Text) :
    Nat → List Text → Bool → Entries (Except KeyringError Unit × Bool)
  | _, [], overwroteChunkZero => pure (.ok (), overwroteChunkZero)
  | idx, chunk :: rest, overwroteChunkZero => do
      match ← setPassword (account.label idx) (encodeChunk idx total chunkGen chunk) with
      | .error e => pure (.error (.keyring e), overwroteChunkZero)
      | .ok () => writeFrom account total chunkGen (idx + 1) rest (overwroteChunkZero || idx == 0)

/-- One round of the sweep of a longer token's tail, which ends at a missing entry and at an error. -/
def sweepRound (account : Account) (idx : Nat) : Entries (Nat ⊕ Unit) := do
  match ← deleteCredential (account.label idx) with
  | .ok () => pure (.inl (idx + 1))
  | .error _ => pure (.inr ())

def writeChunks (fuel : Nat) (account : Account) (token : RefreshToken) :
    Entries (Option (Except KeyringError Unit × Bool)) := do
  let chunks := splitIntoChunks token.text
  let chunkGen ← newChunkGen account token
  let written ← writeFrom account chunks.length chunkGen 0 chunks false
  match written.1 with
  | .error e => pure (some (.error e, written.2))
  | .ok () =>
    let swept ← loop (sweepRound account) fuel chunks.length
    pure (swept.map (fun _ => (.ok (), written.2)))

/-- What becomes of a write: a torn set is rolled back, its error is what is returned. -/
def settleWrite (fuel : Nat) (account : Account) (overwroteChunkZero : Bool) :
    Except KeyringError Unit → Entries (Option (Except KeyringError Bool))
  | .ok () => pure (some (.ok true))
  | .error e =>
    if overwroteChunkZero then do
      let deleted ← deleteChunks fuel account
      pure (deleted.map (fun _ => .error e))
    else pure (some (.error e))

/-- `stillCurrent` is what the caller's check, made under the lock, found. -/
def saveRefreshTokenIf (fuel : Nat) (account : Account) (token : RefreshToken) (stillCurrent : Bool) :
    Entries (Option (Except KeyringError Bool)) :=
  withStore (if !stillCurrent then pure (some (.ok false))
    else do
      match ← writeChunks fuel account token with
      | none => pure none
      | some (result, overwroteChunkZero) => settleWrite fuel account overwroteChunkZero result)

/-! ## Loading -/

/-- What `load_chunks` has read so far. -/
structure LoadState where
  combined : Text
  idx : Nat
  declared : Option Nat
  expectedGen : Option Text
  genMismatch : Bool

def LoadState.start : LoadState := ⟨[], 0, none, none, false⟩

/-- Chunk 0 declares the set. -/
def LoadState.readFirst (st : LoadState) (part : Text) : LoadState :=
  match decodeChunkZero part with
  | .generation total chunkGen payload =>
    { st with declared := some total, expectedGen := some chunkGen, combined := st.combined ++ payload }
  | .count total payload => { st with declared := some total, combined := st.combined ++ payload }
  | .legacy payload => { st with combined := st.combined ++ payload }
  | .malformed => { st with genMismatch := true }

/-- A later chunk has to be of the generation, if there is one. -/
def LoadState.readLater (st : LoadState) (part : Text) : LoadState :=
  match st.expectedGen with
  | some chunkGen =>
    match Text.breakOn [':'] part with
    | some (found, payload) =>
      if found = chunkGen then { st with combined := st.combined ++ payload }
      else { st with genMismatch := true }
    | none => { st with genMismatch := true }
  | none => { st with combined := st.combined ++ part }

def LoadState.read (st : LoadState) (part : Text) : LoadState :=
  let st' := if st.idx = 0 then st.readFirst part else st.readLater part
  { st' with idx := st.idx + 1 }

/-- A set that does not match what it declared is no session. -/
def LoadState.finish (st : LoadState) : Option Text :=
  if st.idx = 0 then none
  else if st.genMismatch then none
  else
    match st.declared with
    | some total => if total = st.idx then some st.combined else none
    | none => some st.combined

/-- A set of the current form is read by its count. -/
def LoadState.complete (st : LoadState) : Bool :=
  st.expectedGen.isSome && st.declared == some st.idx

def loadRound (account : Account) (st : LoadState) :
    Entries (LoadState ⊕ Except KeyringError (Option Text)) :=
  if st.complete then pure (.inr (.ok st.finish))
  else do
    match ← getPassword (account.label st.idx) with
    | .ok part => pure (.inl (st.read part))
    | .error .noEntry => pure (.inr (.ok st.finish))
    | .error (.failed e) => pure (.inr (.error (.keyring e)))

def loadChunks (fuel : Nat) (account : Account) :
    Entries (Option (Except KeyringError (Option Text))) :=
  loop (loadRound account) fuel .start

def loadRefreshToken (fuel : Nat) (account : Account) :
    Entries (Option (Except KeyringError (Option Text))) :=
  withStore (loadChunks fuel account)

/-! ## Purging -/

inductive PurgeOutcome where
  | deleted
  | alreadyGone
  | superseded

/-- Delete, and report the outcome. -/
def purge (fuel : Nat) (account : Account) (outcome : PurgeOutcome) :
    Entries (Option (Except KeyringError PurgeOutcome)) := do
  let deleted ← deleteChunks fuel account
  pure (deleted.map (Except.map (fun _ => outcome)))

/-- Delete the stored token only if it is the one that was rejected. -/
def deleteRefreshTokenIfCurrent (fuel : Nat) (account : Account) (rejected : Text) :
    Entries (Option (Except KeyringError PurgeOutcome)) :=
  withStore (do
    match ← loadChunks fuel account with
    | none => pure none
    | some (.error e) => pure (some (.error e))
    | some (.ok (some current)) =>
      if current ≠ rejected then pure (some (.ok .superseded)) else purge fuel account .deleted
    | some (.ok none) => purge fuel account .alreadyGone)

/-! ## The store -/

/-- A save that has drawn its generation. -/
structure Save where
  account : Account
  token : RefreshToken
  chunkGen : Text

def Save.chunks (save : Save) : List Text := splitIntoChunks save.token.text

/-- The keyring, with the saves begun so far. -/
structure Store where
  entries : Table Text Text
  saves : List Save

/-- An entry is set and removed as a whole; a call that fails may have done it all the same. -/
def entryWorld : World EntryAnswer Store
  | s, .ensureKeyringStore, _, s' => s' = s
  | s, .newChunkGen account token, chunkGen, s' =>
    IsChunkGen chunkGen ∧ chunkGen ∉ s.saves.map Save.chunkGen ∧
      s' = { s with saves := s.saves ++ [⟨account, token, chunkGen⟩] }
  | s, .setPassword label value, .ok (), s' =>
    s' = { s with entries := s.entries.insert label value }
  | s, .setPassword label value, .error _, s' =>
    s' = s ∨ s' = { s with entries := s.entries.insert label value }
  | s, .getPassword label, .ok value, s' => s.entries.lookup label = some value ∧ s' = s
  | s, .getPassword label, .error .noEntry, s' => s.entries.lookup label = none ∧ s' = s
  | s, .getPassword _, .error (.failed _), s' => s' = s
  | s, .deleteCredential label, .ok (), s' =>
    (s.entries.lookup label).isSome ∧ s' = { s with entries := s.entries.erase label }
  | s, .deleteCredential label, .error .noEntry, s' => s.entries.lookup label = none ∧ s' = s
  | s, .deleteCredential label, .error (.failed _), s' =>
    s' = s ∨ s' = { s with entries := s.entries.erase label }

/-! ## Users of the keyring -/

/-- What one of them returned. -/
inductive KeyringResult where
  | saved (result : Option (Except KeyringError Bool))
  | loaded (account : Account) (result : Option (Except KeyringError (Option Text)))
  | deleted (result : Option (Except KeyringError Unit))
  | purged (result : Option (Except KeyringError PurgeOutcome))

/-- The programs that use the keyring, of any process. -/
inductive KeyringUser : Entries KeyringResult → Prop
  | save (fuel : Nat) (account : Account) (token : RefreshToken) (stillCurrent : Bool) :
      KeyringUser (KeyringResult.saved <$> saveRefreshTokenIf fuel account token stillCurrent)
  | load (fuel : Nat) (account : Account) :
      KeyringUser (KeyringResult.loaded account <$> loadRefreshToken fuel account)
  | delete (fuel : Nat) (account : Account) :
      KeyringUser (KeyringResult.deleted <$> deleteRefreshToken fuel account)
  | purge (fuel : Nat) (account : Account) (rejected : Text) :
      KeyringUser (KeyringResult.purged <$> deleteRefreshTokenIfCurrent fuel account rejected)

end Auth
