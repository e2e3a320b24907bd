import AzAppToolkit.Lib.Run
import AzAppToolkit.Lib.Text

set_option autoImplicit false

/-! # The settings file

`UserSettings::mutate` of `azapptoolkit-core/src/settings.rs` and the write of `private_file.rs`, as a system
of calls that share a directory: each reads `settings.json` under the process lock and the lock file, writes
the changed settings to a temp it created itself, and renames that over the file.

Modelling choices: a call is at a `Stage`, and a step takes it to the next; every step that can fail has
one that fails. A process stops between any two steps, which drops the locks it holds and nothing else. What
`serde_json` reads and writes is a `Format`; permissions and syncs change no content and are left out, as
are the values that the closures return. -/

namespace Settings

/-! ## Files -/

/-- How settings are written and read back. -/
structure Format (σ : Type) where
  parse : List UInt8 → Option σ
  render : σ → List UInt8
  default : σ
  parse_render : ∀ s, parse (render s) = some s
  /-- Something is written that is not white space. -/
  render_not_blank : ∀ s, ∃ b ∈ render s, ¬ (isAsciiWhitespace (Char.ofNat b.toNat)) = true

inductive Content where
  | bytes (b : List UInt8)
  /-- No permission, a directory in its place, … -/
  | unreadable

/-- A file, and the call that created it. -/
structure Node where
  owner : Option Nat
  content : Content

abbrev Dir := Text → Option Node

def settingsFile : Text := "settings.json".toList

/-- `temp_candidate`: the process id and a nonce are any text. -/
def tempName (suffix : Text) : Text := settingsFile ++ ".tmp".toList ++ suffix

def isBlankBytes (b : List UInt8) : Bool := b.all (fun b => isAsciiWhitespace (Char.ofNat b.toNat))

section Machine

variable {σ : Type}

/-- `read_file(..)?.unwrap_or_default()`: the settings a writer starts from. -/
def readContent (fmt : Format σ) : Option Node → Option σ
  | none => some fmt.default
  | some ⟨_, .unreadable⟩ => none
  | some ⟨_, .bytes b⟩ => if isBlankBytes b then some fmt.default else fmt.parse b

/-! ## Calls -/

def tempAttempts : Nat := 8

/-- Where a call of `mutate` is. -/
inductive Stage (σ : Type) where
  | called
  /-- It holds the process lock. -/
  | locked
  /-- It holds the lock file too. -/
  | exclusive
  /-- The closure has run; so many temp names were taken. -/
  | saving (settings : σ) (attempt : Nat)
  /-- The temp is its own, and so much is left to write. -/
  | filling (settings : σ) (temp : Text) (rest : List UInt8)
  /-- The write failed. -/
  | cleaning (temp : Text)
  | replaced
  | failing
  /-- The lock file is released. -/
  | unlocked (ok : Bool)
  | returned (ok : Bool)
  /-- Its process has stopped. -/
  | stopped

structure Mutation (σ : Type) where
  process : Nat
  apply : σ → σ
  stage : Stage σ
  /-- The calls that had returned `Ok` when this one was made. -/
  after : List Nat

structure State (σ : Type) where
  dir : Dir
  osLock : Option Nat
  processLock : Nat → Option Nat
  calls : Nat → Option (Mutation σ)
  /-- How many calls were made. -/
  made : Nat
  /-- The calls whose rename has happened, in that order. -/
  applied : List Nat

def State.start (init : Text → Option Content) : State σ where
  dir := fun name => (init name).map (fun content => ⟨none, content⟩)
  osLock := none
  processLock := fun _ => none
  calls := fun _ => none
  made := 0
  applied := []

/-- The calls that have returned `Ok`. -/
def State.succeeded (s : State σ) : List Nat :=
  (List.range s.made).filter (fun i => match s.calls i with
    | some ⟨_, _, .returned true, _⟩ => true
    | _ => false)

/-- The call goes on to a stage. -/
def State.move (s : State σ) (i : Nat) (m : Mutation σ) (stage : Stage σ) : State σ :=
  { s with calls := Function.update s.calls i (some { m with stage := stage }) }

inductive Event (σ : Type) where
  | call (process : Nat) (apply : σ → σ)
  | act (i : Nat)
  | stop (process : Nat)
  /-- `stored`: a reader looks at the file. -/
  | read

/-- The calls of a process stop where they are, those that have returned apart. -/
def stopCall (process : Nat) (m : Mutation σ) : Mutation σ :=
  match m.stage with
  | .returned _ => m
  | _ => if m.process = process then { m with stage := .stopped } else m

/-- A step of a call that touches neither files nor locks. -/
inductive Moves (fmt : Format σ) (s : State σ) (m : Mutation σ) : Stage σ → Stage σ → Prop
  | read {v : σ} (hread : readContent fmt (s.dir settingsFile) = some v) :
      Moves fmt s m .exclusive (.saving (m.apply v) 0)
  /-- The file cannot be read or does not parse. -/
  | readFailed : Moves fmt s m .exclusive .failing
  /-- The name is taken. -/
  | createExists {v : σ} {attempt : Nat} {suffix : Text} (htaken : s.dir (tempName suffix) ≠ none)
      (hmore : attempt + 1 < tempAttempts) : Moves fmt s m (.saving v attempt) (.saving v (attempt + 1))
  | saveFailed {v : σ} {attempt : Nat} : Moves fmt s m (.saving v attempt) .failing
  | fillFailed {v : σ} {temp : Text} {rest : List UInt8} : Moves fmt s m (.filling v temp rest) (.cleaning temp)
  | removeFailed {temp : Text} : Moves fmt s m (.cleaning temp) .failing
  /-- `create_dir_all` fails before the lock file is opened. -/
  | dirFailed : Moves fmt s m .locked (.unlocked false)

inductive Step (fmt : Format σ) : State σ → Event σ → State σ → Prop
  | call {s : State σ} {process : Nat} {f : σ → σ} : Step fmt s (.call process f)
      { s with
        calls := Function.update s.calls s.made (some ⟨process, f, .called, s.succeeded⟩)
        made := s.made + 1 }
  | move {s : State σ} {i : Nat} {m : Mutation σ} {stage : Stage σ} (hm : s.calls i = some m)
      (hmoves : Moves fmt s m m.stage stage) : Step fmt s (.act i) (s.move i m stage)
  /-- `SETTINGS_LOCK.lock()`. -/
  | lockProcess {s : State σ} {i : Nat} {m : Mutation σ} (hm : s.calls i = some m)
      (hstage : m.stage = .called) (hfree : s.processLock m.process = none) :
      Step fmt s (.act i)
        { s.move i m .locked with processLock := Function.update s.processLock m.process (some i) }
  /-- `lock_across_instances`. -/
  | lockOs {s : State σ} {i : Nat} {m : Mutation σ} (hm : s.calls i = some m)
      (hstage : m.stage = .locked) (hfree : s.osLock = none) :
      Step fmt s (.act i) { s.move i m .exclusive with osLock := some i }
  | create {s : State σ} {i : Nat} {m : Mutation σ} {v : σ} {attempt : Nat} {suffix : Text}
      (hm : s.calls i = some m) (hstage : m.stage = .saving v attempt)
      (hfree : s.dir (tempName suffix) = none) :
      Step fmt s (.act i)
        { s.move i m (.filling v (tempName suffix) (fmt.render v)) with
          dir := Function.update s.dir (tempName suffix) (some ⟨some i, .bytes []⟩) }
  /-- One write of `write_all`. -/
  | write {s : State σ} {i : Nat} {m : Mutation σ} {v : σ} {temp : Text} {part rest b : List UInt8}
      {owner : Option Nat} (hm : s.calls i = some m) (hstage : m.stage = .filling v temp (part ++ rest))
      (hfile : s.dir temp = some ⟨owner, .bytes b⟩) :
      Step fmt s (.act i)
        { s.move i m (.filling v temp rest) with
          dir := Function.update s.dir temp (some ⟨owner, .bytes (b ++ part)⟩) }
  | rename {s : State σ} {i : Nat} {m : Mutation σ} {v : σ} {temp : Text} {node : Node}
      (hm : s.calls i = some m) (hstage : m.stage = .filling v temp []) (hfile : s.dir temp = some node) :
      Step fmt s (.act i)
        { s.move i m .replaced with
          dir := Function.update (Function.update s.dir temp none) settingsFile (some node)
          applied := s.applied ++ [i] }
  /-- `remove_file`, of the temp of a write that failed. -/
  | remove {s : State σ} {i : Nat} {m : Mutation σ} {temp : Text} (hm : s.calls i = some m)
      (hstage : m.stage = .cleaning temp) :
      Step fmt s (.act i) { s.move i m .failing with dir := Function.update s.dir temp none }
  /-- The lock file is dropped, with the outcome known. -/
  | unlockOs {s : State σ} {i : Nat} {m : Mutation σ} {ok : Bool} (hm : s.calls i = some m)
      (hstage : m.stage = if ok then .replaced else .failing) :
      Step fmt s (.act i) { s.move i m (.unlocked ok) with osLock := none }
  | unlockProcess {s : State σ} {i : Nat} {m : Mutation σ} {ok : Bool} (hm : s.calls i = some m)
      (hstage : m.stage = .unlocked ok) :
      Step fmt s (.act i)
        { s.move i m (.returned ok) with processLock := Function.update s.processLock m.process none }
  /-- A process stops; the system drops its locks. -/
  | stop {s : State σ} {process : Nat} : Step fmt s (.stop process)
      { s with
        calls := fun i => (s.calls i).map (stopCall process)
        osLock := s.osLock.filter (fun i => (s.calls i).all (fun m => m.process != process))
        processLock := Function.update s.processLock process none }
  | read {s : State σ} : Step fmt s .read s

end Machine

end Settings
