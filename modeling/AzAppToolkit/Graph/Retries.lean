import AzAppToolkit.Graph.Transport

set_option autoImplicit false

/-! # The runs of the retry loop

`with_retries` of `http_retry.rs`, in which every client sends: the runs it has, from the outcomes of the
attempts alone. An attempt is one call here, and the waits are recorded with it. -/

namespace Graph

open Prog

inductive RetryCall where
  | attempt
  | wait (retryAfterSecs : Option Nat) (delayMs : Nat)

/-- An attempt that may be followed by another one. -/
structure Failure (ε : Type) where
  reason : RetryReason
  retryAfterSecs : Option Nat
  err : ε

section Runs

variable {α ε : Type}

@[reducible] def RetryAnswer (α ε : Type) : RetryCall → Type
  | .attempt => Attempt α ε
  | .wait _ _ => Unit

def attemptOnce : Prog (RetryAnswer α ε) (Attempt α ε) := call RetryCall.attempt

def waitOnce (retryAfterSecs : Option Nat) (delayMs : Nat) : Prog (RetryAnswer α ε) Unit :=
  call (RetryCall.wait retryAfterSecs delayMs)

abbrev RetryTrace (α ε : Type) := List (Exchanged (RetryAnswer α ε))

/-- The backoff after `n` failures. -/
def backoffMs (n : Nat) : Nat := min (baseDelayMs * 2 ^ n) maxDelayMs

theorem nextBackoffMs_backoffMs (n : Nat) : nextBackoffMs (backoffMs n) = backoffMs (n + 1) := by
  unfold nextBackoffMs backoffMs
  have hdouble : baseDelayMs * 2 ^ (n + 1) = 2 * (baseDelayMs * 2 ^ n) := by ring
  omega

/-- The class allows another attempt. -/
def Allowed (retryClass : RetryClass) (reason : RetryReason) : Prop :=
  ¬ (reason = .transient ∧ retryClass = .nonIdempotent)

/-- The failures from the `n`-th on, each with its wait, and the last attempt. -/
def passTrace (last : Attempt α ε) : Nat → List (Failure ε) → RetryTrace α ε
  | _, [] => [⟨.attempt, last⟩]
  | n, f :: failures =>
    ⟨.attempt, .retry f.reason f.retryAfterSecs f.err⟩ :: ⟨.wait f.retryAfterSecs (backoffMs n), ()⟩ ::
      passTrace last (n + 1) failures

/-- The last attempt ends the loop with a result. -/
def Ended (retryClass : RetryClass) (spent : Prop) (last : Attempt α ε) (result : Except ε α) : Prop :=
  last = .done result ∨ ∃ f : Failure ε, last = .retry f.reason f.retryAfterSecs f.err ∧
    result = .error f.err ∧ (Allowed retryClass f.reason → spent)

/-- A run after `n` failures, with `left` retries. -/
def PassFrom (retryClass : RetryClass) (n left : Nat) (t : RetryTrace α ε) (result : Except ε α) : Prop :=
  ∃ failures last, t = passTrace last n failures ∧ failures.length ≤ left ∧
    (∀ f ∈ failures, Allowed retryClass f.reason) ∧
    Ended retryClass (failures.length = left) last result

variable {retryClass : RetryClass}

/-- One failure more, before the others. -/
theorem PassFrom.cons {n left : Nat} {t : RetryTrace α ε} {result : Except ε α} {f : Failure ε}
    (h : PassFrom retryClass (n + 1) left t result) (hf : Allowed retryClass f.reason) :
    PassFrom retryClass n (left + 1) (⟨.attempt, .retry f.reason f.retryAfterSecs f.err⟩ ::
      ⟨.wait f.retryAfterSecs (backoffMs n), ()⟩ :: t) result := by
  obtain ⟨failures, last, rfl, hlen, hall, hlast⟩ := h
  refine ⟨f :: failures, last, rfl, Nat.succ_le_succ hlen, List.forall_mem_cons.2 ⟨hf, hall⟩, ?_⟩
  simpa [Ended] using hlast

/-- The loop has no other runs than those. -/
theorem meets_passFrom {left n : Nat} (t : RetryTrace α ε) :
    Meets history (fun _ _ => True)
      (fun t' result => ∃ t₁, t' = t ++ t₁ ∧ PassFrom retryClass n left t₁ result) t
      (withRetriesFrom waitOnce retryClass attemptOnce left (backoffMs n)) := by
  have hend : ∀ (last : Attempt α ε) (result : Except ε α) (left : Nat),
      Ended retryClass (0 = left) last result → ∃ t₁, t ++ [⟨.attempt, last⟩] = t ++ t₁ ∧
        PassFrom retryClass n left t₁ result :=
    fun last result left hlast => ⟨_, rfl, [], last, rfl, Nat.zero_le left, nofun, hlast⟩
  induction left generalizing n t with
  | zero =>
    rw [withRetriesFrom]
    refine Meets.bind (Meets.remember (c := RetryCall.attempt) trivial fun r => ?_)
    cases r with
    | done result => exact hend _ _ _ (.inl rfl)
    | retry reason ra err =>
      have hspent := hend _ (.error err) 0 (.inr ⟨⟨reason, ra, err⟩, rfl, rfl, fun _ => rfl⟩)
      dsimp only
      split
      · exact hspent
      · exact hspent
  | succ left ih =>
    rw [withRetriesFrom]
    refine Meets.bind (Meets.remember (c := RetryCall.attempt) trivial fun r => ?_)
    cases r with
    | done result => exact hend _ _ _ (.inl rfl)
    | retry reason ra err =>
      dsimp only
      split
      · next hforbidden =>
        exact hend _ _ _ (.inr ⟨⟨reason, ra, err⟩, rfl, rfl, absurd hforbidden⟩)
      · next hallowed =>
        refine Meets.bind (Meets.remember (c := RetryCall.wait ra (backoffMs n)) trivial fun _ => ?_)
        rw [nextBackoffMs_backoffMs]
        refine (ih _ (fun _ _ _ h => ⟨_, rfl, [], _, rfl, Nat.zero_le _, nofun, h⟩)).mono ?_
        rintro t' result ⟨t₁, rfl, hpass⟩
        refine ⟨_, ?_, hpass.cons (f := ⟨reason, ra, err⟩) hallowed⟩
        simp

theorem exec_remember {β : Type} {c : RetryCall} {f : RetryAnswer α ε c → Prog (RetryAnswer α ε) β}
    {t t' : RetryTrace α ε} {b : β} (r : RetryAnswer α ε c) (h : Exec history (t ++ [⟨c, r⟩]) (f r) t' b) :
    Exec history t (call c >>= f) t' b := .ask rfl h

/-- Each of them is one. -/
theorem exec_passTrace {last : Attempt α ε} {result : Except ε α} {failures : List (Failure ε)}
    {left n : Nat} (hlen : failures.length ≤ left) (hall : ∀ f ∈ failures, Allowed retryClass f.reason)
    (hlast : Ended retryClass (failures.length = left) last result) (t : RetryTrace α ε) :
    Exec history t (withRetriesFrom waitOnce retryClass attemptOnce left (backoffMs n))
      (t ++ passTrace last n failures) result := by
  induction failures generalizing left n t with
  | nil =>
    rw [withRetriesFrom]
    refine exec_remember (c := .attempt) last ?_
    rcases hlast with rfl | ⟨f, rfl, rfl, hspent⟩
    · exact .done _ _
    · dsimp only
      split
      · exact .done _ _
      · next hallowed =>
        obtain rfl := hspent hallowed
        exact .done _ _
  | cons f failures ih =>
    cases left with
    | zero => exact absurd hlen (Nat.not_succ_le_zero _)
    | succ left =>
      rw [withRetriesFrom]
      refine exec_remember (c := .attempt) (.retry f.reason f.retryAfterSecs f.err) ?_
      dsimp only
      rw [if_neg (hall f List.mem_cons_self)]
      refine exec_remember (c := .wait f.retryAfterSecs (backoffMs n)) () ?_
      rw [nextBackoffMs_backoffMs]
      have hrest := ih (n := n + 1) (Nat.le_of_succ_le_succ hlen)
        (fun g hg => hall g (List.mem_cons_of_mem f hg))
        (by simpa [Ended] using hlast)
        (t ++ [⟨.attempt, .retry f.reason f.retryAfterSecs f.err⟩] ++
          [⟨.wait f.retryAfterSecs (backoffMs n), ()⟩])
      simpa [passTrace] using hrest

/-- The runs of `with_retries`, whatever the attempts come to: at most `maxRetries` failures that may be
followed by another attempt, each with its Retry-After or the backoff waited for behind it, and one last
attempt, whose result is told. It is such a failure only if `maxRetries` of them came before it. -/
theorem with_retries_exact (retryClass : RetryClass) (t : RetryTrace α ε) (result : Except ε α) :
    Exec history [] (withRetries waitOnce retryClass attemptOnce) t result ↔
      PassFrom retryClass 0 maxRetries t result := by
  change Exec history [] (withRetriesFrom waitOnce retryClass _ maxRetries (backoffMs 0)) t result ↔ _
  constructor
  · intro hexec
    obtain ⟨t₁, rfl, hpass⟩ := (meets_passFrom []).sound hexec
    exact hpass
  · rintro ⟨failures, last, rfl, hlen, hall, hlast⟩
    exact exec_passTrace hlen hall hlast []

end Runs

end Graph
