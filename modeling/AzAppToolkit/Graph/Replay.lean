import AzAppToolkit.Graph.Transport

set_option autoImplicit false

/-! # What the transport sends again

The transport runs in the `history` world: the server, the network and the token provider answer as
they like, and the trace remembers what was asked and answered. A mutation is sent again only where
the attempt before it is known not to have been carried out, every pass of the outer loop has its own
budget, and the result is the last attempt's. -/

namespace Graph

open Prog

/-! ## Reading a trace -/

abbrev Trace := List (Exchanged Answer)

def responseOf : Exchanged Answer → Option (Except Text Response)
  | ⟨.send _ _, r⟩ => some r
  | _ => none

/-- How the last send ended. -/
def lastSent (t : Trace) : Option (Except Text Response) :=
  t.foldl (fun last e => (responseOf e).or last) none

/-- How often a token was minted for a challenge, and the sends before and after the first time. -/
structure Tally where
  remints : Nat
  before : Nat
  after : Nat

def Tally.note (n : Tally) : Exchanged Answer → Tally
  | ⟨.send _ _, _⟩ =>
    if n.remints = 0 then { n with before := n.before + 1 } else { n with after := n.after + 1 }
  | ⟨.bearerWithClaims _, _⟩ => { n with remints := n.remints + 1 }
  | _ => n

def tally (t : Trace) : Tally := t.foldl Tally.note ⟨0, 0, 0⟩

def Throttled (r : Except Text Response) : Prop := ∃ resp, r = .ok resp ∧ resp.status = 429

/-- The send ended in a 401 that carries a claims challenge. -/
def Challenged (r : Except Text Response) (challenge : Text) : Prop :=
  ∃ resp, r = .ok resp ∧ resp.status = 401 ∧
    resp.wwwAuthenticate.bind parseClaimsChallenge = some challenge

/-- What a caller is told of one attempt. -/
def outcome (r : Except Text Response) : Except GraphError Bytes :=
  match classify r with
  | .done (.ok (.body bytes)) => .ok bytes
  | .done (.ok (.claimsChallenge _)) => .error .unauthorized
  | .done (.error err) => .error err
  | .retry _ _ err => .error err

@[simp] theorem lastSent_snoc (t : Trace) (e : Exchanged Answer) :
    lastSent (t ++ [e]) = (responseOf e).or (lastSent t) := by
  unfold lastSent
  rw [List.foldl_append]
  simp only [List.foldl_cons, List.foldl_nil]

@[simp] theorem tally_snoc (t : Trace) (e : Exchanged Answer) : tally (t ++ [e]) = (tally t).note e := by
  unfold tally
  rw [List.foldl_append]
  simp only [List.foldl_cons, List.foldl_nil]

/-! ## What is promised -/

/-- A mutation may be sent now: for the first time, after a 429, or right after a token was minted
    for the challenge of the last send. -/
def MayResend (retryClass : RetryClass) (t : Trace) : Prop :=
  retryClass = .nonIdempotent → ∀ r, lastSent t = some r → Throttled r ∨
    ∃ challenge token, Challenged r challenge ∧
      t.getLast? = some ⟨.bearerWithClaims challenge, .ok token⟩

/-- At most one token was minted for a challenge, and no pass sent more than its budget. -/
def Bounded (t : Trace) : Prop :=
  (tally t).remints ≤ 1 ∧ (tally t).before ≤ maxRetries + 1 ∧ (tally t).after ≤ maxRetries + 1

/-- A call comes where it may: a send where `MayResend`, and any call within the bounds. -/
def CallOk (retryClass : RetryClass) (t : Trace) (c : Call) : Prop :=
  (∀ request token, c = .send request token → MayResend retryClass t) ∧
    ∀ r : Answer c, Bounded (t ++ [⟨c, r⟩])

/-- The result is the last send's outcome. A challenge that could not be answered is reported as the
    failure to answer it. -/
def Returned (validHeader : Text → Bool) (t : Trace) (result : Except GraphError Bytes) : Prop :=
  match lastSent t with
  | none => ∃ err, result = .error err
  | some r => result = outcome r ∨ ∃ challenge, Challenged r challenge ∧
      ((∃ e, t.getLast? = some ⟨.bearerWithClaims challenge, .error e⟩ ∧
          (passthroughCode e.code).isSome = true ∧ result = .error (.token e)) ∨
        ∃ token err, t.getLast? = some ⟨.bearerWithClaims challenge, .ok token⟩ ∧
          authorization validHeader token = .error err ∧ result = .error err)

/-! ## One pass of the outer loop -/

/-- The state of pass `k`, which has sent `n` times. -/
def Leg (k n : Nat) (t : Trace) : Prop :=
  (k = 0 ∧ tally t = ⟨0, n, 0⟩) ∨ (k = 1 ∧ ∃ b ≤ maxRetries + 1, tally t = ⟨1, b, n⟩)

variable {t : Trace}

theorem Leg.bounded {k n : Nat} (h : Leg k n t) (hn : n ≤ maxRetries + 1) : Bounded t := by
  unfold Bounded
  rcases h with ⟨-, h⟩ | ⟨-, b, hb, h⟩
  · rw [h]
    exact ⟨Nat.zero_le 1, hn, Nat.zero_le _⟩
  · rw [h]
    exact ⟨le_refl 1, hb, hn⟩

theorem Leg.send {k n : Nat} (h : Leg k n t) (request : Request) (token : Text)
    (r : Except Text Response) : Leg k (n + 1) (t ++ [⟨.send request token, r⟩]) := by
  unfold Leg
  rw [tally_snoc]
  rcases h with ⟨hk, h⟩ | ⟨hk, b, hb, h⟩
  · exact Or.inl ⟨hk, by rw [h]; rfl⟩
  · exact Or.inr ⟨hk, b, hb, by rw [h]; rfl⟩

theorem Leg.wait {k n : Nat} (h : Leg k n t) (retryAfterSecs : Option Nat)
    (delayMs : Nat) : Leg k n (t ++ [⟨.wait retryAfterSecs delayMs, ()⟩]) := by
  unfold Leg
  rw [tally_snoc]
  exact h

theorem Leg.remint {n : Nat} (h : Leg 0 n t) (hn : n ≤ maxRetries + 1)
    (challenge : Text) (r : Except TokenError Text) :
    Leg 1 0 (t ++ [⟨.bearerWithClaims challenge, r⟩]) := by
  unfold Leg
  rw [tally_snoc]
  rcases h with ⟨-, h⟩ | ⟨hk, -⟩
  · exact Or.inr ⟨rfl, n, hn, by rw [h]; rfl⟩
  · exact absurd hk Nat.zero_ne_one

variable {r : Except Text Response}

/-- An attempt retried for another reason than a transient failure was refused with a 429. -/
theorem throttled_of_retry {reason : RetryReason} {ra : Option Nat}
    {err : GraphError} (h : classify r = .retry reason ra err) (hreason : reason ≠ .transient) :
    Throttled r := by
  cases r with
  | error chain =>
    obtain ⟨rfl, -, -⟩ := Attempt.retry.inj h
    exact absurd rfl hreason
  | ok resp =>
    refine ⟨resp, rfl, ?_⟩
    by_contra hne
    have htransient : reason = .transient := by grind [classify]
    exact hreason htransient

theorem challenged_of_done {challenge : Text}
    (h : classify r = .done (.ok (.claimsChallenge challenge))) : Challenged r challenge := by
  cases r with
  | error chain => exact absurd h (by simp [classify])
  | ok resp =>
    refine ⟨resp, rfl, ?_⟩
    cases hbody : resp.body <;> grind [classify, Except.map]

variable {retryClass : RetryClass} {request : Request}

theorem meets_attemptSend {token : Text} {k n : Nat}
    {post : Trace → Attempt Outcome GraphError → Prop} (hleg : Leg k n t)
    (hn : n ≤ maxRetries) (hmay : MayResend retryClass t)
    (h : ∀ r, post (t ++ [⟨.send request token, r⟩]) (classify r)) :
    Meets history (CallOk retryClass) post t (attemptSend request token) := by
  refine Meets.bind (Meets.remember ⟨fun _ _ _ => hmay, fun r => ?_⟩ h)
  exact (hleg.send request token r).bounded (by omega)

/-- How a pass ends: within its budget, with the outcome of its last send. -/
def PassEnd (k : Nat) (t : Trace) (result : Except GraphError Outcome) : Prop :=
  ∃ n r, n ≤ maxRetries + 1 ∧ Leg k n t ∧ lastSent t = some r ∧
    (classify r = .done result ∨
      ∃ reason ra err, classify r = .retry reason ra err ∧ result = .error err)

theorem passEnd_send {k n : Nat} {token : Text}
    {result : Except GraphError Outcome} (hleg : Leg k n t) (hn : n ≤ maxRetries)
    (h : classify r = .done result ∨
      ∃ reason ra err, classify r = .retry reason ra err ∧ result = .error err) :
    PassEnd k (t ++ [⟨.send request token, r⟩]) result := by
  refine ⟨n + 1, r, by omega, hleg.send request token r, ?_, h⟩
  rw [lastSent_snoc]
  rfl

/-- A pass that has sent `n` times and has `left` retries: it sends again only what may be sent. -/
theorem meets_withRetriesFrom {token : Text}
    {left delayMs k n : Nat} (hleg : Leg k n t) (hn : n + left = maxRetries) (hmay : MayResend retryClass t) :
    Meets history (CallOk retryClass) (PassEnd k) t
      (withRetriesFrom wait retryClass (attemptSend request token) left delayMs) := by
  induction left generalizing n t delayMs with
  | zero =>
    rw [withRetriesFrom]
    refine Meets.bind (meets_attemptSend hleg (by omega) hmay (fun r => ?_))
    cases hclass : classify r with
    | done result => exact passEnd_send hleg (by omega) (Or.inl hclass)
    | retry reason ra err =>
      have hend : PassEnd k (t ++ [⟨.send request token, r⟩]) (.error err) :=
        passEnd_send hleg (by omega) (Or.inr ⟨reason, ra, err, hclass, rfl⟩)
      dsimp only
      split
      · exact hend
      · exact hend
  | succ left ih =>
    rw [withRetriesFrom]
    refine Meets.bind (meets_attemptSend hleg (by omega) hmay (fun r => ?_))
    cases hclass : classify r with
    | done result => exact passEnd_send hleg (by omega) (Or.inl hclass)
    | retry reason ra err =>
      dsimp only
      split
      · exact passEnd_send hleg (by omega) (Or.inr ⟨reason, ra, err, hclass, rfl⟩)
      · next hreplay =>
        have hleg' := (hleg.send request token r).wait ra delayMs
        refine Meets.bind (Meets.remember ⟨?_, fun _ => ?_⟩ (fun _ => ?_))
        · intro request' token' hcall
          exact absurd hcall (by simp)
        · exact hleg'.bounded (by omega)
        · refine ih hleg' (by omega) ?_
          -- the class test left only a throttled attempt of a mutation
          intro hcls r' hr'
          rw [lastSent_snoc, lastSent_snoc] at hr'
          obtain rfl : r = r' := Option.some.inj hr'
          exact Or.inl (throttled_of_retry hclass (fun hreason => hreplay ⟨hreason, hcls⟩))

theorem meets_withRetries {token : Text} {k : Nat} (hleg : Leg k 0 t) (hmay : MayResend retryClass t) :
    Meets history (CallOk retryClass) (PassEnd k) t
      (withRetries wait retryClass (attemptSend request token)) :=
  meets_withRetriesFrom hleg (Nat.zero_add maxRetries) hmay

/-! ## The whole send -/

/-- What a run leaves behind. -/
def SendEnd (validHeader : Text → Bool) (t : Trace) (result : Except GraphError Bytes) : Prop :=
  Bounded t ∧ Returned validHeader t result

variable {validHeader : Text → Bool}

theorem returned_of_outcome
    {result : Except GraphError Bytes} (hlast : lastSent t = some r) (h : result = outcome r) :
    Returned validHeader t result := by
  unfold Returned
  rw [hlast]
  exact Or.inl h

/-- A pass over which no challenge is left to answer. -/
theorem sendEnd_of_passEnd {k : Nat}
    {result : Except GraphError Outcome} {told : Except GraphError Bytes}
    (hend : PassEnd k t result)
    (htold : told = match result with
      | .ok (.body bytes) => .ok bytes
      | .ok (.claimsChallenge _) => .error .unauthorized
      | .error err => .error err) : SendEnd validHeader t told := by
  obtain ⟨n, r, hn, hleg, hlast, hresult⟩ := hend
  refine ⟨hleg.bounded hn, returned_of_outcome hlast ?_⟩
  unfold outcome
  rcases hresult with hdone | ⟨reason, ra, err, hretry, rfl⟩
  · rw [hdone, htold]
    rcases result with err | ⟨bytes | challenge⟩ <;> rfl
  · rw [hretry, htold]

theorem Leg.callOk_remint {n : Nat} (hleg : Leg 0 n t) (hn : n ≤ maxRetries + 1) (challenge : Text) :
    CallOk retryClass t (.bearerWithClaims challenge) := by
  refine ⟨fun request token hcall => ?_, fun r => ?_⟩
  · exact absurd hcall (by simp)
  · exact (hleg.remint hn challenge r).bounded (Nat.zero_le _)

/-- The end of a run whose last call minted a token for the last send's challenge. -/
theorem sendEnd_remint {n : Nat} {challenge : Text}
    {answer : Except TokenError Text} {result : Except GraphError Bytes}
    (hleg : Leg 0 n t) (hn : n ≤ maxRetries + 1) (hlast : lastSent t = some r)
    (h : result = outcome r ∨ (Challenged r challenge ∧
      ((∃ e, answer = .error e ∧ (passthroughCode e.code).isSome = true ∧
          result = .error (.token e)) ∨
        ∃ token err, answer = .ok token ∧ authorization validHeader token = .error err ∧
          result = .error err))) :
    SendEnd validHeader (t ++ [⟨.bearerWithClaims challenge, answer⟩]) result := by
  refine ⟨(hleg.remint hn challenge answer).bounded (Nat.zero_le _), ?_⟩
  have hlast' : lastSent (t ++ [⟨.bearerWithClaims challenge, answer⟩]) = some r := by
    rw [lastSent_snoc]
    exact hlast
  unfold Returned
  rw [hlast']
  rcases h with h | ⟨hchallenge, ⟨e, rfl, hcode, hresult⟩ | ⟨token, err, rfl, hauth, hresult⟩⟩
  · exact Or.inl h
  · exact Or.inr ⟨challenge, hchallenge, Or.inl ⟨e, List.getLast?_concat, hcode, hresult⟩⟩
  · exact Or.inr ⟨challenge, hchallenge,
      Or.inr ⟨token, err, List.getLast?_concat, hauth, hresult⟩⟩

/-- A pass from its first send on, and the pass after its challenge. -/
theorem meets_sendLoop {token : Text} {remints k : Nat} (hk : remints + k = 1) (hleg : Leg k 0 t)
    (hmay : MayResend retryClass t) :
    Meets history (CallOk retryClass) (SendEnd validHeader) t
      (sendLoop validHeader retryClass request remints token) := by
  induction remints generalizing k t token with
  | zero =>
    rw [sendLoop]
    refine Meets.bind ((meets_withRetries hleg hmay).mono (fun t result hend => ?_))
    rcases result with err | ⟨bytes | challenge⟩
    · exact sendEnd_of_passEnd hend rfl
    · exact sendEnd_of_passEnd hend rfl
    · exact sendEnd_of_passEnd hend rfl
  | succ remints ih =>
    obtain rfl : k = 0 := by omega
    rw [sendLoop]
    refine Meets.bind ((meets_withRetries hleg hmay).mono (fun t result hend => ?_))
    rcases result with err | ⟨bytes | challenge⟩
    · exact sendEnd_of_passEnd hend rfl
    · exact sendEnd_of_passEnd hend rfl
    · obtain ⟨n, r, hn, hleg', hlast, hresult⟩ := hend
      have hdone : classify r = .done (.ok (.claimsChallenge challenge)) := by
        rcases hresult with hdone | ⟨reason, ra, err, -, habsurd⟩
        · exact hdone
        · exact absurd habsurd (by simp)
      have hchallenge := challenged_of_done hdone
      refine Meets.bind (Meets.remember (hleg'.callOk_remint hn challenge) (fun answer => ?_))
      cases answer with
      | error e =>
        by_cases hcode : (passthroughCode e.code).isSome = true
        · refine sendEnd_remint hleg' hn hlast (Or.inr ⟨hchallenge, Or.inl ?_⟩)
          exact ⟨e, rfl, hcode, by rw [if_pos hcode]⟩
        · refine sendEnd_remint hleg' hn hlast (Or.inl ?_)
          unfold outcome
          rw [hdone, if_neg hcode]
      | ok token =>
        dsimp only
        cases hauth : authorization validHeader token with
        | error err =>
          refine sendEnd_remint hleg' hn hlast (Or.inr ⟨hchallenge, Or.inr ?_⟩)
          exact ⟨token, err, rfl, hauth, rfl⟩
        | ok bearer =>
          refine ih (k := 1) (by omega) (hleg'.remint hn challenge _) ?_
          intro _ r' hr'
          rw [lastSent_snoc] at hr'
          obtain rfl : r = r' := Option.some.inj (hlast.symm.trans hr')
          exact Or.inr ⟨challenge, token, hchallenge, List.getLast?_concat⟩

/-- A mutation is sent again only after a 429, or right after a token was minted for the last send's
    claims challenge. Whatever the class, a token is so minted at most once, at most `maxRetries + 1`
    sends come before it and as many after it, and the result is the last send's outcome, or the
    failure to mint. -/
theorem no_replay_after_ambiguous_failure (validHeader : Text → Bool) (retryClass : RetryClass)
    (request : Request) :
    (∀ t c, Asks history [] (sendCoreUrlWith validHeader retryClass request) t c →
      CallOk retryClass t c) ∧
    ∀ t result, Exec history [] (sendCoreUrlWith validHeader retryClass request) t result →
      Bounded t ∧ Returned validHeader t result := by
  have hmeets : Meets history (CallOk retryClass) (SendEnd validHeader) []
      (sendCoreUrlWith validHeader retryClass request) := by
    have hstart : ∀ answer, Leg 0 0 [(⟨.bearer, answer⟩ : Exchanged Answer)] :=
      fun answer => Or.inl ⟨rfl, rfl⟩
    have hfail : ∀ answer err, SendEnd validHeader [(⟨.bearer, answer⟩ : Exchanged Answer)]
        (.error err) :=
      fun answer err => ⟨(hstart answer).bounded (Nat.zero_le _), err, rfl⟩
    refine Meets.bind (Meets.remember ⟨fun _ _ hcall => absurd hcall (by simp), fun r => ?_⟩
      (fun answer => ?_))
    · exact (hstart r).bounded (Nat.zero_le _)
    · cases answer with
      | error e => exact hfail _ _
      | ok token =>
        dsimp only
        cases authorization validHeader token with
        | error err => exact hfail _ _
        | ok bearer =>
          dsimp only
          cases checkPrefer validHeader request with
          | error err => exact hfail _ _
          | ok _ =>
            refine meets_sendLoop rfl (hstart _) (fun _ r hr => ?_)
            exact absurd hr (by simp [lastSent, responseOf])
  exact ⟨fun t c hasks => hmeets.asked hasks, fun t result hexec => hmeets.sound hexec⟩

/-! ## A challenge that cannot be answered -/

/-- A server that wants a fresher token, and a session without consent for it. -/
def consentMissing (_ : Trace) : (c : Call) → Option (Answer c)
  | .bearer => some (.ok "token".toList)
  | .bearerWithClaims _ => some (.error ⟨"consent_required".toList, []⟩)
  | .send _ _ => some (.ok
      { status := 401, retryAfter := none,
        wwwAuthenticate := some "Bearer error=\"insufficient_claims\", claims=\"e30\"".toList,
        body := .ok [], errorBody := [] })
  | .wait _ _ => some ()

def addPassword : Request :=
  { method := .post, url := "/applications/1/addPassword".toList, query := [],
    consistencyEventual := false, body := none, preferHeader := none }

/-- The result is the outcome of the last send, if there was one. -/
def toldLastOutcome (ended : Except GraphError Bytes × Trace) : Bool :=
  (lastSent ended.2).all (fun r => decide (ended.1 = outcome r))

theorem consent_error_is_not_last_outcome :
    ¬ ∀ (validHeader : Text → Bool) (retryClass : RetryClass) (request : Request) (t : Trace)
      (result : Except GraphError Bytes),
      Exec history [] (sendCoreUrlWith validHeader retryClass request) t result →
      ∀ r, lastSent t = some r → result = outcome r := by
  intro hclaim
  have hrun : (run (remembering consentMissing)
      (sendCoreUrlWith (fun _ => true) .nonIdempotent addPassword) []).map toldLastOutcome =
      some false := by decide +kernel
  obtain ⟨result, t, hexec, htold⟩ := exists_exec_of_run (history_of_remembering _) hrun
  have hall : toldLastOutcome (result, t) = true := by
    unfold toldLastOutcome
    cases hlast : lastSent t with
    | none => rfl
    | some r => exact decide_eq_true (hclaim _ _ _ t result hexec r hlast)
  exact absurd (htold.symm.trans hall) (by decide)

end Graph
