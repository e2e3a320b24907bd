import AzAppToolkit.Auth.Loopback

set_option autoImplicit false

/-! # Who decides the wait

A connection ends the wait only with a request line that is a `GET` under the pending state, and the outcome
is a function of that line. Of a head that fits the buffer the line is a function of what the peer sends:
whatever was read holds the first line feed, or is everything. -/

namespace Loopback

/-! ## Request lines -/

/-- The last parameter of a name. -/
def lastParam (name : Text) (line : Text) : Option Text :=
  ((paramsOf line).filter (fun pair => pair.1 = name)).getLast?.map Prod.snd

/-- A `GET` whose last `state` is the pending one. -/
def IsRedirect (expectedState : Text) (line : Text) : Prop :=
  methodOf line = "GET".toList ∧ lastParam "state".toList line = some expectedState

/-- The outcome of a request line. -/
def redirectOutcome (line : Text) : Outcome := outcomeOf (readParams line)

/-- Only the `state` parameter is noted as the state. -/
theorem noteParam_state {p : Params} {pair : Text × Text} (h : ¬ pair.1 = "state".toList) :
    (noteParam p pair).state = p.state := by
  unfold noteParam
  rw [if_neg h]
  simp only [apply_ite Params.state, ite_self]

theorem foldl_noteParam_state (pairs : List (Text × Text)) (p : Params) :
    (pairs.foldl noteParam p).state =
      ((pairs.filter (fun pair => pair.1 = "state".toList)).getLast?.map Prod.snd).or p.state := by
  induction pairs using List.reverseRecOn with
  | nil => rfl
  | append_singleton pairs pair ih =>
    rw [List.foldl_append, List.filter_append]
    simp only [List.foldl_cons, List.foldl_nil]
    by_cases hstate : pair.1 = "state".toList
    · have hcode : ¬ pair.1 = "code".toList := by
        rw [hstate]
        decide
      have hlast : [pair].filter (fun pair => pair.1 = "state".toList) = [pair] :=
        List.filter_cons_of_pos (by simpa only [decide_eq_true_eq] using hstate)
      rw [hlast, List.getLast?_concat, noteParam, if_neg hcode, if_pos hstate]
      rfl
    · have hsame := @noteParam_state (pairs.foldl noteParam p) pair hstate
      have hnone : [pair].filter (fun pair => pair.1 = "state".toList) = [] :=
        List.filter_cons_of_neg (by simpa only [decide_eq_true_eq] using hstate)
      rw [hsame, ih, hnone, List.append_nil]

theorem state_readParams (line : Text) : (readParams line).state = lastParam "state".toList line := by
  unfold readParams lastParam
  rw [foldl_noteParam_state]
  exact Option.or_none

/-- A request ends the wait exactly if its line is the redirect, and with the outcome of that line. -/
theorem handleRequest_eq_some {expectedState request : Text} {outcome : Outcome} :
    handleRequest expectedState request = some outcome ↔
      IsRedirect expectedState (firstLine request) ∧ outcome = redirectOutcome (firstLine request) := by
  unfold handleRequest IsRedirect
  dsimp only
  rw [← state_readParams]
  constructor
  · intro h
    split at h
    · exact absurd h (by simp)
    · next hget =>
      split at h
      · exact absurd h (by simp)
      · next hstate =>
        simp only [Bool.or_eq_true, bne_iff_ne, ne_eq, not_or, not_not] at hget
        exact ⟨⟨hget.1, by simpa using hstate⟩, (Option.some.inj h).symm⟩
  · rintro ⟨⟨hget, hstate⟩, rfl⟩
    rw [if_neg (by simp [hget, hstate]), if_neg (by simp [hstate])]
    rfl

/-! ## What an error says -/

/-- A message made of an error value that is well formed or ours, and an AADSTS code of digits. -/
def Redacted (message : Text) : Prop :=
  message = "no code returned".toList ∨ ∃ value tail, message = value ++ tail ∧
    (value = "unrecognized_error".toList ∨ (1 ≤ value.length ∧ value.length ≤ 64 ∧
      ∀ c ∈ value, ('a' ≤ c ∧ c ≤ 'z') ∨ c = '_')) ∧
    (tail = [] ∨ ∃ digits, digits ≠ [] ∧ (∀ c ∈ digits, c.isDigit = true) ∧
      tail = " (AADSTS".toList ++ digits ++ ")".toList)

theorem asciiByte_of_encode {c : Char} (h : ∀ b ∈ String.utf8EncodeChar c, b.toNat < 0x80) :
    c.toNat < 0x80 ∧ String.utf8EncodeChar c = [UInt8.ofNat c.toNat] := by
  unfold String.utf8EncodeChar at h ⊢
  dsimp only at h ⊢
  split
  · next hle => exact ⟨Nat.lt_succ_of_le hle, rfl⟩
  · next hgt =>
    -- the first byte of any longer encoding is 0xC0 or more
    exfalso
    rw [if_neg hgt] at h
    split at h
    · have hfirst := h _ List.mem_cons_self
      rw [UInt8.toNat_ofNat'] at hfirst
      omega
    · split at h
      · have hfirst := h _ List.mem_cons_self
        rw [UInt8.toNat_ofNat'] at hfirst
        omega
      · have hfirst := h _ List.mem_cons_self
        rw [UInt8.toNat_ofNat'] at hfirst
        omega

theorem length_encode_le (s : Text) : s.length ≤ (Bytes.encode s).length := by
  induction s with
  | nil => exact Nat.le_refl _
  | cons c s ih =>
    have hpos : 0 < (String.utf8EncodeChar c).length := List.length_pos_iff.2 String.utf8EncodeChar_ne_nil
    show s.length + 1 ≤ (String.utf8EncodeChar c ++ Bytes.encode s).length
    rw [List.length_append]
    omega

theorem wellFormed_spec {error : Text} (h : wellFormed error = true) :
    1 ≤ error.length ∧ error.length ≤ 64 ∧ ∀ c ∈ error, ('a' ≤ c ∧ c ≤ 'z') ∨ c = '_' := by
  unfold wellFormed at h
  simp only [Bool.and_eq_true, decide_eq_true_eq, List.all_eq_true, Bool.or_eq_true, beq_iff_eq] at h
  obtain ⟨⟨hpos, hle⟩, hbytes⟩ := h
  refine ⟨?_, (length_encode_le error).trans hle, ?_⟩
  · cases error with
    | nil => exact absurd hpos (by simp [Bytes.encode])
    | cons c s => simp
  · intro c hc
    have hthese : ∀ b ∈ String.utf8EncodeChar c, 97 ≤ b.toNat ∧ b.toNat ≤ 122 ∨ b.toNat = 95 :=
      fun b hb => hbytes b (List.mem_flatMap.2 ⟨c, hc, hb⟩)
    obtain ⟨hascii, hencode⟩ := asciiByte_of_encode (c := c) (fun b hb => by
      have hrange := hthese b hb
      omega)
    have hthis := hthese (UInt8.ofNat c.toNat) (by rw [hencode]; exact List.mem_cons_self)
    rw [UInt8.toNat_ofNat', Nat.mod_eq_of_lt (by omega)] at hthis
    rcases hthis with ⟨hlo, hhi⟩ | heq
    · exact .inl ⟨hlo, hhi⟩
    · exact .inr (Char.toNat_inj.1 heq)

theorem redactAadError_eq (error : Text) (description : Option Text) :
    ∃ tail, redactAadError error description = error ++ tail ∧
      (tail = [] ∨ ∃ digits, digits ≠ [] ∧ (∀ c ∈ digits, c.isDigit = true) ∧
        tail = " (AADSTS".toList ++ digits ++ ")".toList) := by
  unfold redactAadError
  split
  · next code hcode =>
    obtain ⟨d, -, hextract⟩ := Option.bind_eq_some_iff.1 hcode
    obtain ⟨parts, -, hdigits⟩ := Option.bind_eq_some_iff.1 hextract
    dsimp only at hdigits
    split at hdigits
    · exact absurd hdigits (by simp)
    · next hsome =>
      obtain rfl := Option.some.inj hdigits
      refine ⟨" (AADSTS".toList ++ parts.2.takeWhile Char.isDigit ++ ")".toList, ?_, .inr ⟨_, ?_, ?_, rfl⟩⟩
      · have hlit : " (AADSTS".toList = " (".toList ++ "AADSTS".toList := by decide
        rw [hlit]
        simp only [List.append_assoc]
      · simpa using hsome
      · exact fun c hc => List.mem_takeWhile_imp hc
  · exact ⟨[], (List.append_nil _).symm, .inl rfl⟩

/-- An authorization error carries nothing of the request but what `Redacted` names. -/
theorem redacted_of_outcome {line message : Text} (h : redirectOutcome line = .error (.authorization message)) :
    Redacted message := by
  unfold redirectOutcome outcomeOf at h
  split at h
  · next err _ =>
    unfold redirectError at h
    split at h
    · exact absurd h (by simp)
    · obtain rfl := AuthError.authorization.inj (Except.error.inj h)
      obtain ⟨tail, htail, hcode⟩ := redactAadError_eq
        (if wellFormed err then err else "unrecognized_error".toList) (readParams line).errorDescription
      refine .inr ⟨_, tail, htail, ?_, hcode⟩
      split
      · next hwell => exact .inr (wellFormed_spec hwell)
      · exact .inl rfl
  · exact absurd h (by simp)
  · exact .inl (AuthError.authorization.inj (Except.error.inj h)).symm

/-! ## Heads -/

/-- The request line of what was read. -/
def requestLine (buf : List UInt8) : Text := firstLine (Bytes.decodeLossy buf)

/-- The head ends within the buffer, or the peer closes before the buffer is full. -/
def HeadFits (sent : List UInt8) : Prop :=
  (∃ head rest, sent = head ++ [13, 10, 13, 10] ++ rest ∧ head.length + 4 ≤ maxHead) ∨ sent.length ≤ maxHead

theorem firstLine_append (a b b' : Text) : firstLine (a ++ '\n' :: b) = firstLine (a ++ '\n' :: b') := by
  have htake : ∀ b : Text, (a ++ '\n' :: b).takeWhile (· != '\n') = a.takeWhile (· != '\n') := by
    intro b
    induction a with
    | nil => rfl
    | cons c a ih =>
      rw [List.cons_append, List.takeWhile_cons, List.takeWhile_cons, ih]
  have hany : ∀ b : Text, (a ++ '\n' :: b).any (· == '\n') = true := by simp
  unfold firstLine
  rw [hany, hany, htake, htake]

/-- Two streams that are the same up to a line feed have the same request line. -/
theorem requestLine_append (pre post post' : List UInt8) :
    requestLine (pre ++ 10 :: post) = requestLine (pre ++ 10 :: post') := by
  unfold requestLine
  rw [Bytes.decodeLossy_append (by decide), Bytes.decodeLossy_append (by decide)]
  exact firstLine_append _ _ _

theorem hasHeadEnd_iff {buf : List UInt8} :
    hasHeadEnd buf = true ↔ ∃ head rest, buf = head ++ [13, 10, 13, 10] ++ rest := by
  unfold hasHeadEnd
  rw [List.any_eq_true]
  constructor
  · rintro ⟨t, ht, hpre⟩
    obtain ⟨head, rfl⟩ := (List.mem_tails _ _).1 ht
    obtain ⟨rest, rfl⟩ := List.isPrefixOf_iff_prefix.1 hpre
    exact ⟨head, rest, (List.append_assoc _ _ _).symm⟩
  · rintro ⟨head, rest, rfl⟩
    refine ⟨[13, 10, 13, 10] ++ rest, (List.mem_tails _ _).2 ⟨head, ?_⟩, ?_⟩
    · exact (List.append_assoc _ _ _).symm
    exact List.isPrefixOf_iff_prefix.2 ⟨rest, rfl⟩

/-- What a task has read when it stops reading. -/
structure ReadOf (sent buf : List UInt8) : Prop where
  arrived : buf <+: sent
  stopped : headRead buf = true ∨ buf = sent

/-- Of a head that fits, the line read is the line sent. -/
theorem requestLine_of_readOf {sent buf : List UInt8} (hread : ReadOf sent buf) (hfits : HeadFits sent) :
    requestLine buf = requestLine sent := by
  obtain ⟨more, rfl⟩ := hread.arrived
  by_cases hall : more = []
  · rw [hall, List.append_nil]
  have hmore : 0 < more.length := List.length_pos_iff.2 hall
  have hstopped : headRead buf = true := by
    rcases hread.stopped with h | h
    · exact h
    · have hlen := congrArg List.length h
      rw [List.length_append] at hlen
      omega
  -- the head's end is in what was read
  have hend : ∃ head rest, buf = head ++ [13, 10, 13, 10] ++ rest := by
    rcases Bool.or_eq_true_iff.1 hstopped with hfound | hlong
    · exact hasHeadEnd_iff.1 hfound
    · have hlong' : maxHead < buf.length := by simpa using hlong
      rcases hfits with ⟨head, rest, hsent, hle⟩ | hle
      · have hpre : head ++ [13, 10, 13, 10] <+: buf := by
          refine List.prefix_of_prefix_length_le ⟨rest, hsent.symm⟩ ⟨more, rfl⟩ ?_
          rw [List.length_append]
          simp only [List.length_cons, List.length_nil]
          omega
        obtain ⟨rest', hbuf⟩ := hpre
        exact ⟨head, rest', hbuf.symm⟩
      · rw [List.length_append] at hle
        omega
  obtain ⟨head, rest, rfl⟩ := hend
  have hsplit : ∀ tail : List UInt8, head ++ [13, 10, 13, 10] ++ tail =
      (head ++ [13]) ++ 10 :: (13 :: 10 :: tail) := by
    intro tail
    rw [List.append_assoc, List.append_assoc]
    rfl
  rw [List.append_assoc (head ++ _) rest more, hsplit, hsplit]
  exact requestLine_append _ _ _

/-! ## Runs -/

/-- The outcome is that of the line a task has read, and the line is the redirect. -/
def Decided (expectedState : Text) (sent : List UInt8) (outcome : Outcome) : Prop :=
  ∃ buf, ReadOf sent buf ∧ IsRedirect expectedState (requestLine buf) ∧
    outcome = redirectOutcome (requestLine buf)

/-- A task reads what its peer sends, and ends with an outcome only by the redirect. -/
def TaskOk (expectedState : Text) (sent : List UInt8) : Task → Prop
  | .reading buf => buf <+: sent
  | .ended none => True
  | .ended (some outcome) => Decided expectedState sent outcome

structure ListenerOk (expectedState : Text) (sent : Nat → List UInt8) (s : Listener) : Prop where
  slots : s.inflight.length ≤ maxInflightConnections
  tasks : ∀ conn ∈ s.inflight, TaskOk expectedState (sent conn.id) conn.task
  returned : ∀ id outcome, s.returned = some (id, outcome) → Decided expectedState (sent id) outcome

section Runs

variable {expectedState : Text} {sent : Nat → List UInt8}

theorem taskOk_afterHead {stream buf : List UInt8} (hread : ReadOf stream buf) :
    TaskOk expectedState stream (afterHead expectedState buf) := by
  unfold afterHead
  split
  · trivial
  · cases hhandled : handleRequest expectedState (Bytes.decodeLossy buf) with
    | none => trivial
    | some outcome =>
      obtain ⟨hredirect, houtcome⟩ := handleRequest_eq_some.1 hhandled
      exact ⟨buf, hread, hredirect, houtcome⟩

theorem taskOk_afterChunk {stream buf : List UInt8} (harrived : buf <+: stream) :
    TaskOk expectedState stream (afterChunk expectedState buf) := by
  unfold afterChunk
  split
  · next hstopped => exact taskOk_afterHead ⟨harrived, .inl hstopped⟩
  · exact harrived

/-- One connection's task moves on. -/
theorem ListenerOk.advance {s : Listener} (h : ListenerOk expectedState sent s) {pre post : List Connection}
    {id : Nat} {task task' : Task} (hconn : s.inflight = pre ++ ⟨id, task⟩ :: post)
    (htask : TaskOk expectedState (sent id) task') :
    ListenerOk expectedState sent { s with inflight := pre ++ ⟨id, task'⟩ :: post } := by
  refine ⟨?_, ?_, h.returned⟩
  · have hslots := h.slots
    rw [hconn, List.length_append, List.length_cons] at hslots
    rw [List.length_append, List.length_cons]
    exact hslots
  · intro conn hmem
    rcases List.mem_append.1 hmem with hmem | hmem
    · exact h.tasks conn (by rw [hconn]; exact List.mem_append_left _ hmem)
    · rcases List.mem_cons.1 hmem with rfl | hmem
      · exact htask
      · exact h.tasks conn (by
          rw [hconn]
          exact List.mem_append_right _ (List.mem_cons_of_mem _ hmem))

theorem ListenerOk.step {s s' : Listener} {e : Event} (h : ListenerOk expectedState sent s)
    (hstep : Step expectedState sent s e s') : ListenerOk expectedState sent s' := by
  cases hstep with
  | accept hwaiting hslot =>
    refine ⟨?_, ?_, h.returned⟩
    · rw [List.length_append]
      exact hslot
    · intro conn hmem
      rcases List.mem_append.1 hmem with hmem | hmem
      · exact h.tasks conn hmem
      · rw [List.mem_singleton.1 hmem]
        exact List.nil_prefix
  | deliver hwaiting hconn hchunk hsize hsent => exact h.advance hconn (taskOk_afterChunk hsent)
  | endOfStream hwaiting hconn hsent =>
    exact h.advance hconn (taskOk_afterHead ⟨hsent ▸ List.prefix_refl _, .inr hsent⟩)
  | stall hwaiting hconn => exact h.advance hconn trivial
  | @join pre post id outcome hwaiting hconn =>
    refine ⟨?_, ?_, ?_⟩
    · have hslots := h.slots
      rw [hconn, List.length_append, List.length_cons] at hslots
      rw [List.length_append]
      omega
    · intro conn hmem
      refine h.tasks conn ?_
      rw [hconn]
      rcases List.mem_append.1 hmem with hmem | hmem
      · exact List.mem_append_left _ hmem
      · exact List.mem_append_right _ (List.mem_cons_of_mem _ hmem)
    · intro id' outcome' hreturned
      obtain ⟨o, ho, heq⟩ := Option.map_eq_some_iff.1 hreturned
      obtain ⟨rfl, rfl⟩ := Prod.mk.inj heq
      have htask := h.tasks ⟨id, .ended outcome⟩ (by
        rw [hconn]
        exact List.mem_append_right _ List.mem_cons_self)
      rw [ho] at htask
      exact htask

theorem listenerOk_of_run {events : List Event} {s : Listener}
    (hrun : Run (Step expectedState sent) Listener.start events s) : ListenerOk expectedState sent s := by
  refine hrun.invariant (fun _ s => ListenerOk expectedState sent s) ?_ (fun _ _ _ _ _ h hstep => h.step hstep)
  exact ⟨Nat.zero_le _, fun _ hmem => absurd hmem (by simp [Listener.start]),
    fun _ _ hreturned => absurd hreturned (by simp [Listener.start])⟩

end Runs

/-- The wait is decided by the redirect alone. Never more than sixteen connections are in flight; what is
    returned is the outcome of the request line that was read of the connection, which is a `GET` under the
    pending state, and says no more of the request than `Redacted`; if the head fits, the line is the one its
    peer sent, and any other wait that returns on the same bytes, however they are cut and whatever else is
    connected, returns the same. -/
theorem wait_decided_by_redirect {expectedState : Text} {sent : Nat → List UInt8} {events : List Event}
    {s : Listener} (hrun : Run (Step expectedState sent) Listener.start events s) :
    s.inflight.length ≤ maxInflightConnections ∧
    ∀ id outcome, s.returned = some (id, outcome) →
      (∃ buf, ReadOf (sent id) buf ∧ IsRedirect expectedState (requestLine buf) ∧
        outcome = redirectOutcome (requestLine buf) ∧
        (HeadFits (sent id) → requestLine buf = requestLine (sent id))) ∧
      (∀ message, outcome = .error (.authorization message) → Redacted message) ∧
      (∀ sent' events' s' id' outcome', Run (Step expectedState sent') Listener.start events' s' →
        s'.returned = some (id', outcome') → sent' id' = sent id → HeadFits (sent id) → outcome' = outcome) := by
  have hok := listenerOk_of_run hrun
  refine ⟨hok.slots, fun id outcome hreturned => ?_⟩
  obtain ⟨buf, hread, hredirect, rfl⟩ := hok.returned id outcome hreturned
  refine ⟨⟨buf, hread, hredirect, rfl, requestLine_of_readOf hread⟩,
    fun message hmessage => redacted_of_outcome hmessage, ?_⟩
  intro sent' events' s' id' outcome' hrun' hreturned' hsame hfits
  obtain ⟨buf', hread', -, rfl⟩ := (listenerOk_of_run hrun').returned id' outcome' hreturned'
  rw [hsame] at hread'
  rw [requestLine_of_readOf hread' hfits, requestLine_of_readOf hread hfits]

/-- A redirect as a browser sends it. -/
def someRedirect : List UInt8 := Bytes.encode "GET /?code=c&state=s HTTP/1.1\r\n\r\n".toList

/-- The redirect arrives in two chunks behind a connection that stalls, and its code is returned. -/
theorem redirect_behind_a_stall_returns_its_code : ∃ events s,
    Run (Step ['s'] (fun id => if id = 0 then [] else someRedirect)) Listener.start events s ∧
      s.returned = some (1, .ok ['c']) ∧ s.inflight.length ≤ maxInflightConnections ∧
      ∃ buf, ReadOf someRedirect buf ∧ IsRedirect ['s'] (requestLine buf) ∧
        (Except.ok ['c'] : Outcome) = redirectOutcome (requestLine buf) := by
  have hfirst : afterChunk ['s'] (someRedirect.take 8) = .reading (someRedirect.take 8) := by
    decide
  have hsecond : afterChunk ['s'] (someRedirect.take 8 ++ someRedirect.drop 8)
      = .ended (some (.ok ['c'])) := by decide
  have hrun : Run (Step ['s'] (fun id => if id = 0 then [] else someRedirect)) Listener.start
      [.accept, .accept, .deliver 1 (someRedirect.take 8), .deliver 1 (someRedirect.drop 8), .join 1]
      ⟨2, [⟨0, .reading []⟩], some (1, .ok ['c'])⟩ := by
    have h₁ := Run.single (@Step.accept ['s']
      (fun id => if id = 0 then [] else someRedirect) Listener.start rfl (by decide))
    have h₂ := h₁.snoc (.accept rfl (by decide))
    have h₃ := h₂.snoc (@Step.deliver _ _ _ [⟨0, .reading []⟩] [] 1 []
      (someRedirect.take 8) rfl rfl (by decide) (by decide) (List.take_prefix _ _))
    have hread₃ : afterChunk ['s'] ([] ++ someRedirect.take 8) = .reading (someRedirect.take 8) := hfirst
    rw [hread₃] at h₃
    have h₄ := h₃.snoc (@Step.deliver _ _ _ [⟨0, .reading []⟩] [] 1
      (someRedirect.take 8) (someRedirect.drop 8) rfl rfl (by decide)
      (by decide) (by rw [List.take_append_drop]; exact List.prefix_refl _))
    rw [hsecond] at h₄
    exact h₄.snoc (@Step.join _ _ _ [⟨0, .reading []⟩] [] 1 (some (.ok ['c'])) rfl rfl)
  obtain ⟨hslots, hreturned⟩ := wait_decided_by_redirect hrun
  obtain ⟨⟨buf, hread, hredirect, houtcome, -⟩, -⟩ := hreturned 1 (.ok ['c']) rfl
  exact ⟨_, _, hrun, rfl, hslots, buf, hread, hredirect, houtcome⟩

end Loopback
