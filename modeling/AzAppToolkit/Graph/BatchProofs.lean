import AzAppToolkit.Graph.Batch

set_option autoImplicit false

/-! # One result for each input

The batch runs in the `history` world, so the endpoint answers as it likes: sub-responses in any
order, twice, not at all, under unknown ids, with any status. What is proved reads a chunk's answers
off the trace: the result of an input comes from a sub-response to its own index in its own chunk. -/

namespace Graph

open Prog

/-! ## Chunks -/

section Chunks

variable {α β : Type}

theorem getElem?_chunks {size c : Nat} {l chunk : List α} (h : (chunks size l)[c]? = some chunk) :
    chunk = (l.drop (c * size)).take size := by
  unfold chunks at h
  rw [List.getElem?_map] at h
  obtain ⟨c', hc', rfl⟩ := Option.map_eq_some_iff.1 h
  rw [(List.getElem?_eq_some_iff.1 hc').2.symm, List.getElem_range]

theorem chunks_eq_cons {size : Nat} {l : List α} (hsize : 0 < size) (hl : l ≠ []) :
    chunks size l = l.take size :: chunks size (l.drop size) := by
  have hlen : 0 < l.length := List.length_pos_iff.2 hl
  have hcount : (l.length + size - 1) / size = ((l.drop size).length + size - 1) / size + 1 := by
    rw [List.length_drop]
    by_cases hle : size ≤ l.length
    · rw [← Nat.add_div_right _ hsize]
      congr 1
      omega
    · rw [Nat.div_eq_of_lt (a := l.length - size + size - 1) (by omega)]
      exact Nat.div_eq_of_lt_le (by omega) (by omega)
  unfold chunks
  rw [hcount, List.range_succ_eq_map, List.map_cons, List.map_map, Nat.zero_mul, List.drop_zero]
  congr 1
  refine List.map_congr_left (fun c _ => ?_)
  rw [Function.comp_apply, List.drop_drop, Nat.succ_mul, Nat.add_comm]

theorem chunks_nil {size : Nat} (hsize : 0 < size) : chunks size ([] : List α) = [] := by
  unfold chunks
  rw [List.length_nil, Nat.zero_add, Nat.div_eq_of_lt (by omega)]
  rfl

/-- The chunks in order are the list. -/
theorem flatten_chunks {size : Nat} (hsize : 0 < size) (l : List α) : (chunks size l).flatten = l := by
  induction hn : l.length using Nat.strong_induction_on generalizing l with
  | _ n ih =>
    by_cases hl : l = []
    · rw [hl, chunks_nil hsize]
      rfl
    · have hlen : 0 < l.length := List.length_pos_iff.2 hl
      rw [chunks_eq_cons hsize hl, List.flatten_cons,
        ih (l.drop size).length (by rw [List.length_drop]; omega) (l.drop size) rfl,
        List.take_append_drop]

/-- Results kept chunk by chunk, each as long as its chunk, are found where their items are. -/
theorem getElem?_flatten_chunks {size : Nat} (hsize : 0 < size) {l : List α} {done : List (List β)}
    (hlen : done.length = (chunks size l).length)
    (h : ∀ (c : Nat) (chunk : List α) (results : List β), (chunks size l)[c]? = some chunk →
      done[c]? = some results → results.length = chunk.length) :
    done.flatten.length = l.length ∧ ∀ k < l.length,
      done.flatten[k]? = (done[k / size]?).bind (fun results => results[k % size]?) := by
  induction hn : l.length using Nat.strong_induction_on generalizing l done with
  | _ n ih =>
    subst hn
    by_cases hl : l = []
    · subst hl
      rw [chunks_nil hsize] at hlen
      rw [List.length_eq_zero_iff.1 hlen]
      exact ⟨rfl, fun k hk => absurd hk (Nat.not_lt_zero k)⟩
    · have hpos : 0 < l.length := List.length_pos_iff.2 hl
      rw [chunks_eq_cons hsize hl] at hlen h
      obtain ⟨first, rest, rfl⟩ : ∃ first rest, done = first :: rest :=
        List.exists_cons_of_length_eq_add_one hlen
      have hfirst : first.length = min size l.length := by
        rw [h 0 _ first rfl rfl, List.length_take]
      have hlen' : rest.length = (chunks size (l.drop size)).length := by simpa using hlen
      obtain ⟨hrest, hidx⟩ := ih (l.drop size).length (by rw [List.length_drop]; omega) hlen'
        (fun c chunk results hc hr => h (c + 1) chunk results hc hr) rfl
      rw [List.length_drop] at hrest hidx
      rw [List.flatten_cons]
      refine ⟨by rw [List.length_append, hfirst, hrest]; omega, fun k hk => ?_⟩
      by_cases hks : k < size
      · rw [List.getElem?_append_left (by omega), Nat.div_eq_of_lt hks, Nat.mod_eq_of_lt hks]
        rfl
      · rw [List.getElem?_append_right (by omega), Nat.div_eq_sub_div hsize (by omega),
          Nat.mod_eq_sub_mod (by omega), List.getElem?_cons_succ,
          show k - first.length = k - size by omega]
        exact hidx (k - size) (by omega)

end Chunks

namespace Batch

variable {Json T : Type}

/-! ## Reading a trace -/

abbrev Trace (Json : Type) := List (Exchanged (Answer Json))

def answerTo (chunk : Nat) :
    Exchanged (Answer Json) → Option (Except GraphError (List (BatchSubResponse Json)))
  | ⟨.post c _, r⟩ => if c = chunk then some r else none
  | ⟨.wait _ _, _⟩ => none

/-- The answers to a chunk's POSTs, in order. -/
def answersTo (chunk : Nat) (t : Trace Json) :
    List (Except GraphError (List (BatchSubResponse Json))) :=
  t.filterMap (answerTo chunk)

def subResponses (answers : List (Except GraphError (List (BatchSubResponse Json)))) :
    List (BatchSubResponse Json) :=
  answers.flatMap (fun answer => answer.toOption.getD [])

/-- The index a sub-response answers. -/
def BatchSubResponse.index (sub : BatchSubResponse Json) : Option Nat :=
  Text.parseUnsigned 64 sub.id

theorem answersTo_snoc (chunk : Nat) (t : Trace Json) (e : Exchanged (Answer Json)) :
    answersTo chunk (t ++ [e]) = answersTo chunk t ++ (answerTo chunk e).toList := by
  unfold answersTo
  rw [List.filterMap_append]
  cases h : answerTo chunk e <;> simp [h]

/-! ## A round -/

section Results

variable (decode : Json → Except Text T) (render : Json → Text)

/-- What stands for index `i` after the sub-responses `subs`: the result of one of them, or nothing
    while each that came was to be sent again. -/
def Slot (subs : List (BatchSubResponse Json)) (i : Nat) :
    Option (Except GraphError T) → Prop
  | some result => ∃ sub ∈ subs, sub.index = some i ∧ result = mapBatchResponse decode render sub
  | none => ∀ sub ∈ subs, sub.index = some i → retriedSubStatus sub.status = true

def Filled (subs : List (BatchSubResponse Json)) (results : List (Option (Except GraphError T))) :
    Prop :=
  ∀ i slot, results[i]? = some slot → Slot decode render subs i slot

/-- What holds of a round: its slots are filled by what came, and what is put aside is the chunk's. -/
structure RoundOk (n : Nat) (mayRetry : Bool) (subs : List (BatchSubResponse Json))
    (round : Round T) : Prop where
  length : round.results.length = n
  filled : Filled decode render subs round.results
  retry : ∀ i ∈ round.retry, i < n
  noRetry : mayRetry = false → round.retry = []

variable {decode render}

variable {subs : List (BatchSubResponse Json)}

/-- A sub-response that says nothing of `i`, or that `i` need not hear. -/
theorem Slot.snoc {i : Nat} {slot : Option (Except GraphError T)} (h : Slot decode render subs i slot)
    {sub : BatchSubResponse Json}
    (hsub : slot = none → sub.index = some i → retriedSubStatus sub.status = true) :
    Slot decode render (subs ++ [sub]) i slot := by
  cases slot with
  | some result =>
    obtain ⟨found, hmem, hidx, hres⟩ := h
    exact ⟨found, List.mem_append_left _ hmem, hidx, hres⟩
  | none =>
    intro found hmem hidx
    rcases List.mem_append.1 hmem with hmem | hmem
    · exact h found hmem hidx
    · rw [List.mem_singleton.1 hmem] at hidx ⊢
      exact hsub rfl hidx

theorem RoundOk.take {n : Nat} {mayRetry : Bool}
    {round : Round T} (h : RoundOk decode render n mayRetry subs round) (sub : BatchSubResponse Json) :
    RoundOk decode render n mayRetry (subs ++ [sub]) (round.take decode render mayRetry sub) := by
  -- where the sub-response is passed over, no open slot hears of it
  have hpass : (∀ i, round.results[i]? = some none → sub.index ≠ some i) →
      RoundOk decode render n mayRetry (subs ++ [sub]) round := by
    intro hopen
    refine ⟨h.length, fun i slot hslot => (h.filled i slot hslot).snoc ?_, h.retry, h.noRetry⟩
    rintro rfl hidx
    exact absurd hidx (hopen i hslot)
  unfold Round.take
  split
  · next hparse =>
    refine hpass (fun i _ hidx => ?_)
    exact absurd (hparse.symm.trans hidx) (by simp)
  · next idx hparse =>
    have hindex : ∀ i, sub.index = some i → i = idx :=
      fun i hidx => Option.some.inj (hidx.symm.trans hparse)
    split
    · next hout =>
      refine hpass (fun i hslot hidx => ?_)
      rw [hindex i hidx, hout] at hslot
      exact absurd hslot (by simp)
    · next result hdone =>
      refine hpass (fun i hslot hidx => ?_)
      rw [hindex i hidx, hdone] at hslot
      exact absurd hslot (by simp)
    · next hopen =>
      have hlt : idx < n := by
        rw [← h.length]
        exact (List.getElem?_eq_some_iff.1 hopen).1
      split
      · next hretry =>
        obtain ⟨hstatus, hmay⟩ := Bool.and_eq_true_iff.1 hretry
        refine ⟨h.length, fun i slot hslot => ?_, fun i hi => ?_, fun hnot => ?_⟩
        · exact (h.filled i slot hslot).snoc (fun _ _ => hstatus)
        · rcases List.mem_append.1 hi with hi | hi
          · exact h.retry i hi
          · rw [List.mem_singleton.1 hi]
            exact hlt
        · exact absurd (hmay.symm.trans hnot) (by simp)
      · refine ⟨by rw [List.length_set, h.length], fun i slot hslot => ?_, h.retry, h.noRetry⟩
        rw [List.getElem?_set] at hslot
        split at hslot
        · next heq =>
          rw [if_pos (by rw [h.length]; exact hlt)] at hslot
          obtain rfl := Option.some.inj hslot
          exact ⟨sub, List.mem_append_right _ List.mem_cons_self, heq ▸ hparse, rfl⟩
        · next hne =>
          refine (h.filled i slot hslot).snoc (fun _ hidx => ?_)
          exact absurd (hindex i hidx).symm hne

theorem RoundOk.foldl {n : Nat} {mayRetry : Bool}
    {round : Round T} (h : RoundOk decode render n mayRetry subs round)
    (responses : List (BatchSubResponse Json)) :
    RoundOk decode render n mayRetry (subs ++ responses)
      (responses.foldl (Round.take decode render mayRetry) round) := by
  induction responses generalizing subs round with
  | nil => rwa [List.append_nil]
  | cons sub responses ih =>
    rw [List.foldl_cons, List.append_cons]
    exact ih (h.take sub)

/-! ## A chunk -/

/-- A POST comes within its chunk's budget, and asks for the chunk's URLs under their indices. -/
def CallOk (urls : List Text) (t : Trace Json) (call : Call) : Prop :=
  ∀ chunk requests, call = .post chunk requests →
    (answersTo chunk t).length ≤ maxRetries ∧ ∀ request ∈ requests, ∃ i url, i < batchMax ∧
      urls[chunk * batchMax + i]? = some url ∧ request = ⟨(toString i).toList, url⟩

/-- The URLs of one chunk. -/
def chunkOf (urls : List Text) (chunk : Nat) : List Text :=
  (urls.drop (chunk * batchMax)).take batchMax

variable {urls : List Text} {t : Trace Json}

theorem callOk_post {chunk : Nat} {pending : List Nat} (hbudget : (answersTo chunk t).length ≤ maxRetries)
    (hpending : ∀ i ∈ pending, i < (chunkOf urls chunk).length) :
    CallOk urls t (.post chunk (requestsFor (chunkOf urls chunk) pending)) := by
  rintro chunk' requests hcall
  obtain ⟨rfl, rfl⟩ := Call.post.inj hcall
  refine ⟨hbudget, fun request hrequest => ?_⟩
  obtain ⟨i, hi, rfl⟩ := List.mem_map.1 hrequest
  have hlt := hpending i hi
  have hsize : i < batchMax := lt_of_lt_of_le hlt (List.length_take_le _ _)
  refine ⟨i, (chunkOf urls chunk).getD i [], hsize, ?_, rfl⟩
  have hget : (chunkOf urls chunk)[i]? = urls[chunk * batchMax + i]? := by
    unfold chunkOf
    rw [List.getElem?_take_of_lt hsize, List.getElem?_drop]
  rw [← hget, List.getD_eq_getElem?_getD, List.getElem?_eq_getElem hlt, Option.getD_some]

theorem callOk_wait (retryAfterSecs : Option Nat)
    (delayMs : Nat) : CallOk urls t (.wait retryAfterSecs delayMs) := by
  intro chunk requests hcall
  exact absurd hcall (by simp)

/-- Between two points of a run only this chunk was answered. -/
def Frame (chunk : Nat) (t t' : Trace Json) : Prop :=
  ∀ c, c ≠ chunk → answersTo c t' = answersTo c t

theorem Frame.post {chunk : Nat} {t t' : Trace Json} (h : Frame chunk t t')
    (requests : List SubRequest) (r : Except GraphError (List (BatchSubResponse Json))) :
    Frame chunk t (t' ++ [⟨.post chunk requests, r⟩]) := by
  intro c hc
  rw [answersTo_snoc, h c hc]
  simp [answerTo, Ne.symm hc]

theorem answersTo_post (chunk : Nat) (t : Trace Json) (requests : List SubRequest)
    (r : Except GraphError (List (BatchSubResponse Json))) :
    answersTo chunk (t ++ [⟨.post chunk requests, r⟩]) = answersTo chunk t ++ [r] := by
  rw [answersTo_snoc]
  simp [answerTo]

theorem answersTo_wait (chunk : Nat) (t : Trace Json) (retryAfterSecs : Option Nat) (delayMs : Nat) :
    answersTo chunk (t ++ [⟨.wait retryAfterSecs delayMs, ()⟩]) = answersTo chunk t := by
  rw [answersTo_snoc]
  exact List.append_nil _

theorem Frame.wait {chunk : Nat} {t t' : Trace Json} (h : Frame chunk t t')
    (retryAfterSecs : Option Nat) (delayMs : Nat) :
    Frame chunk t (t' ++ [⟨.wait retryAfterSecs delayMs, ()⟩]) := by
  intro c hc
  rw [answersTo_wait]
  exact h c hc

theorem subResponses_snoc (answers : List (Except GraphError (List (BatchSubResponse Json))))
    (responses : List (BatchSubResponse Json)) :
    subResponses (answers ++ [.ok responses]) = subResponses answers ++ responses := by
  unfold subResponses
  rw [List.flatMap_append]
  simp [Except.toOption]

variable (decode render) in
/-- How the rounds of a chunk of `n` URLs end: with its slots, or with the error of a POST. -/
def RoundsEnd (n : Nat) (answers : List (Except GraphError (List (BatchSubResponse Json)))) :
    Except GraphError (List (Option (Except GraphError T))) → Prop
  | .ok results => results.length = n ∧ Filled decode render (subResponses answers) results
  | .error e => .error e ∈ answers

variable (decode render) in
/-- The rounds of a chunk left it within its budget, as `RoundsEnd` says, and no other touched. -/
def ChunkRounds (chunk n : Nat) (t₀ t : Trace Json)
    (result : Except GraphError (List (Option (Except GraphError T)))) : Prop :=
  Frame chunk t₀ t ∧ (answersTo chunk t).length ≤ maxRetries + 1 ∧
    RoundsEnd decode render n (answersTo chunk t) result

/-- The rounds from one on: `left` retries are left of the budget. -/
theorem meets_batchRounds {chunk left delayMs : Nat}
    {results : List (Option (Except GraphError T))} {pending : List Nat} {t₀ t : Trace Json}
    (hframe : Frame chunk t₀ t) (hbudget : (answersTo chunk t).length + left = maxRetries)
    (hlength : results.length = (chunkOf urls chunk).length)
    (hfilled : Filled decode render (subResponses (answersTo chunk t)) results)
    (hpending : ∀ i ∈ pending, i < (chunkOf urls chunk).length) :
    Meets history (CallOk urls)
      (ChunkRounds decode render chunk (chunkOf urls chunk).length t₀) t
      (batchRounds decode render chunk (chunkOf urls chunk) left delayMs results pending) := by
  induction left using Nat.strong_induction_on generalizing t delayMs results pending with
  | _ left ih =>
    rw [batchRounds]
    split
    · exact ⟨hframe, by omega, hlength, hfilled⟩
    · refine Meets.bind (Meets.remember (callOk_post (by omega) hpending) (fun answer => ?_))
      have hframe' := hframe.post (requestsFor (chunkOf urls chunk) pending) answer
      have hanswers := answersTo_post chunk t (requestsFor (chunkOf urls chunk) pending) answer
      generalize t ++ [⟨Call.post chunk (requestsFor (chunkOf urls chunk) pending), answer⟩] = t'
        at hframe' hanswers ⊢
      have hspent : (answersTo chunk t').length = (answersTo chunk t).length + 1 := by
        rw [hanswers, List.length_append, List.length_singleton]
      cases answer with
      | error e =>
        refine ⟨hframe', by omega, ?_⟩
        rw [hanswers]
        exact List.mem_append_right _ List.mem_cons_self
      | ok responses =>
        have hround : RoundOk decode render (chunkOf urls chunk).length (decide (0 < left))
            (subResponses (answersTo chunk t'))
            (responses.foldl (Round.take decode render (decide (0 < left)))
              ⟨results, [], none⟩) := by
          rw [hanswers, subResponses_snoc]
          exact RoundOk.foldl ⟨hlength, hfilled, fun i hi => absurd hi (by simp),
            fun _ => rfl⟩ responses
        have hend : ChunkRounds decode render chunk (chunkOf urls chunk).length t₀ t'
            (.ok (responses.foldl (Round.take decode render (decide (0 < left)))
              ⟨results, [], none⟩).results) :=
          ⟨hframe', by omega, hround.length, hround.filled⟩
        dsimp only
        split
        · exact hend
        · cases left with
          | zero => exact hend
          | succ left =>
            refine Meets.bind (Meets.remember (callOk_wait _ _) (fun _ => ?_))
            refine ih left (Nat.lt_succ_self left) (hframe'.wait _ _) ?_ hround.length ?_
              hround.retry
            · rw [answersTo_wait]
              omega
            · rw [answersTo_wait]
              exact hround.filled

/-- The result for index `i` of a chunk, by the sub-responses it was sent. -/
def Answered (decode : Json → Except Text T) (render : Json → Text)
    (subs : List (BatchSubResponse Json)) (i : Nat) (result : Except GraphError T) : Prop :=
  (∃ sub ∈ subs, sub.index = some i ∧ result = mapBatchResponse decode render sub) ∨
    (result = .error missingResponse ∧
      ∀ sub ∈ subs, sub.index = some i → retriedSubStatus sub.status = true)

variable (decode render) in
/-- How a chunk of `n` URLs ends. -/
def ChunkEnd (n : Nat) (answers : List (Except GraphError (List (BatchSubResponse Json)))) :
    Except GraphError (List (Except GraphError T)) → Prop
  | .ok results => results.length = n ∧
      ∀ i result, results[i]? = some result → Answered decode render (subResponses answers) i result
  | .error e => .error e ∈ answers

/-- A chunk nothing was asked of so far. -/
theorem meets_batchChunk {chunk : Nat} (hfresh : answersTo chunk t = []) :
    Meets history (CallOk urls)
      (fun t' result => Frame chunk t t' ∧ (answersTo chunk t').length ≤ maxRetries + 1 ∧
        ChunkEnd decode render (chunkOf urls chunk).length (answersTo chunk t') result) t
      (batchChunk decode render chunk (chunkOf urls chunk)) := by
  have hopen : Filled decode render (subResponses (answersTo chunk t))
      (List.replicate (chunkOf urls chunk).length none) := by
    intro i slot hslot
    obtain rfl : slot = none := (List.mem_replicate.1 (List.mem_of_getElem? hslot)).2
    rw [hfresh]
    exact fun sub hsub => absurd hsub (by simp [subResponses])
  have hframe : Frame chunk t t := fun c _ => rfl
  refine Meets.bind ((meets_batchRounds hframe (by rw [hfresh]; rfl)
    List.length_replicate hopen (fun i hi => List.mem_range.1 hi)).mono (fun t' result hend => ?_))
  obtain ⟨hframe, hbudget, hrounds⟩ := hend
  cases result with
  | error e => exact ⟨hframe, hbudget, hrounds⟩
  | ok results =>
    refine ⟨hframe, hbudget, by rw [List.length_map]; exact hrounds.1, fun i result hres => ?_⟩
    rw [List.getElem?_map] at hres
    obtain ⟨slot, hslot, rfl⟩ := Option.map_eq_some_iff.1 hres
    have hfilled := hrounds.2 i slot hslot
    cases slot with
    | some result => exact Or.inl hfilled
    | none => exact Or.inr ⟨rfl, hfilled⟩

/-! ## All chunks -/

variable (decode render) in
/-- The chunks up to now ended as `ends` says, and nothing was asked of the later ones. -/
structure Progress (urls : List Text)
    (ends : List (Except GraphError (List (Except GraphError T)))) (t : Trace Json) : Prop where
  ended : ∀ chunk result, ends[chunk]? = some result →
    ChunkEnd decode render (chunkOf urls chunk).length (answersTo chunk t) result
  budget : ∀ chunk, (answersTo chunk t).length ≤ maxRetries + 1
  fresh : ∀ chunk, ends.length ≤ chunk → answersTo chunk t = []

theorem Progress.snoc
    {ends : List (Except GraphError (List (Except GraphError T)))} {t t' : Trace Json}
    {result : Except GraphError (List (Except GraphError T))}
    (h : Progress decode render urls ends t) (hframe : Frame ends.length t t')
    (hbudget : (answersTo ends.length t').length ≤ maxRetries + 1)
    (hend : ChunkEnd decode render (chunkOf urls ends.length).length (answersTo ends.length t')
      result) : Progress decode render urls (ends ++ [result]) t' := by
  refine ⟨fun chunk r hr => ?_, fun chunk => ?_, fun chunk hchunk => ?_⟩
  · by_cases hlt : chunk < ends.length
    · rw [List.getElem?_append_left hlt] at hr
      rw [hframe chunk (by omega)]
      exact h.ended chunk r hr
    · obtain ⟨rfl, rfl⟩ : chunk = ends.length ∧ result = r := by
        obtain ⟨hlen, hget⟩ := List.getElem?_eq_some_iff.1 hr
        rw [List.length_append, List.length_singleton] at hlen
        have heq : chunk = ends.length := by omega
        subst heq
        simpa using hr
      exact hend
  · by_cases heq : chunk = ends.length
    · rw [heq]
      exact hbudget
    · rw [hframe chunk heq]
      exact h.budget chunk
  · rw [List.length_append, List.length_singleton] at hchunk
    rw [hframe chunk (by omega)]
    exact h.fresh chunk (by omega)

theorem extendAll_ok {out out' : List (Except GraphError T)}
    {results : List (Except GraphError (List (Except GraphError T)))} (h : extendAll out results = .ok out') :
    ∃ lists : List (List (Except GraphError T)), results = lists.map .ok ∧
      out' = out ++ lists.flatten := by
  induction results generalizing out with
  | nil => exact ⟨[], rfl, by simpa [extendAll] using h.symm⟩
  | cons result results ih =>
    cases result with
    | error e => exact absurd h (by simp [extendAll])
    | ok first =>
      obtain ⟨lists, rfl, rfl⟩ := ih h
      exact ⟨first :: lists, rfl, by simp⟩

theorem extendAll_error {out : List (Except GraphError T)} {e : GraphError}
    {results : List (Except GraphError (List (Except GraphError T)))}
    (h : extendAll out results = .error e) : .error e ∈ results := by
  induction results generalizing out with
  | nil => exact absurd h (by simp [extendAll])
  | cons result results ih =>
    cases result with
    | error e' =>
      obtain rfl : e' = e := by simpa [extendAll] using h
      exact List.mem_cons_self
    | ok first => exact List.mem_cons_of_mem _ (ih h)

variable (decode render) in
/-- How the batch ends: the chunks' results in order, or the error of a POST. -/
def BatchEnd (urls : List Text) (total : Nat) (t : Trace Json) :
    Except GraphError (List (Except GraphError T)) → Prop
  | .ok out => ∃ done : List (List (Except GraphError T)), done.length = total ∧
      out = done.flatten ∧ Progress decode render urls (done.map .ok) t
  | .error e => ∃ chunk, .error e ∈ answersTo chunk t

/-- One group: its chunks follow those that ended. -/
theorem meets_group {group : List (List Text × Nat)}
    {ends : List (Except GraphError (List (Except GraphError T)))}
    (hgroup : ∀ j c, group[j]? = some c → c.2 = ends.length + j ∧ c.1 = chunkOf urls c.2)
    (h : Progress decode render urls ends t) :
    Meets history (CallOk urls)
      (fun t results => results.length = group.length ∧
        Progress decode render urls (ends ++ results) t) t
      (joinAll (group.map (fun c => batchChunk decode render c.2 c.1))) := by
  refine (Meets.joinAll (fun results t => Progress decode render urls (ends ++ results) t)
    (by rw [List.append_nil]; exact h) ?_).mono (fun t results hres => ?_)
  · intro results t p hp h
    rw [List.getElem?_map] at hp
    obtain ⟨c, hc, rfl⟩ := Option.map_eq_some_iff.1 hp
    obtain ⟨hnumber, hurls⟩ := hgroup results.length c hc
    rw [← List.length_append] at hnumber
    rw [hurls, hnumber]
    refine (meets_batchChunk (h.fresh _ (le_refl _))).mono (fun t' result hend => ?_)
    rw [← List.append_assoc]
    exact h.snoc hend.1 hend.2.1 hend.2.2
  · rw [List.length_map] at hres
    exact hres

theorem meets_batchGroups {groups : List (List (List Text × Nat))} {done : List (List (Except GraphError T))}
    (hgroups : ∀ j c, groups.flatten[j]? = some c → c.2 = done.length + j ∧ c.1 = chunkOf urls c.2)
    (h : Progress decode render urls (done.map .ok) t) :
    Meets history (CallOk urls)
      (fun t result => (∀ chunk, (answersTo chunk t).length ≤ maxRetries + 1) ∧
        BatchEnd decode render urls (done.length + groups.flatten.length) t result) t
      (batchGroups decode render groups done.flatten) := by
  induction groups generalizing done t with
  | nil => exact ⟨h.budget, done, rfl, rfl, h⟩
  | cons group groups ih =>
    rw [batchGroups]
    have hfirst : ∀ j c, group[j]? = some c →
        c.2 = (done.map Except.ok : List (Except GraphError _)).length + j ∧
          c.1 = chunkOf urls c.2 := by
      intro j c hc
      rw [List.length_map]
      refine hgroups j c ?_
      rw [List.flatten_cons, List.getElem?_append_left (List.getElem?_eq_some_iff.1 hc).1]
      exact hc
    refine Meets.bind ((meets_group hfirst h).mono (fun t results hres => ?_))
    obtain ⟨hlength, hprogress⟩ := hres
    cases hextend : extendAll done.flatten results with
    | error e =>
      refine ⟨hprogress.budget, ?_⟩
      obtain ⟨j, hj, hget⟩ := List.getElem_of_mem (extendAll_error hextend)
      refine ⟨done.length + j, hprogress.ended (done.length + j) (.error e) ?_⟩
      rw [List.getElem?_append_right (by rw [List.length_map]; omega), List.length_map,
        Nat.add_sub_cancel_left, List.getElem?_eq_getElem hj, hget]
    | ok out =>
      obtain ⟨lists, rfl, rfl⟩ := extendAll_ok hextend
      rw [List.length_map] at hlength
      rw [← List.map_append] at hprogress
      rw [← List.flatten_append, List.flatten_cons, List.length_append, ← hlength,
        ← Nat.add_assoc, ← List.length_append]
      refine ih (fun j c hc => ?_) hprogress
      have hmore := hgroups (lists.length + j) c (by
        rw [List.flatten_cons, List.getElem?_append_right (by omega), hlength,
          Nat.add_sub_cancel_left]
        exact hc)
      rw [List.length_append, Nat.add_assoc]
      exact hmore

theorem meets_batchGetJson (urls : List Text) :
    Meets history (CallOk urls)
      (fun t result => (∀ chunk, (answersTo chunk t).length ≤ maxRetries + 1) ∧
        BatchEnd decode render urls (chunks batchMax urls).length t result) []
      (batchGetJson decode render urls) := by
  have hflatten : (chunks chunkConcurrency (chunks batchMax urls).zipIdx).flatten =
      (chunks batchMax urls).zipIdx := flatten_chunks (by decide) _
  have hgroups : ∀ j c, (chunks chunkConcurrency (chunks batchMax urls).zipIdx).flatten[j]? =
      some c → c.2 = ([] : List (List (Except GraphError T))).length + j ∧
        c.1 = chunkOf urls c.2 := by
    intro j c hc
    rw [hflatten, List.getElem?_zipIdx] at hc
    obtain ⟨chunk, hchunk, rfl⟩ := Option.map_eq_some_iff.1 hc
    refine ⟨rfl, ?_⟩
    rw [Nat.zero_add]
    exact getElem?_chunks hchunk
  have hstart : Progress decode render urls
      (([] : List (List (Except GraphError T))).map .ok) ([] : Trace Json) :=
    ⟨fun chunk result hres => absurd hres (by simp), fun chunk => Nat.zero_le _, fun chunk _ => rfl⟩
  have hmeets := meets_batchGroups hgroups hstart
  rw [hflatten, List.length_zipIdx, List.length_nil, Nat.zero_add] at hmeets
  exact hmeets

/-! ## With the refused inputs -/

/-- The place of an input among those that are accepted. -/
def slotOf {ι : Type} (build : ι → Except GraphError Text) (inputs : List ι) (j : Nat) : Nat :=
  (inputs.take j).countP (fun input => (build input).toOption.isSome)

section Refused

variable {ι : Type} {build : ι → Except GraphError Text}

variable {inputs : List ι}

theorem slotOf_cons_ok {input : ι} {url : Text} (h : build input = .ok url)
    (j : Nat) : slotOf build (input :: inputs) (j + 1) = slotOf build inputs j + 1 := by
  unfold slotOf
  rw [List.take_succ_cons, List.countP_cons_of_pos (by rw [h]; rfl)]

theorem slotOf_cons_error {input : ι} {e : GraphError} (h : build input = .error e) (j : Nat) :
    slotOf build (input :: inputs) (j + 1) = slotOf build inputs j := by
  unfold slotOf
  rw [List.take_succ_cons, List.countP_cons_of_neg (by rw [h]; simp [Except.toOption])]

theorem checkedSubUrls_cons_ok {input : ι} {url : Text} (h : build input = .ok url) :
    checkedSubUrls build (input :: inputs) =
      (url :: (checkedSubUrls build inputs).1, none :: (checkedSubUrls build inputs).2) := by
  rw [checkedSubUrls, h]

theorem checkedSubUrls_cons_error {input : ι} {e : GraphError} (h : build input = .error e) :
    checkedSubUrls build (input :: inputs) =
      ((checkedSubUrls build inputs).1, some e :: (checkedSubUrls build inputs).2) := by
  rw [checkedSubUrls, h]

/-- Every sub-URL is an accepted input's, in its place. -/
theorem exists_input_of_url {k : Nat} {url : Text} (h : (checkedSubUrls build inputs).1[k]? = some url) :
    ∃ j input, inputs[j]? = some input ∧ build input = .ok url ∧ slotOf build inputs j = k := by
  induction inputs generalizing k with
  | nil => exact absurd h (by simp [checkedSubUrls])
  | cons input inputs ih =>
    cases hbuild : build input with
    | error e =>
      rw [checkedSubUrls_cons_error hbuild] at h
      obtain ⟨j, input', hj, hurl, hslot⟩ := ih h
      exact ⟨j + 1, input', hj, hurl, (slotOf_cons_error hbuild j).trans hslot⟩
    | ok url' =>
      rw [checkedSubUrls_cons_ok hbuild] at h
      cases k with
      | zero =>
        obtain rfl : url' = url := by simpa using h
        exact ⟨0, input, rfl, hbuild, rfl⟩
      | succ k =>
        obtain ⟨j, input', hj, hurl, hslot⟩ := ih h
        exact ⟨j + 1, input', hj, hurl, by rw [slotOf_cons_ok hbuild, hslot]⟩

/-- Rejoined: a refusal in a refused input's place, the batch's result in an accepted one's. -/
theorem rejoinRefused_spec {batched : List (Except GraphError T)}
    (hlen : batched.length = (checkedSubUrls build inputs).1.length) :
    (rejoinRefused (checkedSubUrls build inputs).2 batched).length = inputs.length ∧
    ∀ j input, inputs[j]? = some input → ∃ result,
      (rejoinRefused (checkedSubUrls build inputs).2 batched)[j]? = some result ∧
      match build input with
      | .error e => result = .error e
      | .ok _ => batched[slotOf build inputs j]? = some result := by
  induction inputs generalizing batched with
  | nil => exact ⟨rfl, fun j input hj => absurd hj (by simp)⟩
  | cons first inputs ih =>
    cases hbuild : build first with
    | error e =>
      rw [checkedSubUrls_cons_error hbuild] at hlen ⊢
      obtain ⟨hlength, hplaces⟩ := ih hlen
      refine ⟨congrArg (· + 1) hlength, fun j input hj => ?_⟩
      cases j with
      | zero =>
        obtain rfl : first = input := by simpa using hj
        exact ⟨.error e, rfl, by rw [hbuild]⟩
      | succ j =>
        rw [slotOf_cons_error hbuild]
        exact hplaces j input hj
    | ok url =>
      rw [checkedSubUrls_cons_ok hbuild] at hlen ⊢
      obtain ⟨result, rest, rfl⟩ := List.exists_cons_of_length_eq_add_one hlen
      obtain ⟨hlength, hplaces⟩ := ih (Nat.succ.inj hlen)
      refine ⟨congrArg (· + 1) hlength, fun j input hj => ?_⟩
      cases j with
      | zero =>
        obtain rfl : first = input := by simpa using hj
        exact ⟨result, rfl, by rw [hbuild]; rfl⟩
      | succ j =>
        rw [slotOf_cons_ok hbuild]
        exact hplaces j input hj

end Refused

/-- The ids a chunk sends are read back as the indices they stand for. -/
theorem parseUnsigned_toString {i : Nat} (h : i < batchMax) :
    Text.parseUnsigned 64 (toString i).toList = some i := by
  have hall : (List.range batchMax).all
      (fun i => decide (Text.parseUnsigned 64 (toString i).toList = some i)) = true := by
    decide +kernel
  exact of_decide_eq_true (List.all_eq_true.1 hall i (List.mem_range.2 h))

/-- The results of the batch stand where their URLs do. -/
theorem BatchEnd.places {out : List (Except GraphError T)}
    (h : BatchEnd decode render urls (chunks batchMax urls).length t (.ok out)) :
    out.length = urls.length ∧ ∀ k result, out[k]? = some result →
      Answered decode render (subResponses (answersTo (k / batchMax) t)) (k % batchMax) result := by
  obtain ⟨done, hlen, rfl, hprogress⟩ := h
  have hended : ∀ chunk results, done[chunk]? = some results →
      ChunkEnd decode render (chunkOf urls chunk).length (answersTo chunk t) (.ok results) := by
    intro chunk results hres
    refine hprogress.ended chunk (.ok results) ?_
    rw [List.getElem?_map, hres, Option.map_some]
  have hsize : 0 < batchMax := by decide
  obtain ⟨hlength, hplaces⟩ := getElem?_flatten_chunks hsize hlen
    (fun c chunk results hchunk hres => by
      rw [getElem?_chunks hchunk]
      exact (hended c results hres).1)
  refine ⟨hlength, fun k result hres => ?_⟩
  have hk : k < urls.length := hlength ▸ (List.getElem?_eq_some_iff.1 hres).1
  rw [hplaces k hk] at hres
  obtain ⟨results, hdone, hget⟩ := Option.bind_eq_some_iff.1 hres
  exact (hended _ results hdone).2 _ result hget

variable (decode render) in
/-- One result for each input, in order: the refusal of a refused one, and for any other what the
    sub-responses to its index in its chunk say. A read that fails as a whole fails as a POST did. -/
def OneResultEach {ι : Type} (build : ι → Except GraphError Text) (inputs : List ι)
    (t : Trace Json) : Except GraphError (List (Except GraphError T)) → Prop
  | .error e => ∃ chunk, .error e ∈ answersTo chunk t
  | .ok out => out.length = inputs.length ∧
      ∀ j input, inputs[j]? = some input → ∃ r, out[j]? = some r ∧
        match build input with
        | .error e => r = .error e
        | .ok _ =>
          Answered decode render (subResponses (answersTo (slotOf build inputs j / batchMax) t))
            (slotOf build inputs j % batchMax) r

variable (decode render) in
/-- The checked batch read gives one result for each input, in order. A refused input's is its
    refusal. Any other's comes from a sub-response to the index it was sent under, in its own chunk,
    or says that there was none but such as were to be sent again. A chunk makes at most
    `maxRetries + 1` POSTs, and the read fails as a whole only with the error of one of them. -/
theorem checked_batch_one_result_per_input {ι : Type} (build : ι → Except GraphError Text) (inputs : List ι) :
    (∀ t call, Asks history [] (checkedBatchGetJson decode render build inputs) t call →
      ∀ chunk requests, call = .post chunk requests → (answersTo chunk t).length ≤ maxRetries ∧
        ∀ request ∈ requests, ∃ j input url, inputs[j]? = some input ∧ build input = .ok url ∧
          slotOf build inputs j / batchMax = chunk ∧ request.url = url ∧
          Text.parseUnsigned 64 request.id = some (slotOf build inputs j % batchMax)) ∧
    ∀ t result, Exec history [] (checkedBatchGetJson decode render build inputs) t result →
      (∀ chunk, (answersTo chunk t).length ≤ maxRetries + 1) ∧
        OneResultEach decode render build inputs t result := by
  have hmeets : Meets history (CallOk (checkedSubUrls build inputs).1)
      (fun t result => (∀ chunk, (answersTo chunk t).length ≤ maxRetries + 1) ∧
        OneResultEach decode render build inputs t result) []
      (checkedBatchGetJson decode render build inputs) := by
    refine Meets.bind ((meets_batchGetJson _).mono (fun t result hend => ?_))
    obtain ⟨hbudget, hend⟩ := hend
    cases result with
    | error e => exact ⟨hbudget, hend⟩
    | ok batched =>
      obtain ⟨hlength, hanswered⟩ := hend.places
      obtain ⟨hlength', hplaces⟩ := rejoinRefused_spec hlength
      refine ⟨hbudget, hlength', fun j input hj => ?_⟩
      obtain ⟨r, hr, hplace⟩ := hplaces j input hj
      refine ⟨r, hr, ?_⟩
      cases hbuild : build input with
      | error e =>
        rw [hbuild] at hplace
        exact hplace
      | ok url =>
        rw [hbuild] at hplace
        exact hanswered _ r hplace
  refine ⟨fun t call hasks chunk requests hcall => ?_, fun t result hexec => hmeets.sound hexec⟩
  obtain ⟨hbudget, hrequests⟩ := hmeets.asked hasks chunk requests hcall
  refine ⟨hbudget, fun request hrequest => ?_⟩
  obtain ⟨i, url, hi, hurl, rfl⟩ := hrequests request hrequest
  obtain ⟨j, input, hj, hbuild, hslot⟩ := exists_input_of_url hurl
  refine ⟨j, input, url, hj, hbuild, ?_, rfl, ?_⟩
  · rw [hslot, Nat.mul_comm, Nat.mul_add_div (by decide), Nat.div_eq_of_lt hi, Nat.add_zero]
  · have hmod : slotOf build inputs j % batchMax = i := by
      rw [hslot, Nat.mul_add_mod_self_right, Nat.mod_eq_of_lt hi]
    rw [hmod]
    exact parseUnsigned_toString hi

end Results

/-! ## A sub-request that is answered once and then forgotten -/

/-- Answers the first POST with a 429, and leaves the request out of the next envelope. -/
def forgetful (t : Trace Unit) : (call : Call) → Option (Answer Unit call)
  | .post _ _ => some (.ok (if t.isEmpty then [⟨"0".toList, 429, (), []⟩] else []))
  | .wait _ _ => some ()

/-- The one result is the missing response, and a sub-response carried the request's id. -/
def missingThoughAnswered
    (ended : Except GraphError (List (Except GraphError Unit)) × Trace Unit) : Bool :=
  match ended.1 with
  | .ok [.error e] =>
    e == missingResponse && (subResponses (answersTo 0 ended.2)).any (fun sub =>
      sub.index == some 0)
  | _ => false

theorem throttled_then_missing_is_protocol_error :
    ¬ ∀ (build : Unit → Except GraphError Text) (inputs : List Unit) (t : Trace Unit)
      (out : List (Except GraphError Unit)),
      Exec history [] (checkedBatchGetJson (fun _ => .ok ()) (fun _ => []) build inputs) t
        (.ok out) →
      ∀ j, out[j]? = some (.error missingResponse) →
        ∀ sub ∈ subResponses (answersTo (slotOf build inputs j / batchMax) t),
          sub.index ≠ some (slotOf build inputs j % batchMax) := by
  intro hclaim
  have hrun : (run (remembering forgetful) (checkedBatchGetJson (fun _ => .ok ()) (fun _ => [])
      (fun _ : Unit => .ok "/servicePrincipals/1".toList) [()]) []).map missingThoughAnswered =
      some true := by decide +kernel
  obtain ⟨result, t, hexec, hmissing⟩ := exists_exec_of_run (history_of_remembering _) hrun
  unfold missingThoughAnswered at hmissing
  split at hmissing
  · next e heq =>
    obtain rfl : result = .ok [.error e] := heq
    obtain ⟨he, hany⟩ := Bool.and_eq_true_iff.1 hmissing
    obtain rfl := eq_of_beq he
    obtain ⟨sub, hsub, hindex⟩ := List.any_eq_true.1 hany
    exact hclaim _ [()] t _ hexec 0 rfl sub hsub (eq_of_beq hindex)
  · exact absurd hmissing (by simp)

end Batch

end Graph
