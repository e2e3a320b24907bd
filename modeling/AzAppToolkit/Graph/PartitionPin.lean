import AzAppToolkit.Graph.PartitionRows
import AzAppToolkit.Lib.History
import AzAppToolkit.Lib.Rely

set_option autoImplicit false

/-! # A collection that is read serially

Any number of scans of one collection share its memo; their requests are answered freely, and a scan
reads or updates the memo in one step. A memo is pinned once its mode is `serial`, meant to last as
long as the client. What undoes it is a merge that validates in a scan which read the memo before it
was pinned: `update_slice_memo` then writes its mode over the pin. And a refusal that may clear is
counted only once the serial read behind it returned. -/

namespace Graph

open Prog

variable {Row : Type}

/-- The world of the scans of one collection. -/
def memoWorld : World (ScanAnswer Row) SliceMemo
  | memo, .readMemo, r, memo' => r = memo ∧ memo' = memo
  | memo, .updateMemo update, _, memo' => memo' = update.apply memo
  | memo, .page _, _, memo' => memo' = memo
  | memo, .count, _, memo' => memo' = memo
  | memo, .firstFailure _, _, memo' => memo' = memo
  | memo, .warnRefused _, _, memo' => memo' = memo

abbrev Scans (Row : Type) := Pool (ScanAnswer Row) (Except GraphError (Scanned Row)) SliceMemo

abbrev ScanEvent (Row : Type) :=
  Pool.Event (ScanAnswer Row) (Except GraphError (Scanned Row))

def isScan [DirectoryRow Row] (p : Prog (ScanAnswer Row) (Except GraphError (Scanned Row))) : Prop :=
  ∃ cap, p = scanDirectoryCapped cap

/-- A client that has not scanned the collection yet. -/
def Scans.initial : Scans Row := ⟨SliceMemo.default, []⟩

def ScanStep [DirectoryRow Row] : Scans Row → ScanEvent Row → Scans Row → Prop := Pool.Step isScan memoWorld

/-! ## The memo along a run -/

def updateOf : ScanEvent Row → Option MemoUpdate
  | .call _ ⟨.updateMemo update, _⟩ => some update
  | _ => none

/-- What the scans did to the memo, in order. -/
def updatesOf (tr : List (ScanEvent Row)) : List MemoUpdate := tr.filterMap updateOf

def MemoUpdate.isValidated : MemoUpdate → Bool
  | .validated _ => true
  | _ => false

/-- A pin, or a refusal that cannot clear by waiting. -/
def MemoUpdate.isStructural : MemoUpdate → Bool
  | .pin => true
  | .refused _ structural _ => structural
  | .validated _ => false

def MemoUpdate.isThrottled : MemoUpdate → Bool
  | .refused reason structural _ => !structural && reason.isTransient
  | _ => false

/-- A lag refusal that the serial read did not clear. -/
def MemoUpdate.isUnclearedLag : MemoUpdate → Bool
  | .refused reason structural slicesWereComplete =>
    !structural && !reason.isTransient && !slicesWereComplete
  | _ => false

theorem memoWorld_step {memo memo' : SliceMemo} {c : ScanCall} {r : ScanAnswer Row c}
    (h : memoWorld memo c r memo') :
    memo' = (match c with | .updateMemo update => update.apply memo | _ => memo) := by
  cases c with
  | readMemo => exact h.2
  | updateMemo update | page _ | count | firstFailure _ | warnRefused _ => exact h

/-- The memo is what its updates made of it. -/
theorem memo_eq_updates [DirectoryRow Row] {pool pool' : Scans Row} {tr : List (ScanEvent Row)}
    (hrun : Run ScanStep pool tr pool') :
    pool'.shared = (updatesOf tr).foldl (fun memo update => update.apply memo) pool.shared := by
  induction hrun with
  | nil => rfl
  | @snoc tr t u e hpre hs ih =>
    unfold updatesOf at ih ⊢
    rw [List.filterMap_append, List.foldl_append, ← ih]
    cases hs with
    | start hp => rfl
    | @call s s' ts i c next r hthread hworld =>
      rw [memoWorld_step hworld]
      cases c <;> rfl

/-- The memo of a client after the events. -/
def memoAfter (tr : List (ScanEvent Row)) : SliceMemo :=
  (updatesOf tr).foldl (fun memo update => update.apply memo) SliceMemo.default

/-- The events leave the memo pinned. -/
def Pinned (tr : List (ScanEvent Row)) : Prop := (memoAfter tr).mode = some .serial

theorem memoAfter_snoc (tr : List (ScanEvent Row)) (e : ScanEvent Row) :
    memoAfter (tr ++ [e]) = ((updateOf e).map (fun u => u.apply (memoAfter tr))).getD (memoAfter tr) := by
  unfold memoAfter updatesOf
  rw [List.filterMap_append, List.foldl_append]
  cases h : updateOf e with
  | none | some update => simp [h]

theorem apply_serial {memo : SliceMemo} {update : MemoUpdate} (h : memo.mode = some .serial)
    (hupdate : update.isValidated = false) : (update.apply memo).mode = some .serial := by
  cases update with
  | pin => rfl
  | validated mode => exact absurd hupdate (by simp [MemoUpdate.isValidated])
  | refused reason structural slicesWereComplete =>
    rw [MemoUpdate.apply]
    split
    · rfl
    · split
      · simp only [h, ite_self]
      · split
        · simp only [h, ite_self]
        · exact h

theorem foldl_serial {memo : SliceMemo} {updates : List MemoUpdate}
    (h : memo.mode = some .serial) (hupdates : ∀ u ∈ updates, u.isValidated = false) :
    (updates.foldl (fun memo update => update.apply memo) memo).mode = some .serial := by
  induction updates generalizing memo with
  | nil => exact h
  | cons update updates ih =>
    rw [List.foldl_cons]
    exact ih (apply_serial h (hupdates update List.mem_cons_self))
      (fun u hu => hupdates u (List.mem_cons_of_mem _ hu))

/-- Refusals that advance a counter pin the memo once they have brought it to its bound. -/
theorem foldl_serial_of_strikes (counter : SliceMemo → Nat) (strike : MemoUpdate → Bool)
    (bound : Nat) (hbound : bound ≤ 255)
    (hstrike : ∀ memo u, strike u = true → counter (u.apply memo) = saturatingIncr (counter memo) ∧
      (bound ≤ counter (u.apply memo) → (u.apply memo).mode = some .serial))
    (hother : ∀ memo u, strike u = false → u.isValidated = false →
      counter (u.apply memo) = counter memo) {memo : SliceMemo} {updates : List MemoUpdate}
    (hupdates : ∀ u ∈ updates, u.isValidated = false) (hsome : 0 < updates.countP strike)
    (hcount : bound ≤ counter memo + updates.countP strike) :
    (updates.foldl (fun memo update => update.apply memo) memo).mode = some .serial := by
  induction updates generalizing memo with
  | nil => exact absurd hsome (by simp)
  | cons u updates ih =>
    have hrest : ∀ u ∈ updates, u.isValidated = false :=
      fun u hu => hupdates u (List.mem_cons_of_mem _ hu)
    rw [List.foldl_cons]
    cases hu : strike u with
    | false =>
      rw [List.countP_cons_of_neg (by simp [hu])] at hsome hcount
      refine ih hrest hsome ?_
      rw [hother memo u hu (hupdates u List.mem_cons_self)]
      exact hcount
    | true =>
      obtain ⟨hincr, hpin⟩ := hstrike memo u hu
      rw [List.countP_cons_of_pos hu] at hcount
      by_cases hreached : bound ≤ counter (u.apply memo)
      · exact foldl_serial (hpin hreached) hrest
      · rw [hincr] at hreached
        unfold saturatingIncr at hreached hincr
        refine ih hrest (by omega) ?_
        rw [hincr]
        omega

theorem apply_structural {memo : SliceMemo} {u : MemoUpdate} (h : u.isStructural = true) :
    (u.apply memo).mode = some .serial := by
  cases u with
  | pin => rfl
  | validated mode => exact absurd h (by simp [MemoUpdate.isStructural])
  | refused reason structural slicesWereComplete =>
    have hs : structural = true := h
    simp only [MemoUpdate.apply, hs, if_true]

theorem foldl_serial_of_structural {memo : SliceMemo} {updates : List MemoUpdate}
    (hupdates : ∀ u ∈ updates, u.isValidated = false) (hsome : ∃ u ∈ updates, u.isStructural = true) :
    (updates.foldl (fun memo update => update.apply memo) memo).mode = some .serial := by
  obtain ⟨u, hu, hstructural⟩ := hsome
  obtain ⟨before, after, rfl⟩ := List.append_of_mem hu
  rw [List.foldl_append, List.foldl_cons]
  exact foldl_serial (apply_structural hstructural)
    (fun v hv => hupdates v (List.mem_append_right _ (List.mem_cons_of_mem _ hv)))

theorem foldl_serial_of_lag {memo : SliceMemo} {updates : List MemoUpdate}
    (hupdates : ∀ u ∈ updates, u.isValidated = false)
    (hcount : maxLagRefusals ≤ updates.countP MemoUpdate.isUnclearedLag) :
    (updates.foldl (fun memo update => update.apply memo) memo).mode = some .serial := by
  have hpos : 0 < maxLagRefusals := by decide
  refine foldl_serial_of_strikes SliceMemo.lagRefusals MemoUpdate.isUnclearedLag maxLagRefusals
    (by decide) (fun memo u hu => ?_) (fun memo u hu hv => ?_) hupdates (by omega) (by omega)
  · cases u with
    | pin | validated mode => exact absurd hu (by simp [MemoUpdate.isUnclearedLag])
    | refused reason structural slicesWereComplete =>
      grind [MemoUpdate.apply, MemoUpdate.isUnclearedLag]
  · cases u with
    | pin => rfl
    | validated mode => exact absurd hv (by simp [MemoUpdate.isValidated])
    | refused reason structural slicesWereComplete =>
      grind [MemoUpdate.apply, MemoUpdate.isUnclearedLag]

theorem foldl_serial_of_throttled {memo : SliceMemo} {updates : List MemoUpdate}
    (hupdates : ∀ u ∈ updates, u.isValidated = false)
    (hcount : maxTransientRefusals ≤ updates.countP MemoUpdate.isThrottled) :
    (updates.foldl (fun memo update => update.apply memo) memo).mode = some .serial := by
  have hpos : 0 < maxTransientRefusals := by decide
  refine foldl_serial_of_strikes SliceMemo.transientRefusals MemoUpdate.isThrottled
    maxTransientRefusals (by decide) (fun memo u hu => ?_) (fun memo u hu hv => ?_) hupdates
    (by omega) (by omega)
  · cases u with
    | pin | validated mode => exact absurd hu (by simp [MemoUpdate.isThrottled])
    | refused reason structural slicesWereComplete =>
      grind [MemoUpdate.apply, MemoUpdate.isThrottled]
  · cases u with
    | pin => rfl
    | validated mode => exact absurd hv (by simp [MemoUpdate.isValidated])
    | refused reason structural slicesWereComplete =>
      grind [MemoUpdate.apply, MemoUpdate.isThrottled]

/-! ## Merges behind a pin -/

variable {pool pool₁ pool₂ : Scans Row} {tr tr₁ tr₂ before since : List (ScanEvent Row)} {i : Nat}

/-- The scan read the memo while it was not pinned. -/
def ReadUnpinned (i : Nat) (tr : List (ScanEvent Row)) : Prop :=
  ∃ tr₁ memo tr₂, tr = tr₁ ++ .call i ⟨.readMemo, memo⟩ :: tr₂ ∧ ¬ Pinned tr₁

theorem ReadUnpinned.snoc {i : Nat} {tr : List (ScanEvent Row)} (h : ReadUnpinned i tr)
    (e : ScanEvent Row) : ReadUnpinned i (tr ++ [e]) := by
  obtain ⟨tr₁, memo, tr₂, rfl, hunpinned⟩ := h
  exact ⟨tr₁, memo, tr₂ ++ [e], by simp, hunpinned⟩

/-- A scan read the memo, a later event pinned it, and after that the scan recorded its merge. -/
def MergesBehindPin (tr : List (ScanEvent Row)) : Prop :=
  ∃ i tr₁ memo tr₂ pin tr₃ mode r tr₄, mode ≠ .serial ∧
    tr = tr₁ ++ .call i ⟨.readMemo, memo⟩ :: tr₂ ++ [pin] ++
      (tr₃ ++ .call i ⟨.updateMemo (.validated mode), r⟩ :: tr₄) ∧
    ¬ Pinned (tr₁ ++ .call i ⟨.readMemo, memo⟩ :: tr₂) ∧
    Pinned (tr₁ ++ .call i ⟨.readMemo, memo⟩ :: tr₂ ++ [pin])

/-- The step leaves a pinned memo pinned. -/
def KeepsPin (pool : Scans Row) (event : ScanEvent Row) : Prop :=
  ∀ update, updateOf event = some update → pool.shared.mode = some .serial →
    (update.apply pool.shared).mode = some .serial

theorem MergesBehindPin.append (h : MergesBehindPin tr₁) (tr₂ : List (ScanEvent Row)) :
    MergesBehindPin (tr₁ ++ tr₂) := by
  obtain ⟨i, a, memo, b, pin, c, mode, r, d, hmode, rfl, hpin⟩ := h
  exact ⟨i, a, memo, b, pin, c, mode, r, d ++ tr₂, hmode, by simp, hpin⟩

/-- Where the memo was not pinned and comes to be, one event pins it. -/
theorem exists_pin (h : ¬ Pinned tr₁) (h' : Pinned (tr₁ ++ tr₂)) :
    ∃ before pin after, tr₂ = before ++ pin :: after ∧ ¬ Pinned (tr₁ ++ before) ∧
      Pinned (tr₁ ++ before ++ [pin]) := by
  induction tr₂ generalizing tr₁ with
  | nil => exact absurd (by simpa using h') h
  | cons e rest ih =>
    by_cases he : Pinned (tr₁ ++ [e])
    · exact ⟨[], e, rest, rfl, by simpa using h, by simpa using he⟩
    · obtain ⟨before, pin, after, rfl, hbefore, hpin⟩ := ih he (by simpa using h')
      exact ⟨e :: before, pin, after, rfl, by simpa using hbefore, by simpa using hpin⟩

/-! ## Refusals of a run -/

/-- A scan that was refused for a reason that may clear had a page fail after that. -/
def FallbackFails (tr : List (ScanEvent Row)) : Prop :=
  ∃ i reason r tr₁ tr₂ request e, reason.isStructural = false ∧
    tr = tr₁ ++ .call i ⟨.warnRefused reason, r⟩ :: tr₂ ∧ .call i ⟨.page request, .error e⟩ ∈ tr₂

/-- Scan `i` was refused among the events, for a reason of the kind, and has returned. -/
def RefusedIn (pool : Scans Row) (since : List (ScanEvent Row)) (kind : Refusal → Bool) (i : Nat) :
    Prop :=
  (∃ reason r, kind reason = true ∧ .call i ⟨.warnRefused reason, r⟩ ∈ since) ∧
  ∃ result, pool.threads[i]? = some (.done result)

/-- The serial read of scan `i` had only rows that the slices had returned. -/
def ClearedIn (since : List (ScanEvent Row)) (i : Nat) : Prop :=
  ∃ reason structural r, .call i ⟨.updateMemo (.refused reason structural true), r⟩ ∈ since

def Refusal.isLag (reason : Refusal) : Bool := !reason.isStructural && !reason.isTransient

/-- The scans that made an update of the kind, once for each. -/
def strikers (strike : MemoUpdate → Bool) (tr : List (ScanEvent Row)) : List Nat :=
  tr.filterMap fun
    | .call i ⟨.updateMemo update, _⟩ => if strike update then some i else none
    | _ => none

theorem length_strikers (strike : MemoUpdate → Bool) (tr : List (ScanEvent Row)) :
    (strikers strike tr).length = (updatesOf tr).countP strike := by
  induction tr with
  | nil => rfl
  | cons e tr ih =>
    unfold strikers updatesOf at ih ⊢
    rw [List.filterMap_cons, List.filterMap_cons]
    rcases e with p | ⟨i, c, r⟩
    · exact ih
    · cases c with
      | readMemo | page _ | count | firstFailure _ | warnRefused _ => exact ih
      | updateMemo update =>
        cases hstrike : strike update with
        | true => simpa [updateOf, hstrike] using ih
        | false => simpa [updateOf, hstrike] using ih

theorem le_countP_of_scans {strike : MemoUpdate → Bool} {scans : List Nat} (hnodup : scans.Nodup)
    (hscans : ∀ i ∈ scans, ∃ update r, strike update = true ∧
      .call i ⟨.updateMemo update, r⟩ ∈ since) :
    scans.length ≤ (updatesOf since).countP strike := by
  rw [← length_strikers]
  refine (List.subperm_of_subset hnodup (fun i hi => ?_)).length_le
  obtain ⟨update, r, hstrike, hmem⟩ := hscans i hi
  exact List.mem_filterMap.2 ⟨_, hmem, if_pos hstrike⟩

/-! ## The calls behind a refusal -/

/-- A page failed among the calls, or the refusal was recorded. -/
def Recorded (reason : Refusal) (h : List (Exchanged (ScanAnswer Row))) : Prop :=
  (∃ request e, ⟨.page request, .error e⟩ ∈ h) ∨
    ∃ structural complete, ⟨.updateMemo (.refused reason structural complete), ()⟩ ∈ h

/-- What the calls behind the warning of a refusal do about it: a structural one pins at once, and it
    is recorded unless the serial read fails. -/
def Settles (reason : Refusal) (h : List (Exchanged (ScanAnswer Row))) : Prop :=
  (reason.isStructural = true → ⟨.updateMemo .pin, ()⟩ ∈ h) ∧ Recorded reason h

def Settled : List (Exchanged (ScanAnswer Row)) → Prop
  | [] => True
  | e :: h => (∀ reason, e.1 = .warnRefused reason → Settles reason h) ∧ Settled h

def Quiet (call : ScanCall) : Prop := ∀ reason, call ≠ .warnRefused reason

variable {h h₁ h₂ : List (Exchanged (ScanAnswer Row))} {reason : Refusal}

theorem Recorded.mono (hrecorded : Recorded reason h₁) (hsub : h₁ ⊆ h₂) : Recorded reason h₂ :=
  hrecorded.imp (fun ⟨request, e, hmem⟩ => ⟨request, e, hsub hmem⟩)
    (fun ⟨structural, complete, hmem⟩ => ⟨structural, complete, hsub hmem⟩)

theorem Settles.mono (hsettles : Settles reason h₁) (hsub : h₁ ⊆ h₂) : Settles reason h₂ :=
  ⟨fun hs => hsub (hsettles.1 hs), hsettles.2.mono hsub⟩

theorem Settled.append (hh₁ : Settled h₁) (hh₂ : Settled h₂) : Settled (h₁ ++ h₂) := by
  induction h₁ with
  | nil => exact hh₂
  | cons e h ih =>
    refine ⟨fun reason he => ?_, ih hh₁.2⟩
    exact (hh₁.1 reason he).mono (List.subset_append_left _ _)

theorem Settled.settles {r : Unit} (hsettled : Settled (h₁ ++ ⟨.warnRefused reason, r⟩ :: h₂)) :
    Settles reason h₂ := by
  induction h₁ with
  | nil => exact hsettled.1 reason rfl
  | cons e h ih => exact ih hsettled.2

theorem settled_of_quiet (hquiet : ∀ e ∈ h, Quiet e.1) : Settled h := by
  induction h with
  | nil => trivial
  | cons e h ih =>
    exact ⟨fun reason he => absurd he (hquiet e List.mem_cons_self reason),
      ih (fun e' he' => hquiet e' (List.mem_cons_of_mem e he'))⟩

/-- Any call may be made. -/
def anyAsked (_ : List (Exchanged (ScanAnswer Row))) (_ : ScanCall) : Prop := True

theorem meets_quiet {α : Type} {p : Prog (ScanAnswer Row) α} (hp : Only Quiet p) (hh : Settled h) :
    Meets history anyAsked (fun h _ => Settled h) h p := by
  refine hp.meets (fun _ _ _ _ => trivial) (fun h c r h' hsettled hc hstep => ?_) hh
  have hh' : h' = h ++ [⟨c, r⟩] := hstep
  rw [hh']
  refine hsettled.append ⟨fun reason he => absurd he (hc reason), trivial⟩

/-- Calls that warn of no refusal, with a failed page among them where `failed`. -/
def ReadCalls (failed : Prop) (h h' : List (Exchanged (ScanAnswer Row))) : Prop :=
  ∃ t, h' = h ++ t ∧ (∀ e ∈ t, Quiet e.1) ∧
    (failed → ∃ request e, ⟨.page request, .error e⟩ ∈ t)

theorem ReadCalls.nil {failed : Prop} (hnot : ¬ failed) (h : List (Exchanged (ScanAnswer Row))) :
    ReadCalls failed h h :=
  ⟨[], (List.append_nil h).symm, fun _ he => absurd he (by simp), fun hf => absurd hf hnot⟩

theorem ReadCalls.cons {failed : Prop} {e : Exchanged (ScanAnswer Row)} (he : Quiet e.1)
    (hcalls : ReadCalls failed (h ++ [e]) h₁) : ReadCalls failed h h₁ := by
  obtain ⟨t, rfl, hquiet, hfailed⟩ := hcalls
  refine ⟨e :: t, by simp, List.forall_mem_cons.2 ⟨he, hquiet⟩, fun hf => ?_⟩
  obtain ⟨request, err, hmem⟩ := hfailed hf
  exact ⟨request, err, List.mem_cons_of_mem _ hmem⟩

theorem quiet_page (request : PageRequest) : Quiet (.page request) := by
  intro reason h
  cases h

theorem quiet_update (update : MemoUpdate) : Quiet (.updateMemo update) := by
  intro reason h
  cases h

theorem meets_pages {cap pagesLeft : Nat} {eventual : Bool} {out : List Row} {nextLink : Option Text} :
    Meets history anyAsked (fun h' result => ReadCalls (∃ e, result = .error e) h h') h
      (collectPages cap eventual pagesLeft out nextLink) := by
  induction pagesLeft using Nat.strong_induction_on generalizing out nextLink h with
  | _ pagesLeft ih =>
    unfold collectPages
    split
    · split
      · exact Meets.pure (.nil (by simp) h)
      · split
        · exact Meets.pure (.nil (by simp) h)
        · next link pagesLeft =>
          refine Meets.bind (Meets.remember trivial (fun answer => ?_))
          cases answer with
          | error e =>
            refine ⟨[_], rfl, fun e he => ?_, fun _ => ⟨_, e, List.mem_singleton_self _⟩⟩
            rw [List.mem_singleton.1 he]
            exact quiet_page _
          | ok page =>
            exact (ih pagesLeft (Nat.lt_succ_self _)).mono (fun _ _ h => h.cons (quiet_page _))
    · exact Meets.pure (.nil (by simp) h)

theorem meets_serialRest_calls {probe : Paged Row} {cap : Nat} {strategy : Strategy} :
    Meets history anyAsked (fun h' result => ReadCalls (∃ e, result = .error e) h h') h
      (serialRest probe cap strategy) := by
  refine Meets.bind (meets_pages.mono (fun h' result hcalls => ?_))
  obtain ⟨t, ht, hquiet, hfailed⟩ := hcalls
  cases result with
  | error e => exact ⟨t, ht, hquiet, fun _ => hfailed ⟨e, rfl⟩⟩
  | ok read => exact ⟨t, ht, hquiet, fun h => absurd h (by simp)⟩

/-! ## Scans that read a pinned memo -/

/-- A call of a serial read: no count, no slice, no merge. -/
def SerialCall : ScanCall → Prop
  | .readMemo => True
  | .updateMemo update => update = .pin
  | .page .first => True
  | .page (.next _ eventual) => eventual = false
  | .page (.slice _ _) => False
  | .count | .firstFailure _ | .warnRefused _ => False

theorem only_collectPages {cap pagesLeft : Nat} {eventual : Bool} {out : List Row} {nextLink : Option Text} :
    Only (fun call => ∃ link, call = ScanCall.page (.next link eventual))
      (collectPages cap eventual pagesLeft out nextLink) := by
  induction pagesLeft using Nat.strong_induction_on generalizing out nextLink with
  | _ pagesLeft ih =>
    unfold collectPages
    split
    · split
      · exact Only.pure
      · split
        · exact Only.pure
        · next link pagesLeft =>
          refine Only.bind (Only.call ⟨_, rfl⟩) (fun answer => ?_)
          cases answer with
          | error e => exact Only.pure
          | ok page => exact ih pagesLeft (Nat.lt_succ_self _)
    · exact Only.pure

theorem only_serialRest {probe : Paged Row} {cap : Nat} {strategy : Strategy} :
    Only SerialCall (serialRest probe cap strategy) := by
  refine Only.bind (only_collectPages.weaken ?_) (fun result => ?_)
  · rintro _ ⟨link, rfl⟩
    rfl
  · cases result with
    | error e | ok read => exact Only.pure

theorem quiet_of_serialCall {call : ScanCall} (hcall : SerialCall call) : Quiet call := by
  rintro reason rfl
  exact hcall

theorem meets_serialRest_settled {probe : Paged Row} {cap : Nat} {strategy : Strategy} (hh : Settled h) :
    Meets history anyAsked (fun h _ => Settled h) h (serialRest probe cap strategy) :=
  meets_quiet (only_serialRest.weaken (fun _ => quiet_of_serialCall)) hh

variable [DirectoryRow Row]

theorem only_scanRest {cap : Nat} {known : Option SliceMode}
    {probe : Except GraphError (Paged Row)} : Only SerialCall (scanRest cap known probe none) := by
  cases probe with
  | error e => exact Only.pure
  | ok page =>
    refine Only.bind ?_ (fun result => ?_)
    · unfold finishScan
      split
      · exact only_serialRest
      · exact only_serialRest
    · cases result with
      | error e => exact Only.pure
      | ok scanned =>
        dsimp only
        split
        · exact Only.bind (Only.call rfl) (fun _ => Only.pure)
        · exact Only.pure

/-- The scan has yet to read the memo, or has found it pinned. -/
def ReadsSerially (p : Prog (ScanAnswer Row) (Except GraphError (Scanned Row))) : Prop :=
  isScan p ∨ Only SerialCall p

theorem readsSerially_call {c : ScanCall}
    {next : ScanAnswer Row c → Prog (ScanAnswer Row) (Except GraphError (Scanned Row))}
    (h : ReadsSerially (.ask c next)) : SerialCall c := by
  rcases h with ⟨cap, hscan⟩ | honly
  · obtain ⟨rfl, -⟩ := Prog.ask.inj hscan
    trivial
  · exact honly.1

theorem readsSerially_step {memo memo' : SliceMemo} {c : ScanCall} {r : ScanAnswer Row c}
    {next : ScanAnswer Row c → Prog (ScanAnswer Row) (Except GraphError (Scanned Row))}
    (hworld : memoWorld memo c r memo') (hpinned : memo.mode = some .serial)
    (h : ReadsSerially (.ask c next)) : ReadsSerially (next r) := by
  rcases h with ⟨cap, hscan⟩ | honly
  · obtain ⟨rfl, hnext⟩ := Prog.ask.inj hscan
    obtain rfl := eq_of_heq hnext
    obtain ⟨rfl, -⟩ := hworld
    right
    show Only SerialCall (if r.mode = some .serial then _ else _)
    rw [if_pos hpinned]
    exact Only.bind (Only.call trivial) (fun _ => only_scanRest)
  · exact Or.inr (honly.2 r)

theorem pinned_iff (hrun : Run ScanStep Scans.initial tr pool) :
    Pinned tr ↔ pool.shared.mode = some .serial := by
  rw [memo_eq_updates hrun]
  rfl

/-- Every scan reads serially, or it read the memo before it was pinned. -/
theorem readsSerially_or (hrun : Run ScanStep Scans.initial tr pool) :
    ∀ i p, pool.threads[i]? = some p → ReadsSerially p ∨ ReadUnpinned i tr := by
  induction hrun with
  | nil => exact fun i p hp => absurd hp (by simp [Scans.initial])
  | @snoc tr t u e hpre hs ih =>
    intro i p hp
    cases hs with
    | @start s ts q hq =>
      by_cases hlt : i < ts.length
      · rw [List.getElem?_append_left hlt] at hp
        exact (ih i p hp).imp_right (fun h => h.snoc _)
      · rw [List.getElem?_append_right (not_lt.1 hlt)] at hp
        obtain rfl : p = q := List.mem_singleton.1 (List.mem_of_getElem? hp)
        exact Or.inl (Or.inl hq)
    | @call s s' ts j c next r hthread hworld =>
      by_cases hij : j = i
      · subst hij
        have hlt : j < ts.length := (List.getElem?_eq_some_iff.1 hthread).1
        rw [List.getElem?_set_self hlt] at hp
        obtain rfl := Option.some.inj hp
        rcases ih j _ hthread with hserial | hread
        · by_cases hpinned : s.mode = some .serial
          · exact Or.inl (readsSerially_step hworld hpinned hserial)
          · rcases hserial with ⟨cap, hscan⟩ | honly
            · obtain ⟨rfl, -⟩ := Prog.ask.inj hscan
              exact Or.inr ⟨tr, r, [], rfl, fun h => hpinned ((pinned_iff hpre).1 h)⟩
            · exact Or.inl (Or.inr (honly.2 r))
        · exact Or.inr (hread.snoc _)
      · rw [List.getElem?_set_ne hij] at hp
        exact (ih i p hp).imp_right (fun h => h.snoc _)

/-- Only a merge of a scan that read the memo before the pin takes the pin back. -/
theorem mergesBehindPin_of_lost {u : Scans Row} {e : ScanEvent Row}
    (hrun : Run ScanStep Scans.initial tr pool) (hstep : ScanStep pool e u)
    (hlost : ¬ KeepsPin pool e) : MergesBehindPin (tr ++ [e]) := by
  unfold KeepsPin at hlost
  push Not at hlost
  obtain ⟨update, hupdate, hserial, hlost⟩ := hlost
  cases hstep with
  | start hp => exact absurd hupdate (by simp [updateOf])
  | @call s s' ts i c next r hthread hworld =>
    cases c with
    | readMemo | page _ | count | firstFailure _ | warnRefused _ =>
      exact absurd hupdate (by simp [updateOf])
    | updateMemo u =>
      obtain rfl : u = update := by simpa [updateOf] using hupdate
      have hvalidated : u.isValidated = true := by
        by_contra hother
        exact hlost (apply_serial hserial (by simpa using hother))
      cases u with
      | pin | refused _ _ _ => exact absurd hvalidated (by simp [MemoUpdate.isValidated])
      | validated mode =>
        rcases readsSerially_or hrun i _ hthread with hreads | ⟨a, memo, rest, rfl, hunpinned⟩
        · exact absurd (readsSerially_call hreads) (by simp [SerialCall])
        · -- the memo was pinned between the read and this merge
          have hread : ¬ Pinned (a ++ [.call i ⟨.readMemo, memo⟩]) := by
            unfold Pinned
            rw [memoAfter_snoc]
            exact hunpinned
          have hnow : Pinned (a ++ [.call i ⟨.readMemo, memo⟩] ++ rest) := by
            rw [List.append_assoc]
            exact (pinned_iff hrun).2 hserial
          obtain ⟨before, pin, after, rfl, hbefore, hpin⟩ := exists_pin hread hnow
          refine ⟨i, a, memo, before, pin, after, mode, r, [], ?_, by simp, ?_, ?_⟩
          · rintro rfl
            exact hlost rfl
          · simpa using hbefore
          · simpa using hpin

theorem run_keepsPin (hrun₁ : Run ScanStep Scans.initial tr₁ pool₁)
    (hrun₂ : Run ScanStep pool₁ tr₂ pool₂) (hmerges : ¬ MergesBehindPin (tr₁ ++ tr₂)) :
    Run (fun s e t => ScanStep s e t ∧ KeepsPin s e) pool₁ tr₂ pool₂ := by
  induction hrun₂ with
  | nil => exact .nil
  | @snoc tr t u e hpre hs ih =>
    rw [← List.append_assoc] at hmerges
    refine .snoc (ih (fun h => hmerges (h.append _))) ⟨hs, ?_⟩
    by_contra hlost
    exact hmerges (mergesBehindPin_of_lost (hrun₁.append hpre) hs hlost)

/-- Where every step keeps the pin, it is there from then on. -/
theorem pinned_of_keepsPin
    (hrun : Run (fun s e t => ScanStep s e t ∧ KeepsPin s e) Scans.initial tr pool) :
    ∀ tr₁ tr₂, tr₁ ++ tr₂ <+: tr → Pinned tr₁ → Pinned (tr₁ ++ tr₂) := by
  induction hrun with
  | nil =>
    intro tr₁ tr₂ hprefix hpinned
    obtain ⟨rfl, rfl⟩ := List.append_eq_nil_iff.1 (List.prefix_nil.1 hprefix)
    exact hpinned
  | @snoc tr t u e hpre hs ih =>
    intro tr₁ tr₂ hprefix hpinned
    rcases List.prefix_concat_iff.1 hprefix with heq | hprefix
    · rcases List.eq_nil_or_concat tr₂ with rfl | ⟨tr₃, e', rfl⟩
      · rwa [List.append_nil]
      · rw [List.concat_eq_append, ← List.append_assoc] at heq ⊢
        obtain ⟨rfl, he⟩ := List.append_inj' heq rfl
        obtain rfl : e' = e := by simpa using he
        have hbefore := ih tr₁ tr₃ (List.prefix_refl _) hpinned
        unfold Pinned
        rw [memoAfter_snoc]
        cases hupdate : updateOf e' with
        | none => exact hbefore
        | some update =>
          have hmemo := memo_eq_updates (hpre.mono (fun _ _ _ h => h.1))
          have hkeep := hs.2 update hupdate
          rw [hmemo] at hkeep
          exact hkeep hbefore
    · exact ih tr₁ tr₂ hprefix hpinned

theorem keepsPin_iff (hrun : Run ScanStep Scans.initial tr pool) :
    Run (fun s e t => ScanStep s e t ∧ KeepsPin s e) Scans.initial tr pool ↔
      ¬ MergesBehindPin tr := by
  constructor
  · rintro hkeep ⟨i, a, memo, b, pin, c, mode, r, d, hmode, rfl, -, hpin⟩
    have hmerged := pinned_of_keepsPin hkeep _ (c ++ [.call i ⟨.updateMemo (.validated mode), r⟩])
      ⟨d, by simp⟩ hpin
    unfold Pinned at hmerged
    rw [← List.append_assoc, memoAfter_snoc] at hmerged
    exact hmode (Option.some.inj hmerged)
  · exact run_keepsPin .nil hrun

/-- From a pinned memo on: it stays pinned, and the scans that start make a serial read's calls. -/
theorem serialCalls_of_pinned (hpinned : pool₁.shared.mode = some .serial)
    (hrun : Run (fun s e t => ScanStep s e t ∧ KeepsPin s e) pool₁ tr pool₂) :
    pool₂.shared.mode = some .serial ∧
      ∀ i e, .call i e ∈ tr → pool₁.threads.length ≤ i → SerialCall e.1 := by
  have hkeep : ∀ i (pool : Scans Row) c r memo', memoWorld pool.shared c r memo' →
      KeepsPin pool (.call i ⟨c, r⟩) → pool.shared.mode = some .serial →
      memo'.mode = some .serial := by
    intro i pool c r memo' hworld hkeeps hserial
    rw [memoWorld_step hworld]
    cases c with
    | updateMemo update => exact hkeeps update rfl hserial
    | readMemo | page _ | count | firstFailure _ | warnRefused _ => exact hserial
  have hthreads : ∀ {pool'' : Scans Row} {tr' : List (ScanEvent Row)},
      Run (fun s e t => ScanStep s e t ∧ KeepsPin s e) pool₁ tr' pool'' →
      ∀ i p, pool₁.threads.length ≤ i → pool''.threads[i]? = some p → ReadsSerially p := by
    intro pool'' tr' hrun'
    refine Pool.invariant (fun memo => memo.mode = some .serial) (fun _ _ p => ReadsSerially p)
      hkeep (fun i memo p hp _ => Or.inl hp) (fun i memo c next r memo' hworld hserial h => ?_)
      (fun j i pool c next r memo' p _ _ _ _ _ h => h) hpinned (fun i p hi hp => ?_) hrun'
    · exact readsSerially_step hworld hserial h
    · exact absurd (List.getElem?_eq_some_iff.1 hp).1 (by omega)
  refine ⟨Pool.shared_invariant (fun memo => memo.mode = some .serial) hkeep hpinned hrun, ?_⟩
  induction hrun with
  | nil => exact fun i e he => absurd he (by simp)
  | snoc hpre hs ih =>
    intro i e he hi
    rcases List.mem_append.1 he with he | he
    · exact ih i e he hi
    · obtain ⟨hstep, -⟩ := hs
      rw [← List.mem_singleton.1 he] at hstep
      cases hstep with
      | call hthread hworld => exact readsSerially_call (hthreads hpre i _ hi hthread)

/-! ## What a scan does about a refusal -/

section Settling

variable {h : List (Exchanged (ScanAnswer Row))} {probe : Paged Row} {cap : Nat} {refused : Refused}

theorem meets_refuseRest_calls :
    Meets history anyAsked
      (fun h' _ => ∃ t, h' = h ++ t ∧ (∀ e ∈ t, Quiet e.1) ∧ Recorded refused.reason t) h
      (refuseRest probe cap refused) := by
  refine Meets.bind (meets_serialRest_calls.mono (fun h' result hcalls => ?_))
  obtain ⟨t, rfl, hquiet, hfailed⟩ := hcalls
  cases result with
  | error e => exact ⟨t, rfl, hquiet, Or.inl (hfailed ⟨e, rfl⟩)⟩
  | ok scanned =>
    refine Meets.bind (Meets.remember trivial (fun r => ?_))
    refine ⟨t ++ [⟨.updateMemo (judge refused scanned), r⟩], by simp, fun e he => ?_, ?_⟩
    · rcases List.mem_append.1 he with he | he
      · exact hquiet e he
      · rw [List.mem_singleton.1 he]
        exact quiet_update _
    · exact Or.inr ⟨_, _, List.mem_append_right _ (List.mem_singleton_self _)⟩

theorem meets_refuse_settled (hh : Settled h) :
    Meets history anyAsked (fun h _ => Settled h) h (refuse probe cap refused) := by
  refine Meets.bind (Meets.remember trivial (fun _ => ?_))
  split
  · refine Meets.bind (Meets.remember trivial (fun _ => ?_))
    refine meets_refuseRest_calls.mono (fun h' _ hrest => ?_)
    obtain ⟨t, rfl, hquiet, hrecorded⟩ := hrest
    rw [List.append_assoc, List.append_assoc]
    refine hh.append ⟨fun reason heq => ?_, fun reason heq => absurd heq (by simp), settled_of_quiet hquiet⟩
    obtain rfl : refused.reason = reason := by simpa using heq
    exact ⟨fun _ => List.mem_cons_self, hrecorded.mono (List.subset_cons_self _ _)⟩
  · next hnot =>
    refine meets_refuseRest_calls.mono (fun h' _ hrest => ?_)
    obtain ⟨t, rfl, hquiet, hrecorded⟩ := hrest
    rw [List.append_assoc]
    refine hh.append ⟨fun reason heq => ?_, settled_of_quiet hquiet⟩
    obtain rfl : refused.reason = reason := by simpa using heq
    exact ⟨fun hs => absurd hs hnot, hrecorded⟩

theorem only_readSlice {advanced : Bool} {start : Char} :
    Only Quiet (readSlice cap advanced start : Prog (ScanAnswer Row) _) := by
  refine Only.bind (Only.call (quiet_page _)) (fun answer => ?_)
  rcases answer with (_ | _ | _) | page
  all_goals try exact Only.pure
  dsimp only
  split
  · exact Only.pure
  · refine Only.bind (only_collectPages.weaken ?_) (fun result => ?_)
    · rintro _ ⟨link, rfl⟩
      exact quiet_page _
    · cases result with
      | error e | ok read => exact Only.pure

theorem only_readSlices {mode : SliceMode} : Only Quiet (readSlices cap mode : Prog (ScanAnswer Row) _) := by
  refine Only.bind (Only.joinAll (fun p hp => ?_)) (fun results => ?_)
  · obtain ⟨start, -, rfl⟩ := List.mem_map.1 hp
    exact only_readSlice
  · split
    · exact Only.pure
    · refine Only.bind (Only.call ?_) (fun _ => Only.pure)
      intro reason h
      cases h

theorem meets_tryModes_settled {known : Option SliceMode} {count : Nat} {modes : List SliceMode}
    (hh : Settled h) :
    Meets history anyAsked (fun h _ => Settled h) h (tryModes probe known count cap modes) := by
  induction modes generalizing h with
  | nil =>
    unfold tryModes
    split
    · exact meets_refuse_settled hh
    · exact Meets.bind ((meets_quiet (Only.call (quiet_update _)) hh).mono
        (fun _ _ hh => meets_serialRest_settled hh))
  | cons mode modes ih =>
    refine Meets.bind ((meets_quiet only_readSlices hh).mono (fun h result hh => ?_))
    rcases result with ⟨_ | _ | err⟩ | slices
    · exact ih hh
    · exact meets_refuse_settled hh
    · dsimp only
      split
      · exact meets_refuse_settled hh
      · exact hh
    · dsimp only
      split
      · exact meets_refuse_settled hh
      · exact meets_quiet (Only.bind (Only.call (quiet_update _)) (fun _ => Only.pure)) hh

theorem meets_finishScan_settled {known : Option SliceMode}
    {count : Option (Except GraphError Nat)} (hh : Settled h) :
    Meets history anyAsked (fun h _ => Settled h) h (finishScan probe count known cap) := by
  unfold finishScan
  split
  · exact meets_serialRest_settled hh
  · split
    · exact meets_serialRest_settled hh
    · exact meets_serialRest_settled hh
    · dsimp only
      split
      · exact meets_serialRest_settled hh
      · split
        · exact meets_serialRest_settled hh
        · split
          · exact meets_refuse_settled hh
          · exact meets_tryModes_settled hh

theorem meets_scanRest_settled {known : Option SliceMode} {first : Except GraphError (Paged Row)}
    {count : Option (Except GraphError Nat)} (hh : Settled h) :
    Meets history anyAsked (fun h _ => Settled h) h (scanRest cap known first count) := by
  cases first with
  | error e => exact hh
  | ok probe =>
    refine Meets.bind ((meets_finishScan_settled hh).mono (fun h result hh => ?_))
    cases result with
    | error e => exact hh
    | ok scanned =>
      dsimp only
      split
      · exact meets_quiet (Only.bind (Only.call (quiet_update _)) (fun _ => Only.pure)) hh
      · exact hh

theorem meets_scan_settled :
    Meets history anyAsked (fun h _ => Settled h) []
      (scanDirectoryCapped cap : Prog (ScanAnswer Row) _) := by
  have hquiet : ∀ {call : ScanCall}, (∀ reason, call ≠ .warnRefused reason) →
      ∀ h : List (Exchanged (ScanAnswer Row)), Settled h →
      Meets history anyAsked (fun h _ => Settled h) h (Prog.call call) :=
    fun hcall h hh => meets_quiet (Only.call hcall) hh
  refine Meets.bind ((hquiet (by simp) [] trivial).mono (fun h memo hh => ?_))
  split
  · exact Meets.bind ((hquiet (by simp) h hh).mono (fun h _ hh => meets_scanRest_settled hh))
  · refine Meets.bind ((hquiet (by simp) h hh).mono (fun h _ hh => ?_))
    exact Meets.bind ((hquiet (by simp) h hh).mono (fun h _ hh => meets_scanRest_settled hh))

theorem settled_of_returned (hrun : Run ScanStep Scans.initial tr pool) {i : Nat}
    {result : Except GraphError (Scanned Row)} (hreturned : pool.threads[i]? = some (.done result)) :
    Settled (Pool.exchangesOf i tr) := by
  have hfree : Run (fun s e t => Pool.Step isScan memoWorld s e t ∧ True) Scans.initial tr pool :=
    hrun.mono (fun _ _ _ h => ⟨h, trivial⟩)
  obtain ⟨p, hp, hfollows⟩ := (Pool.follows hfree).2 i _ hreturned
  obtain ⟨cap, rfl⟩ := Pool.starts_of_startsOf hfree (List.mem_of_getElem? hp)
  exact meets_scan_settled.follows hfollows

end Settling

/-! ## What the refusals of a run do -/

theorem settles_of_refused (hrun : Run ScanStep Scans.initial (before ++ since) pool)
    {kind : Refusal → Bool} (hrefused : RefusedIn pool since kind i) :
    ∃ reason, kind reason = true ∧
      (reason.isStructural = true → .call i ⟨.updateMemo .pin, ()⟩ ∈ since) ∧
      (reason.isStructural = false → ¬ FallbackFails (before ++ since) →
        ∃ structural complete,
          .call i ⟨.updateMemo (.refused reason structural complete), ()⟩ ∈ since) := by
  obtain ⟨⟨reason, r, hkind, hwarn⟩, result, hreturned⟩ := hrefused
  obtain ⟨front, behind, rfl⟩ := List.append_of_mem hwarn
  have hsettled := settled_of_returned hrun hreturned
  have hsplit : Pool.exchangesOf i (before ++ (front ++ .call i ⟨.warnRefused reason, r⟩ :: behind)) =
      Pool.exchangesOf i (before ++ front) ++ ⟨.warnRefused reason, r⟩ :: Pool.exchangesOf i behind := by
    simp [Pool.exchangesOf, Pool.Event.of]
  rw [hsplit] at hsettled
  obtain ⟨hpin, hrecorded⟩ := hsettled.settles
  have hin : ∀ e, e ∈ Pool.exchangesOf i behind →
      .call i e ∈ front ++ .call i ⟨.warnRefused reason, r⟩ :: behind := fun e he =>
    List.mem_append_right _ (List.mem_cons_of_mem _ (Pool.mem_of_mem_exchangesOf he))
  refine ⟨reason, hkind, fun hs => hin _ (hpin hs), fun hs hfallback => ?_⟩
  rcases hrecorded with ⟨request, e, hfailed⟩ | ⟨structural, complete, hmem⟩
  · refine absurd ⟨i, reason, r, before ++ front, behind, request, e, hs, by simp, ?_⟩ hfallback
    exact Pool.mem_of_mem_exchangesOf hfailed
  · exact ⟨structural, complete, hin _ hmem⟩

/-- Where no serial read behind a refusal fails: since the last validated merge, a structural update
    or refusal, `maxLagRefusals` lag refusals that were not cleared, or `maxTransientRefusals`
    throttled waves leave the memo pinned. -/
theorem pinned_of_refused (hrun : Run ScanStep Scans.initial (before ++ since) pool)
    (hfallback : ¬ FallbackFails (before ++ since)) (hsince : ∀ u ∈ updatesOf since, u.isValidated = false)
    (hreached : (∃ u ∈ updatesOf since, u.isStructural = true) ∨
      (∃ i, RefusedIn pool since Refusal.isStructural i) ∨
      (∃ scans : List Nat, scans.Nodup ∧ maxLagRefusals ≤ scans.length ∧
        ∀ i ∈ scans, RefusedIn pool since Refusal.isLag i ∧ ¬ ClearedIn since i) ∨
      ∃ scans : List Nat, scans.Nodup ∧ maxTransientRefusals ≤ scans.length ∧
        ∀ i ∈ scans, RefusedIn pool since Refusal.isTransient i) :
    pool.shared.mode = some .serial := by
  have hmemo := memo_eq_updates hrun
  unfold updatesOf at hmemo
  rw [List.filterMap_append, List.foldl_append] at hmemo
  rw [hmemo]
  by_cases hstructural : ∃ u ∈ updatesOf since, u.isStructural = true
  · exact foldl_serial_of_structural hsince hstructural
  have hplain : ∀ {i update r}, .call i ⟨.updateMemo update, r⟩ ∈ since →
      update.isStructural = false := by
    intro i update r hmem
    by_contra hs
    exact hstructural ⟨update, List.mem_filterMap.2 ⟨_, hmem, rfl⟩, by simpa using hs⟩
  rcases hreached with h | ⟨i, hi⟩ | ⟨scans, hnodup, hbound, hscans⟩ | ⟨scans, hnodup, hbound, hscans⟩
  · exact absurd h hstructural
  · obtain ⟨reason, hs, hpin, -⟩ := settles_of_refused hrun hi
    exact absurd (hplain (hpin hs)) (by simp [MemoUpdate.isStructural])
  · refine foldl_serial_of_lag hsince (hbound.trans (le_countP_of_scans hnodup (fun i hi => ?_)))
    obtain ⟨hrefused, hcleared⟩ := hscans i hi
    obtain ⟨reason, hlag, -, hrecord⟩ := settles_of_refused hrun hrefused
    obtain ⟨hnot, htransient⟩ : reason.isStructural = false ∧ reason.isTransient = false := by
      simpa [Refusal.isLag] using hlag
    obtain ⟨structural, complete, hmem⟩ := hrecord hnot hfallback
    obtain rfl : structural = false := hplain hmem
    have hcomplete : complete = false := by
      cases complete with
      | false => rfl
      | true => exact absurd ⟨reason, false, (), hmem⟩ hcleared
    exact ⟨_, (), by simp [MemoUpdate.isUnclearedLag, htransient, hcomplete], hmem⟩
  · refine foldl_serial_of_throttled hsince (hbound.trans (le_countP_of_scans hnodup (fun i hi => ?_)))
    obtain ⟨reason, htransient, -, hrecord⟩ := settles_of_refused hrun (hscans i hi)
    have hnot : reason.isStructural = false := by
      cases reason <;> first | rfl | exact absurd htransient (by decide)
    obtain ⟨structural, complete, hmem⟩ := hrecord hnot hfallback
    obtain rfl : structural = false := hplain hmem
    exact ⟨_, (), by simp [MemoUpdate.isThrottled, htransient], hmem⟩

/-- No step takes a pin back exactly in the runs with no merge behind a pin; a pinned memo then stays
    pinned, and a scan started on it reads serially. The memo is pinned where, since the last
    validated merge, a scan was refused structurally, `maxLagRefusals` scans for lag that was not
    cleared, or `maxTransientRefusals` scans were throttled, and no serial read behind a refusal
    failed. -/
theorem pinned_collection_stays_pinned (hrun₁ : Run ScanStep Scans.initial tr₁ pool₁)
    (hrun₂ : Run ScanStep pool₁ tr₂ pool₂) :
    (Run (fun s e t => ScanStep s e t ∧ KeepsPin s e) Scans.initial (tr₁ ++ tr₂) pool₂ ↔
      ¬ MergesBehindPin (tr₁ ++ tr₂)) ∧
    (¬ MergesBehindPin (tr₁ ++ tr₂) → pool₁.shared.mode = some .serial →
      pool₂.shared.mode = some .serial ∧
      ∀ i e, .call i e ∈ tr₂ → pool₁.threads.length ≤ i → SerialCall e.1) ∧
    (¬ FallbackFails tr₁ → ∀ before since, tr₁ = before ++ since →
      (∀ u ∈ updatesOf since, u.isValidated = false) →
      (∃ u ∈ updatesOf since, u.isStructural = true) ∨
        (∃ i, RefusedIn pool₁ since Refusal.isStructural i) ∨
        (∃ scans : List Nat, scans.Nodup ∧ maxLagRefusals ≤ scans.length ∧
          ∀ i ∈ scans, RefusedIn pool₁ since Refusal.isLag i ∧ ¬ ClearedIn since i) ∨
        (∃ scans : List Nat, scans.Nodup ∧ maxTransientRefusals ≤ scans.length ∧
          ∀ i ∈ scans, RefusedIn pool₁ since Refusal.isTransient i) →
      pool₁.shared.mode = some .serial) := by
  refine ⟨keepsPin_iff (hrun₁.append hrun₂), fun hmerges hpinned => ?_, ?_⟩
  · exact serialCalls_of_pinned hpinned (run_keepsPin hrun₁ hrun₂ hmerges)
  · rintro hfallback before since rfl hsince hreached
    exact pinned_of_refused hrun₁ hfallback hsince hreached

/-! ## Two overlapping scans -/

/-- Page one of scan 1 holds a row without `appId`; scan 0 slices the four rows of `sparse`. -/
def overlapFirst (i : Nat) : Paged Entry :=
  if i = 0 then sparse.page 0 else ⟨[⟨['5'], []⟩], some ['x']⟩

/-- `merges memo` says whether a scan comes to record its merge on the memo. -/
def serveOverlap (merges : SliceMemo → Bool) (i : Nat) (memo : SliceMemo) :
    (c : ScanCall) → Option (ScanAnswer Entry c × SliceMemo)
  | .readMemo => some (memo, memo)
  | .updateMemo update =>
    if update.isValidated && !merges memo then none else some ((), update.apply memo)
  | .page .first => some (.ok (overlapFirst i), memo)
  | .page request =>
    some (.ok ⟨if request = .slice '0' false then sparse.rows else [], none⟩, memo)
  | .count => some (.ok 4, memo)
  | .firstFailure others => some (Fin.last others, memo)
  | .warnRefused _ => some ((), memo)

theorem serveOverlap_world {merges : SliceMemo → Bool} {i : Nat} {memo memo' : SliceMemo}
    {c : ScanCall} {r : ScanAnswer Entry c} (h : serveOverlap merges i memo c = some (r, memo')) :
    memoWorld memo c r memo' := by
  cases c with
  | readMemo =>
    obtain ⟨rfl, rfl⟩ := Prod.mk.inj (Option.some.inj h)
    exact ⟨rfl, rfl⟩
  | page request =>
    cases request <;>
      (obtain ⟨rfl, rfl⟩ := Prod.mk.inj (Option.some.inj h); rfl)
  | updateMemo update =>
    have h' : (if (update.isValidated && !merges memo) = true then none
      else some ((), update.apply memo)) = some (r, memo') := h
    split at h'
    · exact absurd h' (by simp)
    · obtain ⟨rfl, rfl⟩ := Prod.mk.inj (Option.some.inj h')
      rfl
  | count | firstFailure _ | warnRefused _ =>
    obtain ⟨rfl, rfl⟩ := Prod.mk.inj (Option.some.inj h)
    rfl

/-- Both scans have started. -/
def overlapping : Scans Entry :=
  ⟨SliceMemo.default, [scanDirectoryCapped 10, scanDirectoryCapped 10]⟩

theorem run_overlapping :
    ∃ tr, Run (fun s e t => ScanStep s e t ∧ KeepsPin s e) Scans.initial tr overlapping := by
  have hscans : ∀ p ∈ [scanDirectoryCapped 10, scanDirectoryCapped 10], @isScan Entry _ p := by
    simp [isScan]
  exact ⟨_, Pool.run_of_started memoWorld (fun _ _ _ h => absurd h (by simp [updateOf])) hscans _ []⟩

/-- Scan 0 reads its slices; scan 1 then finds the collection cannot be sliced, and pins it. -/
def untilPinned : List Nat := List.replicate 19 0 ++ List.replicate 5 1

theorem validated_merge_undoes_pin :
    ¬ ∀ (pool₁ pool₂ : Scans Entry) (tr₁ tr₂ : List (ScanEvent Entry)),
      Run ScanStep Scans.initial tr₁ pool₁ → Run ScanStep pool₁ tr₂ pool₂ →
      pool₁.shared.mode = some .serial → pool₂.shared.mode = some .serial := by
  intro hclaim
  have hplay : ((Pool.play (serveOverlap (fun _ => true)) untilPinned overlapping).bind (fun pool₁ =>
    (Pool.play (serveOverlap (fun _ => true)) [0] pool₁).map (fun pool₂ =>
      (pool₁.shared.mode, pool₂.shared.mode)))) = some (some .serial, some .plain) := by
    decide +kernel
  obtain ⟨pool₁, hplay₁, hrest⟩ := Option.bind_eq_some_iff.1 hplay
  obtain ⟨pool₂, hplay₂, hmodes⟩ := Option.map_eq_some_iff.1 hrest
  obtain ⟨hpinned, hplain⟩ := Prod.mk.inj hmodes
  have hruns : ∀ {schedule : List Nat} {pool pool' : Scans Entry},
      Pool.play (serveOverlap (fun _ => true)) schedule pool = some pool' →
      ∃ tr, Run ScanStep pool tr pool' := by
    intro schedule pool pool' hplay
    obtain ⟨tr, hrun⟩ := Pool.run_of_play isScan memoWorld (fun _ _ => True)
      (fun i s c r s' h => ⟨serveOverlap_world h, fun _ => trivial⟩) hplay
    exact ⟨tr, hrun.mono (fun _ _ _ h => h.1)⟩
  obtain ⟨tr₀, hrun₀⟩ := run_overlapping
  obtain ⟨tr₁, hrun₁⟩ := hruns hplay₁
  obtain ⟨tr₂, hrun₂⟩ := hruns hplay₂
  have hserial := hclaim pool₁ pool₂ _ _ ((hrun₀.mono (fun _ _ _ h => h.1)).append hrun₁) hrun₂ hpinned
  exact absurd (hplain.symm.trans hserial) (by decide)

/-- Scan 0 merges its slices, and only then does scan 1 pin the collection. -/
def mergedFirst : List Nat := List.replicate 20 0 ++ List.replicate 5 1

theorem run_keeping {schedule : List Nat} {pool pool' : Scans Entry}
    (hplay : Pool.play (serveOverlap (fun memo => memo.mode ≠ some .serial)) schedule pool =
      some pool') :
    ∃ tr, Run (fun s e t => ScanStep s e t ∧ KeepsPin s e) pool tr pool' := by
  refine Pool.run_of_play isScan memoWorld KeepsPin (fun i memo c r memo' h => ?_) hplay
  refine ⟨serveOverlap_world h, fun ts update hupdate hserial => ?_⟩
  cases c with
  | readMemo | page _ | count | firstFailure _ | warnRefused _ => exact absurd hupdate (by simp [updateOf])
  | updateMemo u =>
    obtain rfl : u = update := by simpa [updateOf] using hupdate
    refine apply_serial hserial ?_
    by_contra hvalidated
    simp [serveOverlap, hvalidated, show memo.mode = some .serial from hserial] at h

theorem pinned_scan_stays_pinned :
    ∃ (pool₁ pool₂ : Scans Entry) (tr₁ tr₂ : List (ScanEvent Entry)),
      Run ScanStep Scans.initial tr₁ pool₁ ∧ Run ScanStep pool₁ tr₂ pool₂ ∧
      ¬ MergesBehindPin (tr₁ ++ tr₂) ∧ pool₁.shared.mode = some .serial ∧
      pool₂.shared.mode = some .serial := by
  have hplay : ((Pool.play (serveOverlap (fun memo => memo.mode ≠ some .serial)) mergedFirst
      overlapping).bind (fun pool₁ => (Pool.play (serveOverlap (fun memo => memo.mode ≠ some .serial))
        [1, 1] pool₁).map (fun _ => pool₁.shared.mode))) = some (some .serial) := by decide +kernel
  obtain ⟨pool₁, hplay₁, hrest⟩ := Option.bind_eq_some_iff.1 hplay
  obtain ⟨pool₂, hplay₂, hpinned⟩ := Option.map_eq_some_iff.1 hrest
  obtain ⟨tr₀, hrun₀⟩ := run_overlapping
  obtain ⟨tr₁, hkeep₁⟩ := run_keeping hplay₁
  obtain ⟨tr₂, hkeep₂⟩ := run_keeping hplay₂
  have hkeep := hrun₀.append hkeep₁
  have hrun₁ := hkeep.mono (fun _ _ _ h => h.1)
  have hrun₂ := hkeep₂.mono (fun _ _ _ h => h.1)
  have hspec := pinned_collection_stays_pinned hrun₁ hrun₂
  have hmerges := hspec.1.1 (hkeep.append hkeep₂)
  exact ⟨pool₁, pool₂, _, _, hrun₁, hrun₂, hmerges, hpinned, (hspec.2.1 hmerges hpinned).1⟩

end Graph
