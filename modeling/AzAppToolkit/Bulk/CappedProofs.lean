import AzAppToolkit.Bulk.Capped

set_option autoImplicit false

/-! # What a capped bulk run accounts for

The driver's steps, with what it asked and was answered as the state: tasks are dispatched in the order
of the items, every one of them joins once, and the outcomes are those that were joined with one. Ids
are another matter: a join without an outcome carries none, and `lost` is found by a difference of sets
of ids, so that a lost task is missed when another task of the same id has reported. -/

namespace Bulk

open Prog

/-- A command that runs capped: what its items are called, and what their tasks may report. -/
structure CappedCommand (T O : Type) where
  out : CappedOutcome O
  idOf : T → Text
  reports : T → O → Prop
  objectId_of_reports : ∀ t o, reports t o → out.objectId o = idOf t

section Histories

variable {T O : Type}

def Spawned : Exchanged (BulkAnswer T O) → Option T
  | ⟨.spawn item, _⟩ => some item
  | _ => none

def Joined : Exchanged (BulkAnswer T O) → Option (T × Option O)
  | ⟨.next inFlight, (i, r)⟩ => inFlight[i]?.map (fun item => (item, r))
  | _ => none

def LimitRead : Exchanged (BulkAnswer T O) → Option Nat
  | ⟨.limit, n⟩ => some n
  | _ => none

abbrev BulkHistory (T O : Type) := List (Exchanged (BulkAnswer T O))

/-- The items dispatched so far, in order. -/
def spawnedIn (h : BulkHistory T O) : List T := h.filterMap Spawned

/-- The tasks that have ended so far, with their outcomes. -/
def joinedIn (h : BulkHistory T O) : List (T × Option O) := h.filterMap Joined

/-- The cap the dispatch loop goes by. -/
def lastLimit (h : BulkHistory T O) : Option Nat := (h.filterMap LimitRead).getLast?

def inFlightIn (h : BulkHistory T O) : Nat := (spawnedIn h).length - (joinedIn h).length

/-- Any one of the tasks in flight is the next to end, with an outcome of its item or with none. -/
def CappedCommand.honest (cmd : CappedCommand T O) : Exchanged (BulkAnswer T O) → Prop
  | ⟨.next inFlight, (i, r)⟩ =>
    ∃ item, inFlight[i]? = some item ∧ ∀ o, r = some o → cmd.reports item o
  | _ => True

def CappedCommand.world (cmd : CappedCommand T O) :
    World (BulkAnswer T O) (BulkHistory T O) := trusted cmd.honest

/-- Neither a task is started nor one joined, and no cap is read. -/
def IsQuiet (e : Exchanged (BulkAnswer T O)) : Prop :=
  Spawned e = none ∧ Joined e = none ∧ LimitRead e = none

theorem spawnedIn_snoc (h : BulkHistory T O) (e : Exchanged (BulkAnswer T O)) :
    spawnedIn (h ++ [e]) = spawnedIn h ++ (Spawned e).toList := by
  unfold spawnedIn
  rw [List.filterMap_append]
  cases he : Spawned e with
  | none | some item => simp [he]

theorem joinedIn_snoc (h : BulkHistory T O) (e : Exchanged (BulkAnswer T O)) :
    joinedIn (h ++ [e]) = joinedIn h ++ (Joined e).toList := by
  unfold joinedIn
  rw [List.filterMap_append]
  cases he : Joined e with
  | none | some item => simp [he]

theorem lastLimit_snoc (h : BulkHistory T O) (e : Exchanged (BulkAnswer T O)) :
    lastLimit (h ++ [e]) = (LimitRead e).or (lastLimit h) := by
  unfold lastLimit
  rw [List.filterMap_append]
  cases he : LimitRead e with
  | none | some n => simp [he]

end Histories

/-! ## The loops -/

section Loops

variable {T O : Type} {cmd : CappedCommand T O} {total : Nat} {α : Type}

/-- What holds of the driver's state, with `started` dispatched and `inFlight` not joined yet. -/
structure Running (cmd : CappedCommand T O) (started : List T) (h : BulkHistory T O)
    (inFlight : List T) (s : BulkState O) : Prop where
  spawned : spawnedIn h = started
  dispatched : s.dispatched = started.map cmd.idOf
  joined : ((joinedIn h).map Prod.fst ++ inFlight).Perm started
  outcomes : s.outcomes = (joinedIn h).filterMap Prod.snd
  reported : ∀ t o, (t, some o) ∈ joinedIn h → cmd.reports t o

/-- The cap was last read as `n`. -/
def CapRead (n : Nat) (h : BulkHistory T O) : Prop := (lastLimit h).getD 1 = n

/-- A task is only started where there is room. -/
def spawnOk (h : BulkHistory T O) (c : BulkCall T) : Prop :=
  ∀ item, c = .spawn item → inFlightIn h + 1 ≤ max 1 ((lastLimit h).getD 1)

variable {started inFlight : List T} {h : BulkHistory T O} {s : BulkState O}

theorem Running.quiet (hrun : Running cmd started h inFlight s) {e : Exchanged (BulkAnswer T O)}
    (hspawned : Spawned e = none) (hjoined : Joined e = none) :
    Running cmd started (h ++ [e]) inFlight s := by
  have hj : joinedIn (h ++ [e]) = joinedIn h := by rw [joinedIn_snoc, hjoined]; simp
  refine ⟨?_, hrun.dispatched, ?_, ?_, ?_⟩
  · rw [spawnedIn_snoc, hspawned]
    simpa using hrun.spawned
  · rw [hj]
    exact hrun.joined
  · rw [hj]
    exact hrun.outcomes
  · rw [hj]
    exact hrun.reported

theorem lastLimit_quiet {e : Exchanged (BulkAnswer T O)} (he : LimitRead e = none) :
    lastLimit (h ++ [e]) = lastLimit h := by
  rw [lastLimit_snoc, he]
  simp

theorem inFlightIn_of_running (hrun : Running cmd started h inFlight s) : inFlightIn h = inFlight.length := by
  have hlen := hrun.joined.length_eq
  rw [List.length_append, List.length_map] at hlen
  unfold inFlightIn
  rw [hrun.spawned]
  omega

/-- A task is started. -/
theorem Running.spawn (hrun : Running cmd started h inFlight s) (item : T) (r : Unit) :
    Running cmd (started ++ [item]) (h ++ [⟨.spawn item, r⟩]) (inFlight ++ [item])
      { s with dispatched := s.dispatched ++ [cmd.idOf item] } := by
  have hj : joinedIn (h ++ [⟨.spawn item, r⟩]) = joinedIn h := by
    rw [joinedIn_snoc]
    simp [Joined]
  refine ⟨?_, ?_, ?_, ?_, ?_⟩
  · rw [spawnedIn_snoc, hrun.spawned]
    rfl
  · rw [hrun.dispatched, List.map_append]
    rfl
  · rw [hj, ← List.append_assoc]
    exact hrun.joined.append_right [item]
  · rw [hj]
    exact hrun.outcomes
  · rw [hj]
    exact hrun.reported

/-- The task at `i` joins. -/
theorem Running.join (hrun : Running cmd started h inFlight s) {i : Nat} {item : T}
    (hitem : inFlight[i]? = some item) (r : Option O) (hr : ∀ o, r = some o → cmd.reports item o) :
    Running cmd started (h ++ [⟨.next inFlight, (i, r)⟩]) (inFlight.eraseIdx i)
      { s with outcomes := s.outcomes ++ r.toList } := by
  have hi : i < inFlight.length := (List.getElem?_eq_some_iff.1 hitem).1
  have hj : joinedIn (h ++ [⟨.next inFlight, (i, r)⟩]) = joinedIn h ++ [(item, r)] := by
    rw [joinedIn_snoc]
    simp [Joined, hitem]
  refine ⟨?_, hrun.dispatched, ?_, ?_, ?_⟩
  · rw [spawnedIn_snoc]
    simpa [Spawned] using hrun.spawned
  · rw [hj, List.map_append, List.append_assoc]
    refine .trans (List.Perm.append_left _ ?_) hrun.joined
    have hget : inFlight[i] = item := (List.getElem?_eq_some_iff.1 hitem).2
    have hperm := List.getElem_cons_eraseIdx_perm hi
    rw [hget] at hperm
    exact hperm
  · rw [hj, List.filterMap_append, hrun.outcomes]
    cases r with
    | none | some o => simp
  · intro t o hmem
    rw [hj] at hmem
    rcases List.mem_append.1 hmem with hmem | hmem
    · exact hrun.reported t o hmem
    · obtain ⟨rfl, rfl⟩ := Prod.mk.inj (List.mem_singleton.1 hmem)
      exact hr o rfl

/-- Nothing but flags, counts and events since `h₀`. -/
def Kept (cmd : CappedCommand T O) (started : List T) (h₀ : BulkHistory T O) (inFlight : List T)
    (s : BulkState O) (h : BulkHistory T O) : Prop :=
  lastLimit h = lastLimit h₀ ∧ Running cmd started h inFlight s

theorem Kept.capRead {h₀ : BulkHistory T O} {n : Nat} (hkept : Kept cmd started h₀ inFlight s h)
    (hcap : CapRead n h₀) : CapRead n h := by
  unfold CapRead
  rw [hkept.1]
  exact hcap

/-- A call that starts no task, joins none and reads no cap. -/
theorem meets_quiet {c : BulkCall T} {h₀ : BulkHistory T O}
    (hquiet : ∀ r, IsQuiet (⟨c, r⟩ : Exchanged (BulkAnswer T O))) (hc : ∀ item, c ≠ .spawn item)
    (hkept : Kept cmd started h₀ inFlight s h) :
    Meets cmd.world spawnOk (fun h' _ => Kept cmd started h₀ inFlight s h') h
      (call c : BulkSteps T O _) := by
  refine ⟨fun item heq => absurd heq (hc item), fun r h' hstep => ?_⟩
  rw [hstep.2]
  exact ⟨(lastLimit_quiet (hquiet r).2.2).trans hkept.1, hkept.2.quiet (hquiet r).1 (hquiet r).2.1⟩

/-- What is made of a joined task: its outcome, if it has one, is kept. -/
theorem meets_collectJoined {r : Option O} {h₀ : BulkHistory T O}
    (hkept : Kept cmd started h₀ inFlight { s with outcomes := s.outcomes ++ r.toList } h) :
    Meets cmd.world spawnOk (fun h' s' => Kept cmd started h₀ inFlight s' h') h
      (collectJoined cmd.out total s r) := by
  have hnote : ∀ h, Kept cmd started h₀ inFlight { s with outcomes := s.outcomes ++ r.toList } h →
      Meets cmd.world spawnOk (fun h' noted => Kept cmd started h₀ inFlight noted.1 h') h
        (noteJoined cmd.out s r) := by
    intro h hkept
    cases r with
    | none =>
      rw [Option.toList_none, List.append_nil] at hkept
      exact hkept
    | some o => exact Meets.bind ((meets_quiet (fun _ => ⟨rfl, rfl, rfl⟩) (fun _ => by simp) hkept).mono
        (fun _ _ hkept => hkept))
  refine Meets.bind ((meets_quiet (fun _ => ⟨rfl, rfl, rfl⟩) (fun _ => by simp) hkept).mono
    (fun h₁ ticked hkept₁ => ?_))
  refine Meets.bind ((hnote h₁ hkept₁).mono (fun h₂ noted hkept₂ => ?_))
  refine Meets.bind ((meets_quiet (fun _ => ⟨rfl, rfl, rfl⟩) (fun _ => by simp) hkept₂).mono
    (fun h₃ cancelled hkept₃ => ?_))
  exact Meets.bind ((meets_quiet (fun _ => ⟨rfl, rfl, rfl⟩) (fun _ => by simp) hkept₃).mono
    (fun h₄ _ hkept₄ => hkept₄))

/-- One task joins: it leaves, and its outcome is kept. -/
theorem meets_joinOne (hrun : Running cmd started h inFlight s) :
    Meets cmd.world spawnOk (fun h' r => r.1 < inFlight.length ∧
        Kept cmd started h (inFlight.eraseIdx r.1) r.2 h') h
      ((bulkFanOut cmd.out cmd.idOf total).joinOne inFlight s) := by
  refine Meets.bind ⟨fun _ heq => absurd heq (by simp), fun r h' hstep => ?_⟩
  obtain ⟨⟨item, hitem, hreports⟩, rfl⟩ := hstep
  have hkept : Kept cmd started h (inFlight.eraseIdx r.1)
      { s with outcomes := s.outcomes ++ r.2.toList } (h ++ [⟨.next inFlight, r⟩]) :=
    ⟨lastLimit_quiet rfl, hrun.join hitem r.2 hreports⟩
  refine Meets.bind ((meets_collectJoined hkept).mono (fun h' s' hkept' => ?_))
  exact ⟨(List.getElem?_eq_some_iff.1 hitem).1, hkept'⟩

/-- The closures of the driver keep its state in order. -/
theorem bulkFanOut_keeps (cmd : CappedCommand T O) (total : Nat) :
    (bulkFanOut cmd.out cmd.idOf total).Keeps cmd.world spawnOk
      (fun started inFlight s h => Running cmd started h inFlight s) CapRead where
  cap := by
    intro started inFlight s h hrun
    refine ⟨fun _ heq => absurd heq (by simp), fun limit h' hstep => ?_⟩
    obtain ⟨-, rfl⟩ := hstep
    refine ⟨?_, hrun.quiet rfl rfl⟩
    unfold CapRead
    rw [lastLimit_snoc]
    rfl
  spawn := by
    intro started inFlight s h n item hrun hcap hroom
    have hkept : Kept cmd started h inFlight s h := ⟨rfl, hrun⟩
    refine Meets.bind ((meets_quiet (fun _ => ⟨rfl, rfl, rfl⟩) (fun _ => by simp) hkept).mono
      (fun h₁ cancelled hkept₁ => ?_))
    cases cancelled with
    | true => exact .inl ⟨rfl, hkept₁.capRead hcap, hkept₁.2⟩
    | false =>
      refine Meets.bind ((meets_quiet (c := .isDead) (fun _ => ⟨rfl, rfl, rfl⟩) (fun _ => by simp)
        hkept₁).mono (fun h₂ dead hkept₂ => ?_))
      cases dead with
      | true => exact .inl ⟨rfl, hkept₂.capRead hcap, hkept₂.2⟩
      | false =>
        refine ⟨fun _ _ => ?_, fun r h₃ hstep => ?_⟩
        · have hcap₂ : (lastLimit h₂).getD 1 = n := hkept₂.capRead hcap
          rw [inFlightIn_of_running hkept₂.2, hcap₂]
          exact hroom
        · rw [hstep.2]
          exact .inr ⟨rfl, hkept₂.2.spawn item r⟩
  join := by
    intro started inFlight s h _ hrun
    exact (meets_joinOne hrun).mono (fun _ _ hr => ⟨hr.1, hr.2.2⟩)

/-- A call of the driver outside the loops. -/
theorem meets_plain {c : BulkCall T} {post : BulkHistory T O → BulkAnswer T O c → Prop}
    (hquiet : ∀ r, Spawned (⟨c, r⟩ : Exchanged (BulkAnswer T O)) = none ∧
      Joined (⟨c, r⟩ : Exchanged (BulkAnswer T O)) = none)
    (hc : ∀ item, c ≠ .spawn item) (hrun : Running cmd started h inFlight s)
    (hpost : ∀ h' r, Running cmd started h' inFlight s → post h' r) :
    Meets cmd.world spawnOk post h (call c : BulkSteps T O _) := by
  refine ⟨fun item heq => absurd heq (hc item), fun r h' hstep => ?_⟩
  rw [hstep.2]
  exact hpost _ r (hrun.quiet (hquiet r).1 (hquiet r).2)

theorem meets_stoppedByCancel (stoppedEarly : Bool) (hrun : Running cmd started h inFlight s) :
    Meets cmd.world spawnOk (fun h' _ => Running cmd started h' inFlight s) h
      (stoppedByCancel stoppedEarly : BulkSteps T O Bool) := by
  refine Meets.bind (meets_plain (fun _ => ⟨rfl, rfl⟩) (fun _ => by simp) hrun
    (fun h₁ cancelled hrun₁ => ?_))
  cases cancelled with
  | true => exact hrun₁
  | false =>
    cases stoppedEarly with
    | false => exact hrun₁
    | true => exact Meets.bind (meets_plain (c := .isDead) (fun _ => ⟨rfl, rfl⟩) (fun _ => by simp)
        hrun₁ (fun h₂ _ hrun₂ => hrun₂))

/-- What is known of a run when it has ended. -/
def RunEnd (cmd : CappedCommand T O) (items : List T) (h : BulkHistory T O) (run : CappedRun O) : Prop :=
  ∃ started s, started <+: items ∧ Running cmd started h [] s ∧ run.outcomes = s.outcomes ∧
    run.lost = lostIds cmd.out s ∧ run.dispatched = s.dispatched.length

/-- The whole run: a prefix is dispatched, all of it joins, and the result is read off the joins. -/
theorem meets_runBulkCapped (cmd : CappedCommand T O) (items : List T) :
    Meets cmd.world spawnOk (RunEnd cmd items) [] (runBulkCapped cmd.out cmd.idOf items) := by
  have hstart : Running cmd [] [] [] (⟨[], []⟩ : BulkState O) :=
    ⟨rfl, rfl, .refl _, rfl, fun _ _ hmem => absurd hmem (by simp [joinedIn])⟩
  refine Meets.bind (meets_plain (fun _ => ⟨rfl, rfl⟩) (fun _ => by simp) hstart
    (fun h₁ cap hrun₁ => ?_))
  refine Meets.bind (meets_plain (fun _ => ⟨rfl, rfl⟩) (fun _ => by simp) hrun₁ (fun h₂ _ hrun₂ => ?_))
  have hcap₂ : CapRead ((lastLimit h₂).getD 1) h₂ := rfl
  have hroom₂ : ([] : List T).length + 1 ≤ max 1 ((lastLimit h₂).getD 1) := Nat.le_max_left _ _
  refine Meets.bind (((bulkFanOut_keeps cmd items.length).dispatchCapped items hrun₂ hcap₂ hroom₂).mono
    (fun h₃ dispatch hdispatch => ?_))
  obtain ⟨started, hpre, hrun₃, -⟩ := hdispatch
  refine Meets.bind ((meets_stoppedByCancel dispatch.1 hrun₃).mono (fun h₄ cancelled hrun₄ => ?_))
  refine Meets.bind (meets_plain (fun _ => ⟨rfl, rfl⟩) (fun _ => by simp) hrun₄ (fun h₅ _ hrun₅ => ?_))
  refine Meets.bind (meets_plain (fun _ => ⟨rfl, rfl⟩) (fun _ => by simp) hrun₅ (fun h₆ _ hrun₆ => ?_))
  refine Meets.bind (meets_plain (fun _ => ⟨rfl, rfl⟩) (fun _ => by simp) hrun₆ (fun h₇ _ hrun₇ => ?_))
  exact ⟨started, dispatch.2, hpre, hrun₇, rfl, rfl, rfl⟩

end Loops

end Bulk
