import AzAppToolkit.Bulk.Dispatch

set_option autoImplicit false

/-! # Fan-outs of reads

What the tenant sweeps share: a gate that a Cancel and a dead session close, tasks that read, and a
collector that folds what they bring. The two flags are set by anyone at any time and never cleared, so
a task that saw one of them leaves it set for whoever reads it later.

`Sweep.dispatched` is the rule: everything that was dispatched has ended, the collector's state is the
fold of what the tasks brought, and each of these is what its task may report. -/

namespace Bulk

open Prog

/-- The cancel token of a run and its dead-session latch. -/
structure Flags where
  cancelled : Bool
  dead : Bool

/-- Nothing is cleared. -/
def Flags.Grows (f f' : Flags) : Prop :=
  (f.cancelled = true → f'.cancelled = true) ∧ (f.dead = true → f'.dead = true)

theorem Flags.Grows.refl (f : Flags) : f.Grows f := ⟨id, id⟩

/-- The steps of a sweep; `Extra` are those that are its own. -/
inductive FanCall (T Extra : Type) where
  | limit
  | isCancelled
  | isDead
  | noteCode (code : Text)
  | spawn (item : T)
  /-- `in_flight.next().await`, with tasks in flight. -/
  | next (inFlight : List T)
  | other (c : Extra)

section Sweep

variable {T R Extra : Type} {ExtraAnswer : Extra → Type} {σ α : Type}

abbrev FanAnswer (T R : Type) {Extra : Type} (ExtraAnswer : Extra → Type) : FanCall T Extra → Type
  | .limit => Nat
  | .isCancelled => Bool
  | .isDead => Bool
  | .noteCode _ => Unit
  | .spawn _ => Unit
  | .next _ => Nat × Option R
  | .other c => ExtraAnswer c

/-- What the tasks of a sweep may report of their items, with the flags as they leave them, and which
    answers its own calls get. -/
structure Sweep (T R : Type) {Extra : Type} (ExtraAnswer : Extra → Type) where
  reports : T → Flags → R → Prop
  reports_of_grows : ∀ {t f f' r}, f.Grows f' → reports t f r → reports t f' r
  answers : Exchanged ExtraAnswer → Prop

/-- The flags, and what was asked and answered so far. -/
structure FanState (T R : Type) {Extra : Type} (ExtraAnswer : Extra → Type) where
  flags : Flags
  history : List (Exchanged (FanAnswer T R ExtraAnswer))

/-- What is known of an answer, from the flags before and after. -/
def Sweep.Honest (w : Sweep T R ExtraAnswer) (f f' : Flags) : Exchanged (FanAnswer T R ExtraAnswer) → Prop
  | ⟨.isCancelled, r⟩ => if r then f'.cancelled = true else f.cancelled = false
  | ⟨.isDead, r⟩ => if r then f'.dead = true else f.dead = false
  | ⟨.noteCode code, _⟩ => isReauthFatal code = true → f'.dead = true
  | ⟨.next inFlight, (i, r)⟩ => ∃ item, inFlight[i]? = some item ∧ ∀ res, r = some res → w.reports item f' res
  | ⟨.other c, r⟩ => w.answers ⟨c, r⟩
  | _ => True

def Sweep.world (w : Sweep T R ExtraAnswer) :
    World (FanAnswer T R ExtraAnswer) (FanState T R ExtraAnswer) := fun s c r s' =>
  s.flags.Grows s'.flags ∧ w.Honest s.flags s'.flags ⟨c, r⟩ ∧ s'.history = s.history ++ [⟨c, r⟩]

/-! ## Programs -/

def fanLimit : Prog (FanAnswer T R ExtraAnswer) Nat := call FanCall.limit

def fanCancelled : Prog (FanAnswer T R ExtraAnswer) Bool := call FanCall.isCancelled

def fanDead : Prog (FanAnswer T R ExtraAnswer) Bool := call FanCall.isDead

def fanNext (inFlight : List T) : Prog (FanAnswer T R ExtraAnswer) (Nat × Option R) :=
  call (FanCall.next inFlight)

def fanOther (c : Extra) : Prog (FanAnswer T R ExtraAnswer) (ExtraAnswer c) := call (FanCall.other c)

/-- The gate: `cancel.is_cancelled() || session.is_dead()` stops dispatch. -/
def fanGate (s : σ) (item : T) : Prog (FanAnswer T R ExtraAnswer) (σ × Bool) := do
  let cancelled ← fanCancelled
  if cancelled then .done (s, false)
  else do
    let dead ← fanDead
    if dead then .done (s, false)
    else do
      call (FanCall.spawn item)
      .done (s, true)

/-- A sweep's fan-out, from its collector. -/
def sweepFanOut (cap : Prog (FanAnswer T R ExtraAnswer) Nat)
    (collect : σ → Option R → Prog (FanAnswer T R ExtraAnswer) σ) :
    FanOut (FanAnswer T R ExtraAnswer) T R σ where
  cap := cap
  spawn := fanGate
  next := fanNext
  collect := collect

/-- Note the code of every failure. -/
def noteCodes : List Text → Prog (FanAnswer T R ExtraAnswer) Unit
  | [] => .done ()
  | code :: codes => do
      call (FanCall.noteCode code)
      noteCodes codes

/-! ## Histories -/

def spawnOf : Exchanged (FanAnswer T R ExtraAnswer) → Option T
  | ⟨.spawn item, _⟩ => some item
  | _ => none

def joinOf : Exchanged (FanAnswer T R ExtraAnswer) → Option (T × Option R)
  | ⟨.next inFlight, (i, r)⟩ => inFlight[i]?.map (fun item => (item, r))
  | _ => none

/-- The items dispatched, in order. -/
def FanState.spawned (s : FanState T R ExtraAnswer) : List T := s.history.filterMap spawnOf

/-- The tasks that have ended, with what they brought. -/
def FanState.joined (s : FanState T R ExtraAnswer) : List (T × Option R) := s.history.filterMap joinOf

/-- A call that starts no task and joins none; `own` are the sweep's own calls it may be. -/
def isQuiet (own : Extra → Prop) : FanCall T Extra → Prop
  | .spawn _ => False
  | .next _ => False
  | .other c => own c
  | _ => True

variable {w : Sweep T R ExtraAnswer} {P : Extra → Prop}

variable {c : FanCall T Extra} {r : FanAnswer T R ExtraAnswer c}

theorem spawned_of_world {s s' : FanState T R ExtraAnswer} (hw : w.world s c r s') :
    s'.spawned = s.spawned ++ (spawnOf ⟨c, r⟩).toList := by
  unfold FanState.spawned
  rw [hw.2.2, List.filterMap_append]
  cases he : spawnOf (⟨c, r⟩ : Exchanged (FanAnswer T R ExtraAnswer)) with
  | none | some item => simp [he]

theorem joined_of_world {s s' : FanState T R ExtraAnswer} (hw : w.world s c r s') :
    s'.joined = s.joined ++ (joinOf ⟨c, r⟩).toList := by
  unfold FanState.joined
  rw [hw.2.2, List.filterMap_append]
  cases he : joinOf (⟨c, r⟩ : Exchanged (FanAnswer T R ExtraAnswer)) with
  | none | some item => simp [he]

theorem quiet_of_world {s s' : FanState T R ExtraAnswer}
    (hc : isQuiet P c) (hw : w.world s c r s') : s'.spawned = s.spawned ∧ s'.joined = s.joined := by
  rw [spawned_of_world hw, joined_of_world hw]
  cases c with
  | spawn item | next inFlight => exact hc.elim
  | _ => simp [spawnOf, joinOf]

/-! ## The invariant -/

/-- What holds of a sweep, with `started` dispatched and `inFlight` still running. -/
structure Sweep.Running (w : Sweep T R ExtraAnswer) (fold : σ → Option R → σ) (s₀ : σ)
    (started inFlight : List T) (s : σ) (h : FanState T R ExtraAnswer) : Prop where
  spawned : h.spawned = started
  joined : (h.joined.map Prod.fst ++ inFlight).Perm started
  folded : s = (h.joined.map Prod.snd).foldl fold s₀
  reported : ∀ t r, (t, some r) ∈ h.joined → w.reports t h.flags r

variable {fold : σ → Option R → σ} {s₀ : σ} {started inFlight : List T} {s : σ}
  {h h' : FanState T R ExtraAnswer}

theorem Sweep.Running.of_eq (hrun : w.Running fold s₀ started inFlight s h)
    (hspawned : h'.spawned = h.spawned) (hjoined : h'.joined = h.joined)
    (hgrows : h.flags.Grows h'.flags) : w.Running fold s₀ started inFlight s h' := by
  refine ⟨?_, ?_, ?_, ?_⟩
  · rw [hspawned]
    exact hrun.spawned
  · rw [hjoined]
    exact hrun.joined
  · rw [hjoined]
    exact hrun.folded
  · intro t r hmem
    rw [hjoined] at hmem
    exact w.reports_of_grows hgrows (hrun.reported t r hmem)

theorem Sweep.Running.quiet (hrun : w.Running fold s₀ started inFlight s h)
    (hc : isQuiet P c) (hw : w.world h c r h') : w.Running fold s₀ started inFlight s h' :=
  hrun.of_eq (quiet_of_world hc hw).1 (quiet_of_world hc hw).2 hw.1

theorem Sweep.Running.ask (hrun : w.Running fold s₀ started inFlight s h)
    (hspawn : ∀ r, spawnOf (⟨c, r⟩ : Exchanged (FanAnswer T R ExtraAnswer)) = none)
    (hjoin : ∀ r, joinOf (⟨c, r⟩ : Exchanged (FanAnswer T R ExtraAnswer)) = none) (hw : w.world h c r h') :
    w.Running fold s₀ started inFlight s h' := by
  refine hrun.of_eq ?_ ?_ hw.1
  · rw [spawned_of_world hw, hspawn]
    simp
  · rw [joined_of_world hw, hjoin]
    simp

/-- The task at `i` ends. -/
theorem Sweep.Running.join (hrun : w.Running fold s₀ started inFlight s h) {i : Nat} {r : Option R}
    (hw : w.world h (.next inFlight) (i, r) h') :
    i < inFlight.length ∧ w.Running fold s₀ started (inFlight.eraseIdx i) (fold s r) h' := by
  obtain ⟨item, hitem, hreports⟩ : ∃ item, inFlight[i]? = some item ∧
    ∀ res, r = some res → w.reports item h'.flags res := hw.2.1
  have hi : i < inFlight.length := (List.getElem?_eq_some_iff.1 hitem).1
  have hj : h'.joined = h.joined ++ [(item, r)] := by
    rw [joined_of_world hw]
    simp [joinOf, hitem]
  refine ⟨hi, ?_, ?_, ?_, ?_⟩
  · rw [spawned_of_world hw]
    simpa [spawnOf] using hrun.spawned
  · rw [hj, List.map_append, List.append_assoc]
    refine .trans (List.Perm.append_left _ ?_) hrun.joined
    have hget : inFlight[i] = item := (List.getElem?_eq_some_iff.1 hitem).2
    have hperm := List.getElem_cons_eraseIdx_perm hi
    rw [hget] at hperm
    exact hperm
  · rw [hj, List.map_append, List.foldl_append, ← hrun.folded]
    rfl
  · intro t res hmem
    rw [hj] at hmem
    rcases List.mem_append.1 hmem with hmem | hmem
    · exact w.reports_of_grows hw.1 (hrun.reported t res hmem)
    · obtain ⟨rfl, rfl⟩ := Prod.mk.inj (List.mem_singleton.1 hmem)
      exact hreports res rfl

/-- A task is started. -/
theorem Sweep.Running.spawn (hrun : w.Running fold s₀ started inFlight s h) {item : T} {r : Unit}
    (hw : w.world h (.spawn item) r h') :
    w.Running fold s₀ (started ++ [item]) (inFlight ++ [item]) s h' := by
  have hj : h'.joined = h.joined := by
    rw [joined_of_world hw]
    simp [joinOf]
  refine ⟨?_, ?_, ?_, ?_⟩
  · rw [spawned_of_world hw, hrun.spawned]
    rfl
  · rw [hj, ← List.append_assoc]
    exact hrun.joined.append_right [item]
  · rw [hj]
    exact hrun.folded
  · intro t res hmem
    rw [hj] at hmem
    exact w.reports_of_grows hw.1 (hrun.reported t res hmem)

/-- A collector: it starts and joins nothing, and folds the result into the state. -/
structure Folds (own : Extra → Prop) (fold : σ → Option R → σ)
    (collect : σ → Option R → Prog (FanAnswer T R ExtraAnswer) σ) : Prop where
  quiet : ∀ s r, Only (isQuiet own) (collect s r)
  ends : ∀ s r, Ends (fun _ => True) (fun s' => s' = fold s r) (collect s r)

theorem allowed_of_isQuiet {ok : FanState T R ExtraAnswer → FanCall T Extra → Prop}
    (hok : ∀ h c, (∀ e, c = .other e → P e) → ok h c) (h : FanState T R ExtraAnswer)
    (hc : isQuiet P c) : ok h c := by
  refine hok h c (fun e heq => ?_)
  rw [heq] at hc
  exact hc

/-- The closures of a sweep keep its state in order; `ok` restricts none of the calls they make. -/
theorem sweepFanOut_keeps (w : Sweep T R ExtraAnswer) (s₀ : σ)
    {ok : FanState T R ExtraAnswer → FanCall T Extra → Prop} (hok : ∀ h c, (∀ e, c = .other e → P e) → ok h c)
    {cap : Prog (FanAnswer T R ExtraAnswer) Nat} (hcap : Only (isQuiet P) cap)
    {collect : σ → Option R → Prog (FanAnswer T R ExtraAnswer) σ} (hcollect : Folds P fold collect) :
    (sweepFanOut cap collect).Keeps w.world ok (w.Running fold s₀) (fun _ _ => True) where
  cap := by
    intro started inFlight s h hrun
    refine (hcap.meets (fun h _ _ hc => allowed_of_isQuiet hok h hc) (fun _ _ _ _ hrun hc hw => ?_)
      hrun).mono (fun h' n hrun' => ⟨trivial, hrun'⟩)
    exact Sweep.Running.quiet hrun hc hw
  spawn := by
    intro started inFlight s h n item hrun _ _
    refine Meets.bind ⟨hok _ _ (by simp), fun cancelled h₁ hw₁ => ?_⟩
    have hrun₁ := hrun.ask (c := .isCancelled) (fun _ => rfl) (fun _ => rfl) hw₁
    cases cancelled with
    | true => exact .inl ⟨rfl, trivial, hrun₁⟩
    | false =>
      refine Meets.bind ⟨hok _ _ (by simp), fun dead h₂ hw₂ => ?_⟩
      have hrun₂ := hrun₁.ask (c := .isDead) (fun _ => rfl) (fun _ => rfl) hw₂
      cases dead with
      | true => exact .inl ⟨rfl, trivial, hrun₂⟩
      | false => exact ⟨hok _ _ (by simp), fun r h₃ hw₃ => .inr ⟨rfl, hrun₂.spawn hw₃⟩⟩
  join := by
    intro started inFlight s h _ hrun
    refine Meets.bind ⟨hok _ _ (by simp), fun joined h₁ hw₁ => ?_⟩
    obtain ⟨hi, hrun₁⟩ := hrun.join (i := joined.1) (r := joined.2) hw₁
    have hkeep : ∀ h₂ c r h₃, w.Running fold s₀ started (inFlight.eraseIdx joined.1)
        (fold s joined.2) h₂ → isQuiet P c → w.world h₂ c r h₃ →
        w.Running fold s₀ started (inFlight.eraseIdx joined.1) (fold s joined.2) h₃ :=
      fun _ _ _ _ hrun₂ hc hw => hrun₂.quiet hc hw
    refine Meets.bind (((hcollect.quiet s joined.2).meets_ends (hcollect.ends s joined.2)
      (fun h _ _ hc => allowed_of_isQuiet hok h hc) hkeep hrun₁).mono (fun h₂ s' hs' => ?_))
    exact ⟨hi, hs'.2 ▸ hs'.1⟩

/-- A whole dispatch: everything dispatched has ended, and it is everything unless the gate closed. -/
theorem Sweep.dispatched (w : Sweep T R ExtraAnswer) (s₀ : σ)
    (ok : FanState T R ExtraAnswer → FanCall T Extra → Prop) (hok : ∀ h c, (∀ e, c = .other e → P e) → ok h c)
    (cap : Prog (FanAnswer T R ExtraAnswer) Nat) (hcap : Only (isQuiet P) cap)
    {collect : σ → Option R → Prog (FanAnswer T R ExtraAnswer) σ} (hcollect : Folds P fold collect)
    (items : List T) (hspawned : h.spawned = []) (hjoined : h.joined = []) :
    Meets w.world ok (fun h' r => ∃ started, started <+: items ∧
        (r.1 = false → started = items) ∧ w.Running fold s₀ started [] r.2 h') h
      ((sweepFanOut cap collect).dispatchCapped items s₀) := by
  have hstart : w.Running fold s₀ [] [] s₀ h :=
    ⟨hspawned, by rw [hjoined]; exact .refl _, by rw [hjoined]; rfl,
      fun t r hmem => absurd hmem (by rw [hjoined]; simp)⟩
  refine ((sweepFanOut_keeps w s₀ hok hcap hcollect).dispatchCapped (n := 1) items hstart trivial
    (Nat.le_refl 1)).mono (fun h' r hr => ?_)
  obtain ⟨started, hpre, hrun, hall⟩ := hr
  exact ⟨started, hpre, hall, hrun⟩

/-! ## Runs -/

/-- A service that answers from the flags, and leaves them. -/
def FanState.serve (answers : Flags → (c : FanCall T Extra) → Option (FanAnswer T R ExtraAnswer c))
    (s : FanState T R ExtraAnswer) (c : FanCall T Extra) :
    Option (FanAnswer T R ExtraAnswer c × FanState T R ExtraAnswer) :=
  (answers s.flags c).map (fun r => (r, ⟨s.flags, s.history ++ [⟨c, r⟩]⟩))

theorem Sweep.world_of_serve (w : Sweep T R ExtraAnswer)
    {answers : Flags → (c : FanCall T Extra) → Option (FanAnswer T R ExtraAnswer c)}
    (hanswers : ∀ f c r, answers f c = some r → w.Honest f f ⟨c, r⟩) (s : FanState T R ExtraAnswer)
    (c : FanCall T Extra) (r : FanAnswer T R ExtraAnswer c) (s' : FanState T R ExtraAnswer)
    (hserve : FanState.serve answers s c = some (r, s')) : w.world s c r s' := by
  obtain ⟨r', hr', heq⟩ := Option.map_eq_some_iff.1 hserve
  obtain ⟨rfl, rfl⟩ := Prod.mk.inj heq
  exact ⟨.refl _, hanswers _ _ _ hr', rfl⟩

end Sweep

end Bulk
