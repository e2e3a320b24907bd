import AzAppToolkit.Lib.Run

set_option autoImplicit false

/-! # The adaptive in-flight cap

`commands/throttle.rs`: a cap on the requests in flight that every 429 may halve, and that one
recovery loop raises again, a permit a tick.

`on_throttle` decides and stores under the lock of the marks, so it is one step. A recovery tick holds
that lock for its quiet check only: the check, the load of the cap and the store of the new one are
three steps, and anything may happen between them.

Modelling choices:
* an instant is a number of nanoseconds, and the clock does not go back; ticks may come at any time,
  one after the other;
* the log lines, and the `Weak` that ends the loop with its run, are left out. -/

namespace Throttle

def minConcurrency : Nat := 1

def halveWindowSecs : Nat := 2

def recoverySecs : Nat := 30

/-- `Duration::as_secs` of the time between two instants. -/
def secsBetween (earlier later : Nat) : Nat := (later - earlier) / 1000000000

structure Marks where
  lastThrottle : Option Nat
  lastHalved : Option Nat

/-- A halving is too recent for another. -/
def Marks.inHalveWindow (marks : Marks) (now : Nat) : Bool :=
  marks.lastHalved.any (fun t => secsBetween t now < halveWindowSecs)

structure ThrottleInner where
  current : Nat
  max : Nat
  marks : Marks

namespace ThrottleInner

def new (initial : Nat) : ThrottleInner := ⟨Nat.max initial minConcurrency, initial, ⟨none, none⟩⟩

def onThrottle (inner : ThrottleInner) (now : Nat) : ThrottleInner :=
  let marks := { inner.marks with lastThrottle := some now }
  if marks.inHalveWindow now then { inner with marks := marks }
  else
    let prev := inner.current
    let next := Nat.max (prev / 2) minConcurrency
    -- at the floor there is nothing to window
    if next < prev then
      { inner with current := next, marks := { marks with lastHalved := some now } }
    else { inner with marks := marks }

/-- The check of a recovery tick: there were events, and the last is long enough ago. -/
def isQuiet (inner : ThrottleInner) (now : Nat) : Bool :=
  inner.marks.lastThrottle.any (fun t => recoverySecs ≤ secsBetween t now)

/-- The store of a recovery tick, by the cap it has loaded. -/
def restore (inner : ThrottleInner) (prev : Nat) : ThrottleInner :=
  let next := min (prev + 1) inner.max
  if prev < next then { inner with current := next } else inner

end ThrottleInner

/-! ## Interleavings -/

/-- How far the recovery loop is. -/
inductive Tick where
  | sleeping
  /-- The check found it quiet. -/
  | quiet
  | loaded (prev : Nat)

structure ConcurrencyThrottle where
  inner : ThrottleInner
  tick : Tick
  clock : Nat

namespace ConcurrencyThrottle

def new (initial : Nat) : ConcurrencyThrottle := ⟨ThrottleInner.new initial, .sleeping, 0⟩

def currentLimit (s : ConcurrencyThrottle) : Nat := s.inner.current

end ConcurrencyThrottle

inductive Event where
  | throttle (now : Nat)
  | check (now : Nat)
  | load
  | store
deriving DecidableEq

inductive Step : ConcurrencyThrottle → Event → ConcurrencyThrottle → Prop
  | throttle {s : ConcurrencyThrottle} {now : Nat} (hclock : s.clock ≤ now) :
      Step s (.throttle now) ⟨s.inner.onThrottle now, s.tick, now⟩
  | check {s : ConcurrencyThrottle} {now : Nat} (htick : s.tick = .sleeping)
      (hclock : s.clock ≤ now) :
      Step s (.check now) ⟨s.inner, if s.inner.isQuiet now then .quiet else .sleeping, now⟩
  | load {s : ConcurrencyThrottle} (htick : s.tick = .quiet) :
      Step s .load ⟨s.inner, .loaded s.inner.current, s.clock⟩
  | store {s : ConcurrencyThrottle} {prev : Nat} (htick : s.tick = .loaded prev) :
      Step s .store ⟨s.inner.restore prev, .sleeping, s.clock⟩

/-! ## What is asked of a step -/

def Event.throttledAt : Event → Option Nat
  | .throttle now => some now
  | _ => none

def Event.checkedAt : Event → Option Nat
  | .check now => some now
  | _ => none

/-- When the last 429 of a run came. -/
def lastThrottle (tr : List Event) : Option Nat := (tr.filterMap Event.throttledAt).getLast?

/-- When the last quiet check of a run was made: the one of the tick under way. -/
def lastCheck (tr : List Event) : Option Nat := (tr.filterMap Event.checkedAt).getLast?

/-- A quiet check of the run came `recoverySecs` after the last 429. -/
def QuietSince (tr : List Event) : Prop :=
  ∃ t c, lastThrottle tr = some t ∧ lastCheck tr = some c ∧ recoverySecs ≤ secsBetween t c

/-- No back-off is lost by the step `e` after the events `tr`. -/
structure KeepsBackOff (tr : List Event) (s : ConcurrencyThrottle) (e : Event)
    (t : ConcurrencyThrottle) : Prop where
  halves : ∀ now, e = .throttle now → s.inner.marks.inHalveWindow now = false →
    t.currentLimit ≤ max 1 (s.currentLimit / 2)
  rises : s.currentLimit < t.currentLimit →
    e = .store ∧ QuietSince tr ∧ t.currentLimit = s.currentLimit + 1

/-- A recovery tick is past its quiet check and about to raise the cap. -/
def Raising (s : ConcurrencyThrottle) : Prop :=
  match s.tick with
  | .sleeping => False
  | .quiet => 1 < s.inner.max
  | .loaded prev => prev < s.inner.max

/-- No 429 comes between the quiet check of a tick and the store it raises the cap with. -/
def Undisturbed (s : ConcurrencyThrottle) (e : Event) : Prop :=
  ∀ now, e = .throttle now → ¬ Raising s

/-! ## The operations -/

section Operations

variable (inner : ThrottleInner) (now prev : Nat)

theorem onThrottle_max : (inner.onThrottle now).max = inner.max := by
  unfold ThrottleInner.onThrottle
  dsimp only
  split
  · rfl
  · split <;> rfl

theorem onThrottle_lastThrottle : (inner.onThrottle now).marks.lastThrottle = some now := by
  unfold ThrottleInner.onThrottle
  dsimp only
  split
  · rfl
  · split <;> rfl

theorem onThrottle_lastHalved {t : Nat} (h : (inner.onThrottle now).marks.lastHalved = some t) :
    t = now ∨ inner.marks.lastHalved = some t := by
  unfold ThrottleInner.onThrottle at h
  dsimp only at h
  split at h
  · exact .inr h
  · split at h
    · exact .inl (Option.some.inj h).symm
    · exact .inr h

/-- An event outside the window. -/
theorem onThrottle_current (h : inner.marks.inHalveWindow now = false) :
    (inner.onThrottle now).current = min inner.current (max 1 (inner.current / 2)) := by
  have hwindow : ({ inner.marks with lastThrottle := some now } : Marks).inHalveWindow now =
      false := h
  unfold ThrottleInner.onThrottle
  dsimp only
  rw [hwindow, if_neg Bool.false_ne_true]
  have hnext : Nat.max (inner.current / 2) minConcurrency = max (inner.current / 2) 1 := rfl
  rw [hnext]
  split
  · show max (inner.current / 2) 1 = _
    omega
  · show inner.current = _
    omega

theorem onThrottle_current_le : (inner.onThrottle now).current ≤ inner.current := by
  unfold ThrottleInner.onThrottle
  dsimp only
  split
  · exact le_refl _
  · split
    · next hless => exact hless.le
    · exact le_refl _

theorem onThrottle_pos (h : 1 ≤ inner.current) : 1 ≤ (inner.onThrottle now).current := by
  unfold ThrottleInner.onThrottle
  dsimp only
  split
  · exact h
  · split
    · exact Nat.le_max_right _ _
    · exact h

theorem restore_eq : inner.restore prev =
    { inner with current := if prev < inner.max then prev + 1 else inner.current } := by
  unfold ThrottleInner.restore
  dsimp only
  by_cases hroom : prev < inner.max
  · have hnext : min (prev + 1) inner.max = prev + 1 := min_eq_left hroom
    rw [hnext, if_pos (Nat.lt_succ_self prev), if_pos hroom]
  · have hnext : ¬ prev < min (prev + 1) inner.max := by omega
    rw [if_neg hnext, if_neg hroom]

end Operations

/-! ## Every run -/

/-- The cap stays between the floor and the initial value. -/
def Bounded (n : Nat) (s : ConcurrencyThrottle) : Prop :=
  s.inner.max = n ∧ 1 ≤ s.currentLimit ∧ s.currentLimit ≤ max n 1

variable {s t : ConcurrencyThrottle}

theorem Bounded.step {n : Nat} {e : Event} (h : Bounded n s) (hstep : Step s e t) : Bounded n t := by
  obtain ⟨hmax, hpos, hle⟩ := h
  cases hstep with
  | throttle hclock =>
    exact ⟨(onThrottle_max _ _).trans hmax, onThrottle_pos _ _ hpos,
      (onThrottle_current_le _ _).trans hle⟩
  | check htick hclock | load htick => exact ⟨hmax, hpos, hle⟩
  | @store prev htick =>
    rw [restore_eq]
    refine ⟨hmax, ?_, ?_⟩
    · show 1 ≤ if prev < s.inner.max then prev + 1 else s.inner.current
      split
      · exact Nat.succ_le_succ (Nat.zero_le prev)
      · exact hpos
    · show (if prev < s.inner.max then prev + 1 else s.inner.current) ≤ max n 1
      split
      · next hroom => exact (hmax ▸ hroom : prev + 1 ≤ n).trans (Nat.le_max_left n 1)
      · exact hle

variable {s : ConcurrencyThrottle} {tr : List Event}

theorem bounded_run {n : Nat} (h : Run Step (ConcurrencyThrottle.new n) tr s) : Bounded n s := by
  refine h.invariant (fun _ s => Bounded n s) ⟨rfl, ?_, le_refl _⟩ (fun _ _ _ _ _ ih => ih.step)
  exact Nat.le_max_right n 1

/-! ## The trace and the marks -/

theorem lastThrottle_append (tr rest : List Event) :
    lastThrottle (tr ++ rest) = (lastThrottle rest).or (lastThrottle tr) := by
  simp [lastThrottle, List.getLast?_append]

theorem lastCheck_append (tr rest : List Event) :
    lastCheck (tr ++ rest) = (lastCheck rest).or (lastCheck tr) := by
  simp [lastCheck, List.getLast?_append]

/-- The mark is the last 429 of the run, no mark lies in the future, and no halving came without a
    429. -/
structure Marked (tr : List Event) (s : ConcurrencyThrottle) : Prop where
  last : s.inner.marks.lastThrottle = lastThrottle tr
  past : ∀ t, lastThrottle tr = some t → t ≤ s.clock
  checked : ∀ c, lastCheck tr = some c → c ≤ s.clock
  halved : ∀ t, s.inner.marks.lastHalved = some t → ∃ t', lastThrottle tr = some t' ∧ t ≤ t'

theorem Marked.step {e : Event} (h : Marked tr s) (hstep : Step s e t) : Marked (tr ++ [e]) t := by
  cases hstep with
  | @throttle now hclock =>
    have hlast : lastThrottle (tr ++ [.throttle now]) = some now := lastThrottle_append _ _
    have hcheck : lastCheck (tr ++ [.throttle now]) = lastCheck tr := lastCheck_append _ _
    refine ⟨(onThrottle_lastThrottle _ _).trans hlast.symm, ?_, ?_, ?_⟩
    · intro t ht
      exact (Option.some.inj (hlast.symm.trans ht)).ge
    · intro c hc
      exact (h.checked c (hcheck ▸ hc)).trans hclock
    · intro t ht
      refine ⟨now, hlast, ?_⟩
      rcases onThrottle_lastHalved _ _ ht with rfl | hold
      · exact le_refl _
      · obtain ⟨t', ht', hle⟩ := h.halved t hold
        exact hle.trans ((h.past t' ht').trans hclock)
  | @check now htick hclock =>
    have hlast : lastThrottle (tr ++ [.check now]) = lastThrottle tr := lastThrottle_append _ _
    have hcheck : lastCheck (tr ++ [.check now]) = some now := lastCheck_append _ _
    refine ⟨h.last.trans hlast.symm, ?_, ?_, hlast ▸ h.halved⟩
    · intro t ht
      exact (h.past t (hlast ▸ ht)).trans hclock
    · intro c hc
      exact (Option.some.inj (hcheck.symm.trans hc)).ge
  | load htick =>
    have hlast : lastThrottle (tr ++ [.load]) = lastThrottle tr := lastThrottle_append _ _
    have hcheck : lastCheck (tr ++ [.load]) = lastCheck tr := lastCheck_append _ _
    exact ⟨h.last.trans hlast.symm, hlast ▸ h.past, hcheck ▸ h.checked, hlast ▸ h.halved⟩
  | store htick =>
    have hlast : lastThrottle (tr ++ [.store]) = lastThrottle tr := lastThrottle_append _ _
    have hcheck : lastCheck (tr ++ [.store]) = lastCheck tr := lastCheck_append _ _
    rw [restore_eq]
    exact ⟨h.last.trans hlast.symm, hlast ▸ h.past, hcheck ▸ h.checked, hlast ▸ h.halved⟩

/-! ## Undisturbed runs -/

/-- What a tick knows that is past its check: it was quiet then, no 429 came since, and the cap it
    has loaded is still the cap; or the cap cannot be raised. -/
def TickKnows (tr : List Event) (s : ConcurrencyThrottle) : Prop :=
  match s.tick with
  | .sleeping => True
  | .quiet => s.inner.max ≤ 1 ∨ QuietSince tr
  | .loaded prev => s.inner.max ≤ prev ∨ QuietSince tr ∧ s.inner.current = prev

structure Quieted (tr : List Event) (s : ConcurrencyThrottle) : Prop extends Marked tr s where
  pos : 1 ≤ s.currentLimit
  tick : TickKnows tr s

theorem quietSince_load (h : QuietSince tr) : QuietSince (tr ++ [.load]) := by
  obtain ⟨t, c, ht, hc, hquiet⟩ := h
  exact ⟨t, c, (lastThrottle_append _ _).trans ht, (lastCheck_append _ _).trans hc, hquiet⟩

/-- A check that finds it quiet. -/
theorem quietSince_check {now : Nat}
    (h : Marked tr s) (hquiet : s.inner.isQuiet now = true) : QuietSince (tr ++ [.check now]) := by
  obtain ⟨t, ht, hsecs⟩ := (Option.any_eq_true _ _).1 hquiet
  refine ⟨t, now, ?_, lastCheck_append _ _, by simpa using hsecs⟩
  exact (lastThrottle_append _ _).trans (h.last.symm.trans ht)

theorem Quieted.step {n : Nat} {e : Event}
    (h : Quieted tr s) (hbounded : Bounded n t) (hstep : Step s e t) (hok : Undisturbed s e) :
    Quieted (tr ++ [e]) t := by
  refine ⟨h.toMarked.step hstep, hbounded.2.1, ?_⟩
  have htick := h.tick
  cases hstep with
  | @throttle now hclock =>
    have hcalm : ¬ Raising s := hok now rfl
    unfold Raising at hcalm
    unfold TickKnows
    dsimp only
    rw [onThrottle_max]
    cases hphase : s.tick with
    | sleeping => trivial
    | quiet =>
      rw [hphase] at hcalm
      exact .inl (not_lt.1 hcalm)
    | loaded prev =>
      rw [hphase] at hcalm
      exact .inl (not_lt.1 hcalm)
  | @check now htick hclock =>
    unfold TickKnows
    dsimp only
    cases hquiet : s.inner.isQuiet now with
    | true => exact .inr (quietSince_check h.toMarked hquiet)
    | false => trivial
  | load hphase =>
    unfold TickKnows at htick
    rw [hphase] at htick
    rcases htick with hsmall | hquiet
    · exact .inl (hsmall.trans h.pos)
    · exact .inr ⟨quietSince_load hquiet, rfl⟩
  | store hphase => trivial

theorem quieted_run {n : Nat}
    (h : Run (fun s e t => Step s e t ∧ Undisturbed s e) (ConcurrencyThrottle.new n) tr s) :
    Quieted tr s := by
  refine h.invariant Quieted ?_ (fun tr s e t hpre ih hs => ?_)
  · exact ⟨⟨rfl, fun _ ht => absurd ht (by simp [lastThrottle]),
      fun _ hc => absurd hc (by simp [lastCheck]),
      fun _ ht => absurd ht (by simp [ConcurrencyThrottle.new, ThrottleInner.new])⟩,
      Nat.le_max_right n 1, trivial⟩
  · have hbounded : Bounded n s := bounded_run (hpre.mono (fun _ _ _ hs => hs.1))
    exact ih.step (hbounded.step hs.1) hs.1 hs.2

/-- After an undisturbed run no step loses a back-off. -/
theorem Quieted.keepsBackOff {e : Event} (h : Quieted tr s) (hstep : Step s e t) : KeepsBackOff tr s e t := by
  cases hstep with
  | @throttle now hclock =>
    refine ⟨fun now' hnow hwindow => ?_, fun hrise => ?_⟩
    · obtain rfl : now = now' := by simpa using hnow
      exact (onThrottle_current _ _ hwindow).trans_le (min_le_right _ _)
    · exact absurd hrise (not_lt.2 (onThrottle_current_le _ _))
  | check htick hclock | load htick =>
    exact ⟨fun now hnow => absurd hnow (by simp), fun hrise => absurd hrise (lt_irrefl _)⟩
  | @store prev hphase =>
    refine ⟨fun now hnow => absurd hnow (by simp), fun hrise => ?_⟩
    have htick := h.tick
    unfold TickKnows at htick
    rw [hphase] at htick
    rw [restore_eq] at hrise ⊢
    unfold ConcurrencyThrottle.currentLimit at hrise ⊢
    dsimp only at hrise ⊢
    rcases htick with hfull | ⟨hquiet, hcurrent⟩
    · rw [if_neg (not_lt.2 hfull)] at hrise
      exact absurd hrise (lt_irrefl _)
    · refine ⟨rfl, hquiet, ?_⟩
      split at hrise
      · next hroom => rw [if_pos hroom, hcurrent]
      · exact absurd hrise (lt_irrefl _)

/-! ## A disturbed tick -/

/-- The check of the tick under way is no longer quiet once a 429 came after it. -/
theorem not_quietSince {now : Nat} {rest : List Event} (h : Marked tr s) (hclock : s.clock ≤ now)
    (hlast : lastThrottle (tr ++ .throttle now :: rest) = some now)
    (hcheck : lastCheck (tr ++ .throttle now :: rest) = lastCheck tr) :
    ¬ QuietSince (tr ++ .throttle now :: rest) := by
  rintro ⟨t, c, ht, hc, hquiet⟩
  obtain rfl : now = t := Option.some.inj (hlast.symm.trans ht)
  have hpast : c ≤ now := (h.checked c (hcheck ▸ hc)).trans hclock
  unfold secsBetween recoverySecs at hquiet
  rw [Nat.sub_eq_zero_of_le hpast] at hquiet
  exact absurd hquiet (by simp)

/-- A halving lies no later than the last 429, so the window has passed when the check was quiet. -/
theorem not_inHalveWindow {now : Nat} (h : Marked tr s) (hquiet : QuietSince tr) (hclock : s.clock ≤ now) :
    s.inner.marks.inHalveWindow now = false := by
  obtain ⟨t, c, ht, hc, hsecs⟩ := hquiet
  have hpast : c ≤ s.clock := h.checked c hc
  cases hhalved : s.inner.marks.lastHalved with
  | none => simp [Marks.inHalveWindow, hhalved]
  | some t₀ =>
    obtain ⟨t', ht', hle⟩ := h.halved t₀ hhalved
    obtain rfl : t = t' := Option.some.inj (ht.symm.trans ht')
    simp only [Marks.inHalveWindow, hhalved, Option.any_some, decide_eq_false_iff_not, not_lt]
    unfold secsBetween recoverySecs halveWindowSecs at *
    omega

/-- The tick that a 429 comes into goes on to raise the cap over it. -/
theorem disturbed_loses {n : Nat} {s s' : ConcurrencyThrottle} {now : Nat}
    (h : Quieted tr s) (hbounded : Bounded n s) (hraising : Raising s) (hstep : Step s (.throttle now) s') :
    ∃ rest s₁ s₂, Run Step s' rest s₁ ∧ Step s₁ .store s₂ ∧
      ¬ KeepsBackOff (tr ++ .throttle now :: rest) s₁ .store s₂ := by
  have htick := h.tick
  unfold TickKnows at htick
  unfold Raising at hraising
  obtain ⟨hmax, hpos, hle⟩ := hbounded
  cases hstep with
  | throttle hclock =>
    cases hphase : s.tick with
    | sleeping => rw [hphase] at hraising; exact hraising.elim
    | quiet =>
      rw [hphase] at hraising htick
      have hquiet : QuietSince tr := htick.resolve_left (not_le.2 hraising)
      have hwindow := not_inHalveWindow h.toMarked hquiet hclock
      have hcurrent := onThrottle_current s.inner now hwindow
      have hroom : (s.inner.onThrottle now).current < (s.inner.onThrottle now).max := by
        rw [onThrottle_max, hcurrent, hmax]
        have hle' : s.inner.current ≤ max n 1 := hle
        have hpos' : 1 ≤ s.inner.current := hpos
        have hn : 1 < n := hmax ▸ hraising
        omega
      refine ⟨[.load], _, _, Run.single (.load rfl), .store rfl, fun hkeeps => ?_⟩
      refine not_quietSince h.toMarked hclock (lastThrottle_append _ _) (lastCheck_append _ _)
        (hkeeps.rises ?_).2.1
      rw [restore_eq]
      simp only [ConcurrencyThrottle.currentLimit]
      rw [if_pos hroom]
      exact Nat.lt_succ_self _
    | loaded prev =>
      rw [hphase] at hraising htick
      obtain ⟨hquiet, hcurrent⟩ := htick.resolve_left (not_le.2 hraising)
      refine ⟨[], _, _, .nil, .store rfl, fun hkeeps => ?_⟩
      refine not_quietSince h.toMarked hclock (lastThrottle_append _ _) (lastCheck_append _ _)
        (hkeeps.rises ?_).2.1
      rw [restore_eq]
      simp only [ConcurrencyThrottle.currentLimit]
      rw [onThrottle_max, if_pos hraising]
      exact Nat.lt_succ_of_le (hcurrent ▸ onThrottle_current_le s.inner now)

/-- The cap keeps within its bounds on every run. As long as no 429 comes between the quiet check of a
    tick and the store it raises the cap with, no step loses a back-off; the first that does is
    overwritten when that tick goes on. -/
theorem back_off_kept_unless_disturbed (n : Nat) :
    (∀ tr s, Run Step (ConcurrencyThrottle.new n) tr s →
      1 ≤ s.currentLimit ∧ s.currentLimit ≤ max n 1) ∧
    ∀ tr s, Run (fun s e t => Step s e t ∧ Undisturbed s e) (ConcurrencyThrottle.new n) tr s →
      (∀ e t, Step s e t → KeepsBackOff tr s e t) ∧
      ∀ now s', Step s (.throttle now) s' → Raising s →
        ∃ rest s₁ s₂, Run Step s' rest s₁ ∧ Step s₁ .store s₂ ∧
          ¬ KeepsBackOff (tr ++ .throttle now :: rest) s₁ .store s₂ := by
  refine ⟨fun tr s hrun => (bounded_run hrun).2, fun tr s hrun => ⟨fun e t hstep => ?_, ?_⟩⟩
  · exact (quieted_run hrun).keepsBackOff hstep
  · intro now s' hstep hraising
    have hbounded : Bounded n s := bounded_run (hrun.mono (fun _ _ _ hs => hs.1))
    exact disturbed_loses (quieted_run hrun) hbounded hraising hstep

/-! ## Recovery -/

/-- While no 429 comes, a tick that was sleeping and those after it raise the cap by one each, until it is the
initial value again, however far apart their steps are. -/
theorem recovers_by_one {s t : ConcurrencyThrottle} {tr : List Event} (hsleeping : s.tick = .sleeping)
    (hcalm : ∀ e ∈ tr, e.throttledAt = none) (hrun : Run Step s tr t) :
    t.currentLimit = max s.currentLimit (min s.inner.max (s.currentLimit + tr.count .store)) := by
  suffices h : t.inner.max = s.inner.max ∧
      t.currentLimit = max s.currentLimit (min s.inner.max (s.currentLimit + tr.count .store)) ∧
      ∀ prev, t.tick = .loaded prev → prev = t.currentLimit from h.2.1
  induction hrun with
  | nil => exact ⟨rfl, by simp, fun prev h => nomatch hsleeping.symm.trans h⟩
  | snoc hrun hstep ih =>
    obtain ⟨hmax, hlimit, hloaded⟩ := ih fun e he => hcalm e (List.mem_append_left _ he)
    have hnone := hcalm _ (List.mem_append_right _ (List.mem_singleton_self _))
    rw [List.count_append]
    cases hstep with
    | throttle => exact nomatch hnone
    | check =>
      refine ⟨hmax, hlimit, fun prev h => ?_⟩
      dsimp only at h
      split at h <;> exact nomatch h
    | load => exact ⟨hmax, hlimit, fun prev h => (Tick.loaded.inj h).symm⟩
    | store htick =>
      -- the cap is still the one the tick has loaded
      obtain rfl := hloaded _ htick
      rw [restore_eq, List.count_singleton_self]
      refine ⟨hmax, ?_, nofun⟩
      unfold ConcurrencyThrottle.currentLimit at *
      dsimp only
      split <;> omega

def halved : ConcurrencyThrottle := ⟨⟨4, 8, ⟨some 0, some 0⟩⟩, .sleeping, 0⟩

theorem recovers_by_one_sample : ∃ tr t, Run Step halved tr t ∧ t.currentLimit = 5 := by
  have hstart : Run Step halved [] halved := .nil
  have hrun := ((hstart.snoc (.check rfl (Nat.zero_le 30000000000))).snoc (.load rfl)).snoc (.store rfl)
  exact ⟨_, _, hrun, recovers_by_one rfl (by decide) hrun⟩

/-! ## A lost halving -/

/-- Half a minute after a 429 a tick has loaded the cap, 4, when the next 429 halves it. -/
def lateEvents : List Event :=
  [.throttle 0, .check 30000000000, .load, .throttle 30000000000]

theorem run_lateEvents : Run Step (ConcurrencyThrottle.new 8) lateEvents
    ⟨⟨2, 8, ⟨some 30000000000, some 30000000000⟩⟩, .loaded 4, 30000000000⟩ := by
  have hfirst : Run Step (ConcurrencyThrottle.new 8) [.throttle 0]
      ⟨⟨4, 8, ⟨some 0, some 0⟩⟩, .sleeping, 0⟩ := .single (.throttle (le_refl 0))
  have hcheck : Run Step (ConcurrencyThrottle.new 8) [.throttle 0, .check 30000000000]
      ⟨⟨4, 8, ⟨some 0, some 0⟩⟩, .quiet, 30000000000⟩ := .snoc hfirst (.check rfl (Nat.zero_le _))
  have hload : Run Step (ConcurrencyThrottle.new 8) [.throttle 0, .check 30000000000, .load]
      ⟨⟨4, 8, ⟨some 0, some 0⟩⟩, .loaded 4, 30000000000⟩ := .snoc hcheck (.load rfl)
  exact .snoc hload (.throttle (le_refl 30000000000))

theorem halving_overwritten :
    ¬ ∀ n tr s, Run Step (ConcurrencyThrottle.new n) tr s →
      ∀ e t, Step s e t → KeepsBackOff tr s e t := by
  intro hclaim
  have hkeeps := hclaim 8 lateEvents _ run_lateEvents .store _ (.store rfl)
  have hrise := (hkeeps.rises (by decide)).2.2
  exact absurd hrise (by decide)

end Throttle
