import AzAppToolkit.Lib.Duties
import AzAppToolkit.Graph.Errors

set_option autoImplicit false

/-! # Bounded dispatch

`dispatch_capped` of `commands/dispatch.rs`: one task for each item, at most so many in flight, and
every completed task handed to the collector. A task in flight is known by its item, and the next one to
end by its place among those in flight; a task that panics or is aborted ends without a result.

`FanOut.Keeps` says what a fan-out's closures keep; from it, what a whole dispatch keeps. -/

namespace Bulk

open Prog

/-- The codes that mean the session is dead. -/
def isReauthFatal (code : Text) : Bool := Graph.reauthFatalCodes.contains code

variable {Call : Type} {Answer : Call → Type} {Item Result σ : Type}

/-- What `dispatch_capped` is given: the cap, the two closures with the state they share, and the wait
    for any one of the tasks in flight. -/
structure FanOut (Answer : Call → Type) (Item Result σ : Type) where
  cap : Prog Answer Nat
  spawn : σ → Item → Prog Answer (σ × Bool)
  next : List Item → Prog Answer (Nat × Option Result)
  collect : σ → Option Result → Prog Answer σ

/-- Wait for one task, and collect it. -/
def FanOut.joinOne (f : FanOut Answer Item Result σ) (inFlight : List Item) (s : σ) :
    Prog Answer (Nat × σ) := do
  let joined ← f.next inFlight
  let s ← f.collect s joined.2
  .done (joined.1, s)

/-- `while in_flight.len() >= cap().max(1)`, with one round more than there are tasks. -/
def FanOut.waitBelowCap (f : FanOut Answer Item Result σ) :
    Nat → List Item → σ → Prog Answer (List Item × σ)
  | 0, inFlight, s => .done (inFlight, s)
  | rounds + 1, inFlight, s => do
      let limit ← f.cap
      if max limit 1 ≤ inFlight.length then do
        let joined ← f.joinOne inFlight s
        f.waitBelowCap rounds (inFlight.eraseIdx joined.1) joined.2
      else .done (inFlight, s)

/-- The loop over the items, and whether it stopped early. -/
def FanOut.dispatchItems (f : FanOut Answer Item Result σ) :
    List Item → List Item → σ → Prog Answer (Bool × List Item × σ)
  | [], inFlight, s => .done (false, inFlight, s)
  | item :: items, inFlight, s => do
      let spawned ← f.spawn s item
      if spawned.2 then do
        let waited ← f.waitBelowCap (inFlight.length + 2) (inFlight ++ [item]) spawned.1
        f.dispatchItems items waited.1 waited.2
      else .done (true, inFlight, spawned.1)

/-- The last loop: every task still in flight. -/
def FanOut.drain (f : FanOut Answer Item Result σ) : Nat → List Item → σ → Prog Answer σ
  | 0, _, s => .done s
  | rounds + 1, inFlight, s => do
      let joined ← f.joinOne inFlight s
      f.drain rounds (inFlight.eraseIdx joined.1) joined.2

def FanOut.dispatchCapped (f : FanOut Answer Item Result σ) (items : List Item) (s : σ) :
    Prog Answer (Bool × σ) := do
  let dispatched ← f.dispatchItems items [] s
  let s ← f.drain dispatched.2.1.length dispatched.2.1 dispatched.2.2
  .done (dispatched.1, s)

/-! ## What a dispatch keeps -/

section Keeps

variable {τ : Type} {w : World Answer τ} {ok : τ → Call → Prop}

/-- The closures keep `I`, of the items started, those in flight and the state. `Cap n` says that the cap
    was last read as `n`. -/
structure FanOut.Keeps (f : FanOut Answer Item Result σ) (w : World Answer τ) (ok : τ → Call → Prop)
    (I : List Item → List Item → σ → τ → Prop) (Cap : Nat → τ → Prop) : Prop where
  cap : ∀ {started inFlight s h}, I started inFlight s h →
    Meets w ok (fun h' n => Cap n h' ∧ I started inFlight s h') h f.cap
  spawn : ∀ {started inFlight s h n} (item : Item), I started inFlight s h → Cap n h →
    inFlight.length + 1 ≤ max 1 n →
    Meets w ok (fun h' r => r.2 = false ∧ Cap n h' ∧ I started inFlight r.1 h' ∨
      r.2 = true ∧ I (started ++ [item]) (inFlight ++ [item]) r.1 h') h (f.spawn s item)
  join : ∀ {started inFlight s h}, inFlight ≠ [] → I started inFlight s h →
    Meets w ok (fun h' r => r.1 < inFlight.length ∧ I started (inFlight.eraseIdx r.1) r.2 h') h
      (f.joinOne inFlight s)

variable {f : FanOut Answer Item Result σ} {I : List Item → List Item → σ → τ → Prop}
  {Cap : Nat → τ → Prop} {started inFlight : List Item} {s : σ} {h : τ}

/-- Below the cap: the wait ends, with room for one more. -/
theorem FanOut.Keeps.waitBelowCap (hf : f.Keeps w ok I Cap) (rounds : Nat)
    (hrounds : inFlight.length < rounds) (hI : I started inFlight s h) :
    Meets w ok (fun h' r => ∃ n, Cap n h' ∧ r.1.length + 1 ≤ max 1 n ∧ I started r.1 r.2 h') h
      (f.waitBelowCap rounds inFlight s) := by
  induction rounds generalizing h inFlight s with
  | zero => exact absurd hrounds (Nat.not_lt_zero _)
  | succ rounds ih =>
    refine Meets.bind ((hf.cap hI).mono (fun h₁ n hn => ?_))
    obtain ⟨hcap, hI₁⟩ := hn
    split
    · next hfull =>
      have hne : inFlight ≠ [] := by
        rintro rfl
        simp at hfull
      refine Meets.bind ((hf.join hne hI₁).mono (fun h₂ r hr => ?_))
      refine ih ?_ hr.2
      rw [List.length_eraseIdx_of_lt hr.1]
      omega
    · next hroom =>
      refine ⟨n, hcap, ?_, hI₁⟩
      rw [max_comm]
      exact not_le.1 hroom

/-- The loop over the items: a prefix of them is started, and there is room after the last. -/
theorem FanOut.Keeps.dispatchItems (hf : f.Keeps w ok I Cap) (items : List Item) {n : Nat}
    (hI : I started inFlight s h) (hcap : Cap n h) (hroom : inFlight.length + 1 ≤ max 1 n) :
    Meets w ok (fun h' r => ∃ started' n', started' <+: started ++ items ∧ Cap n' h' ∧
        r.2.1.length + 1 ≤ max 1 n' ∧ I started' r.2.1 r.2.2 h' ∧
        (r.1 = false → started' = started ++ items)) h
      (f.dispatchItems items inFlight s) := by
  induction items generalizing started inFlight s h n with
  | nil =>
    exact ⟨started, n, List.prefix_append _ _, hcap, hroom, hI, fun _ => (List.append_nil _).symm⟩
  | cons item items ih =>
    refine Meets.bind ((hf.spawn item hI hcap hroom).mono (fun h₁ spawned hspawned => ?_))
    rcases hspawned with ⟨hfalse, hcap₁, hI₁⟩ | ⟨htrue, hI₁⟩
    · rw [hfalse]
      exact ⟨started, n, List.prefix_append _ _, hcap₁, hroom, hI₁, fun hgo => absurd hgo (by simp)⟩
    · rw [htrue]
      refine Meets.bind ((hf.waitBelowCap (inFlight.length + 2) (by simp) hI₁).mono
        (fun h₂ waited hwaited => ?_))
      obtain ⟨m, hcap₂, hroom₂, hI₂⟩ := hwaited
      refine (ih hI₂ hcap₂ hroom₂).mono (fun h₃ r hr => ?_)
      rw [List.append_assoc] at hr
      exact hr

/-- The last loop: every task has ended. -/
theorem FanOut.Keeps.drain (hf : f.Keeps w ok I Cap) (rounds : Nat)
    (hrounds : inFlight.length = rounds) (hI : I started inFlight s h) :
    Meets w ok (fun h' s' => I started [] s' h') h (f.drain rounds inFlight s) := by
  induction rounds generalizing h inFlight s with
  | zero =>
    obtain rfl := List.length_eq_zero_iff.1 hrounds
    exact hI
  | succ rounds ih =>
    have hne : inFlight ≠ [] := List.ne_nil_of_length_eq_add_one hrounds
    refine Meets.bind ((hf.join hne hI).mono (fun h₁ r hr => ?_))
    refine ih ?_ hr.2
    rw [List.length_eraseIdx_of_lt hr.1]
    omega

/-- The whole dispatch: a prefix of the items was started and has ended, all of them unless it was
    stopped. -/
theorem FanOut.Keeps.dispatchCapped (hf : f.Keeps w ok I Cap) (items : List Item)
    {n : Nat} (hI : I [] [] s h) (hcap : Cap n h) (hroom : ([] : List Item).length + 1 ≤ max 1 n) :
    Meets w ok (fun h' r => ∃ started, started <+: items ∧ I started [] r.2 h' ∧
        (r.1 = false → started = items)) h (f.dispatchCapped items s) := by
  refine Meets.bind ((hf.dispatchItems items hI hcap hroom).mono (fun h₁ r hr => ?_))
  obtain ⟨started, n, hpre, -, -, hI₁, hall⟩ := hr
  refine Meets.bind ((hf.drain _ rfl hI₁).mono (fun h₂ s' hI₂ => ?_))
  exact ⟨started, hpre, hI₂, hall⟩

end Keeps

end Bulk
