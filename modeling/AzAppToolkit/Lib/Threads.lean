import AzAppToolkit.Lib.Program
import AzAppToolkit.Lib.Run

set_option autoImplicit false

/-! # Programs that share a state

A pool is a shared state and the programs that run over it. One step starts a program or has one of
them make its next call, answered as the world of the shared state says: a call is what the others
see as one atomic step. Threads are named by their place, and a finished one keeps its place.

`Pool.invariant` is the proof rule: an assertion about each thread that its own steps carry on and
the steps of the others do not break. -/

structure Pool {Call : Type} (Answer : Call → Type) (α σ : Type) where
  shared : σ
  threads : List (Prog Answer α)

namespace Pool

open Prog

variable {Call : Type} {Answer : Call → Type} {α σ : Type}

inductive Event {Call : Type} (Answer : Call → Type) (α : Type) where
  | start (p : Prog Answer α)
  | call (thread : Nat) (e : Exchanged Answer)

/-- `starts` says which programs may be started. -/
inductive Step (starts : Prog Answer α → Prop) (w : World Answer σ) :
    Pool Answer α σ → Event Answer α → Pool Answer α σ → Prop
  | start {s : σ} {ts : List (Prog Answer α)} {p : Prog Answer α} (hp : starts p) :
      Step starts w ⟨s, ts⟩ (.start p) ⟨s, ts ++ [p]⟩
  | call {s s' : σ} {ts : List (Prog Answer α)} {i : Nat} {c : Call}
      {next : Answer c → Prog Answer α} {r : Answer c} (hthread : ts[i]? = some (.ask c next))
      (hstep : w s c r s') : Step starts w ⟨s, ts⟩ (.call i ⟨c, r⟩) ⟨s', ts.set i (next r)⟩

variable {ok : Pool Answer α σ → Event Answer α → Prop} {pool pool' : Pool Answer α σ}

section Rules

variable {starts : Prog Answer α → Prop} {w : World Answer σ}

/-- A call, with the threads after it written out. -/
theorem Step.callTo {s s' : σ} {ts ts' : List (Prog Answer α)} {i : Nat} (c : Call)
    (next : Answer c → Prog Answer α) (r : Answer c) (hthread : ts[i]? = some (.ask c next))
    (hstep : w s c r s') (hts : ts.set i (next r) = ts') :
    Step starts w ⟨s, ts⟩ (.call i ⟨c, r⟩) ⟨s', ts'⟩ := hts ▸ .call hthread hstep

/-- What every call keeps of the shared state, a run keeps. `ok` restricts the steps of the run. -/
theorem shared_invariant (I : σ → Prop)
    (hkeep : ∀ i (pool : Pool Answer α σ) c r s', w pool.shared c r s' → ok pool (.call i ⟨c, r⟩) →
      I pool.shared → I s') {tr : List (Event Answer α)} (h : I pool.shared)
    (hrun : Run (fun s e t => Step starts w s e t ∧ ok s e) pool tr pool') : I pool'.shared := by
  induction hrun with
  | nil => exact h
  | snoc hpre hs ih =>
    obtain ⟨hstep, hok⟩ := hs
    cases hstep with
    | start hp => exact ih
    | call hthread hworld => exact hkeep _ _ _ _ _ hworld hok ih

/-- An assertion `J i s p` about the thread at place `i`, in the shared state `s` with `p` left to
    run, holds of all threads from `n` on if it holds of those there and of those that are started, is
    carried on by a thread's own calls and is not broken by the calls of any other. `I` is known of the
    shared state throughout. -/
theorem invariant {n : Nat} (I : σ → Prop) (J : Nat → σ → Prog Answer α → Prop)
    (hkeep : ∀ i (pool : Pool Answer α σ) c r s', w pool.shared c r s' → ok pool (.call i ⟨c, r⟩) →
      I pool.shared → I s') (hstart : ∀ i s p, starts p → I s → J i s p)
    (hown : ∀ i s c next r s', w s c r s' → I s → J i s (.ask c next) → J i s' (next r))
    (hother : ∀ j i (pool : Pool Answer α σ) c next r s' p, j ≠ i → w pool.shared c r s' →
      pool.threads[j]? = some (.ask c next) → ok pool (.call j ⟨c, r⟩) → I pool.shared →
      J i pool.shared p → J i s' p) {tr : List (Event Answer α)} (hI : I pool.shared)
    (h : ∀ i p, n ≤ i → pool.threads[i]? = some p → J i pool.shared p)
    (hrun : Run (fun s e t => Step starts w s e t ∧ ok s e) pool tr pool') :
    ∀ i p, n ≤ i → pool'.threads[i]? = some p → J i pool'.shared p := by
  induction hrun with
  | nil => exact h
  | snoc hpre hs ih =>
    intro i p hi hp
    have hshared := shared_invariant I hkeep hI hpre
    obtain ⟨hstep, hok⟩ := hs
    cases hstep with
    | @start s ts q hq =>
      by_cases hlt : i < ts.length
      · rw [List.getElem?_append_left hlt] at hp
        exact ih i p hi hp
      · have heq : q = p := by
          rw [List.getElem?_append_right (not_lt.1 hlt)] at hp
          exact (List.mem_singleton.1 (List.mem_of_getElem? hp)).symm
        exact heq ▸ hstart i s q hq hshared
    | @call s s' ts j c next r hthread hworld =>
      by_cases hij : j = i
      · subst hij
        have hlt : j < ts.length := (List.getElem?_eq_some_iff.1 hthread).1
        rw [List.getElem?_set_self hlt] at hp
        obtain rfl := Option.some.inj hp
        exact hown j s c next r s' hworld hshared (ih j _ hi hthread)
      · rw [List.getElem?_set_ne hij] at hp
        exact hother j i ⟨s, ts⟩ c next r s' p hij hworld hthread hok hshared (ih i p hi hp)

end Rules

/-! ## Replayed runs -/

/-- Have the threads make their next calls in the order given; `serve i` answers thread `i`. -/
def play (serve : Nat → σ → (c : Call) → Option (Answer c × σ)) :
    List Nat → Pool Answer α σ → Option (Pool Answer α σ)
  | [], pool => some pool
  | i :: schedule, pool =>
    match pool.threads[i]? with
    | some (.ask c next) =>
      match serve i pool.shared c with
      | some (r, s') => play serve schedule ⟨s', pool.threads.set i (next r)⟩
      | none => none
    | _ => none

/-- A replay is a run, whose steps are as good as the answers. -/
theorem run_of_play (starts : Prog Answer α → Prop) (w : World Answer σ)
    (ok : Pool Answer α σ → Event Answer α → Prop) {serve : Nat → σ → (c : Call) → Option (Answer c × σ)}
    (hserve : ∀ i s c r s', serve i s c = some (r, s') →
      w s c r s' ∧ ∀ ts, ok ⟨s, ts⟩ (.call i ⟨c, r⟩))
    {schedule : List Nat} (h : play serve schedule pool = some pool') :
    ∃ tr, Run (fun s e t => Step starts w s e t ∧ ok s e) pool tr pool' := by
  induction schedule generalizing pool with
  | nil =>
    obtain rfl : pool = pool' := Option.some.inj h
    exact ⟨[], .nil⟩
  | cons i schedule ih =>
    unfold play at h
    split at h
    · next c next hthread =>
      split at h
      · next r s' hanswer =>
        obtain ⟨hworld, hok⟩ := hserve i _ c r s' hanswer
        obtain ⟨tr, hrun⟩ := ih h
        have hfirst : Step starts w pool (.call i ⟨c, r⟩) ⟨s', pool.threads.set i (next r)⟩ :=
          .call hthread hworld
        exact ⟨_, (Run.single (s := pool) ⟨hfirst, hok _⟩).append hrun⟩
      · exact absurd h (by simp)
    · exact absurd h (by simp)

/-- The program an event starts. -/
def Event.started : Event Answer α → Option (Prog Answer α)
  | .start p => some p
  | .call _ _ => none

/-- The programs started in a run, by their places. -/
def startsOf (tr : List (Event Answer α)) : List (Prog Answer α) := tr.filterMap Event.started

theorem startsOf_start (tr : List (Event Answer α)) (p : Prog Answer α) :
    startsOf (tr ++ [.start p]) = startsOf tr ++ [p] := by
  simp [startsOf, Event.started]

theorem startsOf_call (tr : List (Event Answer α)) (i : Nat) (e : Exchanged Answer) :
    startsOf (tr ++ [.call i e]) = startsOf tr := by
  simp [startsOf, Event.started]

/-- A run in which nothing is started. -/
theorem startsOf_eq_nil {Steps : Pool Answer α σ → Event Answer α → Pool Answer α σ → Prop}
    (hcalls : ∀ s e t, Steps s e t → ∀ p, e ≠ .start p)
    {tr : List (Event Answer α)} (hrun : Run Steps pool tr pool') : startsOf tr = [] := by
  induction hrun with
  | nil => rfl
  | @snoc tr t u e hpre hs ih =>
    cases e with
    | start p => exact absurd rfl (hcalls _ _ _ hs p)
    | call i e => rw [startsOf_call, ih]

theorem run_of_started {starts : Prog Answer α → Prop} (w : World Answer σ)
    (hok : ∀ pool p, ok pool (.start p))
    {ps : List (Prog Answer α)} (hps : ∀ p ∈ ps, starts p) (s : σ) (ts : List (Prog Answer α)) :
    Run (fun s e t => Step starts w s e t ∧ ok s e) ⟨s, ts⟩ (ps.map .start) ⟨s, ts ++ ps⟩ := by
  induction ps generalizing ts with
  | nil =>
    rw [List.append_nil]
    exact .nil
  | cons p ps ih =>
    have hrest := ih (fun q hq => hps q (List.mem_cons_of_mem _ hq)) (ts ++ [p])
    rw [List.append_assoc] at hrest
    have hfirst : Step starts w ⟨s, ts⟩ (.start p) ⟨s, ts ++ [p]⟩ := .start (hps p List.mem_cons_self)
    exact (Run.single (s := (⟨s, ts⟩ : Pool Answer α σ)) ⟨hfirst, hok _ p⟩).append hrest

section Replay

variable {starts : Prog Answer α → Prop} {w : World Answer σ}
  {serve : Nat → σ → (c : Call) → Option (Answer c × σ)} {ps : List (Prog Answer α)}
  {schedule : List Nat} {s : σ} {β : Type} {view : Pool Answer α σ → β} {v : β}

/-- Start the programs, then replay; `view` is what is looked at in the end. -/
theorem exists_run_of_replay_ok (ok : Pool Answer α σ → Event Answer α → Prop)
    (hok : ∀ pool p, ok pool (.start p)) (hserve : ∀ i s c r s', serve i s c = some (r, s') →
      w s c r s' ∧ ∀ ts, ok ⟨s, ts⟩ (.call i ⟨c, r⟩))
    (hps : ∀ p ∈ ps, starts p) (h : (play serve schedule ⟨s, ps⟩).map view = some v) :
    ∃ tr pool, Run (fun s e t => Step starts w s e t ∧ ok s e) ⟨s, []⟩ tr pool ∧ startsOf tr = ps ∧
      view pool = v := by
  obtain ⟨pool, hplay, hview⟩ := Option.map_eq_some_iff.1 h
  have hstarted := run_of_started w hok hps s []
  obtain ⟨tr, hplayed⟩ := run_of_play starts w (fun pool e => ok pool e ∧ ∀ p, e ≠ .start p)
    (fun i s c r s' hr => ⟨(hserve i s c r s' hr).1, fun ts => ⟨(hserve i s c r s' hr).2 ts, by simp⟩⟩)
    hplay
  have hcalls := startsOf_eq_nil (fun _ _ _ hstep => hstep.2.2) hplayed
  refine ⟨_, pool, hstarted.append (hplayed.mono (fun _ _ _ hstep => ⟨hstep.1, hstep.2.1⟩)), ?_, hview⟩
  rw [startsOf, List.filterMap_append, ← startsOf, ← startsOf, hcalls, List.append_nil]
  simp [startsOf, Event.started, List.filterMap_map, Function.comp_def]

/-- The same, with no condition on the steps. -/
theorem exists_run_of_replay (hserve : ∀ i s c r s', serve i s c = some (r, s') → w s c r s')
    (hps : ∀ p ∈ ps, starts p) (h : (play serve schedule ⟨s, ps⟩).map view = some v) :
    ∃ tr pool, Run (Step starts w) ⟨s, []⟩ tr pool ∧ startsOf tr = ps ∧ view pool = v := by
  obtain ⟨tr, pool, hrun, hstarts, hview⟩ := exists_run_of_replay_ok (fun _ _ => True)
    (fun _ _ => trivial) (fun i s c r s' hr => ⟨hserve i s c r s' hr, fun _ => trivial⟩) hps h
  exact ⟨tr, pool, hrun.mono (fun _ _ _ hstep => hstep.1), hstarts, hview⟩

end Replay

end Pool
