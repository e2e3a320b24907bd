import AzAppToolkit.Lib.Threads

set_option autoImplicit false

/-! # Programs that rely on each other

What a thread may assume of the others and what it owes them, in one notion: the thread meets its
specification in a coarser world, whose states only say what all threads keep (the facts that no step
takes back) and whose answers are those such a state allows.

* `Pool.guarantee`: an invariant of the shared state that holds because every thread asks only what
  its specification allows, together with the specification of every thread;
* `Pool.disciplined`: the same for programs that were shown once, over their own history, to ask only
  what they have found out they may;
* `World.recorded` and `World.when`: a world with a record of what happened, and one restricted to
  steps that meet a condition;
* `Prog.loop`: a loop of the source that has no bound of its own. -/

namespace World

open Prog

variable {Call : Type} {Answer : Call → Type} {σ γ : Type}

/-- The world with a record of what happened, which nothing reads. -/
def recorded (w : World Answer σ) (note : γ → Exchanged Answer → σ → γ) : World Answer (σ × γ) :=
  fun s c r s' => w s.1 c r s'.1 ∧ s'.2 = note s.2 ⟨c, r⟩ s'.1

/-- Only steps that meet the condition. -/
def when (w : World Answer σ) (ok : σ → Exchanged Answer → Prop) : World Answer σ :=
  fun s c r s' => w s c r s' ∧ ok s ⟨c, r⟩

/-- Serve with the record kept. -/
def servedRecorded (serve : σ → (c : Call) → Option (Answer c × σ))
    (note : γ → Exchanged Answer → σ → γ) (s : σ × γ) (c : Call) : Option (Answer c × (σ × γ)) :=
  (serve s.1 c).map (fun a => (a.1, (a.2, note s.2 ⟨c, a.1⟩ a.2)))

/-- Serve only what meets the condition. -/
def servedWhen (serve : σ → (c : Call) → Option (Answer c × σ)) (ok : σ → Exchanged Answer → Prop)
    [∀ s e, Decidable (ok s e)] (s : σ) (c : Call) : Option (Answer c × σ) :=
  (serve s c).filter (fun a => decide (ok s ⟨c, a.1⟩))

theorem recorded_of_served {w : World Answer σ} {serve : σ → (c : Call) → Option (Answer c × σ)}
    (hserve : ∀ s c r s', serve s c = some (r, s') → w s c r s')
    (note : γ → Exchanged Answer → σ → γ) (s : σ × γ) (c : Call) (r : Answer c) (s' : σ × γ)
    (h : servedRecorded serve note s c = some (r, s')) : w.recorded note s c r s' := by
  obtain ⟨⟨r', t⟩, ha, heq⟩ := Option.map_eq_some_iff.1 h
  obtain ⟨rfl, rfl⟩ := Prod.mk.inj heq
  exact ⟨hserve s.1 c r' t ha, rfl⟩

theorem when_of_served {w : World Answer σ} {serve : σ → (c : Call) → Option (Answer c × σ)}
    (hserve : ∀ s c r s', serve s c = some (r, s') → w s c r s') (ok : σ → Exchanged Answer → Prop)
    [∀ s e, Decidable (ok s e)] (s : σ) (c : Call) (r : Answer c) (s' : σ)
    (h : servedWhen serve ok s c = some (r, s')) : w.when ok s c r s' := by
  obtain ⟨ha, hok⟩ := Option.filter_eq_some_iff.1 h
  exact ⟨hserve s c r s' ha, by simpa using hok⟩

end World

namespace Prog

variable {Call : Type} {Answer : Call → Type} {σ α β : Type}

/-! ## Loops without a bound -/

/-- Repeat the body until it ends the loop; `none` when it has not after `fuel` rounds. -/
def loop (body : β → Prog Answer (β ⊕ α)) : Nat → β → Prog Answer (Option α)
  | 0, _ => .done none
  | fuel + 1, b => body b >>= Sum.elim (loop body fuel) (fun a => .done (some a))

/-- A condition on a result that may not be there yet. -/
def OnEnd (post : σ → α → Prop) (s : σ) (r : Option α) : Prop := ∀ a, r = some a → post s a

/-- A loop, by an invariant of its rounds. -/
theorem Meets.loop {w : World Answer σ} {ok : σ → Call → Prop} {post : σ → α → Prop}
    {body : β → Prog Answer (β ⊕ α)} (inv : σ → β → Prop)
    (hbody : ∀ s b, inv s b → Meets w ok (fun s r => Sum.elim (inv s) (post s) r) s (body b))
    (fuel : Nat) {s : σ} {b : β} (h : inv s b) :
    Meets w ok (OnEnd post) s (Prog.loop body fuel b) := by
  induction fuel generalizing s b with
  | zero =>
    intro a ha
    exact absurd ha (by simp)
  | succ fuel ih =>
    refine Meets.bind ((hbody s b h).mono (fun s r hr => ?_))
    cases r with
    | inl b => exact ih hr
    | inr a =>
      intro a' ha'
      obtain rfl := Option.some.inj ha'
      exact hr

/-- A loop whose rounds are counted down by an invariant, so that it ends where there is fuel for them. -/
theorem Meets.loopWithin {w : World Answer σ} {ok : σ → Call → Prop} {post : σ → α → Prop}
    {body : β → Prog Answer (β ⊕ α)} (inv : Nat → σ → β → Prop) (hbody : ∀ n s b, inv n s b →
      Meets w ok (fun s r => Sum.elim (fun b => ∃ m < n, inv m s b) (post s) r) s (body b))
    (fuel : Nat) {n : Nat} {s : σ} {b : β} (h : inv n s b) :
    Meets w ok (fun s r => OnEnd post s r ∧ (r = none → fuel ≤ n ∧ ∃ m b, inv m s b)) s
      (Prog.loop body fuel b) := by
  induction fuel generalizing n s b with
  | zero => exact ⟨nofun, fun _ => ⟨Nat.zero_le n, n, b, h⟩⟩
  | succ fuel ih =>
    refine Meets.bind ((hbody n s b h).mono (fun s r hr => ?_))
    cases r with
    | inl b =>
      obtain ⟨m, hm, hinv⟩ := hr
      refine (ih hinv).mono fun s r hr => ⟨hr.1, fun hnone => ?_⟩
      obtain ⟨hfuel, hleft⟩ := hr.2 hnone
      exact ⟨Nat.lt_of_le_of_lt hfuel hm, hleft⟩
    | inr a =>
      refine ⟨fun a' ha' => ?_, nofun⟩
      obtain rfl := Option.some.inj ha'
      exact hr

/-! ## Histories with answers to rely on -/

/-- The world that only remembers, and gives no answer but those that are to be relied on. -/
def trusted (honest : Exchanged Answer → Prop) : World Answer (List (Exchanged Answer)) :=
  fun h c r h' => honest ⟨c, r⟩ ∧ h' = h ++ [⟨c, r⟩]

theorem Meets.trust {honest : Exchanged Answer → Prop} {h : List (Exchanged Answer)} {c : Call}
    {ok : List (Exchanged Answer) → Call → Prop} {post : List (Exchanged Answer) → Answer c → Prop}
    (hok : ok h c) (hpost : ∀ r, honest ⟨c, r⟩ → post (h ++ [⟨c, r⟩]) r) :
    Meets (trusted honest) ok post h (Prog.call c) := by
  refine Meets.call hok (fun r h' hstep => ?_)
  rw [hstep.2]
  exact hpost r hstep.1

/-- The program has made the exchanges, and has `q` left to run. -/
inductive Follows (p : Prog Answer α) : List (Exchanged Answer) → Prog Answer α → Prop
  | nil : Follows p [] p
  | snoc {h : List (Exchanged Answer)} {c : Call} {next : Answer c → Prog Answer α} (r : Answer c)
      (hpre : Follows p h (.ask c next)) : Follows p (h ++ [⟨c, r⟩]) (next r)

/-- What is proved over all histories holds of the one a program has. -/
theorem Meets.follows {ok : List (Exchanged Answer) → Call → Prop}
    {post : List (Exchanged Answer) → α → Prop} {p q : Prog Answer α} {h : List (Exchanged Answer)}
    (hp : Meets history ok post [] p) (hf : Follows p h q) : Meets history ok post h q := by
  induction hf with
  | nil => exact hp
  | snoc r hpre ih => exact ih.2 r _ rfl

/-! ## Runs of composed programs -/

theorem run_ask (serve : σ → (c : Call) → Option (Answer c × σ)) (c : Call)
    (next : Answer c → Prog Answer α) (s : σ) :
    run serve (.ask c next) s = (serve s c).bind (fun r => run serve (next r.1) r.2) := by
  rw [run]
  cases serve s c with
  | none | some answer => rfl

theorem run_bind (serve : σ → (c : Call) → Option (Answer c × σ)) (p : Prog Answer β)
    (f : β → Prog Answer α) (s : σ) :
    run serve (p >>= f) s = (run serve p s).bind (fun r => run serve (f r.1) r.2) := by
  induction p generalizing s with
  | done b => simp [run, Bind.bind, Prog.bind]
  | ask c next ih =>
    rw [run_ask, Option.bind_assoc]
    show run serve (.ask c fun r => next r >>= f) s = _
    rw [run_ask]
    exact congrArg _ (funext fun answer => ih answer.1 answer.2)

theorem run_call (serve : σ → (c : Call) → Option (Answer c × σ)) (c : Call) (s : σ) :
    run serve (call c) s = serve s c := by
  unfold call
  rw [run_ask]
  simp [run]

end Prog

namespace Pool

open Prog

variable {Call : Type} {Answer : Call → Type} {α σ : Type}

variable {starts : Prog Answer α → Prop} {tr : List (Event Answer α)}

/-- An invariant `I` of the shared state and an assertion `J` about each thread, each of which may rest
    on the other: a step is made by a thread of which `J` is known. -/
theorem guarantee {w : World Answer σ} (I : σ → Prop)
    (J : σ → Prog Answer α → Prop) (hstart : ∀ s p, starts p → I s → J s p)
    (hown : ∀ s c next r s', w s c r s' → I s → J s (.ask c next) → I s' ∧ J s' (next r))
    (hother : ∀ s c next r s' p, w s c r s' → I s → J s (.ask c next) → J s p → J s' p)
    {pool pool' : Pool Answer α σ} (hI : I pool.shared)
    (hJ : ∀ p ∈ pool.threads, J pool.shared p) (hrun : Run (Step starts w) pool tr pool') :
    I pool'.shared ∧ ∀ p ∈ pool'.threads, J pool'.shared p := by
  induction hrun with
  | nil => exact ⟨hI, hJ⟩
  | snoc hpre hs ih =>
    obtain ⟨hshared, hthreads⟩ := ih
    cases hs with
    | start hp =>
      refine ⟨hshared, fun q hq => ?_⟩
      rcases List.mem_append.1 hq with hq | hq
      · exact hthreads q hq
      · rw [List.mem_singleton.1 hq]
        exact hstart _ _ hp hshared
    | call hthread hworld =>
      have hcaller := hthreads _ (List.mem_of_getElem? hthread)
      obtain ⟨hI', hnext⟩ := hown _ _ _ _ _ hworld hshared hcaller
      refine ⟨hI', fun q hq => ?_⟩
      rcases List.mem_or_eq_of_mem_set hq with hq | rfl
      · exact hother _ _ _ _ _ q hworld hshared hcaller (hthreads q hq)
      · exact hnext

/-! ## Disciplined threads -/

/-- What the event is of thread `i`. -/
def Event.of (i : Nat) : Event Answer α → Option (Exchanged Answer)
  | .start _ => none
  | .call j e => if j = i then some e else none

/-- What thread `i` asked and was answered in a run. -/
def exchangesOf (i : Nat) (tr : List (Event Answer α)) : List (Exchanged Answer) :=
  tr.filterMap (Event.of i)

theorem exchangesOf_start (i : Nat) (tr : List (Event Answer α)) (p : Prog Answer α) :
    exchangesOf i (tr ++ [.start p]) = exchangesOf i tr := by
  simp [exchangesOf, Event.of]

theorem exchangesOf_own (i : Nat) (tr : List (Event Answer α)) (e : Exchanged Answer) :
    exchangesOf i (tr ++ [.call i e]) = exchangesOf i tr ++ [e] := by
  simp [exchangesOf, Event.of]

theorem exchangesOf_other {i j : Nat} (hij : j ≠ i) (tr : List (Event Answer α))
    (e : Exchanged Answer) : exchangesOf i (tr ++ [.call j e]) = exchangesOf i tr := by
  simp [exchangesOf, Event.of, hij]

theorem mem_of_mem_exchangesOf {i : Nat} {e : Exchanged Answer}
    (he : e ∈ exchangesOf i tr) : .call i e ∈ tr := by
  obtain ⟨ev, hev, heq⟩ := List.mem_filterMap.1 he
  cases ev with
  | start p => exact absurd heq (by simp [Event.of])
  | call j e' =>
    by_cases hij : j = i
    · obtain rfl : e' = e := by simpa [Event.of, hij] using heq
      rwa [← hij]
    · exact absurd heq (by simp [Event.of, hij])

variable {ok : Pool Answer α σ → Event Answer α → Prop} {pool : Pool Answer α σ}

/-- A thread that was not started has asked nothing. -/
theorem exchangesOf_unstarted {w : World Answer σ} {s : σ}
    (hrun : Run (fun s e t => Step starts w s e t ∧ ok s e) ⟨s, []⟩ tr pool) {i : Nat}
    (hi : pool.threads.length ≤ i) : exchangesOf i tr = [] := by
  induction hrun with
  | nil => rfl
  | snoc hpre hs ih =>
    obtain ⟨hstep, -⟩ := hs
    cases hstep with
    | start hp =>
      rw [exchangesOf_start]
      rw [List.length_append] at hi
      exact ih (le_of_add_le_left hi)
    | @call s s' ts j c next r hthread hworld =>
      have hlt : j < ts.length := (List.getElem?_eq_some_iff.1 hthread).1
      rw [List.length_set] at hi
      rw [exchangesOf_other (hlt.trans_le hi).ne]
      exact ih hi

/-- Every thread follows the program it was started with. -/
theorem follows {w : World Answer σ} {s : σ}
    (hrun : Run (fun s e t => Step starts w s e t ∧ ok s e) ⟨s, []⟩ tr pool) :
    pool.threads.length = (startsOf tr).length ∧ ∀ i q, pool.threads[i]? = some q →
      ∃ p, (startsOf tr)[i]? = some p ∧ Follows p (exchangesOf i tr) q := by
  induction hrun with
  | nil => exact ⟨rfl, fun i q hq => absurd hq (by simp)⟩
  | snoc hpre hs ih =>
    obtain ⟨hlen, hthreads⟩ := ih
    obtain ⟨hstep, -⟩ := hs
    cases hstep with
    | @start s ts p hp =>
      rw [startsOf_start]
      refine ⟨by simpa using hlen, fun i q hq => ?_⟩
      rw [exchangesOf_start]
      by_cases hlt : i < ts.length
      · rw [List.getElem?_append_left hlt] at hq
        rw [List.getElem?_append_left (hlen ▸ hlt)]
        exact hthreads i q hq
      · rw [List.getElem?_append_right (not_lt.1 hlt)] at hq
        rw [List.getElem?_append_right (hlen ▸ not_lt.1 hlt), ← hlen]
        obtain rfl : q = p := List.mem_singleton.1 (List.mem_of_getElem? hq)
        rw [exchangesOf_unstarted hpre (not_lt.1 hlt)]
        exact ⟨q, hq, .nil⟩
    | @call s s' ts j c next r hthread hworld =>
      rw [startsOf_call]
      refine ⟨by rwa [List.length_set], fun i q hq => ?_⟩
      by_cases hij : j = i
      · subst hij
        have hlt : j < ts.length := (List.getElem?_eq_some_iff.1 hthread).1
        rw [List.getElem?_set_self hlt] at hq
        obtain rfl := Option.some.inj hq
        rw [exchangesOf_own]
        obtain ⟨p, hp, hf⟩ := hthreads j _ hthread
        exact ⟨p, hp, .snoc r hf⟩
      · rw [List.getElem?_set_ne hij] at hq
        rw [exchangesOf_other hij]
        exact hthreads i q hq

theorem starts_of_startsOf {w : World Answer σ} {s : σ}
    (hrun : Run (fun s e t => Step starts w s e t ∧ ok s e) ⟨s, []⟩ tr pool) {p : Prog Answer α}
    (hp : p ∈ startsOf tr) : starts p := by
  induction hrun with
  | nil => exact absurd hp (by simp [startsOf])
  | snoc hpre hs ih =>
    obtain ⟨hstep, -⟩ := hs
    cases hstep with
    | start hq =>
      rw [startsOf_start] at hp
      rcases List.mem_append.1 hp with hp | hp
      · exact ih hp
      · exact List.mem_singleton.1 hp ▸ hq
    | call hthread hworld =>
      rw [startsOf_call] at hp
      exact ih hp

section Disciplined

variable {starts : Prog Answer α → Prop} {w : World Answer σ}
  {ok : Pool Answer α σ → Event Answer α → Prop} {honest : Exchanged Answer → Prop}
  {allowed : List (Exchanged Answer) → Call → Prop} {post : List (Exchanged Answer) → α → Prop}

/-- What is known in a step of a disciplined pool: who makes it, and what that thread knows. -/
structure Turn (w : World Answer σ) (ok : Pool Answer α σ → Event Answer α → Prop)
    (allowed : List (Exchanged Answer) → Call → Prop) (I : σ → Prop)
    (J : σ → List (Exchanged Answer) → Prog Answer α → Prop) (pool : Pool Answer α σ) (i : Nat)
    (h : List (Exchanged Answer)) (c : Call) (r : Answer c) (s' : σ) : Prop where
  world : w pool.shared c r s'
  ok : ok pool (.call i ⟨c, r⟩)
  shared : I pool.shared
  allowed : allowed h c
  known : ∃ next, pool.threads[i]? = some (.ask c next) ∧ J pool.shared h (.ask c next)

/-- Threads that keep a discipline over their own histories keep an invariant `I` of the shared state
    and an assertion `J` about each thread, its history and what it has left to run. -/
theorem disciplined (I : σ → Prop) (J : σ → List (Exchanged Answer) → Prog Answer α → Prop)
    (hstarts : ∀ p, starts p → Meets (trusted honest) allowed post [] p)
    (hstart : ∀ s p, starts p → I s → J s [] p)
    (hown : ∀ pool i h c r s', Turn w ok allowed I J pool i h c r s' →
      honest ⟨c, r⟩ ∧ I s' ∧ ∀ p, Meets (trusted honest) allowed post (h ++ [⟨c, r⟩]) p →
        J s' (h ++ [⟨c, r⟩]) p)
    (hother : ∀ pool i h c r s' j h' p, Turn w ok allowed I J pool i h c r s' → i ≠ j →
      pool.threads[j]? = some p → J pool.shared h' p → J s' h' p)
    {s : σ} (hI : I s) (hrun : Run (fun s e t => Step starts w s e t ∧ ok s e) ⟨s, []⟩ tr pool) :
    I pool.shared ∧ ∀ i p, pool.threads[i]? = some p →
      Meets (trusted honest) allowed post (exchangesOf i tr) p ∧
        J pool.shared (exchangesOf i tr) p := by
  induction hrun with
  | nil => exact ⟨hI, fun i p hp => absurd hp (by simp)⟩
  | snoc hpre hs ih =>
    obtain ⟨hshared, hthreads⟩ := ih
    obtain ⟨hstep, hok⟩ := hs
    cases hstep with
    | @start s ts q hq =>
      refine ⟨hshared, fun i p hp => ?_⟩
      rw [exchangesOf_start]
      by_cases hlt : i < ts.length
      · rw [List.getElem?_append_left hlt] at hp
        exact hthreads i p hp
      · rw [List.getElem?_append_right (not_lt.1 hlt)] at hp
        obtain rfl : p = q := List.mem_singleton.1 (List.mem_of_getElem? hp)
        rw [exchangesOf_unstarted hpre (not_lt.1 hlt)]
        exact ⟨hstarts p hq, hstart s p hq hshared⟩
    | @call s s' ts j c next r hthread hworld =>
      obtain ⟨hmeets, hknown⟩ := hthreads j _ hthread
      have hturn : Turn w ok allowed I J ⟨s, ts⟩ j _ c r s' :=
        ⟨hworld, hok, hshared, hmeets.1, next, hthread, hknown⟩
      obtain ⟨hhonest, hI', hJ'⟩ := hown _ _ _ _ _ _ hturn
      refine ⟨hI', fun i p hp => ?_⟩
      by_cases hij : j = i
      · subst hij
        have hlt : j < ts.length := (List.getElem?_eq_some_iff.1 hthread).1
        rw [List.getElem?_set_self hlt] at hp
        obtain rfl := Option.some.inj hp
        rw [exchangesOf_own]
        have hnext := hmeets.2 r _ ⟨hhonest, rfl⟩
        exact ⟨hnext, hJ' _ hnext⟩
      · rw [List.getElem?_set_ne hij] at hp
        rw [exchangesOf_other hij]
        obtain ⟨hp', hJ⟩ := hthreads i p hp
        exact ⟨hp', hother _ _ _ _ _ _ i _ p hturn hij hp hJ⟩

end Disciplined

end Pool
