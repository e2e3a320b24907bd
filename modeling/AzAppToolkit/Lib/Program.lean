import Mathlib

set_option autoImplicit false

/-! # Programs that talk to a service

An asynchronous function that makes one request after another is a `Prog`: it is done, or it makes a
call and goes on with the answer. What a call may be answered, and what it does, is up to a `World`:
a relation between the state before, the call, its answer and the state after. `Meets` is the weakest
precondition of a program in a world, with a condition on the states in which each call may be made;
its rules follow the program text.

`history` is the world that answers anything and only remembers: what is proved there holds whatever
the service does, and between any two calls others may have changed it. -/

/-- A program that makes calls and returns an `α`. -/
inductive Prog {Call : Type} (Answer : Call → Type) (α : Type) where
  | done (a : α)
  | ask (c : Call) (next : Answer c → Prog Answer α)

/-- `w s c r s'`: in state `s` the call `c` may be answered `r`, and leave `s'`. -/
abbrev World {Call : Type} (Answer : Call → Type) (σ : Type) :=
  σ → (c : Call) → Answer c → σ → Prop

namespace Prog

variable {Call : Type} {Answer : Call → Type} {σ α β ε ι : Type}

protected def bind : Prog Answer α → (α → Prog Answer β) → Prog Answer β
  | .done a, f => f a
  | .ask c next, f => .ask c (fun r => (next r).bind f)

instance : Monad (Prog Answer) where
  pure := .done
  bind := Prog.bind

/-- Make one call. -/
def call (c : Call) : Prog Answer (Answer c) := .ask c .done

/-- The programs one after the other, with all their results: `join_all`, where the programs share
    nothing. -/
def joinAll : List (Prog Answer α) → Prog Answer (List α)
  | [] => .done []
  | p :: ps => p >>= fun a => joinAll ps >>= fun rest => .done (a :: rest)

/-! ## Executions -/

/-- The program, started in one state, ends in another with a result. -/
inductive Exec (w : World Answer σ) : σ → Prog Answer α → σ → α → Prop
  | done (s : σ) (a : α) : Exec w s (.done a) s a
  | ask {s s' s'' : σ} {c : Call} {next : Answer c → Prog Answer α} {r : Answer c} {a : α}
      (hstep : w s c r s') (hrest : Exec w s' (next r) s'' a) : Exec w s (.ask c next) s'' a

/-- The program, started in one state, comes to make a call in another: what a run does up to any
    point, whether it ends or not. -/
inductive Asks (w : World Answer σ) : σ → Prog Answer α → σ → Call → Prop
  | now (s : σ) (c : Call) (next : Answer c → Prog Answer α) : Asks w s (.ask c next) s c
  | later {s s' s'' : σ} {c c' : Call} {next : Answer c → Prog Answer α} {r : Answer c}
      (hstep : w s c r s') (hrest : Asks w s' (next r) s'' c') : Asks w s (.ask c next) s'' c'

/-- Every call of the program is made in a state `ok` allows, and it ends as `post` says. -/
def Meets (w : World Answer σ) (ok : σ → Call → Prop) (post : σ → α → Prop) :
    σ → Prog Answer α → Prop
  | s, .done a => post s a
  | s, .ask c next => ok s c ∧ ∀ r s', w s c r s' → Meets w ok post s' (next r)

/-- Run the program against a service that answers, or never does. -/
def run (serve : σ → (c : Call) → Option (Answer c × σ)) : Prog Answer α → σ → Option (α × σ)
  | .done a, s => some (a, s)
  | .ask c next, s =>
    match serve s c with
    | none => none
    | some (r, s') => run serve (next r) s'

variable {serve : σ → (c : Call) → Option (Answer c × σ)} {p : Prog Answer α}

theorem exec_of_run {w : World Answer σ}
    (hserve : ∀ s c r s', serve s c = some (r, s') → w s c r s') {s s' : σ}
    {a : α} (h : run serve p s = some (a, s')) : Exec w s p s' a := by
  induction p generalizing s with
  | done b =>
    obtain ⟨rfl, rfl⟩ : b = a ∧ s = s' := by simpa [run] using h
    exact .done s b
  | ask c next ih =>
    unfold run at h
    split at h
    · exact absurd h (by simp)
    · next r s₁ hanswer => exact .ask (hserve s c r s₁ hanswer) (ih r h)

/-- Such a run ends with a result; `view` is what is looked at in it. -/
theorem exists_exec_of_run {w : World Answer σ}
    (hserve : ∀ s c r s', serve s c = some (r, s') → w s c r s') {s : σ}
    {view : α × σ → β} {v : β} (h : (run serve p s).map view = some v) :
    ∃ a s', Exec w s p s' a ∧ view (a, s') = v := by
  obtain ⟨⟨a, s'⟩, hrun, hview⟩ := Option.map_eq_some_iff.1 h
  exact ⟨a, s', exec_of_run hserve hrun, hview⟩

/-- Run the program up to the first call `stop` picks. -/
def firstAsk (serve : σ → (c : Call) → Option (Answer c × σ)) (stop : Call → Bool) :
    Prog Answer α → σ → Option (σ × Call)
  | .done _, _ => none
  | .ask c next, s =>
    if stop c then some (s, c)
    else match serve s c with
      | none => none
      | some (r, s') => firstAsk serve stop (next r) s'

theorem asks_of_firstAsk {w : World Answer σ}
    (hserve : ∀ s c r s', serve s c = some (r, s') → w s c r s') {stop : Call → Bool}
    {s s' : σ} {c : Call} (h : firstAsk serve stop p s = some (s', c)) :
    Asks w s p s' c ∧ stop c = true := by
  induction p generalizing s with
  | done b => exact absurd h (by simp [firstAsk])
  | ask c₁ next ih =>
    unfold firstAsk at h
    split at h
    · next hstop =>
      obtain ⟨rfl, rfl⟩ : s = s' ∧ c₁ = c := by simpa using h
      exact ⟨.now s c₁ next, hstop⟩
    · split at h
      · exact absurd h (by simp)
      · next r s₁ hanswer =>
        obtain ⟨hasks, hstop⟩ := ih r h
        exact ⟨.later (hserve s c₁ r s₁ hanswer) hasks, hstop⟩

variable {f : β → ExceptT ε (Prog Answer) α}

section Rules

variable {w : World Answer σ} {ok ok' : σ → Call → Prop} {post post' : σ → α → Prop} {s : σ}

theorem Meets.sound {s' : σ} {a : α} (h : Meets w ok post s p) (hexec : Exec w s p s' a) : post s' a := by
  induction hexec with
  | done s a => exact h
  | ask hstep _ ih => exact ih (h.2 _ _ hstep)

theorem Meets.asked {s' : σ} {c : Call} (h : Meets w ok post s p) (hasks : Asks w s p s' c) : ok s' c := by
  induction hasks with
  | now s c next => exact h.1
  | later hstep _ ih => exact ih (h.2 _ _ hstep)

theorem Meets.mono (h : Meets w ok post s p)
    (hpost : ∀ s a, post s a → post' s a) : Meets w ok post' s p := by
  induction p generalizing s with
  | done a => exact hpost s a h
  | ask c next ih => exact ⟨h.1, fun r s' hstep => ih r (h.2 r s' hstep)⟩

theorem Meets.pure {a : α} (h : post s a) : Meets w ok post s (Pure.pure a) := h

theorem Meets.bind {p : Prog Answer β} {f : β → Prog Answer α}
    (h : Meets w ok (fun s b => Meets w ok post s (f b)) s p) : Meets w ok post s (p >>= f) := by
  induction p generalizing s with
  | done b => exact h
  | ask c next ih => exact ⟨h.1, fun r s' hstep => ih r (h.2 r s' hstep)⟩

theorem Meets.call {c : Call} {post : σ → Answer c → Prop} (hok : ok s c)
    (h : ∀ r s', w s c r s' → post s' r) : Meets w ok post s (Prog.call c) :=
  ⟨hok, h⟩

/-- What none of the calls made upsets may be taken along. -/
theorem Meets.keep {P : σ → Prop} (h : Meets w ok post s p)
    (hkeep : ∀ s c r s', P s → ok s c → w s c r s' → P s') (hok : ∀ s c, P s → ok s c → ok' s c)
    (hs : P s) : Meets w ok' (fun s a => P s ∧ post s a) s p := by
  induction p generalizing s with
  | done a => exact ⟨hs, h⟩
  | ask c next ih =>
    refine ⟨hok s c hs h.1, fun r s' hstep => ?_⟩
    exact ih r (h.2 r s' hstep) (hkeep s c r s' hs h.1 hstep)

/-- A loop, by an invariant over the items gone through. -/
theorem Meets.foldlM {f : β → ι → Prog Answer β} {l : List ι} {b : β} (inv : List ι → σ → β → Prop)
    (hstep : ∀ before i after s b, l = before ++ i :: after → inv before s b →
      Meets w ok (inv (before ++ [i])) s (f b i)) (h : inv [] s b) : Meets w ok (inv l) s (l.foldlM f b) := by
  have hloop : ∀ (after before : List ι) (s : σ) (b : β), l = before ++ after → inv before s b →
      Meets w ok (inv l) s (after.foldlM f b) := by
    intro after
    induction after with
    | nil =>
      intro before s b hl h
      rw [List.append_nil] at hl
      exact hl ▸ h
    | cons i after ih =>
      intro before s b hl h
      rw [List.foldlM_cons]
      refine Meets.bind ((hstep before i after s b hl h).mono (fun s b hinv => ?_))
      exact ih (before ++ [i]) s b (by rw [hl]; simp) hinv
  exact hloop l [] s b rfl h

/-- Programs one after the other, by an invariant over the results so far. -/
theorem Meets.joinAll {ps : List (Prog Answer β)} (inv : List β → σ → Prop) (h : inv [] s)
    (hstep : ∀ done s p, ps[done.length]? = some p → inv done s →
      Meets w ok (fun s b => inv (done ++ [b]) s) s p) :
    Meets w ok (fun s results => results.length = ps.length ∧ inv results s) s
      (Prog.joinAll ps) := by
  have hloop : ∀ (rest : List (Prog Answer β)) (done : List β) (s : σ),
      ps.drop done.length = rest → inv done s →
      Meets w ok (fun s results => results.length = rest.length ∧ inv (done ++ results) s) s
        (Prog.joinAll rest) := by
    intro rest
    induction rest with
    | nil =>
      intro done s _ h
      exact ⟨rfl, (List.append_nil done).symm ▸ h⟩
    | cons p rest ih =>
      intro done s hdrop h
      have hp : ps[done.length]? = some p := by
        rw [← List.head?_drop, hdrop, List.head?_cons]
      have hrest : ∀ b, ps.drop (done ++ [b]).length = rest := by
        intro b
        rw [List.length_append, List.length_singleton, ← List.drop_drop, hdrop, List.drop_one,
          List.tail_cons]
      refine Meets.bind ((hstep done s p hp h).mono (fun s b hb => ?_))
      refine Meets.bind ((ih (done ++ [b]) s (hrest b) hb).mono (fun s results hres => ?_))
      refine ⟨by rw [List.length_cons, List.length_cons, hres.1], ?_⟩
      rw [List.append_cons]
      exact hres.2
  exact hloop ps [] s rfl h

/-! ## Programs that may fail -/

/-- A condition on a result that may be an error. -/
def OnResult (good : σ → α → Prop) (bad : σ → ε → Prop) : σ → Except ε α → Prop
  | s, .ok a => good s a
  | s, .error e => bad s e

variable {post : σ → Except ε α → Prop}

/-- `?`: an error ends the program. -/
theorem Meets.tryBind {p : ExceptT ε (Prog Answer) β}
    (h : Meets w ok (OnResult (fun s b => Meets w ok post s (f b).run)
      (fun s e => post s (.error e))) s p.run) : Meets w ok post s (p >>= f).run := by
  refine Meets.bind (h.mono (fun s r hr => ?_))
  cases r with
  | ok b | error e => exact hr

/-- The same, from what is known of the first step. -/
theorem Meets.tryThen {p : ExceptT ε (Prog Answer) β} {good : σ → β → Prop} {bad : σ → ε → Prop}
    (hp : Meets w ok (OnResult good bad) s p.run) (hbad : ∀ s e, bad s e → post s (.error e))
    (hgood : ∀ s b, good s b → Meets w ok post s (f b).run) :
    Meets w ok post s (p >>= f).run := by
  refine Meets.tryBind (hp.mono (fun s r hr => ?_))
  cases r with
  | ok b => exact hgood s b hr
  | error e => exact hbad s e hr

/-- What holds however a step ends. -/
theorem Meets.always {p : Prog Answer (Except ε α)} {P : σ → Prop} (h : Meets w ok (fun s _ => P s) s p) :
    Meets w ok (OnResult (fun s _ => P s) (fun s _ => P s)) s p := by
  refine h.mono (fun s r hr => ?_)
  cases r with
  | ok b | error e => exact hr

/-- A step that cannot fail, in a program that may. -/
theorem Meets.liftBind {p : Prog Answer β} (h : Meets w ok (fun s b => Meets w ok post s (f b).run) s p) :
    Meets w ok post s ((liftM p : ExceptT ε (Prog Answer) β) >>= f).run := by
  refine Meets.tryBind (Meets.bind (h.mono (fun s b hb => ?_)))
  exact hb

theorem Meets.lift (h : Meets w ok (fun s a => post s (.ok a)) s p) :
    Meets w ok post s (liftM p : ExceptT ε (Prog Answer) α).run := by
  refine Meets.bind (h.mono (fun s a ha => ?_))
  exact ha

end Rules

/-! ## The calls a program makes -/

/-- Whatever the answers, the program makes no call but those allowed. -/
def Only (allowed : Call → Prop) : Prog Answer α → Prop
  | .done _ => True
  | .ask c next => allowed c ∧ ∀ r, Only allowed (next r)

section Only

variable {allowed : Call → Prop}

theorem Only.pure {a : α} : Only allowed (Pure.pure a : Prog Answer α) := trivial

theorem Only.call {c : Call} (h : allowed c) : Only allowed (Prog.call c : Prog Answer _) :=
  ⟨h, fun _ => trivial⟩

theorem Only.bind {p : Prog Answer β} {f : β → Prog Answer α} (hp : Only allowed p)
    (hf : ∀ b, Only allowed (f b)) : Only allowed (p >>= f) := by
  induction p with
  | done b => exact hf b
  | ask c next ih => exact ⟨hp.1, fun r => ih r (hp.2 r)⟩

theorem Only.foldlM {f : β → ι → Prog Answer β} (hf : ∀ b i, Only allowed (f b i)) (l : List ι)
    (b : β) : Only allowed (l.foldlM f b) := by
  induction l generalizing b with
  | nil => exact Only.pure
  | cons i l ih =>
    rw [List.foldlM_cons]
    exact Only.bind (hf b i) ih

theorem Only.joinAll {ps : List (Prog Answer α)} (hps : ∀ p ∈ ps, Only allowed p) :
    Only allowed (Prog.joinAll ps) := by
  induction ps with
  | nil => exact Only.pure
  | cons p ps ih =>
    obtain ⟨hp, hps⟩ := List.forall_mem_cons.1 hps
    exact Only.bind hp (fun _ => Only.bind (ih hps) (fun _ => Only.pure))

theorem Only.tryBind {p : ExceptT ε (Prog Answer) β}
    (hp : Only allowed p.run) (hf : ∀ b, Only allowed (f b).run) :
    Only allowed (p >>= f).run := by
  refine Only.bind hp (fun r => ?_)
  cases r with
  | ok b => exact hf b
  | error e => exact Only.pure

theorem Only.lift (h : Only allowed p) : Only allowed (liftM p : ExceptT ε (Prog Answer) α).run :=
  Only.bind h (fun _ => Only.pure)

theorem Only.tryFoldlM {f : β → ι → ExceptT ε (Prog Answer) β}
    (hf : ∀ b i, Only allowed (f b i).run) (l : List ι) (b : β) :
    Only allowed (l.foldlM f b).run := by
  induction l generalizing b with
  | nil => exact Only.pure
  | cons i l ih =>
    rw [List.foldlM_cons]
    exact Only.tryBind (hf b i) ih

theorem Only.weaken {allowed' : Call → Prop} (h : Only allowed p)
    (hsub : ∀ c, allowed c → allowed' c) : Only allowed' p := by
  induction p with
  | done a => trivial
  | ask c next ih => exact ⟨hsub c h.1, fun r => ih r (h.2 r)⟩

/-- What the allowed calls keep, the program keeps. -/
theorem Only.meets {w : World Answer σ} {ok : σ → Call → Prop} {P : σ → Prop}
    (h : Only allowed p) (hok : ∀ s c, P s → allowed c → ok s c)
    (hkeep : ∀ s c r s', P s → allowed c → w s c r s' → P s') {s : σ} (hs : P s) :
    Meets w ok (fun s _ => P s) s p := by
  induction p generalizing s with
  | done a => exact hs
  | ask c next ih =>
    exact ⟨hok s c hs h.1, fun r s' hstep => ih r (h.2 r) (hkeep s c r s' hs h.1 hstep)⟩

end Only

/-! ## The world that remembers -/

/-- A call with its answer. -/
abbrev Exchanged (Answer : Call → Type) := (c : Call) × Answer c

/-- Any answer may come; the state is what was asked and answered so far. -/
def history : World Answer (List (Exchanged Answer)) := fun s c r s' => s' = s ++ [⟨c, r⟩]

/-- A service that answers from what it was asked so far. -/
def remembering (answers : List (Exchanged Answer) → (c : Call) → Option (Answer c))
    (s : List (Exchanged Answer)) (c : Call) : Option (Answer c × List (Exchanged Answer)) :=
  (answers s c).map (fun r => (r, s ++ [⟨c, r⟩]))

theorem history_of_remembering (answers : List (Exchanged Answer) → (c : Call) → Option (Answer c))
    (s : List (Exchanged Answer)) (c : Call) (r : Answer c) (s' : List (Exchanged Answer))
    (h : remembering answers s c = some (r, s')) : history s c r s' := by
  obtain ⟨r', -, heq⟩ := Option.map_eq_some_iff.1 h
  obtain ⟨rfl, rfl⟩ := Prod.mk.inj heq
  rfl

theorem Meets.remember {s : List (Exchanged Answer)} {c : Call}
    {ok : List (Exchanged Answer) → Call → Prop} {post : List (Exchanged Answer) → Answer c → Prop}
    (hok : ok s c) (h : ∀ r, post (s ++ [⟨c, r⟩]) r) :
    Meets history ok post s (Prog.call c) := by
  refine Meets.call hok (fun r s' hstep => ?_)
  have hs' : s' = s ++ [⟨c, r⟩] := hstep
  rw [hs']
  exact h r

end Prog
