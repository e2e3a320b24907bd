import Mathlib

set_option autoImplicit false

/-! # Runs of a labelled transition system

A system is a relation `Step s e t`: in state `s` the event `e` can happen and leads to `t`. A run
collects its events in the order they happened, so that a property of a whole run is a property of
its trace and its last state. -/

/-- `Run Step s tr t`: the events `tr`, oldest first, lead from `s` to `t`. -/
inductive Run {σ ε : Type} (Step : σ → ε → σ → Prop) (s : σ) : List ε → σ → Prop
  | nil : Run Step s [] s
  | snoc {tr : List ε} {t u : σ} {e : ε} :
      Run Step s tr t → Step t e u → Run Step s (tr ++ [e]) u

namespace Run

variable {σ ε : Type} {Step : σ → ε → σ → Prop}

/-- What holds of the empty trace and is kept by every event holds of every run. -/
theorem invariant {s t : σ} {tr : List ε} (I : List ε → σ → Prop) (h0 : I [] s)
    (hstep : ∀ tr t e u, Run Step s tr t → I tr t → Step t e u → I (tr ++ [e]) u)
    (hrun : Run Step s tr t) : I tr t := by
  induction hrun with
  | nil => exact h0
  | snoc hpre hs ih => exact hstep _ _ _ _ hpre ih hs

/-- Runs compose. -/
theorem append {s t u : σ} {tr₁ tr₂ : List ε} (h₁ : Run Step s tr₁ t) (h₂ : Run Step t tr₂ u) :
    Run Step s (tr₁ ++ tr₂) u := by
  induction h₂ with
  | nil => simpa using h₁
  | snoc _ hs ih =>
    rw [← List.append_assoc]
    exact .snoc ih hs

theorem mono {Step' : σ → ε → σ → Prop} {s t : σ} {tr : List ε}
    (h : ∀ s e t, Step s e t → Step' s e t) (hrun : Run Step s tr t) : Run Step' s tr t := by
  induction hrun with
  | nil => exact .nil
  | snoc _ hs ih => exact .snoc ih (h _ _ _ hs)

theorem single {s t : σ} {e : ε} (h : Step s e t) : Run Step s [e] t := .snoc .nil h

/-- A run, cut in two. -/
theorem cut {s u : σ} {tr₁ tr₂ : List ε} (hrun : Run Step s (tr₁ ++ tr₂) u) :
    ∃ t, Run Step s tr₁ t ∧ Run Step t tr₂ u := by
  induction tr₂ using List.reverseRecOn generalizing u with
  | nil => exact ⟨u, by simpa using hrun, .nil⟩
  | append_singleton tr₂ e ih =>
    generalize htr : tr₁ ++ (tr₂ ++ [e]) = tr at hrun
    cases hrun with
    | nil => exact absurd htr (by simp)
    | snoc hpre hs =>
      rw [← List.append_assoc] at htr
      obtain ⟨rfl, he⟩ := List.append_inj' htr rfl
      obtain rfl := List.singleton_inj.1 he
      obtain ⟨t, hfirst, hrest⟩ := ih hpre
      exact ⟨t, hfirst, .snoc hrest hs⟩

/-- A run, cut at an event. -/
theorem cutAt {s u : σ} {tr₁ tr₂ : List ε} {e : ε} (hrun : Run Step s (tr₁ ++ e :: tr₂) u) :
    ∃ t t', Run Step s tr₁ t ∧ Step t e t' ∧ Run Step t' tr₂ u := by
  rw [List.append_cons] at hrun
  obtain ⟨t', hfirst, hrest⟩ := hrun.cut
  generalize htr : tr₁ ++ [e] = tr at hfirst
  cases hfirst with
  | nil => exact absurd htr (by simp)
  | snoc hpre hs =>
    obtain ⟨rfl, he⟩ := List.append_inj' htr rfl
    obtain rfl := List.singleton_inj.1 he
    exact ⟨_, t', hpre, hs, hrest⟩

end Run

/-! ## Steps of a run -/

/-- At some step of the run, `Q` held of that step. -/
def Happened {σ ε : Type} (Step : σ → ε → σ → Prop) (s₀ : σ) (tr : List ε) (s : σ)
    (Q : σ → ε → σ → Prop) : Prop :=
  ∃ tr₁ s₁ e u tr₂, tr = tr₁ ++ e :: tr₂ ∧ Run Step s₀ tr₁ s₁ ∧ Step s₁ e u ∧ Run Step u tr₂ s ∧
    Q s₁ e u

theorem Happened.last {σ ε : Type} {Step : σ → ε → σ → Prop} {s₀ s u : σ} {tr : List ε} {e : ε}
    {Q : σ → ε → σ → Prop} (hrun : Run Step s₀ tr s) (hstep : Step s e u) (hQ : Q s e u) :
    Happened Step s₀ (tr ++ [e]) u Q :=
  ⟨tr, s, e, u, [], rfl, hrun, hstep, .nil, hQ⟩

theorem Happened.snoc {σ ε : Type} {Step : σ → ε → σ → Prop} {s₀ s u : σ} {tr : List ε} {e : ε}
    {Q : σ → ε → σ → Prop} (h : Happened Step s₀ tr s Q) (hstep : Step s e u) :
    Happened Step s₀ (tr ++ [e]) u Q := by
  obtain ⟨tr₁, s₁, e₁, u₁, tr₂, rfl, hpre, hstep₁, hrest, hQ⟩ := h
  exact ⟨tr₁, s₁, e₁, u₁, tr₂ ++ [e], by simp, hpre, hstep₁, .snoc hrest hstep, hQ⟩

/-! ## Order of events -/

/-- `x` happened, and `y` happened after it. -/
def Precedes {ε : Type} (tr : List ε) (x y : ε) : Prop := ∃ a b c, tr = a ++ x :: (b ++ y :: c)

theorem precedes_snoc {ε : Type} {tr : List ε} {x y e : ε} :
    Precedes (tr ++ [e]) x y ↔ Precedes tr x y ∨ (e = y ∧ x ∈ tr) := by
  constructor
  · rintro ⟨a, b, c, h⟩
    rcases List.eq_nil_or_concat c with rfl | ⟨c', z, rfl⟩
    · -- `y` is the last event
      have h' : tr ++ [e] = (a ++ x :: b) ++ [y] := by simpa using h
      obtain ⟨rfl, he⟩ := List.append_inj' h' rfl
      exact Or.inr ⟨by simpa using he, by simp⟩
    · have h' : tr ++ [e] = (a ++ x :: (b ++ y :: c')) ++ [z] := by simpa using h
      obtain ⟨rfl, -⟩ := List.append_inj' h' rfl
      exact Or.inl ⟨a, b, c', rfl⟩
  · rintro (⟨a, b, c, rfl⟩ | ⟨rfl, hx⟩)
    · exact ⟨a, b, c ++ [e], by simp⟩
    · obtain ⟨a, b, rfl⟩ := List.append_of_mem hx
      exact ⟨a, b, [], by simp⟩

theorem Precedes.mem_left {ε : Type} {tr : List ε} {x y : ε} (h : Precedes tr x y) : x ∈ tr := by
  obtain ⟨a, b, c, rfl⟩ := h
  simp
