import Mathlib

set_option autoImplicit false

/-! # Probing numbered places

A scan over the places `0, 1, 2, …`, some of which are taken, that gives up once `g` of them in a row
are free. It has seen every taken place exactly when no taken place lies behind `g` free ones.

`Probed` is what such a scan knows when it comes to a place; `Probed.hit` and `Probed.miss` carry it
over one, and `Probed.stop_iff` is what it says at the end. -/

/-- No taken place lies behind `g` free ones. -/
def NarrowGaps (taken : Nat → Prop) (g : Nat) : Prop :=
  ∀ i, taken i → g ≤ i → ∃ k, i ≤ k + g ∧ k < i ∧ taken k

/-- The scan has come to `idx`, behind `free` free places in a row. -/
structure Probed (taken : Nat → Prop) (g idx free : Nat) : Prop where
  free_lt : free < g
  free_le : free ≤ idx
  last : ∀ j, idx ≤ j + free → j < idx → ¬ taken j
  before : free < idx → taken (idx - free - 1)
  dense : ∀ j, j + g ≤ idx → ∃ k, j ≤ k ∧ k < j + g ∧ taken k

namespace Probed

variable {taken : Nat → Prop} {g idx free : Nat}

theorem start (hg : 0 < g) : Probed taken g 0 0 where
  free_lt := hg
  free_le := Nat.le_refl 0
  last := fun j _ hj => absurd hj (Nat.not_lt_zero j)
  before := fun h => absurd h (Nat.lt_irrefl 0)
  dense := fun j hj => absurd hj (by omega)

theorem hit (h : Probed taken g idx free) (htaken : taken idx) : Probed taken g (idx + 1) 0 where
  free_lt := Nat.zero_lt_of_lt h.free_lt
  free_le := Nat.zero_le _
  last := fun j hj hlt => absurd hj (by omega)
  before := fun _ => htaken
  dense := by
    intro j hj
    by_cases hlt : j + g ≤ idx
    · exact h.dense j hlt
    · have hg := h.free_lt
      exact ⟨idx, by omega, by omega, htaken⟩

theorem miss (h : Probed taken g idx free) (hfree : ¬ taken idx) (hlt : free + 1 < g) :
    Probed taken g (idx + 1) (free + 1) where
  free_lt := hlt
  free_le := Nat.succ_le_succ h.free_le
  last := by
    intro j hj hidx
    by_cases heq : j = idx
    · exact heq ▸ hfree
    · exact h.last j (by omega) (by omega)
  before := by
    intro hmore
    have hbefore := h.before (by omega)
    rwa [show idx + 1 - (free + 1) - 1 = idx - free - 1 by omega]
  dense := by
    intro j hj
    by_cases hle : j + g ≤ idx
    · exact h.dense j hle
    · -- the last taken place is less than `g` places back
      exact ⟨idx - free - 1, by omega, by omega, h.before (by omega)⟩

/-- The scan gives up at `idx`. -/
theorem stop_iff (h : Probed taken g idx free) (hfree : ¬ taken idx) (hstop : g ≤ free + 1) :
    (∀ i, taken i → i < idx) ↔ NarrowGaps taken g := by
  constructor
  · intro hall i hi hg
    obtain ⟨k, hk, hlt, htaken⟩ := h.dense (i - g) (by
      have := hall i hi
      omega)
    exact ⟨k, by omega, by omega, htaken⟩
  · intro hnarrow i
    induction i using Nat.strong_induction_on with
    | _ i ih =>
      intro hi
      by_contra hge
      have hne : i ≠ idx := fun heq => hfree (heq ▸ hi)
      have hle := h.free_le
      have hlt := h.free_lt
      obtain ⟨k, hk, hki, htaken⟩ := hnarrow i hi (by omega)
      have hkidx : k < idx := ih k hki htaken
      exact h.last k (by omega) hkidx htaken

end Probed
