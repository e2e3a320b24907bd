import Mathlib

set_option autoImplicit false

/-! # The last of the greatest

`maxByKey` picks, of the elements of a list with the greatest key, the last one. What is picked has a
property exactly if some element with it outranks every element without. -/

namespace Ranking

variable {α : Type} {key : α → Nat} {P : α → Prop} {l : List α} {c : α}

def maxByKey (key : α → Nat) (l : List α) : Option α :=
  l.foldl (fun best x => match best with
    | none => some x
    | some b => if key b ≤ key x then some x else some b) none

/-- `c` stands in the list, after all that have a key as great and before none that has. -/
structure Tops (key : α → Nat) (l : List α) (c : α) : Prop where
  split : ∃ a b, l = a ++ c :: b ∧ (∀ x ∈ a, key x ≤ key c) ∧ ∀ x ∈ b, key x < key c

/-- Some element of `P` outranks every element not of `P`. -/
def Prevails (P : α → Prop) (key : α → Nat) (l : List α) : Prop :=
  ∃ a d b, l = a ++ d :: b ∧ P d ∧ (∀ x ∈ a, ¬ P x → key x ≤ key d) ∧ ∀ x ∈ b, ¬ P x → key x < key d

theorem maxByKey_snoc (l : List α) (x : α) : maxByKey key (l ++ [x]) =
    match maxByKey key l with
    | none => some x
    | some b => if key b ≤ key x then some x else some b := by
  unfold maxByKey
  rw [List.foldl_append]
  rfl

theorem maxByKey_eq_none : maxByKey key l = none ↔ l = [] := by
  induction l using List.reverseRecOn with
  | nil => exact iff_of_true rfl rfl
  | append_singleton l x ih =>
    rw [maxByKey_snoc]
    refine iff_of_false (fun h => ?_) (by simp)
    split at h
    · cases h
    · split at h <;> cases h

theorem tops_of_maxByKey (h : maxByKey key l = some c) : Tops key l c := by
  induction l using List.reverseRecOn generalizing c with
  | nil => cases h
  | append_singleton l x ih =>
    rw [maxByKey_snoc] at h
    cases hbest : maxByKey key l with
    | none =>
      rw [hbest] at h
      obtain rfl := Option.some.inj h
      obtain rfl := maxByKey_eq_none.1 hbest
      exact ⟨[], [], rfl, fun _ hx => absurd hx List.not_mem_nil, fun _ hx => absurd hx List.not_mem_nil⟩
    | some best =>
      rw [hbest] at h
      obtain ⟨a, b, hl, ha, hb⟩ := ih hbest
      dsimp only at h
      split at h
      · next hle =>
        -- the new element is as great as the best so far
        obtain rfl := Option.some.inj h
        refine ⟨l, [], rfl, fun y hy => ?_, fun _ hx => absurd hx List.not_mem_nil⟩
        rw [hl] at hy
        rcases List.mem_append.1 hy with hy | hy
        · exact (ha y hy).trans hle
        · rcases List.mem_cons.1 hy with rfl | hy
          · exact hle
          · exact (hb y hy).le.trans hle
      · next hlt =>
        obtain rfl := Option.some.inj h
        refine ⟨a, b ++ [x], ?_, ha, fun y hy => ?_⟩
        · rw [hl, List.append_assoc, List.cons_append]
        · rcases List.mem_append.1 hy with hy | hy
          · exact hb y hy
          · obtain rfl := List.mem_singleton.1 hy
            exact Nat.lt_of_not_le hlt

theorem Tops.mem (h : Tops key l c) : c ∈ l := by
  obtain ⟨a, b, rfl, -, -⟩ := h
  exact List.mem_append_right a List.mem_cons_self

/-- Two places in one list: the one is before the other, or they are the same. -/
theorem places {a b a' b' : List α} {d : α} (h : a ++ c :: b = a' ++ d :: b') :
    (c ∈ a' ∧ d ∈ b) ∨ c = d ∨ (d ∈ a ∧ c ∈ b') := by
  rcases List.append_eq_append_iff.1 h with ⟨m, hm, htail⟩ | ⟨m, hm, htail⟩
  · cases m with
    | nil => exact .inr (.inl (List.cons.inj htail).1)
    | cons y m =>
      obtain ⟨rfl, hb⟩ := List.cons.inj htail
      refine .inl ⟨?_, ?_⟩
      · rw [hm]
        exact List.mem_append_right a List.mem_cons_self
      · rw [hb]
        exact List.mem_append_right m List.mem_cons_self
  · cases m with
    | nil => exact .inr (.inl (List.cons.inj htail).1.symm)
    | cons y m =>
      obtain ⟨rfl, hb⟩ := List.cons.inj htail
      refine .inr (.inr ⟨?_, ?_⟩)
      · rw [hm]
        exact List.mem_append_right a' List.mem_cons_self
      · rw [hb]
        exact List.mem_append_right m List.mem_cons_self

/-- What is picked has the property exactly if the property prevails. -/
theorem tops_iff_prevails (h : Tops key l c) : P c ↔ Prevails P key l := by
  obtain ⟨a, b, hl, ha, hb⟩ := h
  constructor
  · intro hc
    exact ⟨a, c, b, hl, hc, fun x hx _ => ha x hx, fun x hx _ => hb x hx⟩
  · rintro ⟨a', d, b', hl', hd, ha', hb'⟩
    by_contra hnot
    rcases places (hl.symm.trans hl') with ⟨hc, hafter⟩ | rfl | ⟨hbefore, hc⟩
    · exact absurd (hb d hafter) (Nat.not_lt.2 (ha' c hc hnot))
    · exact hnot hd
    · exact absurd (ha d hbefore) (Nat.not_le.2 (hb' c hc hnot))

end Ranking
