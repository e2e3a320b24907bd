import AzAppToolkit.Lib.Text

set_option autoImplicit false

/-! # Scanning for positions

A position in a list is a cut: what is before it and what is there. `next` is the first position of a
property from a cut on, `pieces` what lies between its positions; both pass over a stretch in which the
property does not hold. -/

namespace Scanning

variable {α : Type} (p : List α → List α → Bool)

/-- The first position, from a cut on. -/
def next : List α → List α → Option (List α × List α)
  | _, [] => none
  | before, c :: rest =>
    if p before (c :: rest) then some (before, c :: rest) else next (before ++ [c]) rest

/-- What comes before the first position, and what each position begins. -/
def pieces : List α → List α → List α × List (List α)
  | _, [] => ([], [])
  | before, c :: rest =>
    if p before (c :: rest) then
      ([], (c :: (pieces (before ++ [c]) rest).1) :: (pieces (before ++ [c]) rest).2)
    else (c :: (pieces (before ++ [c]) rest).1, (pieces (before ++ [c]) rest).2)

/-- There is no position in the stretch. -/
def Clear (before stretch rest : List α) : Prop :=
  ∀ x c y, stretch = x ++ c :: y → p (before ++ x) (c :: (y ++ rest)) = false

section Clear

variable {p} {before stretch rest a b : List α} {c : α}

theorem Clear.nil : Clear p before [] rest := by
  intro x c y h
  exact absurd h.symm (by simp)

theorem Clear.cons (h : p before (c :: (a ++ rest)) = false) (hrest : Clear p (before ++ [c]) a rest) :
    Clear p before (c :: a) rest := by
  intro x d y heq
  cases x with
  | nil =>
    obtain ⟨rfl, rfl⟩ := List.cons_eq_cons.1 heq
    rw [List.append_nil]
    exact h
  | cons e x =>
    obtain ⟨rfl, hrestEq⟩ := List.cons_eq_cons.1 heq
    rw [List.append_cons]
    exact hrest x d y hrestEq

theorem Clear.head (h : Clear p before (c :: a) rest) : p before (c :: (a ++ rest)) = false := by
  have hfirst := h [] c a rfl
  rwa [List.append_nil] at hfirst

theorem Clear.tail (h : Clear p before (c :: a) rest) : Clear p (before ++ [c]) a rest := by
  intro x d y heq
  have hnext := h (c :: x) d y (by rw [heq]; rfl)
  rwa [List.append_cons] at hnext

theorem Clear.append (ha : Clear p before a (b ++ rest)) (hb : Clear p (before ++ a) b rest) :
    Clear p before (a ++ b) rest := by
  induction a generalizing before with
  | nil => simpa using hb
  | cons c a ih =>
    have hfirst : p before (c :: ((a ++ b) ++ rest)) = false := by
      rw [List.append_assoc]
      exact ha.head
    exact .cons hfirst (ih ha.tail (by simpa using hb))

theorem next_clear (h : Clear p before a rest) : next p before (a ++ rest) = next p (before ++ a) rest := by
  induction a generalizing before with
  | nil => simp
  | cons c a ih =>
    rw [List.cons_append, next, h.head, if_neg Bool.false_ne_true, ih h.tail, ← List.append_cons]

theorem next_here (hne : rest ≠ []) (h : p before rest = true) :
    next p before rest = some (before, rest) := by
  obtain ⟨c, rest, rfl⟩ := List.exists_cons_of_ne_nil hne
  rw [next, if_pos h]

theorem pieces_clear (h : Clear p before a rest) :
    pieces p before (a ++ rest) =
      (a ++ (pieces p (before ++ a) rest).1, (pieces p (before ++ a) rest).2) := by
  induction a generalizing before with
  | nil => simp
  | cons c a ih =>
    rw [List.cons_append, pieces, h.head, if_neg Bool.false_ne_true, ih h.tail, ← List.append_cons]
    rfl

theorem pieces_here (h : p before (c :: rest) = true) :
    pieces p before (c :: rest) =
      ([], (c :: (pieces p (before ++ [c]) rest).1) :: (pieces p (before ++ [c]) rest).2) := by
  rw [pieces, if_pos h]

/-- Either there is no position, or the first one ends a stretch without any. -/
theorem next_cases (before rest : List α) :
    (next p before rest = none ∧ Clear p before rest []) ∨
      ∃ a b, rest = a ++ b ∧ next p before rest = some (before ++ a, b) ∧ Clear p before a b ∧
        p (before ++ a) b = true := by
  induction rest generalizing before with
  | nil => exact Or.inl ⟨rfl, .nil⟩
  | cons c rest ih =>
    cases h : p before (c :: rest) with
    | true =>
      refine Or.inr ⟨[], c :: rest, rfl, ?_, .nil, ?_⟩
      · rw [next, if_pos h, List.append_nil]
      · rw [List.append_nil, h]
    | false =>
      rw [next, h, if_neg Bool.false_ne_true]
      rcases ih (before ++ [c]) with ⟨hnone, hclear⟩ | ⟨a, b, rfl, hsome, hclear, hp⟩
      · refine Or.inl ⟨hnone, .cons ?_ hclear⟩
        rw [List.append_nil, h]
      · rw [← List.append_cons] at hsome hp
        exact Or.inr ⟨c :: a, b, rfl, hsome, .cons h hclear, hp⟩

/-- The pieces put together. -/
theorem flatten_pieces (before rest : List α) :
    (pieces p before rest).1 ++ (pieces p before rest).2.flatten = rest := by
  induction rest generalizing before with
  | nil => rfl
  | cons c rest ih =>
    rw [pieces]
    split
    · simpa using ih (before ++ [c])
    · simpa using ih (before ++ [c])

end Clear

end Scanning
