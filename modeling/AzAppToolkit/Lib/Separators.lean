import Mathlib

set_option autoImplicit false

/-! # Where a part ends

A list whose first element without a property is given splits there in one way only. -/

namespace Separators

variable {α : Type}

/-- Two splits at the first element that lacks the property are one. -/
theorem split_inj {p : α → Prop} {a a' b b' : List α} {c c' : α} (ha : ∀ x ∈ a, p x)
    (ha' : ∀ x ∈ a', p x) (hc : ¬ p c) (hc' : ¬ p c') (h : a ++ c :: b = a' ++ c' :: b') :
    a = a' ∧ c = c' ∧ b = b' := by
  induction a generalizing a' with
  | nil =>
    cases a' with
    | nil =>
      obtain ⟨rfl, rfl⟩ := List.cons.inj h
      exact ⟨rfl, rfl, rfl⟩
    | cons x tail =>
      obtain ⟨rfl, -⟩ := List.cons.inj h
      exact absurd (ha' _ (List.mem_cons_self ..)) hc
  | cons x tail ih =>
    cases a' with
    | nil =>
      obtain ⟨rfl, -⟩ := List.cons.inj h
      exact absurd (ha _ (List.mem_cons_self ..)) hc'
    | cons x' tail' =>
      obtain ⟨rfl, htail⟩ := List.cons.inj h
      obtain ⟨rfl, hrest⟩ := ih (fun y hy => ha y (List.mem_cons_of_mem _ hy))
        (fun y hy => ha' y (List.mem_cons_of_mem _ hy)) htail
      exact ⟨rfl, hrest⟩

/-- A separator that occurs in neither of two first parts. -/
theorem append_sep_inj {c : α} {a a' b b' : List α} (ha : c ∉ a) (ha' : c ∉ a')
    (h : a ++ c :: b = a' ++ c :: b') : a = a' ∧ b = b' := by
  obtain ⟨hfirst, -, hrest⟩ := split_inj (p := fun x => x ≠ c) (fun x hx heq => ha (heq ▸ hx))
    (fun x hx heq => ha' (heq ▸ hx)) (fun hne => hne rfl) (fun hne => hne rfl) h
  exact ⟨hfirst, hrest⟩

end Separators
