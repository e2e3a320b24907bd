import AzAppToolkit.Lib.Program

set_option autoImplicit false

/-! # Programs against a service that always answers

Where each call has one answer and one effect, a program is a function of the state. -/

namespace Prog

variable {Call : Type} {Answer : Call → Type} {σ α β ι : Type}

/-- Run the program to its end. -/
def eval (serve : σ → (c : Call) → Answer c × σ) : Prog Answer α → σ → α × σ
  | .done a, s => (a, s)
  | .ask c next, s => eval serve (next (serve s c).1) (serve s c).2

section Eval

variable (serve : σ → (c : Call) → Answer c × σ)

@[simp] theorem eval_done (a : α) (s : σ) : eval serve (.done a) s = (a, s) := rfl

@[simp] theorem eval_pure (a : α) (s : σ) : eval serve (pure a) s = (a, s) := rfl

@[simp] theorem eval_call (c : Call) (s : σ) : eval serve (call c) s = serve s c := rfl

@[simp] theorem eval_bind (p : Prog Answer β) (f : β → Prog Answer α) (s : σ) :
    eval serve (p >>= f) s = eval serve (f (eval serve p s).1) (eval serve p s).2 := by
  induction p generalizing s with
  | done b => rfl
  | ask c next ih => exact ih (serve s c).1 (serve s c).2

end Eval

end Prog
