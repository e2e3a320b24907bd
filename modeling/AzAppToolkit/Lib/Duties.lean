import AzAppToolkit.Lib.Rely

set_option autoImplicit false

/-! # What a program is bound to do

`Reaches`: on every path with fair answers the program comes to make a certain call before it ends.
`Dutiful`: after each exchange, what is left of the program meets the duty the exchange brings.
`Pool.settled_or_owed` is the rule for programs that run together: what one of them has upset is
settled, or there is a thread that will still settle it. -/

namespace Prog

variable {Call : Type} {Answer : Call → Type} {α β : Type}

/-- Fair answers lead the program to a call that is the goal. -/
def Reaches (fair : Exchanged Answer → Prop) (goal : Call → Prop) : Prog Answer α → Prop
  | .done _ => False
  | .ask c next => goal c ∨ ∀ r, fair ⟨c, r⟩ → Reaches fair goal (next r)

/-- Fair answers lead the program to a result as `post` says. -/
def Ends (fair : Exchanged Answer → Prop) (post : α → Prop) : Prog Answer α → Prop
  | .done a => post a
  | .ask c next => ∀ r, fair ⟨c, r⟩ → Ends fair post (next r)

/-- After each exchange the rest of the program meets the duty. -/
def Dutiful (duty : Exchanged Answer → Prog Answer α → Prop) : Prog Answer α → Prop
  | .done _ => True
  | .ask c next => ∀ r, duty ⟨c, r⟩ (next r) ∧ Dutiful duty (next r)

section Rules

variable {fair : Exchanged Answer → Prop} {goal : Call → Prop}

variable {p : Prog Answer α} {f : α → Prog Answer β}

theorem Ends.reaches {post : α → Prop} (hp : Ends fair post p) (hf : ∀ a, post a → Reaches fair goal (f a)) :
    Reaches fair goal (p >>= f) := by
  induction p with
  | done a => exact hf a hp
  | ask c next ih => exact .inr (fun r hr => ih r (hp r hr))

theorem Ends.bind {post : α → Prop}
    {post' : β → Prop} (hp : Ends fair post p) (hf : ∀ a, post a → Ends fair post' (f a)) :
    Ends fair post' (p >>= f) := by
  induction p with
  | done a => exact hf a hp
  | ask c next ih => exact fun r hr => ih r (hp r hr)

theorem Ends.anyhow : Ends fair (fun _ => True) p := by
  induction p with
  | done a => trivial
  | ask c next ih => exact fun r _ => ih r

variable {duty : Exchanged Answer → Prog Answer α → Prop} {allowed : Call → Prop}

theorem Dutiful.of_only (hp : Only allowed p)
    (hfree : ∀ c, allowed c → ∀ r q, duty ⟨c, r⟩ q) : Dutiful duty p := by
  induction p with
  | done a => trivial
  | ask c next ih => exact fun r => ⟨hfree c hp.1 r _, ih r (hp.2 r)⟩

/-- A part that brings no duties. -/
theorem Dutiful.bind_of_only {duty : Exchanged Answer → Prog Answer β → Prop} (hp : Only allowed p)
    (hfree : ∀ c, allowed c → ∀ r q, duty ⟨c, r⟩ q) (hf : ∀ a, Dutiful duty (f a)) :
    Dutiful duty (p >>= f) := by
  induction p with
  | done a => exact hf a
  | ask c next ih => exact fun r => ⟨hfree c hp.1 r _, ih r (hp.2 r)⟩

/-- What the allowed calls keep, with a result that does not depend on the answers. -/
theorem Only.meets_ends {σ : Type} {w : World Answer σ} {ok : σ → Call → Prop} {P : σ → Prop}
    {post : α → Prop} (hp : Only allowed p)
    (hends : Ends (fun _ => True) post p) (hok : ∀ s c, P s → allowed c → ok s c)
    (hkeep : ∀ s c r s', P s → allowed c → w s c r s' → P s') {s : σ} (hs : P s) :
    Meets w ok (fun s a => P s ∧ post a) s p := by
  induction p generalizing s with
  | done a => exact ⟨hs, hends⟩
  | ask c next ih =>
    refine ⟨hok s c hs hp.1, fun r s' hstep => ?_⟩
    exact ih r (hp.2 r) (hends r trivial) (hkeep s c r s' hs hp.1 hstep)

/-- What a part owes before it ends, the whole owes. -/
theorem Dutiful.bind {duty' : Exchanged Answer → Prog Answer β → Prop}
    (hp : Dutiful duty p) (hduty : ∀ e q, duty e q → duty' e (q >>= f))
    (hf : ∀ a, Dutiful duty' (f a)) : Dutiful duty' (p >>= f) := by
  induction p with
  | done a => exact hf a
  | ask c next ih => exact fun r => ⟨hduty _ _ (hp r).1, ih r (hp r).2⟩

theorem Dutiful.follows {p q : Prog Answer α}
    {h : List (Exchanged Answer)} (hp : Dutiful duty p) (hf : Follows p h q) : Dutiful duty q := by
  induction hf with
  | nil => exact hp
  | snoc r hpre ih => exact (ih r).2

theorem Only.follows {p q : Prog Answer α} {h : List (Exchanged Answer)}
    (hp : Only allowed p) (hf : Follows p h q) : Only allowed q := by
  induction hf with
  | nil => exact hp
  | snoc r hpre ih => exact ih.2 r

end Rules

end Prog

namespace Pool

open Prog

variable {Call : Type} {Answer : Call → Type} {α σ : Type}

/-- What a call of a thread started as `p₀` does to a debt: it stays settled or the caller owes it, a
    caller that owed it has settled it or still does, and so for the others. -/
structure Accounts (settled : σ → Prop) (owes : σ → Prog Answer α → Prop)
    (bound : Prog Answer α → Prop) (p₀ : Prog Answer α) (s s' : σ) (before after : Prog Answer α) :
    Prop where
  kept : settled s → settled s' ∨ bound p₀ ∧ owes s' after
  own : owes s before → settled s' ∨ owes s' after
  other : ∀ p, owes s p → owes s' p ∨ settled s' ∨ bound p₀ ∧ owes s' after

/-- A debt that nobody had at first is settled, or a thread that was started as a bound one owes it. -/
theorem settled_or_owed {starts : Prog Answer α → Prop} {w : World Answer σ}
    {ok : Pool Answer α σ → Event Answer α → Prop} (settled : σ → Prop)
    (owes : σ → Prog Answer α → Prop) (bound : Prog Answer α → Prop)
    (hcall : ∀ (pool : Pool Answer α σ) i c next r s' p₀ h, w pool.shared c r s' →
      ok pool (.call i ⟨c, r⟩) → starts p₀ → Follows p₀ h (.ask c next) →
      Accounts settled owes bound p₀ pool.shared s' (.ask c next) (next r))
    {s : σ} {tr : List (Event Answer α)} {pool : Pool Answer α σ} (hs : settled s)
    (hrun : Run (fun s e t => Step starts w s e t ∧ ok s e) ⟨s, []⟩ tr pool) :
    settled pool.shared ∨ ∃ (i : Nat) (p₀ p : Prog Answer α), (startsOf tr)[i]? = some p₀ ∧
      bound p₀ ∧ pool.threads[i]? = some p ∧ owes pool.shared p := by
  induction hrun with
  | nil => exact .inl hs
  | @snoc tr _ _ _ hpre hstep ih =>
    obtain ⟨hstep, hok⟩ := hstep
    cases hstep with
    | @start s ts q hq =>
      rcases ih with ih | ⟨i, p₀, p, hstart, hbound, hp, howes⟩
      · exact .inl ih
      · rw [startsOf_start]
        refine .inr ⟨i, p₀, p, ?_, hbound, ?_, howes⟩
        · rw [List.getElem?_append_left (List.getElem?_eq_some_iff.1 hstart).1]
          exact hstart
        · rw [List.getElem?_append_left (List.getElem?_eq_some_iff.1 hp).1]
          exact hp
    | @call s s' ts j c next r hthread hworld =>
      rw [startsOf_call]
      have hlt : j < ts.length := (List.getElem?_eq_some_iff.1 hthread).1
      obtain ⟨q₀, hq₀, hfollows⟩ := (Pool.follows hpre).2 j _ hthread
      have hstarts := starts_of_startsOf hpre (List.mem_of_getElem? hq₀)
      have haccounts := hcall ⟨s, ts⟩ j c next r s' q₀ _ hworld hok hstarts hfollows
      have hcaller : settled s' ∨ bound q₀ ∧ owes s' (next r) → settled s' ∨
          ∃ (i : Nat) (p₀ p : Prog Answer α), (startsOf tr)[i]? = some p₀ ∧ bound p₀ ∧
            (ts.set j (next r))[i]? = some p ∧ owes s' p := by
        rintro (h | ⟨hbound, howes⟩)
        · exact .inl h
        · exact .inr ⟨j, q₀, next r, hq₀, hbound, List.getElem?_set_self hlt, howes⟩
      rcases ih with ih | ⟨i, p₀, p, hstart, hbound, hp, howes⟩
      · exact hcaller (haccounts.kept ih)
      · by_cases hij : j = i
        · subst hij
          obtain rfl : p₀ = q₀ := Option.some.inj (hstart.symm.trans hq₀)
          obtain rfl : p = .ask c next := Option.some.inj (hp.symm.trans hthread)
          refine hcaller ((haccounts.own howes).imp_right (fun h => ⟨hbound, h⟩))
        · rcases haccounts.other p howes with h | h
          · exact .inr ⟨i, p₀, p, hstart, hbound, (List.getElem?_set_ne hij).trans hp, h⟩
          · exact hcaller h

end Pool
