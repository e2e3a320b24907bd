import AzAppToolkit.Lib.Program

set_option autoImplicit false

/-! # Runs and their traces

What the remembering world says of a run: `Grew` is how a trace gets longer by calls of one kind, and
`calls_allowed` reads the condition under which the calls were made off the trace at its end. -/

namespace Prog

variable {Call : Type} {Answer : Call → Type} {α β : Type}

/-! ## Longer traces -/

/-- The second trace is the first with calls of one kind behind it. -/
def Grew (kind : Call → Prop) (h h' : List (Exchanged Answer)) : Prop :=
  ∃ t, h' = h ++ t ∧ ∀ e ∈ t, kind e.1

namespace Grew

variable {kind kind' : Call → Prop} {h h' h'' : List (Exchanged Answer)}

theorem refl (kind : Call → Prop) (h : List (Exchanged Answer)) : Grew kind h h :=
  ⟨[], (List.append_nil h).symm, fun _ he => absurd he (by simp)⟩

theorem snoc (hgrew : Grew kind h h') {e : Exchanged Answer} (he : kind e.1) : Grew kind h (h' ++ [e]) := by
  obtain ⟨t, rfl, ht⟩ := hgrew
  refine ⟨t ++ [e], List.append_assoc h t [e], fun e' he' => ?_⟩
  rcases List.mem_append.1 he' with hold | hnew
  · exact ht e' hold
  · exact List.mem_singleton.1 hnew ▸ he

theorem trans (hgrew : Grew kind h h') (hgrew' : Grew kind h' h'') : Grew kind h h'' := by
  obtain ⟨t, rfl, ht⟩ := hgrew
  obtain ⟨t', rfl, ht'⟩ := hgrew'
  refine ⟨t ++ t', List.append_assoc h t t', fun e he => ?_⟩
  exact (List.mem_append.1 he).elim (ht e) (ht' e)

theorem weaken (hgrew : Grew kind h h') (hsub : ∀ c, kind c → kind' c) : Grew kind' h h' := by
  obtain ⟨t, rfl, ht⟩ := hgrew
  exact ⟨t, rfl, fun e he => hsub e.1 (ht e he)⟩

theorem mem (hgrew : Grew kind h h') {e : Exchanged Answer} (he : e ∈ h) : e ∈ h' := by
  obtain ⟨t, rfl, -⟩ := hgrew
  exact List.mem_append_left t he

/-- Calls of another kind were made before. -/
theorem mem_iff (hgrew : Grew kind h h') {e : Exchanged Answer} (hkind : ¬ kind e.1) : e ∈ h' ↔ e ∈ h := by
  obtain ⟨t, rfl, ht⟩ := hgrew
  rw [List.mem_append]
  exact or_iff_left (fun he => hkind (ht e he))

end Grew

variable {ok : List (Exchanged Answer) → Call → Prop}

/-- A program that makes calls of one kind only. -/
theorem Only.grew {kind : Call → Prop} {p : Prog Answer α} (hp : Only kind p) (hok : ∀ s c, kind c → ok s c)
    (h : List (Exchanged Answer)) : Meets history ok (fun h' _ => Grew kind h h') h p := by
  refine hp.meets (fun s c _ hc => hok s c hc) (fun s c r s' hgrew hc hw => ?_) (Grew.refl kind h)
  have hs : s' = s ++ [⟨c, r⟩] := hw
  exact hs ▸ hgrew.snoc hc

variable {post : List (Exchanged Answer) → α → Prop} {h : List (Exchanged Answer)}

/-- What is known of such a program, with the calls it added. -/
theorem Meets.within {kind : Call → Prop} {ok ok' : List (Exchanged Answer) → Call → Prop} {p : Prog Answer α}
    (hp : Meets history ok post h p) (honly : Only kind p) (hok : ∀ s c, kind c → ok' s c) :
    Meets history ok' (fun h' a => Grew kind h h' ∧ post h' a) h p := by
  have hfrom : ∀ (q : Prog Answer α) (s : List (Exchanged Answer)), Only kind q → Grew kind h s →
      Meets history ok post s q →
      Meets history ok' (fun h' a => Grew kind h h' ∧ post h' a) s q := by
    intro q
    induction q with
    | done a => exact fun s _ hgrew hs => ⟨hgrew, hs⟩
    | ask c next ih =>
      intro s honly hgrew hs
      refine ⟨hok s c honly.1, fun r s' hw => ?_⟩
      have hs' : s' = s ++ [⟨c, r⟩] := hw
      exact ih r s' (honly.2 r) (hs' ▸ hgrew.snoc honly.1) (hs.2 r s' hw)
  exact hfrom p h honly (Grew.refl kind h) hp

/-! ## Calls of a run -/

/-- Each call of the trace was made behind a trace the condition holds of. -/
def Allows (ok : List (Exchanged Answer) → Call → Prop) (h : List (Exchanged Answer)) : Prop :=
  ∀ before e after, h = before ++ e :: after → ok before e.1

theorem Allows.nil (ok : List (Exchanged Answer) → Call → Prop) : Allows ok [] := by
  intro before e after h
  exact absurd h (by simp)

theorem Allows.snoc (hall : Allows ok h) {e : Exchanged Answer} (he : ok h e.1) : Allows ok (h ++ [e]) := by
  intro before e' after heq
  rcases List.eq_nil_or_concat after with rfl | ⟨front, last, rfl⟩
  · obtain ⟨rfl, hlast⟩ := List.append_inj' heq rfl
    obtain rfl : e = e' := by simpa using hlast
    exact he
  · rw [List.concat_eq_append, ← List.cons_append, ← List.append_assoc] at heq
    exact hall before e' front (List.append_inj' heq rfl).1

theorem Meets.allows {p : Prog Answer α} (hp : Meets history ok post h p) (hh : Allows ok h) :
    Meets history ok (fun h a => Allows ok h ∧ post h a) h p := by
  refine hp.keep (fun s c r s' hs hok hw => ?_) (fun _ _ _ hok => hok) hh
  have hs' : s' = s ++ [⟨c, r⟩] := hw
  exact hs' ▸ hs.snoc (e := ⟨c, r⟩) hok

/-- Every call of a run was made where the specification allows it. -/
theorem Meets.calls_allowed {p : Prog Answer α}
    {a : α} (hp : Meets history ok post [] p) (hrun : Exec history [] p h a) : Allows ok h :=
  ((hp.allows (Allows.nil ok)).sound hrun).1

/-! ## Results that are there already -/

theorem Meets.ofExcept {ε σ : Type} {w : World Answer σ} {ok : σ → Call → Prop} {s : σ}
    {x : Except ε β} {f : β → ExceptT ε (Prog Answer) α} {post : σ → Except ε α → Prop}
    (hbad : ∀ e, x = .error e → post s (.error e)) (hgood : ∀ b, x = .ok b → Meets w ok post s (f b).run) :
    Meets w ok post s (ExceptT.mk (Pure.pure x) >>= f).run := by
  refine Meets.tryBind (Meets.pure ?_)
  cases x with
  | ok b => exact hgood b rfl
  | error e => exact hbad e rfl

end Prog
