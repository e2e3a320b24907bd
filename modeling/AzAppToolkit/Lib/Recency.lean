import Mathlib

set_option autoImplicit false

/-! # Which of a list was used longest ago

The elements of a list carry a stamp, and `used` says, by the identity of an element, when it was last
used. The list is aged if the stamps, with the place in the list behind them, tell who was used earlier.
Then the first element of the least stamp was used longest ago. -/

namespace Recency

variable {α ι σ τ : Type} [LinearOrder σ] [LinearOrder τ]
  {ident : α → ι} {stamp : α → σ} {used used' : ι → τ} {l : List α}

/-- Of two elements, the one used earlier has the lesser stamp, or the same and stands before. -/
def Aged (ident : α → ι) (stamp : α → σ) (used : ι → τ) (l : List α) : Prop :=
  l.Pairwise fun x y =>
    (used (ident x) < used (ident y) → stamp x ≤ stamp y) ∧
      (used (ident y) < used (ident x) → stamp y < stamp x)

theorem Aged.sublist {m : List α} (h : Aged ident stamp used l) (hsub : m.Sublist l) :
    Aged ident stamp used m := List.Pairwise.sublist hsub h

/-- A list whose uses are ordered as its stamps is aged. -/
theorem aged_of_stamps (h : ∀ x ∈ l, ∀ y ∈ l, used (ident x) < used (ident y) → stamp x < stamp y) :
    Aged ident stamp used l := by
  refine List.Pairwise.imp_of_mem (R := fun _ _ => True) ?_ (List.pairwise_of_forall fun _ _ => trivial)
  intro x y hx hy _
  exact ⟨fun hxy => (h x hx y hy hxy).le, fun hyx => h y hy x hx hyx⟩

/-- Only the uses of the elements in the list count. -/
theorem Aged.congr (h : Aged ident stamp used l) (heq : ∀ x ∈ l, used' (ident x) = used (ident x)) :
    Aged ident stamp used' l := by
  refine h.imp_of_mem fun {x y} hx hy hxy => ?_
  rw [heq x hx, heq y hy]
  exact hxy

/-- The newest element goes to the end. -/
theorem Aged.snoc {x : α} (h : Aged ident stamp used l) (hstamp : ∀ y ∈ l, stamp y < stamp x)
    (hused : ∀ y ∈ l, used (ident y) < used (ident x)) : Aged ident stamp used (l ++ [x]) := by
  refine List.pairwise_append.2 ⟨h, List.pairwise_singleton _ _, ?_⟩
  intro y hy z hz
  obtain rfl := List.mem_singleton.1 hz
  exact ⟨fun _ => (hstamp y hy).le, fun hlt => absurd hlt (not_lt.2 (hused y hy).le)⟩

/-- A change that keeps identities and stamps keeps the age. -/
theorem Aged.map {f : α → α} (h : Aged ident stamp used l) (hident : ∀ x, ident (f x) = ident x)
    (hstamp : ∀ x, stamp (f x) = stamp x) : Aged ident stamp used (l.map f) := by
  refine List.pairwise_map.2 (h.imp fun {x y} hxy => ?_)
  rw [hident, hident, hstamp, hstamp]
  exact hxy

/-- One element is used now, and stamped. -/
theorem Aged.stamped [DecidableEq ι] {i : ι} {f : α → α} {now : σ} {t : τ} (h : Aged ident stamp used l)
    (hdistinct : l.Pairwise fun x y => ident x ≠ ident y) (hstamp : ∀ x ∈ l, stamp x < now)
    (hused : ∀ x ∈ l, used (ident x) < t) (hident : ∀ x, ident (f x) = ident x)
    (hnow : ∀ x, stamp (f x) = now) :
    Aged ident stamp (Function.update used i t) (l.map fun x => if ident x = i then f x else x) := by
  refine List.pairwise_map.2 ((h.and hdistinct).imp_of_mem fun {x y} hx hy hxy => ?_)
  obtain ⟨hxy, hne⟩ := hxy
  by_cases hxi : ident x = i
  · have hyi : ident y ≠ i := fun hyi => hne (hxi.trans hyi.symm)
    rw [if_pos hxi, if_neg hyi, hident, hxi, Function.update_self, Function.update_of_ne hyi, hnow]
    exact ⟨fun hlt => absurd hlt (not_lt.2 (hused y hy).le), fun _ => hstamp y hy⟩
  · rw [if_neg hxi, Function.update_of_ne hxi]
    by_cases hyi : ident y = i
    · rw [if_pos hyi, hident, hyi, Function.update_self, hnow]
      exact ⟨fun _ => (hstamp x hx).le, fun hlt => absurd hlt (not_lt.2 (hused x hx).le)⟩
    · rw [if_neg hyi, Function.update_of_ne hyi]
      exact hxy

/-- The last element of the greatest stamp may be used now without a new stamp. -/
theorem Aged.renewed [DecidableEq ι] {a b : List α} {x : α} {t : τ} (h : Aged ident stamp used (a ++ x :: b))
    (hdistinct : (a ++ x :: b).Pairwise fun x y => ident x ≠ ident y)
    (hbefore : ∀ y ∈ a, stamp y ≤ stamp x) (hafter : ∀ y ∈ b, stamp y < stamp x)
    (hused : ∀ y ∈ a ++ x :: b, used (ident y) < t) :
    Aged ident stamp (Function.update used (ident x) t) (a ++ x :: b) := by
  obtain ⟨ha, hxb, hcross⟩ := List.pairwise_append.1 h
  obtain ⟨hx, hb⟩ := List.pairwise_cons.1 hxb
  obtain ⟨-, hdxb, hdcross⟩ := List.pairwise_append.1 hdistinct
  have hold : ∀ y, ident y ≠ ident x → Function.update used (ident x) t (ident y) = used (ident y) :=
    fun y hy => Function.update_of_ne hy t used
  have hda : ∀ y ∈ a, ident y ≠ ident x := fun y hy => hdcross y hy x List.mem_cons_self
  have hdb : ∀ y ∈ b, ident y ≠ ident x := fun y hy => ((List.pairwise_cons.1 hdxb).1 y hy).symm
  refine List.pairwise_append.2 ⟨?_, List.pairwise_cons.2 ⟨?_, ?_⟩, ?_⟩
  · exact Aged.congr ha fun y hy => hold y (hda y hy)
  · intro y hy
    rw [Function.update_self, hold y (hdb y hy)]
    have hy' : used (ident y) < t := hused y (by simp [hy])
    exact ⟨fun hlt => absurd hlt (not_lt.2 hy'.le), fun _ => hafter y hy⟩
  · exact Aged.congr hb fun y hy => hold y (hdb y hy)
  · intro y hy z hz
    rcases List.mem_cons.1 hz with rfl | hz
    · rw [Function.update_self, hold y (hda y hy)]
      have hy' : used (ident y) < t := hused y (by simp [hy])
      exact ⟨fun _ => hbefore y hy, fun hlt => absurd hlt (not_lt.2 hy'.le)⟩
    · rw [hold y (hda y hy), hold z (hdb z hz)]
      exact hcross y hy z (List.mem_cons_of_mem x hz)

/-- The first element of the least stamp was used longest ago. -/
theorem Aged.oldest {a b : List α} {e : α} (h : Aged ident stamp used (a ++ e :: b))
    (hbefore : ∀ y ∈ a, stamp e < stamp y) (hafter : ∀ y ∈ b, stamp e ≤ stamp y) :
    ∀ y ∈ a ++ e :: b, used (ident e) ≤ used (ident y) := by
  obtain ⟨-, heb, hcross⟩ := List.pairwise_append.1 h
  intro y hy
  rcases List.mem_append.1 hy with hy | hy
  · by_contra hlt
    exact absurd (hbefore y hy) (not_lt.2 ((hcross y hy e List.mem_cons_self).1 (not_le.1 hlt)))
  · rcases List.mem_cons.1 hy with rfl | hy
    · exact le_rfl
    · by_contra hlt
      exact absurd (hafter y hy) (not_le.2 (((List.pairwise_cons.1 heb).1 y hy).2 (not_le.1 hlt)))

/-! ## Finding the two ends -/

theorem exists_least (stamp : α → σ) (h : l ≠ []) : ∃ e ∈ l, ∀ y ∈ l, stamp e ≤ stamp y := by
  induction l with
  | nil => exact absurd rfl h
  | cons x l ih =>
    by_cases hl : l = []
    · subst hl
      exact ⟨x, List.mem_cons_self, fun y hy => by rw [List.mem_singleton.1 hy]⟩
    · obtain ⟨e, he, hleast⟩ := ih hl
      rcases le_total (stamp x) (stamp e) with hle | hle
      · exact ⟨x, List.mem_cons_self, List.forall_mem_cons.2 ⟨le_rfl, fun y hy => hle.trans (hleast y hy)⟩⟩
      · exact ⟨e, List.mem_cons_of_mem x he, List.forall_mem_cons.2 ⟨hle, hleast⟩⟩

/-- The first element that no other falls short of. -/
theorem split_least {n : Nat} (h : l.findIdx? (fun x => l.all fun y => decide (stamp x ≤ stamp y)) = some n) :
    ∃ a e b, l = a ++ e :: b ∧ a.length = n ∧ (∀ y ∈ a, stamp e < stamp y) ∧
      ∀ y ∈ b, stamp e ≤ stamp y := by
  obtain ⟨hn, hleast, hfirst⟩ := List.findIdx?_eq_some_iff_getElem.1 h
  have hleast : ∀ y ∈ l, stamp l[n] ≤ stamp y := by
    intro y hy
    exact of_decide_eq_true (List.all_eq_true.1 hleast y hy)
  have hsplit : l = l.take n ++ l[n] :: l.drop (n + 1) := by simp
  refine ⟨l.take n, l[n], l.drop (n + 1), hsplit, List.length_take_of_le hn.le, ?_, ?_⟩
  · intro y hy
    obtain ⟨i, hi, rfl⟩ := List.mem_iff_getElem.1 hy
    rw [List.getElem_take]
    rw [List.length_take] at hi
    refine lt_of_not_ge fun hge => hfirst i (by omega) (List.all_eq_true.2 fun z hz => ?_)
    exact decide_eq_true (hge.trans (hleast z hz))
  · intro y hy
    exact hleast y (List.mem_of_mem_drop hy)

/-- The last element that no other exceeds. -/
theorem split_greatest {x : α}
    (h : l.reverse.find? (fun x => l.all fun y => decide (stamp y ≤ stamp x)) = some x) :
    ∃ a b, l = a ++ x :: b ∧ (∀ y ∈ a, stamp y ≤ stamp x) ∧ ∀ y ∈ b, stamp y < stamp x := by
  obtain ⟨hgreatest, b, a, hsplit, hlast⟩ := List.find?_eq_some_iff_append.1 h
  have hgreatest : ∀ y ∈ l, stamp y ≤ stamp x := fun y hy =>
    of_decide_eq_true (List.all_eq_true.1 hgreatest y hy)
  have hl : l = a.reverse ++ x :: b.reverse := by
    rw [← List.reverse_reverse l, hsplit]
    simp
  refine ⟨a.reverse, b.reverse, hl, fun y hy => hgreatest y ?_, fun y hy => ?_⟩
  · rw [hl]
    exact List.mem_append_left _ hy
  · refine lt_of_not_ge fun hge => ?_
    have hnot := hlast y (List.mem_reverse.1 hy)
    simp only [Bool.not_eq_true', Bool.eq_false_iff, ne_eq, List.all_eq_true] at hnot
    exact hnot fun z hz => decide_eq_true ((hgreatest z hz).trans hge)

end Recency
