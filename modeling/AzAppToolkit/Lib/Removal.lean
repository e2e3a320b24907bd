import Mathlib

set_option autoImplicit false

/-! # Removing until nothing is left to remove

Sweeps over a list of items, each removing the items a rule fires for given those removed so far, until
a sweep removes nothing. The sweeps end; what they remove is closed under the rule; and for a rule that
more removals never silence it is the least closed set, whatever the order of the items. -/

namespace Removal

variable {ι : Type}

/-- What holds of the removals so far: items, each once. -/
structure Valid (items removed : List ι) : Prop where
  nodup : removed.Nodup
  subset : removed ⊆ items

theorem Valid.length_le {items removed : List ι} (h : Valid items removed) : removed.length ≤ items.length :=
  (h.nodup.subperm h.subset).length_le

variable [DecidableEq ι]

/-- One look at an item. -/
def look (fires : List ι → ι → Bool) (removed : List ι) (i : ι) : List ι :=
  if removed.contains i then removed
  else if fires removed i then removed ++ [i]
  else removed

def sweep (fires : List ι → ι → Bool) (items removed : List ι) : List ι :=
  items.foldl (look fires) removed

/-- Sweep until nothing changes, for at most so many sweeps. -/
def settle (fires : List ι → ι → Bool) (items : List ι) : Nat → List ι → Option (List ι)
  | 0, _ => none
  | fuel + 1, removed =>
    let next := sweep fires items removed
    if next.length = removed.length then some next else settle fires items fuel next

/-- Every item that is left is one the rule does not fire for. -/
def Closed (fires : List ι → ι → Bool) (items removed : List ι) : Prop :=
  ∀ i ∈ items, i ∉ removed → fires removed i = false

/-- More removals never silence the rule. -/
def Monotone (fires : List ι → ι → Bool) : Prop :=
  ∀ removed removed' : List ι, removed ⊆ removed' → ∀ i, fires removed i = true →
    fires removed' i = true

/-! ## One sweep -/

theorem look_cases (fires : List ι → ι → Bool) (removed : List ι) (i : ι) :
    (look fires removed i = removed ∧ (i ∉ removed → fires removed i = false)) ∨
      (look fires removed i = removed ++ [i] ∧ i ∉ removed ∧ fires removed i = true) := by
  unfold look
  by_cases hmem : i ∈ removed
  · rw [if_pos (List.contains_iff_mem.2 hmem)]
    exact Or.inl ⟨rfl, fun hnot => absurd hmem hnot⟩
  · rw [if_neg (fun h => hmem (List.contains_iff_mem.1 h))]
    cases hfires : fires removed i with
    | false =>
      rw [if_neg Bool.false_ne_true]
      exact Or.inl ⟨rfl, fun _ => rfl⟩
    | true =>
      rw [if_pos rfl]
      exact Or.inr ⟨rfl, hmem, rfl⟩

variable {fires : List ι → ι → Bool}

theorem Valid.look {items removed : List ι} (h : Valid items removed)
    {i : ι} (hi : i ∈ items) : Valid items (look fires removed i) := by
  rcases look_cases fires removed i with ⟨heq, -⟩ | ⟨heq, hnot, -⟩
  · rw [heq]
    exact h
  · rw [heq]
    constructor
    · rw [List.nodup_append]
      refine ⟨h.nodup, List.nodup_singleton i, ?_⟩
      intro a ha b hb hab
      rw [List.mem_singleton.1 hb] at hab
      exact hnot (hab ▸ ha)
    · intro a ha
      rcases List.mem_append.1 ha with ha | ha
      · exact h.subset ha
      · rw [List.mem_singleton.1 ha]
        exact hi

theorem length_le_look (fires : List ι → ι → Bool) (removed : List ι) (i : ι) :
    removed.length ≤ (look fires removed i).length := by
  rcases look_cases fires removed i with ⟨heq, -⟩ | ⟨heq, -, -⟩
  · rw [heq]
  · rw [heq, List.length_append]
    exact Nat.le_add_right _ _

/-- A sweep over some of the items keeps the removals valid and never takes one back; if it removes
    nothing, the rule fires for none of them. -/
theorem foldl_look_spec (fires : List ι → ι → Bool) {items : List ι} (seen : List ι)
    {removed : List ι} (h : Valid items removed) (hseen : seen ⊆ items) :
    Valid items (seen.foldl (look fires) removed) ∧
      removed.length ≤ (seen.foldl (look fires) removed).length ∧
      ((seen.foldl (look fires) removed).length = removed.length →
        seen.foldl (look fires) removed = removed ∧ Closed fires seen removed) := by
  induction seen generalizing removed with
  | nil => exact ⟨h, le_refl _, fun _ => ⟨rfl, fun i hi => absurd hi (by simp)⟩⟩
  | cons i rest ih =>
    have hi := hseen (List.mem_cons_self ..)
    have hrest : rest ⊆ items := fun j hj => hseen (List.mem_cons_of_mem _ hj)
    have hlook : Valid items (look fires removed i) := h.look hi
    obtain ⟨hvalid, hgrows, hstill⟩ := ih hlook hrest
    have hstep := length_le_look fires removed i
    rw [List.foldl_cons]
    refine ⟨hvalid, le_trans hstep hgrows, ?_⟩
    intro hlength
    rcases look_cases fires removed i with ⟨heq, hquiet⟩ | ⟨heq, -, -⟩
    · rw [heq] at hlength hstill ⊢
      obtain ⟨hsame, hclosed⟩ := hstill hlength
      refine ⟨hsame, ?_⟩
      intro j hj
      rcases List.mem_cons.1 hj with rfl | hj
      · exact hquiet
      · exact hclosed j hj
    · rw [heq, List.length_append] at hgrows
      rw [heq] at hlength
      simp only [List.length_singleton] at hgrows
      omega

/-! ## All sweeps -/

/-- With a sweep for each item that is left, and one more, the sweeps end in a closed set. -/
theorem settle_closed (fires : List ι → ι → Bool) {items : List ι} (fuel : Nat) {removed : List ι}
    (h : Valid items removed) (hfuel : items.length - removed.length < fuel) :
    ∃ result, settle fires items fuel removed = some result ∧ Valid items result ∧
      Closed fires items result := by
  induction fuel generalizing removed with
  | zero => exact absurd hfuel (Nat.not_lt_zero _)
  | succ fuel ih =>
    obtain ⟨hvalid, hgrows, hstill⟩ := foldl_look_spec fires items h (List.Subset.refl items)
    unfold settle sweep
    by_cases hlength : (items.foldl (look fires) removed).length = removed.length
    · obtain ⟨hsame, hclosed⟩ := hstill hlength
      refine ⟨removed, ?_, h, hclosed⟩
      simp only [hsame, if_true]
    · simp only [if_neg hlength]
      have hbound := hvalid.length_le
      exact ih hvalid (by omega)

/-- More sweeps than needed change nothing. -/
theorem settle_mono (fires : List ι → ι → Bool) (items : List ι) {fuel fuel' : Nat}
    (hle : fuel ≤ fuel') {removed result : List ι} (h : settle fires items fuel removed = some result) :
    settle fires items fuel' removed = some result := by
  induction fuel generalizing fuel' removed with
  | zero => exact absurd h (by simp [settle])
  | succ fuel ih =>
    obtain ⟨fuel', rfl⟩ : ∃ m, fuel' = m + 1 := ⟨fuel' - 1, by omega⟩
    unfold settle at h ⊢
    simp only at h ⊢
    split at h
    · next hlength => rw [if_pos hlength]; exact h
    · next hlength => rw [if_neg hlength]; exact ih (by omega) h

/-- Nothing outside a closed set is ever removed. -/
theorem foldl_look_subset (hmono : Monotone fires) {items : List ι}
    {closed : List ι} (hclosed : Closed fires items closed) (seen : List ι) (hseen : seen ⊆ items)
    {removed : List ι} (h : removed ⊆ closed) : seen.foldl (look fires) removed ⊆ closed := by
  induction seen generalizing removed with
  | nil => exact h
  | cons i rest ih =>
    rw [List.foldl_cons]
    apply ih (fun j hj => hseen (List.mem_cons_of_mem _ hj))
    rcases look_cases fires removed i with ⟨heq, -⟩ | ⟨heq, -, hfires⟩
    · rw [heq]
      exact h
    · rw [heq]
      intro j hj
      rcases List.mem_append.1 hj with hj | hj
      · exact h hj
      · rw [List.mem_singleton.1 hj]
        by_contra hnot
        have hquiet := hclosed i (hseen (List.mem_cons_self ..)) hnot
        rw [hmono removed closed h i hfires] at hquiet
        exact Bool.noConfusion hquiet

theorem settle_subset (hmono : Monotone fires) {items closed : List ι}
    (hclosed : Closed fires items closed) {fuel : Nat} {removed result : List ι}
    (h : removed ⊆ closed) (hresult : settle fires items fuel removed = some result) :
    result ⊆ closed := by
  induction fuel generalizing removed with
  | zero => exact absurd hresult (by simp [settle])
  | succ fuel ih =>
    have hsweep := foldl_look_subset hmono hclosed items (List.Subset.refl items) h
    unfold settle sweep at hresult
    simp only at hresult
    split at hresult
    · exact Option.some.inj hresult ▸ hsweep
    · exact ih hsweep hresult

/-- The order of the items does not matter. -/
theorem settle_perm (hmono : Monotone fires) {items items' : List ι}
    (hperm : ∀ i, i ∈ items ↔ i ∈ items') {fuel fuel' : Nat} {result result' : List ι}
    (hresult : settle fires items fuel [] = some result)
    (hresult' : settle fires items' fuel' [] = some result')
    (hclosed : Closed fires items result) (hclosed' : Closed fires items' result') :
    ∀ i, i ∈ result ↔ i ∈ result' := by
  intro i
  constructor
  · intro hi
    have hsub : result ⊆ result' := settle_subset hmono
      (fun j hj => hclosed' j ((hperm j).1 hj)) (List.nil_subset _) hresult
    exact hsub hi
  · intro hi
    have hsub : result' ⊆ result := settle_subset hmono
      (fun j hj => hclosed j ((hperm j).2 hj)) (List.nil_subset _) hresult'
    exact hsub hi

end Removal
