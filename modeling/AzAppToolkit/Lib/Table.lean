import Mathlib

set_option autoImplicit false

/-! # Finite tables

A hash map or an ordered map of the program is a `Table`: Mathlib's `AList` at a constant value
type, so that distinct keys are a field of the value. This file adds what `AList` lacks and the
models need: filtering and updating rows in place (`retain`, `mapRows`), counting rows
(`countRows`), and removing the row with the least key (`popFirst`). -/

/-- A finite map from `κ` to `α`. -/
abbrev Table (κ α : Type) := AList (fun _ : κ => α)

namespace AList

variable {κ α : Type}

/-! ## Looking up a row -/

section Lookup

variable [DecidableEq κ]

theorem lookup_insert_eq (t : Table κ α) (k k' : κ) (v : α) :
    (t.insert k v).lookup k' = if k' = k then some v else t.lookup k' := by
  by_cases h : k' = k
  · subst h
    rw [if_pos rfl]
    exact AList.lookup_insert t
  · rw [if_neg h]
    exact AList.lookup_insert_ne h

theorem lookup_erase_eq (t : Table κ α) (k k' : κ) :
    (t.erase k).lookup k' = if k' = k then none else t.lookup k' := by
  by_cases h : k' = k
  · subst h
    rw [if_pos rfl]
    exact AList.lookup_erase k' t
  · rw [if_neg h]
    exact AList.lookup_erase_ne h

theorem mem_entries_iff (t : Table κ α) (k : κ) (v : α) :
    (⟨k, v⟩ : Sigma fun _ : κ => α) ∈ t.entries ↔ t.lookup k = some v :=
  (AList.mem_lookup_iff (s := t)).symm

theorem mem_iff_lookup (t : Table κ α) (k : κ) : k ∈ t ↔ ∃ v, t.lookup k = some v := by
  rw [← AList.lookup_isSome, Option.isSome_iff_exists]

/-- A row inserted by a loop keeps the value the loop computes for its key. -/
theorem lookup_foldl_insert {β : Type} (key : β → κ) (f : β → α) (l : List β) (t : Table κ α)
    (b : β) (hmem : b ∈ l) (hkey : ∀ b' ∈ l, key b' = key b → f b' = f b) :
    (l.foldl (fun t b => t.insert (key b) (f b)) t).lookup (key b) = some (f b) := by
  -- once the row holds the value, later rounds leave it
  have hkeep : ∀ (l : List β) (t : Table κ α), (∀ b' ∈ l, key b' = key b → f b' = f b) →
      t.lookup (key b) = some (f b) →
      (l.foldl (fun t b => t.insert (key b) (f b)) t).lookup (key b) = some (f b) := by
    intro l
    induction l with
    | nil => exact fun _ _ h => h
    | cons b' l ih =>
      intro t hkey h
      refine ih _ (fun c hc => hkey c (List.mem_cons_of_mem _ hc)) ?_
      rw [lookup_insert_eq]
      split
      · next heq => rw [hkey b' List.mem_cons_self heq.symm]
      · exact h
  induction l generalizing t with
  | nil => exact absurd hmem (List.not_mem_nil)
  | cons b' l ih =>
    have hkey' := fun c hc => hkey c (List.mem_cons_of_mem b' hc)
    rcases List.mem_cons.1 hmem with rfl | hmem
    · exact hkeep l _ hkey' (by rw [lookup_insert_eq, if_pos rfl])
    · exact ih _ hmem hkey'

end Lookup

/-! ## Filtering rows in place -/

/-- Keep the rows `keep` accepts. -/
def retain (t : Table κ α) (keep : κ → α → Bool) : Table κ α where
  entries := t.entries.filter (fun r => keep r.1 r.2)
  nodupKeys := t.nodupKeys.sublist List.filter_sublist

theorem lookup_retain [DecidableEq κ] (t : Table κ α) (keep : κ → α → Bool) (k : κ) :
    (t.retain keep).lookup k = (t.lookup k).filter (keep k) := by
  apply Option.ext
  intro v
  rw [← mem_entries_iff, Option.filter_eq_some_iff, ← mem_entries_iff]
  simp [retain]

/-! ## Updating every row in place -/

/-- Change each row's value, keeping its key. -/
def mapRows (t : Table κ α) (f : κ → α → α) : Table κ α where
  entries := t.entries.map (fun r => ⟨r.1, f r.1 r.2⟩)
  nodupKeys := by
    show ((t.entries.map _).map Sigma.fst).Nodup
    rw [List.map_map]
    exact t.nodupKeys

theorem lookup_mapRows [DecidableEq κ] (t : Table κ α) (f : κ → α → α) (k : κ) :
    (t.mapRows f).lookup k = (t.lookup k).map (f k) := by
  apply Option.ext
  intro v
  rw [← mem_entries_iff, Option.map_eq_some_iff]
  simp only [mapRows, List.mem_map]
  constructor
  · rintro ⟨⟨k', w⟩, hmem, heq⟩
    simp only [Sigma.mk.injEq, heq_eq_eq] at heq
    obtain ⟨rfl, rfl⟩ := heq
    exact ⟨w, (mem_entries_iff t k' w).1 hmem, rfl⟩
  · rintro ⟨w, hw, rfl⟩
    exact ⟨⟨k, w⟩, (mem_entries_iff t k w).2 hw, rfl⟩

@[simp] theorem length_mapRows (t : Table κ α) (f : κ → α → α) :
    (t.mapRows f).entries.length = t.entries.length := by
  simp [mapRows]

/-! ## Counting rows -/

/-- How many rows satisfy `p`. -/
def countRows (t : Table κ α) (p : α → Bool) : Nat := t.entries.countP (fun r => p r.2)

@[simp] theorem countRows_empty (p : α → Bool) : countRows (∅ : Table κ α) p = 0 := rfl

/-- Splitting off the row under a present key. -/
theorem entries_perm_erase [DecidableEq κ] (t : Table κ α) (k : κ) (v : α) (h : t.lookup k = some v) :
    t.entries.Perm (⟨k, v⟩ :: (t.erase k).entries) := by
  have hmem : k ∈ t.entries.keys := AList.mem_keys.1 ((mem_iff_lookup t k).2 ⟨v, h⟩)
  obtain ⟨w, l₁, l₂, hnot, hsplit, herase⟩ := List.exists_of_kerase hmem
  have hw : t.lookup k = some w := by
    rw [← mem_entries_iff, hsplit]
    simp
  have hvw : v = w := by
    rw [h] at hw
    exact Option.some.inj hw
  subst hvw
  show t.entries.Perm (⟨k, v⟩ :: t.entries.kerase k)
  rw [herase, hsplit]
  exact List.perm_middle

theorem erase_of_lookup_none [DecidableEq κ] (t : Table κ α) (k : κ) (h : t.lookup k = none) :
    t.erase k = t := by
  apply AList.ext
  exact List.kerase_of_notMem_keys (fun hk => (AList.lookup_eq_none.1 h) (AList.mem_keys.2 hk))

theorem length_erase [DecidableEq κ] (t : Table κ α) (k : κ) (v : α) (h : t.lookup k = some v) :
    (t.erase k).entries.length + 1 = t.entries.length := by
  simpa using (entries_perm_erase t k v h).length_eq.symm

theorem countRows_erase [DecidableEq κ] (t : Table κ α) (p : α → Bool) (k : κ) (v : α)
    (h : t.lookup k = some v) :
    t.countRows p = (t.erase k).countRows p + if p v then 1 else 0 := by
  have hperm := (entries_perm_erase t k v h).countP_eq (fun r => p r.2)
  simpa [countRows, List.countP_cons] using hperm

theorem countRows_insert [DecidableEq κ] (t : Table κ α) (p : α → Bool) (k : κ) (v : α) :
    (t.insert k v).countRows p = (t.erase k).countRows p + if p v then 1 else 0 := by
  simp [countRows, AList.insert, List.kinsert_def, List.countP_cons, AList.erase]

theorem length_insert [DecidableEq κ] (t : Table κ α) (k : κ) (v : α) :
    (t.insert k v).entries.length = (t.erase k).entries.length + 1 := by
  simp [AList.insert, List.kinsert_def, AList.erase]

/-- The rows a filter keeps and the rows it drops add up. -/
theorem countRows_retain (t : Table κ α) (keep : κ → α → Bool) (p : α → Bool) :
    t.countRows p = (t.retain keep).countRows p
      + (t.entries.filter (fun r => !keep r.1 r.2)).countP (fun r => p r.2) := by
  simp only [countRows, retain]
  induction t.entries with
  | nil => rfl
  | cons r rest ih =>
    by_cases hk : keep r.1 r.2 = true
    · simp only [List.countP_cons, List.filter_cons, hk, if_true, Bool.not_true, Bool.false_eq_true,
        if_false]
      omega
    · simp only [Bool.not_eq_true] at hk
      simp only [List.countP_cons, List.filter_cons, hk, if_true, Bool.not_false,
        Bool.false_eq_true, if_false]
      omega

/-! ## The row with the least key -/

/-- Take out the row with the least key: the key, its value and the remaining rows. -/
def popFirst (t : Table Nat α) : Option (Nat × α × Table Nat α) :=
  match t.keys.min? with
  | none => none
  | some k => (t.lookup k).map (fun v => (k, v, t.erase k))

theorem popFirst_eq_some (t t' : Table Nat α) (k : Nat) (v : α) (h : t.popFirst = some (k, v, t')) :
    t.lookup k = some v ∧ t' = t.erase k ∧ ∀ k' v', t'.lookup k' = some v' → k < k' := by
  unfold popFirst at h
  split at h
  · exact absurd h (by simp)
  · next m hm =>
    simp only [Option.map_eq_some_iff, Prod.mk.injEq] at h
    obtain ⟨w, hw, rfl, rfl, rfl⟩ := h
    refine ⟨hw, rfl, fun k' v' hk' => ?_⟩
    rw [lookup_erase_eq] at hk'
    split at hk'
    · exact absurd hk' (by simp)
    · next hne =>
      have hmem : k' ∈ t.keys := AList.mem_keys.1 ((mem_iff_lookup t k').2 ⟨v', hk'⟩)
      have hle : m ≤ k' := (List.min?_eq_some_iff.1 hm).2 k' hmem
      omega

theorem popFirst_eq_none (t : Table Nat α) (h : t.popFirst = none) : t.entries = [] := by
  unfold popFirst at h
  split at h
  · next hm =>
    have hkeys : t.entries.keys = [] := List.min?_eq_none_iff.1 hm
    simpa [List.keys] using hkeys
  · next m hm =>
    have hmem : m ∈ t.keys := (List.min?_eq_some_iff.1 hm).1
    obtain ⟨v, hv⟩ := (mem_iff_lookup t m).1 (AList.mem_keys.2 hmem)
    simp [hv] at h

end AList
