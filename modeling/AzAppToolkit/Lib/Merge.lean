import Mathlib

set_option autoImplicit false

/-! # Merging entries by key

A list gone through once, with one entry kept for each key: the first entry of a key is taken in by
`fresh`, and a later one is worked into it by `combine`.

* `map_key_foldl` and `nodup_merge`: the keys of the result are those of the list, each once;
* `merge_induction`: what holds of an entry and of the part of the list gone through so far, by one case
  for each thing that can happen to it. -/

namespace Merge

variable {α κ : Type} [DecidableEq κ]

def upsert (key : α → κ) (fresh : α → α) (combine : α → α → α) : List α → α → List α
  | [], a => [fresh a]
  | b :: rest, a =>
    if key b = key a then combine b a :: rest else b :: upsert key fresh combine rest a

def merge (key : α → κ) (fresh : α → α) (combine : α → α → α) (l : List α) : List α :=
  l.foldl (upsert key fresh combine) []

/-- Neither operation changes a key. -/
structure Keyed (key : α → κ) (fresh : α → α) (combine : α → α → α) : Prop where
  fresh : ∀ a, key (fresh a) = key a
  combine : ∀ b a, key (combine b a) = key b

variable {key : α → κ} {fresh : α → α} {combine : α → α → α}

/-! ## Keys -/

theorem map_key_upsert (h : Keyed key fresh combine) (l : List α) (a : α) :
    (upsert key fresh combine l a).map key =
      if key a ∈ l.map key then l.map key else l.map key ++ [key a] := by
  induction l with
  | nil => simp [upsert, h.fresh]
  | cons b rest ih =>
    unfold upsert
    by_cases heq : key b = key a
    · rw [if_pos heq, List.map_cons, h.combine, if_pos (by simp [heq])]
      rfl
    · rw [if_neg heq, List.map_cons, ih]
      by_cases hmem : key a ∈ rest.map key
      · rw [if_pos hmem, if_pos (by rw [List.map_cons]; exact List.mem_cons_of_mem _ hmem),
          List.map_cons]
      · have hnot : key a ∉ (b :: rest).map key := by
          rw [List.map_cons, List.mem_cons, not_or]
          exact ⟨fun h => heq h.symm, hmem⟩
        rw [if_neg hmem, if_neg hnot, List.map_cons, List.cons_append]

theorem mem_map_key_upsert (h : Keyed key fresh combine) (l : List α) (a : α) (k : κ) :
    k ∈ (upsert key fresh combine l a).map key ↔ k ∈ l.map key ∨ k = key a := by
  rw [map_key_upsert h]
  split
  · next hmem =>
    constructor
    · exact Or.inl
    · rintro (hk | rfl)
      · exact hk
      · exact hmem
  · rw [List.mem_append, List.mem_singleton]

theorem nodup_upsert (h : Keyed key fresh combine) {l : List α} (a : α)
    (hl : (l.map key).Nodup) : ((upsert key fresh combine l a).map key).Nodup := by
  rw [map_key_upsert h]
  split
  · exact hl
  · next hmem =>
    rw [List.nodup_append]
    refine ⟨hl, List.nodup_singleton _, fun k hk k' hk' heq => hmem ?_⟩
    rw [← List.mem_singleton.1 hk', ← heq]
    exact hk

theorem mem_map_key_foldl (h : Keyed key fresh combine) (l acc : List α) (k : κ) :
    k ∈ (l.foldl (upsert key fresh combine) acc).map key ↔ k ∈ acc.map key ∨ k ∈ l.map key := by
  induction l generalizing acc with
  | nil => simp
  | cons a rest ih =>
    rw [List.foldl_cons, ih, mem_map_key_upsert h, List.map_cons, List.mem_cons, or_assoc]

theorem nodup_foldl (h : Keyed key fresh combine) (l : List α) {acc : List α}
    (hacc : (acc.map key).Nodup) : ((l.foldl (upsert key fresh combine) acc).map key).Nodup := by
  induction l generalizing acc with
  | nil => exact hacc
  | cons a rest ih => exact ih (nodup_upsert h a hacc)

theorem nodup_merge (h : Keyed key fresh combine) (l : List α) :
    ((merge key fresh combine l).map key).Nodup := nodup_foldl h l List.nodup_nil

theorem mem_map_key_merge (h : Keyed key fresh combine) (l : List α) (k : κ) :
    k ∈ (merge key fresh combine l).map key ↔ k ∈ l.map key := by
  unfold merge
  rw [mem_map_key_foldl h]
  simp

/-! ## Entries -/

/-- An entry is one there was, untouched, the new one or the one it was worked into. -/
theorem mem_upsert {l : List α} {a e : α} (hl : (l.map key).Nodup) (he : e ∈ upsert key fresh combine l a) :
    (e ∈ l ∧ key e ≠ key a) ∨ (e = fresh a ∧ key a ∉ l.map key) ∨
      ∃ b ∈ l, key b = key a ∧ e = combine b a := by
  induction l with
  | nil =>
    rw [upsert, List.mem_singleton] at he
    exact .inr (.inl ⟨he, by simp⟩)
  | cons b rest ih =>
    rw [List.map_cons, List.nodup_cons] at hl
    unfold upsert at he
    split at he
    · next heq =>
      rcases List.mem_cons.1 he with rfl | he
      · exact .inr (.inr ⟨b, List.mem_cons_self, heq, rfl⟩)
      · refine .inl ⟨List.mem_cons_of_mem b he, fun hkey => hl.1 ?_⟩
        rw [heq, ← hkey]
        exact List.mem_map_of_mem he
    · next hne =>
      rcases List.mem_cons.1 he with rfl | he
      · exact .inl ⟨List.mem_cons_self, hne⟩
      · rcases ih hl.2 he with ⟨hold, hkey⟩ | ⟨rfl, hnew⟩ | ⟨c, hc, hkey, rfl⟩
        · exact .inl ⟨List.mem_cons_of_mem b hold, hkey⟩
        · refine .inr (.inl ⟨rfl, ?_⟩)
          rw [List.map_cons, List.mem_cons, not_or]
          exact ⟨fun h => hne h.symm, hnew⟩
        · exact .inr (.inr ⟨c, List.mem_cons_of_mem b hc, hkey, rfl⟩)

/-- `I done e` is what is known of an entry once `done` has been gone through. -/
theorem merge_induction (h : Keyed key fresh combine) (I : List α → α → Prop)
    (hfresh : ∀ done a, key a ∉ done.map key → I (done ++ [a]) (fresh a))
    (hcombine : ∀ done b a, key b = key a → I done b → I (done ++ [a]) (combine b a))
    (hother : ∀ done e a, key e ≠ key a → I done e → I (done ++ [a]) e)
    (l : List α) {e : α} (he : e ∈ merge key fresh combine l) : I l e := by
  induction l using List.reverseRecOn generalizing e with
  | nil => exact absurd he (by simp [merge])
  | append_singleton done a ih =>
    unfold merge at he
    rw [List.foldl_append] at he
    rcases mem_upsert (nodup_merge h done) he with ⟨hold, hkey⟩ | ⟨rfl, hnew⟩ | ⟨b, hb, hkey, rfl⟩
    · exact hother done e a hkey (ih hold)
    · refine hfresh done a (fun hmem => hnew ?_)
      exact (mem_map_key_merge h done (key a)).2 hmem
    · exact hcombine done b a hkey (ih hb)

end Merge
