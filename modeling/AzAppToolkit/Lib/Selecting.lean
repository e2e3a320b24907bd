import Mathlib

set_option autoImplicit false

/-! # A partial selection, and a stable sort

A list that is cut down by an unstable selection and then sorted by an unstable sort is the front of
the list sorted stably, if the key that both go by ends in the place of the element. -/

namespace Selecting

variable {α κ : Type} [LinearOrder κ] {key : α → κ} {l : List α} {n : Nat}

/-- Two operations on a slice that keep no order among equal elements. -/
structure Unstable (α : Type) where
  selectNthUnstableBy : Nat → (α → α → Ordering) → List α → List α
  sortUnstableBy : (α → α → Ordering) → List α → List α

/-- The comparison of two elements by their keys. -/
def byKey (key : α → κ) (a b : α) : Ordering := compare (key a) (key b)

/-- `out` holds at `n` an element that none before it exceeds and none after it falls short of. -/
structure Selected (key : α → κ) (n : Nat) (l out : List α) : Prop where
  perm : out.Perm l
  split : ∃ a x b, out = a ++ x :: b ∧ a.length = n ∧ (∀ y ∈ a, key y ≤ key x) ∧
    ∀ y ∈ b, key x ≤ key y

/-- `out` is the list with its elements in the order of the key. -/
structure Sorted (key : α → κ) (l out : List α) : Prop where
  perm : out.Perm l
  sorted : out.Pairwise fun a b => key a ≤ key b

/-- What the two operations promise of a comparison by the key. -/
structure Unstable.Honours (s : Unstable α) (key : α → κ) : Prop where
  select : ∀ n l, n < l.length →
    Selected key n l (s.selectNthUnstableBy n (byKey key) l)
  sort : ∀ l, Sorted key l (s.sortUnstableBy (byKey key) l)

/-- Two sorted arrangements of one list are equal where the key tells its elements apart. -/
theorem Sorted.unique {out out' : List α} (h : Sorted key l out) (h' : Sorted key l out')
    (hinj : ∀ a ∈ l, ∀ b ∈ l, key a = key b → a = b) : out = out' := by
  have hanti : ∀ a b, a ∈ out → b ∈ out' → key a ≤ key b → key b ≤ key a → a = b := by
    intro a b ha hb hab hba
    exact hinj a (h.perm.subset ha) b (h'.perm.subset hb) (le_antisymm hab hba)
  exact List.Perm.eq_of_pairwise hanti h.sorted h'.sorted (h.perm.trans h'.perm.symm)

/-- The lower part of a selection, sorted, is the front of the whole list sorted. -/
theorem Selected.take_sorted {out low whole : List α} (h : Selected key n l out)
    (hlow : Sorted key (out.take (n + 1)) low) (hwhole : Sorted key l whole)
    (hinj : ∀ a ∈ l, ∀ b ∈ l, key a = key b → a = b) : low = whole.take (n + 1) := by
  obtain ⟨hperm, a, x, b, rfl, hlen, hbefore, hafter⟩ := h
  have hfront : (a ++ x :: b).take (n + 1) = a ++ [x] := by
    rw [List.append_cons, List.take_left' (by simp [hlen])]
  rw [hfront] at hlow
  -- the rest, sorted, goes on where the lower part ends
  let rest := b.mergeSort fun y z => decide (key y ≤ key z)
  have hrest : rest.Perm b := List.mergeSort_perm b _
  have hordered : rest.Pairwise fun y z => key y ≤ key z := by
    have hsort : rest.Pairwise fun y z => decide (key y ≤ key z) = true := List.pairwise_mergeSort
      (by simpa using fun y z w => le_trans) (by simpa using fun y z => le_total (key y) (key z)) b
    exact hsort.imp fun h => of_decide_eq_true h
  have hjoined : Sorted key l (low ++ rest) := by
    refine ⟨?_, List.pairwise_append.2 ⟨hlow.sorted, hordered, ?_⟩⟩
    · have hparts : (low ++ rest).Perm ((a ++ [x]) ++ b) := hlow.perm.append hrest
      rw [← List.append_cons] at hparts
      exact hparts.trans hperm
    · intro y hy z hz
      have hyx : key y ≤ key x := by
        rcases List.mem_append.1 (hlow.perm.subset hy) with hy | hy
        · exact hbefore y hy
        · rw [List.mem_singleton.1 hy]
      exact hyx.trans (hafter z (hrest.subset hz))
  have hlength : low.length = n + 1 := by
    rw [hlow.perm.length_eq]
    simp [hlen]
  rw [← hjoined.unique hwhole hinj, List.take_left' hlength]

/-- The first `top` elements by the key, best first. -/
def front (s : Unstable α) (key : α → κ) (top : Nat) (l : List α) : List α :=
  let kept := if top < l.length then (s.selectNthUnstableBy (top - 1) (byKey key) l).take top else l
  s.sortUnstableBy (byKey key) kept

theorem front_eq_take {s : Unstable α} (hs : s.Honours key) (top : Nat) (htop : 0 < top)
    {whole : List α} (hwhole : Sorted key l whole)
    (hinj : ∀ a ∈ l, ∀ b ∈ l, key a = key b → a = b) : front s key top l = whole.take top := by
  unfold front
  dsimp only
  split
  · next hmore =>
    have hselected := hs.select (top - 1) l (by omega)
    have hsorted := hs.sort ((s.selectNthUnstableBy (top - 1) (byKey key) l).take (top - 1 + 1))
    have hfront := hselected.take_sorted hsorted hwhole hinj
    rwa [Nat.sub_add_cancel htop] at hfront
  · next hall =>
    -- nothing is cut off
    have hshort : whole.length ≤ top := by
      rw [hwhole.perm.length_eq]
      exact Nat.not_lt.1 hall
    rw [List.take_of_length_le hshort]
    exact (hs.sort l).unique hwhole hinj

/-! ## The stable sort -/

/-- Two elements that occur in both orders are one, or one of them occurs twice. -/
theorem not_nodup_of_both {a b : α} (hne : a ≠ b) (hab : [a, b].Sublist l)
    (hba : [b, a].Sublist l) : ¬ l.Nodup := by
  induction l with
  | nil => cases hab
  | cons x l ih =>
    intro hnodup
    obtain ⟨hx, hrest⟩ := List.nodup_cons.1 hnodup
    cases hab with
    | cons _ hab =>
      cases hba with
      | cons _ hba => exact ih hab hba hrest
      | cons_cons _ _ => exact hx (hab.subset (by simp))
    | cons_cons _ hb =>
      cases hba with
      | cons _ hba => exact hx (hba.subset (by simp))
      | cons_cons _ _ => exact hne rfl

/-- Two elements of a list stand in it in the one order or the other. -/
theorem pair_sublist {a b : α} (hne : a ≠ b) (ha : a ∈ l) (hb : b ∈ l) :
    [a, b].Sublist l ∨ [b, a].Sublist l := by
  induction l with
  | nil => cases ha
  | cons x l ih =>
    rcases List.mem_cons.1 ha with rfl | hamem
    · rcases List.mem_cons.1 hb with rfl | hbmem
      · exact absurd rfl hne
      · exact .inl ((List.singleton_sublist.2 hbmem).cons_cons a)
    · rcases List.mem_cons.1 hb with rfl | hbmem
      · exact .inr ((List.singleton_sublist.2 hamem).cons_cons b)
      · exact (ih hamem hbmem).imp (fun h => h.cons x) fun h => h.cons x

variable {le : α → α → Bool} {pos : α → Nat}

/-- The stable sort of a list that is in the order of its places is sorted by `le` and then by the
place. -/
theorem sorted_of_stable (htrans : ∀ a b c, le a b → le b c → le a c)
    (htotal : ∀ a b, le a b || le b a) (hplaces : l.Pairwise fun a b => pos a < pos b)
    (hkey : ∀ a b, key a ≤ key b ↔ le a b ∧ (le b a → pos a ≤ pos b)) :
    Sorted key l (l.mergeSort le) := by
  refine ⟨List.mergeSort_perm l le, List.pairwise_iff_forall_sublist.2 fun {a b} hab => ?_⟩
  have hsorted := List.pairwise_mergeSort htrans htotal l
  have hle : le a b := List.pairwise_iff_forall_sublist.1 hsorted hab
  refine (hkey a b).2 ⟨hle, fun hba => Nat.le_of_not_lt fun hlt => ?_⟩
  have hne : a ≠ b := fun h => by
    rw [h] at hlt
    exact lt_irrefl _ hlt
  have hnodup : l.Nodup := hplaces.imp fun h heq => by
    rw [heq] at h
    exact lt_irrefl _ h
  -- a tie the other way round stood in this order in the list, and the stable sort kept it
  have hmem : ∀ {y}, y ∈ [a, b] → y ∈ l := fun hy => (List.mergeSort_perm l le).subset (hab.subset hy)
  have hlist : [b, a].Sublist l := by
    have hboth : [a, b].Sublist l ∨ [b, a].Sublist l :=
      pair_sublist hne (hmem (by simp)) (hmem (by simp))
    refine hboth.resolve_left fun h => ?_
    exact absurd (List.pairwise_iff_forall_sublist.1 hplaces h) (Nat.not_lt.2 hlt.le)
  have hkept := List.pair_sublist_mergeSort htrans htotal hba hlist
  exact not_nodup_of_both hne hab hkept ((List.mergeSort_perm l le).nodup_iff.2 hnodup)

/-! ## A stable sort in both places -/

theorem isLE_byKey {a b : α} : (byKey key a b).isLE ↔ key a ≤ key b := by
  unfold byKey
  rw [← compare_le_iff_le]
  cases compare (key a) (key b) <;> simp

/-- The two operations, if both sort stably. -/
def Unstable.stable (α : Type) : Unstable α where
  selectNthUnstableBy _ order l := l.mergeSort fun a b => (order a b).isLE
  sortUnstableBy order l := l.mergeSort fun a b => (order a b).isLE

theorem Unstable.stable_honours (key : α → κ) : (Unstable.stable α).Honours key := by
  have hsorted : ∀ l, Sorted key l ((Unstable.stable α).sortUnstableBy (byKey key) l) := by
    intro l
    have htrans : ∀ a b c, (byKey key a b).isLE → (byKey key b c).isLE → (byKey key a c).isLE := by
      intro a b c
      rw [isLE_byKey, isLE_byKey, isLE_byKey]
      exact le_trans
    have htotal : ∀ a b, (byKey key a b).isLE || (byKey key b a).isLE := by
      intro a b
      rw [Bool.or_eq_true, isLE_byKey, isLE_byKey]
      exact le_total (key a) (key b)
    exact ⟨List.mergeSort_perm l _, (List.pairwise_mergeSort htrans htotal l).imp isLE_byKey.1⟩
  refine ⟨fun n l hn => ?_, hsorted⟩
  -- what is sorted is a selection at every index
  have hl := hsorted l
  have hlen : n < ((Unstable.stable α).sortUnstableBy (byKey key) l).length := by
    rw [hl.perm.length_eq]
    exact hn
  have hsplit := List.take_append_drop n ((Unstable.stable α).sortUnstableBy (byKey key) l)
  rw [List.drop_eq_getElem_cons hlen] at hsplit
  have horder := hl.sorted
  rw [← hsplit, List.pairwise_append] at horder
  refine ⟨hl.perm, _, _, _, hsplit.symm, List.length_take_of_le hlen.le, ?_, ?_⟩
  · intro y hy
    exact horder.2.2 y hy _ List.mem_cons_self
  · intro y hy
    exact (List.pairwise_cons.1 horder.2.1).1 y hy

end Selecting
