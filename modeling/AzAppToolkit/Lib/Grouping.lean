import AzAppToolkit.Lib.Table

set_option autoImplicit false

/-! # Folding rows into a table

A loop that works every row into the entry of its key: the entry of a key is the fold over the rows of that
key alone, in their order. The newest of some dates, folded one by one, is their greatest. -/

namespace Grouping

variable {κ α β : Type} [DecidableEq κ]

/-- Every row is worked into the entry of its key. -/
def group (key : β → κ) (work : Option α → β → α) (l : List β) (t : Table κ α) : Table κ α :=
  l.foldl (fun t b => t.insert (key b) (work (t.lookup (key b)) b)) t

theorem lookup_group (key : β → κ) (work : Option α → β → α) (l : List β) (t : Table κ α) (k : κ) :
    (group key work l t).lookup k =
      (l.filter fun b => key b = k).foldl (fun entry b => some (work entry b)) (t.lookup k) := by
  induction l generalizing t with
  | nil => rfl
  | cons b l ih =>
    refine (ih _).trans ?_
    rw [AList.lookup_insert_eq]
    by_cases h : key b = k
    · rw [List.filter_cons_of_pos (by simpa using h), if_pos h.symm, List.foldl_cons, h]
    · rw [List.filter_cons_of_neg (by simpa using h), if_neg (Ne.symm h)]

/-- Rows pushed onto the list of their key. -/
theorem lookup_pushes (key : β → κ) (value : β → α) (l : List β) (k : κ) :
    ((group key (fun entry b => entry.getD [] ++ [value b]) l ∅).lookup k).getD [] =
      (l.filter fun b => key b = k).map value := by
  rw [lookup_group, AList.lookup_empty]
  have hfold : ∀ (rows : List β) (entry : Option (List α)),
      (rows.foldl (fun entry b => some (entry.getD [] ++ [value b])) entry).getD [] =
        entry.getD [] ++ rows.map value := by
    intro rows
    induction rows with
    | nil => exact fun entry => (List.append_nil _).symm
    | cons b rows ih =>
      intro entry
      rw [List.foldl_cons, ih, List.map_cons, Option.getD_some, List.append_assoc]
      rfl
  exact hfold _ none

section Newest

variable {τ : Type} [LinearOrder τ]

/-- The newer of what there is and what comes. -/
def newer (seen : Option τ) (date : Option τ) : Option τ :=
  match seen, date with
  | some prev, some dt => some (max prev dt)
  | none, some dt => some dt
  | seen, none => seen

theorem foldl_newer (dates : List (Option τ)) (seen : Option τ) :
    dates.foldl newer seen = (seen.toList ++ dates.reduceOption).max? := by
  induction dates generalizing seen with
  | nil => cases seen <;> rfl
  | cons date dates ih =>
    rw [List.foldl_cons, ih]
    cases date with
    | none =>
      rw [List.reduceOption_cons_of_none]
      cases seen <;> rfl
    | some dt =>
      rw [List.reduceOption_cons_of_some]
      cases seen <;> rfl

/-- A table that keeps the newer of the dates, written `put`, has under a key what is written of the newest
    date of its rows. -/
theorem lookup_newest (key : β → κ) (date : β → Option τ) (put : Option τ → α)
    (work : Option α → Option τ → α)
    (hwork : ∀ (seen : Option (Option τ)) (dt : Option τ), work (seen.map put) dt = put (newer seen.join dt))
    (l : List β) (k : κ) :
    (group key (fun entry b => work entry (date b)) l ∅).lookup k =
      if (l.filter fun b => key b = k).isEmpty then none
      else some (put ((l.filter fun b => key b = k).map date).reduceOption.max?) := by
  rw [lookup_group, AList.lookup_empty]
  have hfold : ∀ (rows : List β) (seen : Option (Option τ)),
      rows.foldl (fun entry b => some (work entry (date b))) (seen.map put) =
        if rows.isEmpty then seen.map put else some (put ((rows.map date).foldl newer seen.join)) := by
    intro rows
    induction rows with
    | nil => exact fun seen => rfl
    | cons b rows ih =>
      intro seen
      rw [List.foldl_cons, hwork]
      refine (ih (some (newer seen.join (date b)))).trans ?_
      cases rows <;> rfl
  refine (hfold _ none).trans ?_
  rw [foldl_newer]
  rfl

end Newest

end Grouping
