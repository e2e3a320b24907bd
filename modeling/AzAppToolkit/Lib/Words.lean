import AzAppToolkit.Lib.Cuts

set_option autoImplicit false

/-! # Words between blanks

`str::split_whitespace`, and that words joined by a blank are split into the same words. -/

namespace Words

/-- `str::split_whitespace`. -/
def splitWhitespace (s : Text) : List Text :=
  (Text.splitOn isWhitespace s).filter (fun part => !part.isEmpty)

/-- A text that is one word. -/
structure IsWord (w : Text) : Prop where
  nonempty : w ≠ []
  solid : ∀ c ∈ w, isWhitespace c = false

theorem isWord_of_all {w : Text} (h : (!w.isEmpty && w.all (fun c => !isWhitespace c)) = true) : IsWord w := by
  obtain ⟨hne, hall⟩ := Bool.and_eq_true_iff.1 h
  refine ⟨by simpa using hne, ?_⟩
  intro c hc
  simpa using List.all_eq_true.1 hall c hc

theorem splitWhitespace_word {w : Text} (hw : IsWord w) : splitWhitespace w = [w] := by
  unfold splitWhitespace
  rw [Cuts.splitOn_of_none hw.solid]
  simp [hw.nonempty]

theorem splitWhitespace_append_blank {c : Char} (hc : isWhitespace c = true) (a b : Text) :
    splitWhitespace (a ++ c :: b) = splitWhitespace a ++ splitWhitespace b := by
  unfold splitWhitespace
  rw [Cuts.splitOn_append_sep _ hc, List.filter_append]

/-- What `split` cuts has no separator in it. -/
theorem isWord_of_mem {s w : Text} (h : w ∈ splitWhitespace s) : IsWord w := by
  obtain ⟨hmem, hne⟩ := List.mem_filter.1 h
  exact ⟨by simpa using hne, Cuts.not_sep_of_mem_splitOn hmem⟩

theorem splitWhitespace_join {words : List Text} (hwords : ∀ w ∈ words, IsWord w) :
    splitWhitespace (Text.join [' '] words) = words := by
  have hblank : isWhitespace ' ' = true := by decide
  induction words with
  | nil => rfl
  | cons w words ih =>
    have hw := hwords w List.mem_cons_self
    have hrest := ih (fun w' hw' => hwords w' (List.mem_cons_of_mem w hw'))
    cases words with
    | nil =>
      have hjoin : Text.join [' '] [w] = w := by simp [Text.join, List.intercalate]
      rw [hjoin]
      exact splitWhitespace_word hw
    | cons w' words =>
      have hjoin : Text.join [' '] (w :: w' :: words) = w ++ ' ' :: Text.join [' '] (w' :: words) := by
        simp [Text.join, List.intercalate]
      rw [hjoin, splitWhitespace_append_blank hblank, splitWhitespace_word hw, hrest]
      rfl

end Words
