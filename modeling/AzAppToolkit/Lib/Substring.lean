import AzAppToolkit.Lib.Text

set_option autoImplicit false

/-! # Markers in texts that quote others

A message is written around names it quotes, and later recognised by a marker it starts with or
contains. Which messages a marker picks depends on what the names may hold:

* a message that opens with a literal text starts with a marker exactly when the literal does, unless
  one of the two is a beginning of the other (`Text.apart`);
* a literal between two names keeps a marker from reaching over it, if no part of the marker can end
  or begin there (`Text.isBarrier`): then the marker is in the message exactly when it is in one of
  the names. -/

namespace Text

/-! ## Beginnings -/

/-- Neither text is a beginning of the other. -/
def apart (a b : Text) : Bool := !a.isPrefixOf b && !b.isPrefixOf a

theorem not_startsWith_of_apart {marker head s : Text} (h : apart marker head = true)
    (hhead : head <+: s) : ¬ marker <+: s := by
  intro hmarker
  have hne : ¬ marker <+: head ∧ ¬ head <+: marker := by
    simpa [apart, ← Bool.not_eq_true, List.isPrefixOf_iff_prefix] using h
  rcases List.prefix_or_prefix_of_prefix hmarker hhead with hle | hle
  · exact hne.1 hle
  · exact hne.2 hle

/-! ## Parts -/

theorem contains_iff {needle s : Text} : contains needle s = true ↔ needle <:+: s := by
  unfold contains
  rw [List.any_eq_true, List.infix_iff_prefix_suffix]
  constructor
  · rintro ⟨t, ht, hneedle⟩
    exact ⟨t, List.isPrefixOf_iff_prefix.1 hneedle, (List.mem_tails t s).1 ht⟩
  · rintro ⟨t, hneedle, ht⟩
    exact ⟨t, (List.mem_tails t s).2 ht, List.isPrefixOf_iff_prefix.2 hneedle⟩

/-- No part of the needle ends or begins in the literal, and neither holds the other. -/
def isBarrier (needle lit : Text) : Bool :=
  !contains needle lit && !contains lit needle &&
    needle.tails.all (fun q => q.isEmpty || !q.isPrefixOf lit) &&
    needle.inits.all (fun p => p.isEmpty || !p.isSuffixOf lit)

/-- What a barrier keeps from happening. -/
theorem isBarrier_iff {needle lit : Text} : isBarrier needle lit = true ↔
    ¬ needle <:+: lit ∧ ¬ lit <:+: needle ∧ (∀ q, q <:+ needle → q <+: lit → q = []) ∧
      ∀ p, p <+: needle → p <:+ lit → p = [] := by
  unfold isBarrier
  simp only [Bool.and_eq_true, Bool.not_eq_true', ← Bool.not_eq_true, contains_iff, List.all_eq_true,
    Bool.or_eq_true, List.mem_tails, List.mem_inits, List.isEmpty_iff, List.isPrefixOf_iff_prefix,
    List.isSuffixOf_iff_suffix, and_assoc]
  refine and_congr_right (fun _ => and_congr_right (fun _ => and_congr ?_ ?_)) <;>
  · refine forall_congr' (fun t => forall_congr' (fun _ => ?_))
    rw [or_comm, or_iff_not_imp_left, not_not]

/-- A literal that ends a text. -/
theorem infix_append_barrier {needle lit a : Text} (h : isBarrier needle lit = true) :
    needle <:+: a ++ lit ↔ needle <:+: a := by
  obtain ⟨hin, -, hhead, -⟩ := isBarrier_iff.1 h
  constructor
  · intro hneedle
    rcases List.infix_append_iff_ne_nil.1 hneedle with ha | hlit | ⟨p, q, -, hq, rfl, -, hqlit⟩
    · exact ha
    · exact absurd hlit hin
    · exact absurd (hhead q (List.suffix_append p q) hqlit) hq
  · exact fun ha => ha.trans (List.infix_append' [] a lit)

/-- A literal that opens a text. -/
theorem infix_barrier_append {needle lit b : Text} (h : isBarrier needle lit = true) :
    needle <:+: lit ++ b ↔ needle <:+: b := by
  obtain ⟨hin, -, -, hlast⟩ := isBarrier_iff.1 h
  constructor
  · intro hneedle
    rcases List.infix_append_iff_ne_nil.1 hneedle with hlit | hb | ⟨p, q, hp, -, rfl, hplit, -⟩
    · exact absurd hlit hin
    · exact hb
    · exact absurd (hlast p (List.prefix_append p q) hplit) hp
  · exact fun hb => hb.trans (List.suffix_append lit b).isInfix

/-- A literal between two texts. -/
theorem infix_append_barrier_append {needle lit a b : Text} (h : isBarrier needle lit = true) :
    needle <:+: a ++ (lit ++ b) ↔ needle <:+: a ∨ needle <:+: b := by
  obtain ⟨-, hout, hhead, hlast⟩ := isBarrier_iff.1 h
  constructor
  · intro hneedle
    rcases List.infix_append_iff_ne_nil.1 hneedle with ha | hb | ⟨p, q, hp, hq, rfl, -, hqb⟩
    · exact Or.inl ha
    · exact Or.inr ((infix_barrier_append h).1 hb)
    · -- what is left of the needle begins in the literal, or goes beyond it
      rcases List.prefix_or_prefix_of_prefix hqb (List.prefix_append lit b) with hle | hle
      · exact absurd (hhead q (List.suffix_append p q) hle) hq
      · exact absurd (hle.isInfix.trans (List.suffix_append p q).isInfix) hout
  · rintro (ha | hb)
    · exact ha.trans (List.infix_append' [] a (lit ++ b))
    · exact ((infix_barrier_append h).2 hb).trans (List.suffix_append a (lit ++ b)).isInfix

/-! ## Lists of names -/

theorem infix_join {needle sep : Text} (h : isBarrier needle sep = true) (hne : needle ≠ [])
    (l : List Text) : needle <:+: join sep l ↔ ∃ s ∈ l, needle <:+: s := by
  induction l with
  | nil =>
    constructor
    · intro hneedle
      exact absurd (List.infix_nil.1 hneedle) hne
    · rintro ⟨s, hs, -⟩
      exact absurd hs (by simp)
  | cons s rest ih =>
    cases rest with
    | nil => simp [join]
    | cons t rest =>
      have hjoin : join sep (s :: t :: rest) = s ++ (sep ++ join sep (t :: rest)) := by
        simp [join, List.intercalate_cons_cons]
      rw [hjoin, infix_append_barrier_append h, ih]
      simp

/-- A number in decimal. -/
def decimal (n : Int) : Text :=
  if n < 0 then '-' :: Nat.toDigits 10 n.natAbs else Nat.toDigits 10 n.natAbs

/-- A number holds no marker that has a letter or a blank in it. -/
theorem not_infix_decimal {needle : Text} {c : Char} (hc : c ∈ needle)
    (hdigit : c.isDigit = false) (hminus : c ≠ '-') (n : Int) : ¬ needle <:+: decimal n := by
  intro hneedle
  have hmem : c ∈ decimal n := hneedle.subset hc
  have hdigits : c ∉ Nat.toDigits 10 n.natAbs := by
    intro hin
    rw [Nat.isDigit_of_mem_toDigits (by decide) (by decide) hin] at hdigit
    exact absurd hdigit (by simp)
  unfold decimal at hmem
  split at hmem
  · rcases List.mem_cons.1 hmem with heq | hin
    · exact hminus heq
    · exact hdigits hin
  · exact hdigits hmem

end Text
