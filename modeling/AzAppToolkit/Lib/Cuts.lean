import AzAppToolkit.Lib.Letters

set_option autoImplicit false

/-! # Cutting a text at a separator

What stands before and after the first and the last element with a property, and the pieces that
`split`, `rsplit` and `split_once` of the Rust standard library cut at such an element. -/

namespace Cuts

variable {α : Type}

/-- What stands before the first separator. -/
def before (p : α → Bool) (l : List α) : List α := l.takeWhile (fun x => !p x)

/-- What follows the first separator, all of the list if there is none. -/
def afterFirst (p : α → Bool) (l : List α) : List α :=
  match l.dropWhile (fun x => !p x) with
  | [] => l
  | _ :: rest => rest

/-- What follows the last separator, all of the list if there is none. -/
def afterLast (p : α → Bool) (l : List α) : List α := (before p l.reverse).reverse

/-- What stands before the last separator, all of the list if there is none. -/
def beforeLast (p : α → Bool) (l : List α) : List α := (afterFirst p l.reverse).reverse

/-- The list without the elements at its ends that have the property. -/
def trimEnds (p : α → Bool) (l : List α) : List α :=
  ((l.dropWhile p).reverse.dropWhile p).reverse

/-! ## At a separator -/

section Separator

variable {p : α → Bool} {a b l : List α} {c : α}

theorem before_append (ha : ∀ x ∈ a, p x = false) : before p (a ++ l) = a ++ before p l := by
  unfold before
  rw [List.takeWhile_append_of_pos]
  intro x hx
  rw [ha x hx]
  rfl

theorem before_append_sep (ha : ∀ x ∈ a, p x = false) (hc : p c = true) : before p (a ++ c :: b) = a := by
  rw [before_append ha]
  simp [before, hc]

/-- What begins with a separator, or is nothing, is cut off. -/
theorem before_append_of_head (ha : ∀ x ∈ a, p x = false) (hl : ∀ c ∈ l.head?, p c = true) :
    before p (a ++ l) = a := by
  cases l with
  | nil => simpa [before] using before_append (l := []) ha
  | cons c b => exact before_append_sep ha (hl c rfl)

theorem before_of_none (hl : ∀ x ∈ l, p x = false) : before p l = l := by
  have h := before_append (l := []) hl
  simpa [before] using h

theorem afterFirst_append_sep (ha : ∀ x ∈ a, p x = false) (hc : p c = true) :
    afterFirst p (a ++ c :: b) = b := by
  unfold afterFirst
  rw [List.dropWhile_append_of_pos (fun x hx => by rw [ha x hx]; rfl)]
  simp [hc]

theorem afterFirst_of_none (hl : ∀ x ∈ l, p x = false) : afterFirst p l = l := by
  unfold afterFirst
  rw [List.dropWhile_eq_nil_iff.2 (fun x hx => by rw [hl x hx]; rfl)]

theorem afterLast_append_sep (hb : ∀ x ∈ b, p x = false) (hc : p c = true) :
    afterLast p (a ++ c :: b) = b := by
  unfold afterLast
  rw [List.reverse_append, List.reverse_cons, List.append_assoc, List.singleton_append,
    before_append_sep (fun x hx => hb x (List.mem_reverse.1 hx)) hc, List.reverse_reverse]

theorem afterLast_of_none (hl : ∀ x ∈ l, p x = false) : afterLast p l = l := by
  unfold afterLast
  rw [before_of_none (fun x hx => hl x (List.mem_reverse.1 hx)), List.reverse_reverse]

theorem beforeLast_append_sep (hb : ∀ x ∈ b, p x = false) (hc : p c = true) :
    beforeLast p (a ++ c :: b) = a := by
  unfold beforeLast
  rw [List.reverse_append, List.reverse_cons, List.append_assoc, List.singleton_append,
    afterFirst_append_sep (fun x hx => hb x (List.mem_reverse.1 hx)) hc, List.reverse_reverse]

theorem not_sep_of_mem_before {x : α} (hx : x ∈ before p l) : p x = false := by
  have h := List.mem_takeWhile_imp hx
  simpa using h

/-- A list with a separator is cut at the first. -/
theorem exists_first (h : ∃ x ∈ l, p x = true) :
    ∃ a c b, l = a ++ c :: b ∧ (∀ x ∈ a, p x = false) ∧ p c = true := by
  induction l with
  | nil =>
    obtain ⟨x, hx, -⟩ := h
    exact absurd hx List.not_mem_nil
  | cons y l ih =>
    cases hy : p y with
    | true => exact ⟨[], y, l, rfl, fun x hx => absurd hx List.not_mem_nil, hy⟩
    | false =>
      have hl : ∃ x ∈ l, p x = true := by
        obtain ⟨x, hx, hpx⟩ := h
        rcases List.mem_cons.1 hx with rfl | hx
        · rw [hy] at hpx
          exact absurd hpx Bool.false_ne_true
        · exact ⟨x, hx, hpx⟩
      obtain ⟨a, c, b, rfl, ha, hc⟩ := ih hl
      refine ⟨y :: a, c, b, rfl, ?_, hc⟩
      intro x hx
      rcases List.mem_cons.1 hx with rfl | hx
      · exact hy
      · exact ha x hx

/-- And at the last. -/
theorem exists_last (h : ∃ x ∈ l, p x = true) :
    ∃ a c b, l = a ++ c :: b ∧ p c = true ∧ ∀ x ∈ b, p x = false := by
  obtain ⟨x, hx, hpx⟩ := h
  obtain ⟨a, c, b, hl, ha, hc⟩ := exists_first (l := l.reverse) ⟨x, List.mem_reverse.2 hx, hpx⟩
  refine ⟨b.reverse, c, a.reverse, ?_, hc, fun x hx => ha x (List.mem_reverse.1 hx)⟩
  rw [← List.reverse_reverse l, hl]
  simp

/-- A list is what stands before the first separator and what begins with it. -/
theorem eq_before_append (p : α → Bool) (l : List α) :
    ∃ tail, l = before p l ++ tail ∧ ∀ c ∈ tail.head?, p c = true := by
  refine ⟨l.dropWhile (fun x => !p x), List.takeWhile_append_dropWhile.symm, ?_⟩
  intro c hc
  have hhead := List.head?_dropWhile_not (fun x => !p x) l
  rw [Option.mem_def.1 hc] at hhead
  simpa using hhead

theorem dropWhile_of_head (h : ∀ c ∈ l.head?, p c = false) : l.dropWhile p = l := by
  cases l with
  | nil => rfl
  | cons c l => rw [List.dropWhile_cons_of_neg (by rw [h c rfl]; exact Bool.false_ne_true)]

theorem trimEnds_of_none (hl : ∀ x ∈ l, p x = false) : trimEnds p l = l := by
  have hends : ∀ l : List α, (∀ x ∈ l, p x = false) → l.dropWhile p = l := by
    intro l hl
    exact dropWhile_of_head (fun c hc => hl c (List.mem_of_mem_head? hc))
  unfold trimEnds
  rw [hends l hl, hends _ (fun x hx => hl x (List.mem_reverse.1 hx)), List.reverse_reverse]

/-- What the ends are trimmed of has the property. -/
theorem eq_append_trimEnds_append (p : α → Bool) (l : List α) :
    ∃ a b, l = a ++ trimEnds p l ++ b ∧ (∀ x ∈ a, p x = true) ∧ ∀ x ∈ b, p x = true := by
  refine ⟨l.takeWhile p, ((l.dropWhile p).reverse.takeWhile p).reverse, ?_, ?_, ?_⟩
  · have hright : trimEnds p l ++ ((l.dropWhile p).reverse.takeWhile p).reverse = l.dropWhile p := by
      unfold trimEnds
      rw [← List.reverse_append, List.takeWhile_append_dropWhile, List.reverse_reverse]
    rw [List.append_assoc, hright, List.takeWhile_append_dropWhile]
  · exact fun x hx => List.mem_takeWhile_imp hx
  · exact fun x hx => List.mem_takeWhile_imp (List.mem_reverse.1 hx)

/-- Nothing is trimmed of a part whose own ends stay. -/
theorem trimEnds_append (hne : a ≠ []) (hhead : ∀ c ∈ a.head?, p c = false)
    (hlast : ∀ c ∈ a.getLast?, p c = false) (b : List α) :
    ∃ b', trimEnds p (a ++ b) = a ++ b' ∧ b' <+: b := by
  refine ⟨(b.reverse.dropWhile p).reverse, ?_, ?_⟩
  · have hfront : (a ++ b).dropWhile p = a ++ b := by
      apply dropWhile_of_head
      cases a with
      | nil => exact absurd rfl hne
      | cons c a => exact hhead
    have hback : a.reverse.dropWhile p = a.reverse := by
      apply dropWhile_of_head
      rw [List.head?_reverse]
      exact hlast
    unfold trimEnds
    rw [hfront, List.reverse_append, List.dropWhile_append]
    split
    · next hempty =>
      rw [hback, List.isEmpty_iff.1 hempty]
      simp
    · simp
  · have hsuffix := List.dropWhile_suffix (l := b.reverse) p
    rw [← List.reverse_prefix, List.reverse_reverse] at hsuffix
    exact hsuffix

/-- A list is what ends with the last separator and what stands after it. -/
theorem eq_append_afterLast (p : α → Bool) (l : List α) :
    ∃ a, l = a ++ afterLast p l ∧ (∀ c ∈ a.getLast?, p c = true) ∧ ∀ x ∈ afterLast p l, p x = false := by
  by_cases h : ∃ x ∈ l, p x = true
  · obtain ⟨a, c, b, rfl, hc, hb⟩ := exists_last h
    rw [afterLast_append_sep hb hc]
    refine ⟨a ++ [c], by simp, ?_, hb⟩
    intro d hd
    rw [List.getLast?_concat] at hd
    exact Option.some.inj hd ▸ hc
  · have hl : ∀ x ∈ l, p x = false := fun x hx => Bool.eq_false_iff.2 (fun hpx => h ⟨x, hx, hpx⟩)
    rw [afterLast_of_none hl]
    exact ⟨[], rfl, by simp, hl⟩

end Separator

/-! ## `split`, `rsplit` and `split_once` -/

/-- `split(p).next()`. -/
theorem head?_splitOn (p : Char → Bool) (s : Text) : (Text.splitOn p s).head?.getD [] = before p s := by
  induction s with
  | nil => rfl
  | cons c s ih =>
    unfold Text.splitOn before
    rw [List.takeWhile_cons]
    cases hc : p c with
    | true => rfl
    | false =>
      unfold before at ih
      rw [if_neg Bool.false_ne_true]
      cases hparts : Text.splitOn p s with
      | nil =>
        rw [hparts] at ih
        simp [← ih]
      | cons part parts =>
        rw [hparts] at ih
        simp [← ih]

theorem splitOn_ne_nil (p : Char → Bool) (s : Text) : Text.splitOn p s ≠ [] := by
  cases s with
  | nil => exact List.cons_ne_nil _ _
  | cons c s =>
    unfold Text.splitOn
    split
    · exact List.cons_ne_nil _ _
    · split <;> exact List.cons_ne_nil _ _

/-- A part has no separator in it. -/
theorem not_sep_of_mem_splitOn {p : Char → Bool} {s part : Text} (h : part ∈ Text.splitOn p s) :
    ∀ c ∈ part, p c = false := by
  induction s generalizing part with
  | nil =>
    rw [Text.splitOn, List.mem_singleton] at h
    rw [h]
    exact fun c hc => absurd hc List.not_mem_nil
  | cons d s ih =>
    unfold Text.splitOn at h
    split at h
    · rcases List.mem_cons.1 h with rfl | h
      · exact fun c hc => absurd hc List.not_mem_nil
      · exact ih h
    · next hd =>
      split at h
      · rw [List.mem_singleton.1 h]
        intro c hc
        rw [List.mem_singleton.1 hc]
        exact Bool.eq_false_iff.2 hd
      · next first rest hsplit =>
        rcases List.mem_cons.1 h with rfl | h
        · intro c hc
          rcases List.mem_cons.1 hc with rfl | hc
          · exact Bool.eq_false_iff.2 hd
          · exact ih (hsplit ▸ List.mem_cons_self) c hc
        · exact ih (hsplit ▸ List.mem_cons_of_mem first h)

theorem splitOn_eq_splitOnP (p : Char → Bool) (s : Text) : Text.splitOn p s = List.splitOnP p s := by
  induction s with
  | nil => simp [Text.splitOn]
  | cons c s ih =>
    unfold Text.splitOn
    rw [List.splitOnP_cons_eq_if_modifyHead, ih]
    split
    · rfl
    · cases hparts : List.splitOnP p s with
      | nil => exact absurd hparts (List.splitOnP_ne_nil p s)
      | cons part parts => rfl

theorem join_splitOn (c : Char) (s : Text) : Text.join [c] (Text.splitOn (· == c) s) = s := by
  rw [splitOn_eq_splitOnP]
  exact List.intercalate_splitOn c

theorem splitOn_join {c : Char} {parts : List Text} (hparts : ∀ part ∈ parts, c ∉ part)
    (hne : parts ≠ []) : Text.splitOn (· == c) (Text.join [c] parts) = parts := by
  rw [splitOn_eq_splitOnP]
  exact List.splitOn_intercalate c hparts hne

theorem splitOn_append_sep (p : Char → Bool) {c : Char} (hc : p c = true) (a b : Text) :
    Text.splitOn p (a ++ c :: b) = Text.splitOn p a ++ Text.splitOn p b := by
  induction a with
  | nil => simp [Text.splitOn, hc]
  | cons x a ih =>
    rw [List.cons_append, Text.splitOn, ih, Text.splitOn]
    split
    · rfl
    · cases hparts : Text.splitOn p a with
      | nil => exact absurd hparts (splitOn_ne_nil p a)
      | cons part parts => rfl

theorem splitOn_of_none {p : Char → Bool} {s : Text} (hs : ∀ x ∈ s, p x = false) :
    Text.splitOn p s = [s] := by
  induction s with
  | nil => rfl
  | cons c s ih =>
    unfold Text.splitOn
    rw [hs c List.mem_cons_self, ih (fun x hx => hs x (List.mem_cons_of_mem c hx))]
    rfl

/-- `rsplit(p).next()`. -/
theorem getLast?_splitOn (p : Char → Bool) (s : Text) :
    (Text.splitOn p s).getLast?.getD [] = afterLast p s := by
  by_cases h : ∃ x ∈ s, p x = true
  · obtain ⟨a, c, b, rfl, hc, hb⟩ := exists_last h
    rw [splitOn_append_sep p hc, splitOn_of_none hb, afterLast_append_sep hb hc]
    simp
  · have hs : ∀ x ∈ s, p x = false := by
      intro x hx
      exact Bool.eq_false_iff.2 (fun hpx => h ⟨x, hx, hpx⟩)
    rw [splitOn_of_none hs, afterLast_of_none hs]
    rfl

/-- `split_once(c)`. -/
theorem breakOn_eq_some_iff {c : Char} {s a b : Text} :
    Text.breakOn [c] s = some (a, b) ↔ s = a ++ c :: b ∧ c ∉ a := by
  induction s generalizing a with
  | nil => simp [Text.breakOn]
  | cons x s ih =>
    unfold Text.breakOn
    by_cases hx : c = x
    · subst hx
      have hprefix : [c].isPrefixOf (c :: s) = true := by simp
      rw [if_pos hprefix]
      constructor
      · intro h
        obtain ⟨rfl, rfl⟩ := Prod.mk.inj (Option.some.inj h)
        exact ⟨rfl, List.not_mem_nil⟩
      · rintro ⟨h, ha⟩
        cases a with
        | nil =>
          obtain ⟨-, rfl⟩ := List.cons.inj h
          rfl
        | cons y a =>
          obtain ⟨rfl, -⟩ := List.cons.inj h
          exact absurd List.mem_cons_self ha
    · have hprefix : ¬ [c].isPrefixOf (x :: s) = true := by simp [hx]
      rw [if_neg hprefix]
      constructor
      · intro h
        obtain ⟨⟨a', b'⟩, hbreak, heq⟩ := Option.map_eq_some_iff.1 h
        obtain ⟨rfl, rfl⟩ := Prod.mk.inj heq
        obtain ⟨rfl, ha'⟩ := ih.1 hbreak
        exact ⟨rfl, List.not_mem_cons_of_ne_of_not_mem hx ha'⟩
      · rintro ⟨h, ha⟩
        cases a with
        | nil => exact absurd (List.cons.inj h).1.symm hx
        | cons y a =>
          obtain ⟨rfl, rfl⟩ := List.cons.inj h
          rw [ih.2 ⟨rfl, fun hmem => ha (List.mem_cons_of_mem _ hmem)⟩]
          rfl

theorem breakOn_eq_none_iff {c : Char} {s : Text} : Text.breakOn [c] s = none ↔ c ∉ s := by
  constructor
  · intro h hmem
    obtain ⟨a, c', b, rfl, ha, hc'⟩ := exists_first (p := (· == c)) ⟨c, hmem, beq_self_eq_true c⟩
    obtain rfl := beq_iff_eq.1 hc'
    have hnot : c' ∉ a := fun hmem => by simpa using ha c' hmem
    rw [breakOn_eq_some_iff.2 ⟨rfl, hnot⟩] at h
    exact absurd h (Option.some_ne_none _)
  · intro h
    cases hbreak : Text.breakOn [c] s with
    | none => rfl
    | some parts =>
      obtain ⟨hs, -⟩ := breakOn_eq_some_iff.1 (show Text.breakOn [c] s = some (parts.1, parts.2) from hbreak)
      rw [hs] at h
      exact absurd (List.mem_append_right _ List.mem_cons_self) h

/-! ## Lower case -/

/-- The case of letters does not move a separator that is no letter. -/
theorem before_toAsciiLowercase {p : Char → Bool} (hp : ∀ c, p c.toLower = p c) (s : Text) :
    before p (toAsciiLowercase s) = toAsciiLowercase (before p s) := by
  induction s with
  | nil => rfl
  | cons c s ih =>
    unfold before at ih ⊢
    rw [Letters.toAsciiLowercase_cons, List.takeWhile_cons, List.takeWhile_cons, hp]
    split
    · rw [ih]
      rfl
    · rfl

theorem afterLast_toAsciiLowercase {p : Char → Bool} (hp : ∀ c, p c.toLower = p c) (s : Text) :
    afterLast p (toAsciiLowercase s) = toAsciiLowercase (afterLast p s) := by
  have hreverse : ∀ t : Text, (toAsciiLowercase t).reverse = toAsciiLowercase t.reverse :=
    fun t => List.map_reverse.symm
  unfold afterLast
  rw [hreverse, before_toAsciiLowercase hp, hreverse]

theorem beq_toLower {d : Char} (hd : d.isAlpha = false) (c : Char) : (c.toLower == d) = (c == d) := by
  rw [Bool.eq_iff_iff, beq_iff_eq, beq_iff_eq]
  exact Letters.toLower_eq_iff c d hd

theorem isAlpha_of_toLower {c : Char} (h : c.toLower.isAlpha = true) : c.isAlpha = true := by
  rcases Letters.toLower_cases c with ⟨hlow, hhigh, -⟩ | ⟨-, hsame⟩
  · exact (Letters.isAlpha_iff c).2 (.inl ⟨hlow, hhigh⟩)
  · rwa [hsame] at h

end Cuts
