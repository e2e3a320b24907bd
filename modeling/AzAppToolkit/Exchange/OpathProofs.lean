import AzAppToolkit.Exchange.OpathGrammar
import AzAppToolkit.Lib.Letters

set_option autoImplicit false

/-! # The recogniser accepts exactly the group disjunctions

A written filter is a sequence of pieces: characters between the words (whitespace and parentheses),
connectives, and comparisons. The scanner is followed piece by piece. It reads a clause from a
`MemberOfGroup -eq` comparison with a single-quoted, non-blank operand, and then the clause is that
comparison, no more and no less; from any other piece it reads none. So the residue is the filter
without these comparisons, and it is blank only if nothing else was there but `-or`. -/

namespace Opath

open Letters

/-! ## Characters -/

theorem isAsciiWhitespace_iff (c : Char) : isAsciiWhitespace c = true ↔
    c.toNat = 32 ∨ c.toNat = 9 ∨ c.toNat = 10 ∨ c.toNat = 12 ∨ c.toNat = 13 := by
  simp only [isAsciiWhitespace, Bool.or_eq_true, beq_iff_eq]
  tauto

theorem isWhitespace_of_ascii {c : Char} (h : isAsciiWhitespace c = true) : isWhitespace c = true := by
  rw [isAsciiWhitespace_iff] at h
  rcases h with h | h | h | h | h <;> simp [isWhitespace, h]

/-- A word character is none of the marks of the grammar. -/
theorem wordChar_ascii (uni : Unicode) {c : Char} (hlt : c.toNat < 128) (h : wordChar uni c = true) :
    (48 ≤ c.toNat ∧ c.toNat ≤ 57) ∨ (65 ≤ c.toNat ∧ c.toNat ≤ 90) ∨
      (97 ≤ c.toNat ∧ c.toNat ≤ 122) ∨ c.toNat = 95 := by
  simp only [wordChar, uni.isAlphanumeric_ascii c hlt, Bool.or_eq_true, beq_iff_eq, isAlphanum_iff,
    isAlpha_iff] at h
  rcases h with (h | h) | h
  · tauto
  · tauto
  · exact Or.inr (Or.inr (Or.inr (by rw [h]; rfl)))

theorem wordChar_of_isAlpha (uni : Unicode) {c : Char} (h : c.isAlpha = true) : wordChar uni c = true := by
  have hlt : c.toNat < 128 := by
    rw [isAlpha_iff] at h
    omega
  simp [wordChar, uni.isAlphanumeric_ascii c hlt, isAlphanum_iff, h]

theorem wordChar_toLower (uni : Unicode) (c : Char) : wordChar uni c.toLower = wordChar uni c := by
  rcases toLower_cases c with ⟨h1, h2, h3⟩ | ⟨-, h⟩
  · rw [wordChar_of_isAlpha uni (by rw [isAlpha_iff]; omega),
      wordChar_of_isAlpha uni (by rw [isAlpha_iff]; omega)]
  · rw [h]

/-- Every character of the key is a letter. -/
theorem isAlpha_of_mem_key {c : Char} (h : c ∈ memberOfGroupKey) : c.isAlpha = true :=
  List.all_eq_true.1 (show memberOfGroupKey.all Char.isAlpha = true by decide) c h

/-! ## Lower case -/

theorem toAsciiLowercase_escapeOpath (s : Text) :
    toAsciiLowercase (escapeOpath s) = escapeOpath (toAsciiLowercase s) := by
  induction s with
  | nil => rfl
  | cons c s ih =>
    simp only [escapeOpath, List.flatMap_cons, toAsciiLowercase_append, toAsciiLowercase_cons]
    simp only [escapeOpath] at ih
    rw [ih]
    congr 1
    have hq := toLower_eq_iff c '\'' (by decide)
    by_cases hc : c = '\''
    · subst hc
      rfl
    · rw [if_neg hc, if_neg (fun h => hc (hq.1 h))]
      rfl

/-! ## A word before a break -/

/-- A word that is a prefix of `s ++ rest` and could not go on into `rest` is a prefix of `s`. -/
theorem prefix_of_break {word s rest : Text} (h : word <+: s ++ rest)
    (hbreak : ∀ c, rest.head? = some c → c ∉ word) : word <+: s := by
  induction word generalizing s with
  | nil => exact List.nil_prefix
  | cons w word ih =>
    cases s with
    | nil =>
      obtain ⟨t, ht⟩ := h
      exact absurd List.mem_cons_self (hbreak w (by rw [← List.nil_append rest, ← ht]; rfl))
    | cons c s =>
      rw [List.cons_append, List.cons_prefix_cons] at h
      rw [List.cons_prefix_cons]
      exact ⟨h.1, ih h.2 (fun d hd hmem => hbreak d hd (List.mem_cons_of_mem _ hmem))⟩

/-! ## The scanner, stretch by stretch -/

/-- A stretch without quotes, before a character that could not go on a key: the keys found are
    inside the stretch, and the scanner comes out of it outside quotes. -/
theorem keys_plain (p rest : Text) (hsingle : '\'' ∉ p) (hdouble : '"' ∉ p)
    (hbreak : ∀ c, rest.head? = some c → c ∉ memberOfGroupKey) (skip i : Nat) (hskip : skip ≤ p.length) :
    ∃ ks, memberOfGroupKeysFrom skip false false i (p ++ rest)
        = ks ++ memberOfGroupKeysFrom 0 false false (i + p.length) rest ∧
      ∀ k ∈ ks, ∃ j, k = i + j ∧ memberOfGroupKey <+: p.drop j := by
  induction p generalizing skip i with
  | nil =>
    obtain rfl : skip = 0 := Nat.le_zero.1 hskip
    exact ⟨[], rfl, by simp⟩
  | cons c p ih =>
    simp only [List.mem_cons, not_or] at hsingle hdouble
    have hlen : i + (c :: p).length = i + 1 + p.length := by simp; omega
    -- positions found after this character are one further on
    have hshift : ∀ {ks : List Nat}, (∀ k ∈ ks, ∃ j, k = i + 1 + j ∧
        memberOfGroupKey <+: p.drop j) → ∀ k ∈ ks, ∃ j, k = i + j ∧
        memberOfGroupKey <+: (c :: p).drop j := by
      intro ks hks k hk
      obtain ⟨j, rfl, hj⟩ := hks k hk
      exact ⟨j + 1, by omega, hj⟩
    cases skip with
    | succ skip =>
      obtain ⟨ks, heq, hks⟩ := ih hsingle.2 hdouble.2 skip (i + 1) (by simpa using hskip)
      exact ⟨ks, by rw [hlen]; exact heq, hshift hks⟩
    | zero =>
      rw [List.cons_append, memberOfGroupKeysFrom, if_neg (fun h => hsingle.1 h.1.symm),
        if_neg (fun h => hdouble.1 h.1.symm), hlen]
      split
      · next hkey =>
        have hpre : memberOfGroupKey <+: c :: p :=
          prefix_of_break (List.isPrefixOf_iff_prefix.1 hkey.2.2) hbreak
        have hlong : memberOfGroupKey.length - 1 ≤ p.length := by
          have := hpre.length_le
          simp only [List.length_cons] at this
          omega
        obtain ⟨ks, heq, hks⟩ := ih hsingle.2 hdouble.2 _ (i + 1) hlong
        refine ⟨i :: ks, by rw [heq]; rfl, ?_⟩
        intro k hk
        rcases List.mem_cons.1 hk with rfl | hk
        · exact ⟨0, rfl, hpre⟩
        · exact hshift hks k hk
      · obtain ⟨ks, heq, hks⟩ := ih hsingle.2 hdouble.2 0 (i + 1) (Nat.zero_le _)
        exact ⟨ks, heq, hshift hks⟩

/-- A stretch without quotes and without the first letter of the key holds no key. -/
theorem keys_none (p rest : Text) (hsingle : '\'' ∉ p) (hdouble : '"' ∉ p) (hm : 'm' ∉ p) (i : Nat) :
    memberOfGroupKeysFrom 0 false false i (p ++ rest)
      = memberOfGroupKeysFrom 0 false false (i + p.length) rest := by
  induction p generalizing i with
  | nil => rfl
  | cons c p ih =>
    simp only [List.mem_cons, not_or] at hsingle hdouble hm
    have hkey : ¬ (memberOfGroupKey.isPrefixOf (c :: (p ++ rest)) = true) := by
      rw [List.isPrefixOf_iff_prefix]
      intro h
      exact hm.1 (List.cons_prefix_cons.1 h).1
    rw [List.cons_append, memberOfGroupKeysFrom, if_neg (fun h => hsingle.1 h.1.symm),
      if_neg (fun h => hdouble.1 h.1.symm), if_neg (fun h => hkey h.2.2),
      ih hsingle.2 hdouble.2 hm.2]
    congr 1
    simp only [List.length_cons]
    omega

/-- Inside single quotes nothing is a key, up to the closing quote. -/
theorem keys_single (text rest : Text) (hrest : rest.head? ≠ some '\'') (i : Nat) :
    memberOfGroupKeysFrom 0 true false i (escapeOpath text ++ '\'' :: rest)
      = memberOfGroupKeysFrom 0 false false (i + (escapeOpath text).length + 1) rest := by
  induction text generalizing i with
  | nil =>
    rw [show escapeOpath [] = [] from rfl, List.nil_append, memberOfGroupKeysFrom,
      if_pos ⟨rfl, rfl⟩, if_neg (fun h => hrest h.2)]
    rfl
  | cons c text ih =>
    by_cases hc : c = '\''
    · subst hc
      rw [show escapeOpath ('\'' :: text) = '\'' :: '\'' :: escapeOpath text from rfl,
        List.cons_append, List.cons_append, memberOfGroupKeysFrom, if_pos ⟨rfl, rfl⟩,
        if_pos ⟨rfl, rfl⟩, memberOfGroupKeysFrom, ih]
      congr 1
      simp only [List.length_cons]
      omega
    · rw [show escapeOpath (c :: text) = c :: escapeOpath text by simp [escapeOpath, hc],
        List.cons_append, memberOfGroupKeysFrom, if_neg (fun h => hc h.1),
        if_neg (fun h => absurd h.2 (by simp)), if_neg (fun h => absurd h.1 (by simp)), ih]
      congr 1
      simp only [List.length_cons]
      omega

/-- Inside double quotes nothing is a key, up to the closing quote. -/
theorem keys_double (text rest : Text) (htext : '"' ∉ text) (i : Nat) :
    memberOfGroupKeysFrom 0 false true i (text ++ '"' :: rest)
      = memberOfGroupKeysFrom 0 false false (i + text.length + 1) rest := by
  induction text generalizing i with
  | nil =>
    rw [List.nil_append, memberOfGroupKeysFrom, if_neg (fun h => absurd h.1 (by decide)),
      if_pos ⟨rfl, rfl⟩]
    rfl
  | cons c text ih =>
    simp only [List.mem_cons, not_or] at htext
    rw [List.cons_append, memberOfGroupKeysFrom, if_neg (fun h => absurd h.2 (by simp)),
      if_neg (fun h => htext.1 h.1.symm), if_neg (fun h => absurd h.2.1 (by simp)), ih htext.2]
    congr 1
    simp only [List.length_cons]
    omega

/-- The scanner finds no key in a literal and comes out of it outside quotes. -/
theorem keys_literal (l : Literal) (rest : Text) (hrest : rest.head? ≠ some '\'') (i : Nat) :
    memberOfGroupKeysFrom 0 false false i (toAsciiLowercase l.print ++ rest)
      = memberOfGroupKeysFrom 0 false false (i + l.print.length) rest := by
  cases l with
  | single text =>
    have hprint : toAsciiLowercase (Literal.single text).print ++ rest
        = '\'' :: (escapeOpath (toAsciiLowercase text) ++ '\'' :: rest) := by
      simp only [Literal.print, toAsciiLowercase_cons, toAsciiLowercase_append,
        toAsciiLowercase_escapeOpath, toAsciiLowercase_nil, List.cons_append, List.append_assoc,
        List.nil_append]
      rfl
    rw [hprint, memberOfGroupKeysFrom, if_pos ⟨rfl, rfl⟩, if_neg (fun h => absurd h.1 (by simp)),
      show (!false) = true from rfl, keys_single _ _ hrest, ← toAsciiLowercase_escapeOpath,
      length_toAsciiLowercase]
    congr 1
    simp only [Literal.print, List.length_cons, List.length_append, List.length_nil]
    omega
  | double text h =>
    have hprint : toAsciiLowercase (Literal.double text h).print ++ rest
        = '"' :: (toAsciiLowercase text ++ '"' :: rest) := by
      simp only [Literal.print, toAsciiLowercase_cons, toAsciiLowercase_append,
        toAsciiLowercase_nil, List.cons_append, List.append_assoc, List.nil_append]
      rfl
    have htext : '"' ∉ toAsciiLowercase text := by
      rwa [mem_toAsciiLowercase (by decide)]
    rw [hprint, memberOfGroupKeysFrom, if_neg (fun h => absurd h.1 (by decide)),
      if_pos ⟨rfl, rfl⟩, show (!false) = true from rfl, keys_double _ _ htext,
      length_toAsciiLowercase]
    congr 1
    simp only [Literal.print, List.length_cons, List.length_append, List.length_nil]
    omega

/-! ## The clause at a key -/

/-- The text does not go on whitespace it is put after. -/
def NoBlankStart (t : Text) : Prop := ∀ c, t.head? = some c → isAsciiWhitespace c = false

theorem skipWhitespace_append {a w t : Text} (hw : Blank w) (ht : NoBlankStart t) :
    skipWhitespace (a ++ (w ++ t)) a.length = a.length + w.length := by
  have htake : t.takeWhile isAsciiWhitespace = [] := by
    cases t with
    | nil => rfl
    | cons c t => simp [ht c rfl]
  rw [skipWhitespace, List.drop_left, List.takeWhile_append_of_pos hw, htake, List.append_nil]

theorem readLiteral_escape (text rest : Text) (hrest : rest.head? ≠ some '\'') :
    readLiteral (escapeOpath text ++ '\'' :: rest)
      = some (text, (escapeOpath text).length + 1) := by
  induction text with
  | nil =>
    cases rest with
    | nil => rfl
    | cons c rest =>
      have hc : c ≠ '\'' := fun h => hrest (by rw [h]; rfl)
      simp [escapeOpath, readLiteral, hc]
  | cons c text ih =>
    by_cases hc : c = '\''
    · subst hc
      rw [show escapeOpath ('\'' :: text) = '\'' :: '\'' :: escapeOpath text from rfl,
        List.cons_append, List.cons_append, readLiteral, ih]
      simp
    · rw [show escapeOpath (c :: text) = c :: escapeOpath text by simp [escapeOpath, hc],
        List.cons_append, readLiteral, ih]
      · simp
      · exact fun _ h => absurd h hc
      · exact hc

section Clause

variable {uni : Unicode} {filter : Text} {start : Nat}

/-- A property starts after a character that is no word character. -/
theorem startsProperty_after {pre post : Text} {c : Char} (hfilter : filter = (pre ++ [c]) ++ post) :
    startsProperty uni (toAsciiLowercase filter) (pre.length + 1) = !wordChar uni c := by
  have htake : (toAsciiLowercase filter).take (pre.length + 1)
      = toAsciiLowercase pre ++ [c.toLower] := by
    rw [hfilter, toAsciiLowercase_append, toAsciiLowercase_append,
      show pre.length + 1 = (toAsciiLowercase pre ++ toAsciiLowercase [c]).length by simp,
      List.take_left]
    rfl
  rw [← wordChar_toLower uni c]
  simp only [startsProperty, htake, List.getLast?_append, List.getLast?_singleton, Option.some_or,
    wordChar, Bool.not_or]
  rfl

/-- A key that ends a longer name. -/
theorem memberClauseAt_inside {pre post : Text} {c : Char} (hfilter : filter = (pre ++ [c]) ++ post)
    (hc : wordChar uni c = true) : memberClauseAt uni filter (pre.length + 1) = none := by
  have hstart : startsProperty uni (toAsciiLowercase filter) (pre.length + 1) = false := by
    rw [startsProperty_after hfilter, hc]
    rfl
  rw [memberClauseAt]
  simp only [hstart, if_true]

/-- A key that is not followed by `-eq`. -/
theorem memberClauseAt_not_eq {a w t : Text} (hfilter : filter = a ++ (w ++ t))
    (ha : a.length = start + memberOfGroupKey.length) (hw : Blank w) (ht : NoBlankStart t)
    (heq : ¬ "-eq".toList <+: toAsciiLowercase t) : memberClauseAt uni filter start = none := by
  have hdrop : (toAsciiLowercase filter).drop (a.length + w.length) = toAsciiLowercase t := by
    rw [hfilter, toAsciiLowercase_append, toAsciiLowercase_append, ← List.append_assoc,
      show a.length + w.length = (toAsciiLowercase a ++ toAsciiLowercase w).length by simp,
      List.drop_left]
  have hpre : "-eq".toList.isPrefixOf (toAsciiLowercase t) = false := by
    rw [← Bool.not_eq_true, List.isPrefixOf_iff_prefix]
    exact heq
  have hskip : skipWhitespace filter (start + memberOfGroupKey.length) = a.length + w.length := by
    rw [← ha, hfilter, skipWhitespace_append hw ht]
  rw [memberClauseAt]
  simp only [hskip, hdrop, hpre, if_true, ite_self]

/-- What follows `-eq` decides the clause. -/
theorem memberClauseAt_eq {a w e w' t : Text} (hfilter : filter = a ++ (w ++ (e ++ (w' ++ t))))
    (ha : a.length = start + memberOfGroupKey.length) (hw : Blank w)
    (he : toAsciiLowercase e = "-eq".toList) (hw' : Blank w') (ht : NoBlankStart t) :
    memberClauseAt uni filter start =
      if startsProperty uni (toAsciiLowercase filter) start = false then none
      else if t.head? ≠ some '\'' then none
      else match readLiteral t.tail with
        | none => none
        | some (dn, n) =>
          if isBlank dn then none
          else some ⟨(start, (a ++ (w ++ (e ++ w'))).length + 1 + n), dn⟩ := by
  have hlen : e.length = 3 := by
    rw [← length_toAsciiLowercase, he]
    rfl
  have hehead : NoBlankStart (e ++ (w' ++ t)) := by
    intro c hc
    cases e with
    | nil => exact absurd hlen (by simp)
    | cons d e =>
      simp only [List.cons_append, List.head?_cons, Option.some.injEq] at hc
      have hd : d.toLower = '-' := by
        have := congrArg List.head? he
        simpa using this
      rw [toLower_eq_iff d '-' (by decide)] at hd
      rw [← hc, hd]
      rfl
  have hskip : skipWhitespace filter (start + memberOfGroupKey.length) = a.length + w.length := by
    rw [← ha, hfilter, skipWhitespace_append hw hehead]
  have hdrop : (toAsciiLowercase filter).drop (a.length + w.length)
      = "-eq".toList ++ toAsciiLowercase (w' ++ t) := by
    rw [hfilter, toAsciiLowercase_append, toAsciiLowercase_append, ← List.append_assoc,
      show a.length + w.length = (toAsciiLowercase a ++ toAsciiLowercase w).length by simp,
      List.drop_left, toAsciiLowercase_append, he]
  have hpre : "-eq".toList.isPrefixOf ("-eq".toList ++ toAsciiLowercase (w' ++ t)) = true := by
    rw [List.isPrefixOf_iff_prefix]
    exact List.prefix_append _ _
  have hfilter' : filter = (a ++ (w ++ e)) ++ (w' ++ t) := by
    rw [hfilter]
    simp
  have hskip' : skipWhitespace filter (a.length + w.length + 3)
      = (a ++ (w ++ (e ++ w'))).length := by
    rw [show a.length + w.length + 3 = (a ++ (w ++ e)).length by simp [hlen]; omega, hfilter',
      skipWhitespace_append hw' ht]
    simp
    omega
  have hrest : filter.drop (a ++ (w ++ (e ++ w'))).length = t := by
    rw [hfilter, show a ++ (w ++ (e ++ (w' ++ t))) = (a ++ (w ++ (e ++ w'))) ++ t by simp,
      List.drop_left]
  have hget : filter[(a ++ (w ++ (e ++ w'))).length]? = t.head? := by
    rw [← List.head?_drop, hrest]
  have hread : readOpathLiteral filter (a ++ (w ++ (e ++ w'))).length
      = (readLiteral t.tail).map (fun r => (r.1, (a ++ (w ++ (e ++ w'))).length + 1 + r.2)) := by
    rw [readOpathLiteral, ← List.drop_drop, hrest, List.drop_one]
  rw [memberClauseAt]
  simp only [hskip, hdrop, hpre, Bool.true_eq_false, if_false, hskip', hget, hread]
  cases readLiteral t.tail with
  | none | some r => simp

end Clause

/-! ## One comparison -/

section Comparison

variable {uni : Unicode}

def Literal.isSingle : Literal → Bool
  | .single _ => true
  | .double _ _ => false

/-- A comparison the recogniser reads as a clause. -/
def Comparison.Readable (c : Comparison uni) : Prop :=
  c.IsGroup ∧ c.literal.isSingle = true ∧ isBlank c.literal.value = false

instance (c : Comparison uni) : Decidable c.Readable := inferInstanceAs (Decidable (_ ∧ _ ∧ _))

/-- A comparison up to its literal. -/
def Comparison.head (c : Comparison uni) (w w' : Text) : Text :=
  c.property ++ (w ++ ('-' :: c.op ++ w'))

def Comparison.text (c : Comparison uni) (w w' : Text) : Text := c.head w w' ++ c.literal.print

theorem Literal.head_print (l : Literal) : l.print.head? = some '\'' ∨ l.print.head? = some '"' := by
  cases l with
  | single => exact Or.inl rfl
  | double => exact Or.inr rfl

theorem Literal.noBlankStart (l : Literal) (rest : Text) : NoBlankStart (l.print ++ rest) := by
  intro c hc
  rw [List.head?_append] at hc
  rcases l.head_print with h | h <;>
    · rw [h, Option.some_or, Option.some.injEq] at hc
      rw [← hc]
      rfl

theorem noBlankStart_of_word {s t : Text} (hs : s ≠ []) (hword : ∀ c ∈ s, wordChar uni c = true) :
    NoBlankStart (s ++ t) := by
  intro c hc
  cases s with
  | nil => exact absurd rfl hs
  | cons d s =>
    obtain rfl := Option.some.inj hc
    have hd := hword d List.mem_cons_self
    rw [← Bool.not_eq_true, isAsciiWhitespace_iff]
    intro hws
    have := wordChar_ascii uni (by omega) hd
    omega

/-- A word character is not the dash of an operator. -/
theorem not_eq_of_word {s t : Text} (hs : s ≠ []) (hword : ∀ c ∈ s, wordChar uni c = true) :
    ¬ "-eq".toList <+: toAsciiLowercase (s ++ t) := by
  intro h
  cases s with
  | nil => exact absurd rfl hs
  | cons d s =>
    have hd := hword d List.mem_cons_self
    have hdash : '-' = d.toLower := (List.cons_prefix_cons.1 h).1
    rw [eq_comm, toLower_eq_iff d '-' (by decide)] at hdash
    rw [hdash] at hd
    have := wordChar_ascii uni (by decide) hd
    revert this
    decide

theorem Comparison.op_word (c : Comparison uni) : ∀ ch ∈ c.op, wordChar uni ch = true :=
  fun ch h => wordChar_of_isAlpha uni (c.op_letters ch h)

/-- Where whitespace, a dash or a quote comes next, a word ends. -/
theorem break_of_mark {word : Text} (hword : ∀ c ∈ word, c.isAlpha = true) {w t : Text}
    (hw : Blank w) (ht : ∀ c, t.head? = some c → c.isAlpha = false) :
    ∀ c, (toAsciiLowercase (w ++ t)).head? = some c → c ∉ word := by
  intro c hc hmem
  have halpha := hword c hmem
  cases w with
  | nil =>
    cases t with
    | nil => exact absurd hc (by simp)
    | cons d t =>
      simp only [List.nil_append, toAsciiLowercase_cons, List.head?_cons,
        Option.some.injEq] at hc
      have hd := ht d rfl
      have : d.toLower = d := by
        rcases toLower_cases d with ⟨h1, h2, -⟩ | ⟨-, h⟩
        · rw [← Bool.not_eq_true, isAlpha_iff] at hd
          exact absurd (Or.inl ⟨h1, h2⟩) hd
        · exact h
      rw [← hc, this, hd] at halpha
      exact absurd halpha (by simp)
  | cons d w =>
    simp only [List.cons_append, toAsciiLowercase_cons, List.head?_cons, Option.some.injEq] at hc
    have hd := hw d List.mem_cons_self
    rw [isAsciiWhitespace_iff] at hd
    rw [← hc, isAlpha_iff] at halpha
    rcases toLower_cases d with ⟨h1, h2, -⟩ | ⟨-, h⟩
    · omega
    · rw [h] at halpha
      omega

theorem Literal.head_not_alpha (l : Literal) (rest : Text) :
    ∀ c, (l.print ++ rest).head? = some c → c.isAlpha = false := by
  intro c hc
  rw [List.head?_append] at hc
  rcases l.head_print with h | h <;>
    · rw [h, Option.some_or, Option.some.injEq] at hc
      rw [← hc]
      rfl

variable {c : Comparison uni} {w w' pre post filter : Text}

theorem length_property (hprop : toAsciiLowercase c.property = memberOfGroupKey) :
    (pre ++ c.property).length = pre.length + memberOfGroupKey.length := by
  rw [List.length_append, ← length_toAsciiLowercase c.property, hprop]

/-- `MemberOfGroup -eq` with a literal: a clause if the literal is in single quotes and not blank. -/
theorem clause_of_eq (hfilter : filter = pre ++ (c.text w w' ++ post)) (hw : Blank w)
    (hw' : Blank w') (hgroup : c.IsGroup)
    (hstart : startsProperty uni (toAsciiLowercase filter) pre.length = true)
    (hpost : post.head? ≠ some '\'') :
    memberClauseAt uni filter pre.length = if c.Readable then
      some ⟨(pre.length, pre.length + (c.text w w').length), c.literal.value⟩ else none := by
  have hsplit : filter = (pre ++ c.property) ++ (w ++ (('-' :: c.op) ++
      (w' ++ (c.literal.print ++ post)))) := by
    rw [hfilter, Comparison.text, Comparison.head]
    simp
  rw [memberClauseAt_eq hsplit (length_property hgroup.1) hw
    (by rw [toAsciiLowercase_cons, hgroup.2]; rfl) hw' (c.literal.noBlankStart post),
    if_neg (by simp [hstart])]
  cases hlit : c.literal with
  | single text =>
    have htail : (Literal.print (.single text) ++ post).tail
        = escapeOpath text ++ '\'' :: post := by
      simp [Literal.print]
    rw [if_neg (by simp [Literal.print]), htail, readLiteral_escape _ _ hpost]
    by_cases hblank : isBlank text = true
    · simp [Comparison.Readable, hlit, Literal.value, hblank]
    · have hreadable : c.Readable := by
        simp [Comparison.Readable, hgroup, hlit, Literal.isSingle, Literal.value, hblank]
      simp only [hblank, if_pos hreadable, Literal.value, Comparison.text, Comparison.head, hlit,
        Literal.print]
      simp
      omega
  | double text h =>
    rw [if_pos (by simp [Literal.print]),
      if_neg (by simp [Comparison.Readable, hlit, Literal.isSingle])]

/-- An operator that goes on after `-eq`: a letter comes where the quote should be. -/
theorem clause_of_longer_op (hfilter : filter = pre ++ (c.text w w' ++ post)) (hw : Blank w)
    (hprop : toAsciiLowercase c.property = memberOfGroupKey) {o : Text} (ho : o ≠ [])
    (hop : "eq".toList ++ o = toAsciiLowercase c.op) :
    memberClauseAt uni filter pre.length = none := by
  have htake : toAsciiLowercase (c.op.take 2) = "eq".toList := by
    rw [toAsciiLowercase, List.map_take, ← toAsciiLowercase, ← hop]
    rfl
  have hmore : c.op.drop 2 ≠ [] := by
    intro h
    have hdrop : toAsciiLowercase (c.op.drop 2) = o := by
      rw [toAsciiLowercase_drop, ← hop]
      rfl
    rw [h] at hdrop
    exact ho hdrop.symm
  have hsplit : filter = (pre ++ c.property) ++ (w ++ (('-' :: c.op.take 2) ++
      ([] ++ (c.op.drop 2 ++ (w' ++ (c.literal.print ++ post)))))) := by
    have hcut : c.op ++ (w' ++ (c.literal.print ++ post))
        = c.op.take 2 ++ (c.op.drop 2 ++ (w' ++ (c.literal.print ++ post))) := by
      rw [← List.append_assoc (c.op.take 2), List.take_append_drop]
    rw [hfilter, Comparison.text, Comparison.head]
    simp [hcut]
  have hquote : (c.op.drop 2 ++ (w' ++ (c.literal.print ++ post))).head? ≠ some '\'' := by
    cases hd : c.op.drop 2 with
    | nil => exact absurd hd hmore
    | cons d rest =>
      intro h
      obtain rfl := Option.some.inj h
      exact absurd (c.op_letters '\'' (List.mem_of_mem_drop (hd ▸ List.mem_cons_self))) (by decide)
  rw [memberClauseAt_eq hsplit (length_property hprop) hw
    (by rw [toAsciiLowercase_cons, htake]; rfl) (by simp [Blank])
    (noBlankStart_of_word hmore (fun ch h => c.op_word ch (List.mem_of_mem_drop h))),
    if_pos hquote, ite_self]

/-- The clause at a comparison whose property is `MemberOfGroup`. -/
theorem clause_at_property (hfilter : filter = pre ++ (c.text w w' ++ post)) (hw : Blank w)
    (hw' : Blank w') (hprop : toAsciiLowercase c.property = memberOfGroupKey)
    (hstart : startsProperty uni (toAsciiLowercase filter) pre.length = true)
    (hpost : post.head? ≠ some '\'') :
    memberClauseAt uni filter pre.length = if c.Readable then
      some ⟨(pre.length, pre.length + (c.text w w').length), c.literal.value⟩ else none := by
  by_cases heq : "eq".toList <+: toAsciiLowercase c.op
  · obtain ⟨o, ho⟩ := heq
    by_cases hne : o = []
    · rw [hne, List.append_nil] at ho
      exact clause_of_eq hfilter hw hw' ⟨hprop, ho.symm⟩ hstart hpost
    · rw [clause_of_longer_op hfilter hw hprop hne ho, if_neg]
      intro hr
      rw [hr.1.2] at ho
      exact hne (by simpa using ho)
  · -- another operator
    have hsplit : filter = (pre ++ c.property) ++ (w ++ ('-' :: c.op ++
        (w' ++ (c.literal.print ++ post)))) := by
      rw [hfilter, Comparison.text, Comparison.head]
      simp
    rw [memberClauseAt_not_eq hsplit (length_property hprop) hw, if_neg]
    · exact fun hr => heq (by rw [hr.1.2])
    · intro d hd
      obtain rfl := Option.some.inj hd
      rfl
    · intro h
      have hletters := List.all_eq_true.1 (show "eq".toList.all Char.isAlpha = true by decide)
      refine heq (prefix_of_break ?_ (break_of_mark hletters hw' (c.literal.head_not_alpha post)))
      rw [← toAsciiLowercase_append]
      exact (List.cons_prefix_cons.1 h).2

/-- A key in a stretch that starts with other characters comes after them. -/
theorem le_of_key_prefix_drop {x y : Text} {j : Nat} (hx : 'm' ∉ x)
    (h : memberOfGroupKey <+: (x ++ y).drop j) : x.length ≤ j := by
  by_contra hlt
  rw [List.drop_append_of_le_length (by omega)] at h
  cases hd : x.drop j with
  | nil => exact absurd (List.drop_eq_nil_iff.1 hd) (by omega)
  | cons d rest =>
    rw [hd, List.cons_append] at h
    have hm : 'm' = d := (List.cons_prefix_cons.1 h).1
    exact hx (hm ▸ List.mem_of_mem_drop (hd ▸ List.mem_cons_self))

/-- The text a key found at `j` was made of, and what follows it. -/
theorem split_of_key {s : Text} {j : Nat} (h : memberOfGroupKey <+: (toAsciiLowercase s).drop j) :
    ∃ k rest, s = s.take j ++ (k ++ rest) ∧ k.length = memberOfGroupKey.length ∧
      toAsciiLowercase k = memberOfGroupKey := by
  refine ⟨(s.drop j).take 13, (s.drop j).drop 13, by simp, ?_, ?_⟩
  · have := h.length_le
    simp only [List.length_drop, length_toAsciiLowercase] at this
    rw [List.length_take, List.length_drop]
    simp only [show memberOfGroupKey.length = 13 from rfl] at this ⊢
    omega
  · rw [toAsciiLowercase, List.map_take, List.map_drop]
    exact (List.prefix_iff_eq_take.1 h).symm

/-- Whitespace holds no key. -/
theorem not_mem_blank {w : Text} (hw : Blank w) : 'm' ∉ toAsciiLowercase w := by
  intro h
  obtain ⟨d, hd, hm⟩ := List.mem_map.1 h
  have hws := hw d hd
  rw [isAsciiWhitespace_iff] at hws
  rw [char_eq_iff] at hm
  have : 'm'.toNat = 109 := rfl
  rcases toLower_cases d with ⟨-, -, h3⟩ | ⟨-, h3⟩
  · omega
  · rw [h3] at hm
    omega

/-- A key inside a property that is not just the key. -/
theorem clause_in_property (hfilter : filter = pre ++ (c.text w w' ++ post)) {j : Nat}
    (hkey : memberOfGroupKey <+: (toAsciiLowercase c.property).drop j)
    (hother : j ≠ 0 ∨ toAsciiLowercase c.property ≠ memberOfGroupKey) :
    memberClauseAt uni filter (pre.length + j) = none := by
  obtain ⟨k, rest, hsplit, hlen, hk⟩ := split_of_key hkey
  cases j with
  | succ j =>
    -- some character of the property comes before the key
    have hj : j < c.property.length := by
      have := hkey.length_le
      simp only [List.length_drop, length_toAsciiLowercase] at this
      have : memberOfGroupKey.length = 13 := rfl
      omega
    have hcut : ∀ x, c.property ++ x
        = c.property.take j ++ (c.property[j] :: (c.property.drop (j + 1) ++ x)) := by
      intro x
      rw [← List.cons_append, ← List.append_assoc, ← List.drop_eq_getElem_cons hj,
        List.take_append_drop]
    have hfilter' : filter = ((pre ++ c.property.take j) ++ [c.property[j]]) ++
        (c.property.drop (j + 1) ++ ((w ++ ('-' :: c.op ++ w')) ++ c.literal.print ++ post)) := by
      rw [hfilter, Comparison.text, Comparison.head, List.append_assoc, List.append_assoc, hcut]
      simp only [List.append_assoc, List.cons_append, List.nil_append]
    have hinside := memberClauseAt_inside hfilter' (c.property_word _ (List.getElem_mem hj))
    rwa [show (pre ++ c.property.take j).length + 1 = pre.length + (j + 1) by
      rw [List.length_append, List.length_take]; omega] at hinside
  | zero =>
    -- the name goes on after the key
    rw [List.take_zero, List.nil_append] at hsplit
    have hrest : rest ≠ [] := by
      rintro rfl
      rw [List.append_nil] at hsplit
      exact hother.elim (fun h => h rfl) (fun h => h (hsplit ▸ hk))
    have hword : ∀ ch ∈ rest, wordChar uni ch = true :=
      fun ch h => c.property_word ch (by rw [hsplit]; exact List.mem_append_right _ h)
    have hfilter' : filter = (pre ++ k) ++ ([] ++ (rest ++ (w ++ ('-' :: c.op ++ w') ++
        c.literal.print ++ post))) := by
      rw [hfilter, Comparison.text, Comparison.head, hsplit]
      simp
    exact memberClauseAt_not_eq hfilter' (by rw [List.length_append, hlen]; rfl)
      (by simp [Blank]) (noBlankStart_of_word hrest hword) (not_eq_of_word hrest hword)

/-- A key inside an operator. -/
theorem clause_in_op (hfilter : filter = pre ++ (c.text w w' ++ post)) (hw' : Blank w') {j : Nat}
    (hkey : memberOfGroupKey <+: (toAsciiLowercase c.op).drop j) :
    memberClauseAt uni filter (pre.length + (c.property.length + (w.length + 1) + j)) = none := by
  obtain ⟨k, rest, hsplit, hlen, -⟩ := split_of_key hkey
  have hj : (c.op.take j).length = j := by
    have := hkey.length_le
    simp only [List.length_drop, length_toAsciiLowercase] at this
    have : memberOfGroupKey.length = 13 := rfl
    rw [List.length_take]
    omega
  have hlen' : (pre ++ (c.property ++ (w ++ ('-' :: (c.op.take j ++ k))))).length
      = pre.length + (c.property.length + (w.length + 1) + j) + memberOfGroupKey.length := by
    simp only [List.length_append, List.length_cons, hj, hlen]
    omega
  have hfilter' : filter = (pre ++ (c.property ++ (w ++ ('-' :: (c.op.take j ++ k))))) ++
      (rest ++ (w' ++ (c.literal.print ++ post))) := by
    have hcut : c.op ++ (w' ++ (c.literal.print ++ post))
        = c.op.take j ++ (k ++ (rest ++ (w' ++ (c.literal.print ++ post)))) := by
      conv_lhs => rw [hsplit]
      simp
    rw [hfilter, Comparison.text, Comparison.head]
    simp [hcut]
  by_cases hrest : rest = []
  · -- the operator ends with the key; the literal comes next
    rw [hrest, List.nil_append] at hfilter'
    refine memberClauseAt_not_eq hfilter' hlen' hw' (c.literal.noBlankStart post) (fun h => ?_)
    rcases c.literal.head_print with hq | hq <;>
      · obtain ⟨l, hl⟩ : ∃ l, c.literal.print = _ :: l := List.head?_eq_some_iff.1 hq
        rw [hl] at h
        exact absurd (List.cons_prefix_cons.1 h).1 (by decide)
  · have hword : ∀ ch ∈ rest, wordChar uni ch = true :=
      fun ch h => c.op_word ch (by
        rw [hsplit]
        exact List.mem_append_right _ (List.mem_append_right _ h))
    have hfilter'' : filter = (pre ++ (c.property ++ (w ++ ('-' :: (c.op.take j ++ k))))) ++
        ([] ++ (rest ++ (w' ++ (c.literal.print ++ post)))) := hfilter'
    exact memberClauseAt_not_eq hfilter'' hlen' (by simp [Blank])
      (noBlankStart_of_word hrest hword) (not_eq_of_word hrest hword)

/-- A key that is not the whole property of its comparison gives no clause. -/
theorem clause_elsewhere (hfilter : filter = pre ++ (c.text w w' ++ post)) (hw : Blank w)
    (hw' : Blank w') {j : Nat} (hkey : memberOfGroupKey <+: (toAsciiLowercase (c.head w w')).drop j)
    (hother : j ≠ 0 ∨ toAsciiLowercase c.property ≠ memberOfGroupKey) :
    memberClauseAt uni filter (pre.length + j) = none := by
  rw [Comparison.head, toAsciiLowercase_append] at hkey
  by_cases hj : j < c.property.length
  · rw [List.drop_append_of_le_length (by simp; omega)] at hkey
    refine clause_in_property hfilter (prefix_of_break hkey ?_) hother
    refine break_of_mark (fun _ => isAlpha_of_mem_key) hw (fun d hd => ?_)
    obtain rfl := Option.some.inj hd
    rfl
  · -- past the property: not in whitespace and not at the dash
    rw [List.drop_append, length_toAsciiLowercase,
      List.drop_eq_nil_of_le (by simp; omega), List.nil_append] at hkey
    have hdash : toAsciiLowercase (w ++ ('-' :: c.op ++ w'))
        = (toAsciiLowercase w ++ ['-']) ++ toAsciiLowercase (c.op ++ w') := by
      simp
    have hnom : 'm' ∉ toAsciiLowercase w ++ ['-'] := by
      simp [not_mem_blank hw]
    rw [hdash] at hkey
    have hle := le_of_key_prefix_drop hnom hkey
    rw [List.drop_append, List.drop_eq_nil_of_le hle, List.nil_append] at hkey
    simp only [List.length_append, length_toAsciiLowercase, List.length_cons,
      List.length_nil] at hle hkey
    rw [toAsciiLowercase_append] at hkey
    obtain ⟨n, rfl⟩ : ∃ n, j = c.property.length + (w.length + 1) + n :=
      ⟨j - c.property.length - (w.length + 1), by omega⟩
    rw [show c.property.length + (w.length + 1) + n - c.property.length - (w.length + (0 + 1)) = n by
      omega] at hkey
    by_cases hn : n < c.op.length
    · rw [List.drop_append_of_le_length (by simp; omega)] at hkey
      refine clause_in_op hfilter hw' (prefix_of_break hkey ?_)
      have := break_of_mark (fun _ => isAlpha_of_mem_key) hw' (t := []) (by simp)
      simpa using this
    · -- past the operator there is only whitespace
      rw [List.drop_append, length_toAsciiLowercase,
        List.drop_eq_nil_of_le (by simp; omega), List.nil_append] at hkey
      have hle' := le_of_key_prefix_drop (not_mem_blank hw') (y := []) (by simpa using hkey)
      rw [List.drop_eq_nil_of_le hle'] at hkey
      exact absurd (List.prefix_nil.1 hkey) (by decide)

end Comparison

end Opath
