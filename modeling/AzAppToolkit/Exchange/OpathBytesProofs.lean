import AzAppToolkit.Exchange.OpathBytes
import AzAppToolkit.Exchange.OpathSpans

set_option autoImplicit false

/-! # The recogniser does not panic

The byte offsets are followed character by character. At each of them the filter is cut in two, so
that every slice is defined and the loops come to their ends; what they compute is what the
recogniser of characters computes, its offsets taken in bytes. That the spans are increasing and
disjoint is shown of the characters first. -/

namespace OpathBytes

open Slices

variable {uni : Unicode}

/-! ## The byte under an offset -/

theorem isAsciiWhitespaceByte_eq {b : UInt8} {c : Char}
    (h : ∀ d : Char, d.toNat < 128 → (b.toNat = d.toNat ↔ c = d)) :
    isAsciiWhitespaceByte b = isAsciiWhitespace c := by
  have hb : ∀ n, n < 128 → Nat.isValidChar n → (b.toNat = n ↔ c.toNat = n) := by
    intro n hn hvalid
    have hd : (Char.ofNatAux n hvalid).toNat = n := by
      rw [Char.ofNatAux, Char.toNat]
      exact UInt32.toNat_ofNatLT
    have hiff := h (Char.ofNatAux n hvalid) (hd.trans_lt hn)
    rw [← Char.toNat_inj, hd] at hiff
    exact hiff
  have h32 := hb 32 (by decide) (by decide)
  have h9 := hb 9 (by decide) (by decide)
  have h10 := hb 10 (by decide) (by decide)
  have h12 := hb 12 (by decide) (by decide)
  have h13 := hb 13 (by decide) (by decide)
  rw [Bool.eq_iff_iff]
  simp only [isAsciiWhitespaceByte, isAsciiWhitespace, Bool.or_eq_true, beq_iff_eq, h32, h9, h10,
    h12, h13]

/-- What the byte at the end of a prefix tells of the character there. -/
theorem byteAt_at (p : Text) (c : Char) (t : Text) : ∃ b,
    byteAt (p ++ c :: t) (byteLength p) = some b ∧ (b = quoteByte ↔ c = '\'') ∧
      (b = doubleQuoteByte ↔ c = '"') ∧ isAsciiWhitespaceByte b = isAsciiWhitespace c := by
  obtain ⟨b, hat, htell⟩ := byteAt_head c t
  refine ⟨b, (byteAt_append p _).trans hat, ?_, ?_, isAsciiWhitespaceByte_eq htell⟩
  · rw [← UInt8.toNat_inj]
    exact htell '\'' (by decide)
  · rw [← UInt8.toNat_inj]
    exact htell '"' (by decide)

theorem byteAt_quote (p t : Text) :
    (byteAt (p ++ t) (byteLength p) = some quoteByte ↔ t.head? = some '\'') := by
  cases t with
  | nil =>
    rw [byteAt_append]
    simp
  | cons d t =>
    obtain ⟨b, hat, hquote, -, -⟩ := byteAt_at p d t
    rw [hat]
    simp [hquote]

/-- The byte behind an ASCII character. -/
theorem byteAt_next (p : Text) {c : Char} (hc : c.toNat < 128) (t : Text) :
    (byteAt (p ++ c :: t) (byteLength p + 1) = some quoteByte ↔ t.head? = some '\'') := by
  have hsplit : p ++ c :: t = (p ++ [c]) ++ t := by simp
  have hlen : byteLength p + 1 = byteLength (p ++ [c]) := by simp [utf8Size_ascii hc]
  rw [hsplit, hlen]
  exact byteAt_quote _ _

theorem lt_byteLength (p : Text) (c : Char) (t : Text) : byteLength p < byteLength (p ++ c :: t) := by
  have hpos := c.utf8Size_pos
  simp only [byteLength_append, byteLength_cons]
  omega

theorem suffixAt_at (p t : Text) : orPanic (suffixAt (p ++ t) (byteLength p)) = .ok t := by
  rw [suffixAt_append]
  rfl

/-- The next offset, behind the character read. -/
theorem next_offset (p : Text) (c : Char) : byteLength p + c.utf8Size = byteLength (p ++ [c]) := by
  simp

/-! ## The loops -/

theorem readOpathLiteralLoop_eq (p t out : Text) {fuel : Nat} (hfuel : t.length < fuel) :
    readOpathLiteralLoop (p ++ t) fuel (byteLength p) out
      = .ok ((Opath.readLiteral t).map (fun r => (out ++ r.1, byteLength (p ++ t.take r.2)))) := by
  induction t using Opath.readLiteral.induct generalizing p out fuel with
  | case1 =>
    obtain ⟨fuel, rfl⟩ := Nat.exists_eq_succ_of_ne_zero (Nat.ne_of_gt hfuel)
    simp [readOpathLiteralLoop, Opath.readLiteral]
    rfl
  | case2 rest ih =>
    obtain ⟨fuel, rfl⟩ := Nat.exists_eq_succ_of_ne_zero (Nat.ne_of_gt (Nat.zero_lt_of_lt hfuel))
    obtain ⟨b, hat, hquote, -, -⟩ := byteAt_at p '\'' ('\'' :: rest)
    have hnext := (byteAt_next p (c := '\'') (by decide) ('\'' :: rest)).2 rfl
    have hsplit : p ++ '\'' :: '\'' :: rest = (p ++ ['\'', '\'']) ++ rest := by simp
    have hlen : byteLength p + 2 = byteLength (p ++ ['\'', '\'']) := by simp; rfl
    have hshort : rest.length < fuel := by
      simp only [List.length_cons] at hfuel
      omega
    have hrest := ih (p ++ ['\'', '\'']) (out ++ ['\'']) hshort
    rw [readOpathLiteralLoop, if_pos (lt_byteLength _ _ _), hat]
    show (if b = quoteByte then _ else _) = _
    rw [if_pos (hquote.2 rfl), if_pos hnext, hlen, hsplit, hrest, Opath.readLiteral]
    cases Opath.readLiteral rest with
    | none => rfl
    | some r => simp
  | case3 rest hrest =>
    obtain ⟨fuel, rfl⟩ := Nat.exists_eq_succ_of_ne_zero (Nat.ne_of_gt (Nat.zero_lt_of_lt hfuel))
    obtain ⟨b, hat, hquote, -, -⟩ := byteAt_at p '\'' rest
    have hnext : byteAt (p ++ '\'' :: rest) (byteLength p + 1) ≠ some quoteByte := by
      rw [ne_eq, byteAt_next p (by decide)]
      intro hhead
      obtain ⟨tail, rfl⟩ : ∃ tail, rest = '\'' :: tail := by
        cases rest with
        | nil => simp at hhead
        | cons d tail => exact ⟨tail, by simpa using hhead⟩
      exact hrest tail rfl
    rw [readOpathLiteralLoop, if_pos (lt_byteLength _ _ _), hat]
    show (if b = quoteByte then _ else _) = _
    rw [if_pos (hquote.2 rfl), if_neg hnext, Opath.readLiteral]
    · simp
      rfl
    · exact hrest
  | case4 c rest hne hc ih =>
    obtain ⟨fuel, rfl⟩ := Nat.exists_eq_succ_of_ne_zero (Nat.ne_of_gt (Nat.zero_lt_of_lt hfuel))
    obtain ⟨b, hat, hquote, -, -⟩ := byteAt_at p c rest
    have hother : b ≠ quoteByte := fun h => hc (hquote.1 h)
    have hsplit : p ++ c :: rest = (p ++ [c]) ++ rest := by simp
    have hshort : rest.length < fuel := by
      simp only [List.length_cons] at hfuel
      omega
    have hrest := ih (p ++ [c]) (out ++ [c]) hshort
    rw [readOpathLiteralLoop, if_pos (lt_byteLength _ _ _), hat]
    show (if b = quoteByte then _ else _) = _
    rw [if_neg hother, suffixAt_at]
    show readOpathLiteralLoop (p ++ c :: rest) fuel (byteLength p + c.utf8Size) (out ++ [c]) = _
    rw [next_offset, hsplit, hrest, Opath.readLiteral]
    · cases Opath.readLiteral rest with
      | none => rfl
      | some r => simp
    · exact hne
    · exact hc

theorem skipWhitespaceLoop_eq (p t : Text) {fuel : Nat} (hfuel : t.length < fuel) :
    skipWhitespaceLoop (p ++ t) fuel (byteLength p)
      = .ok (byteLength (p ++ t.takeWhile isAsciiWhitespace)) := by
  induction t generalizing p fuel with
  | nil =>
    obtain ⟨fuel, rfl⟩ := Nat.exists_eq_succ_of_ne_zero (Nat.ne_of_gt hfuel)
    simp [skipWhitespaceLoop]
    rfl
  | cons c t ih =>
    obtain ⟨fuel, rfl⟩ := Nat.exists_eq_succ_of_ne_zero (Nat.ne_of_gt (Nat.zero_lt_of_lt hfuel))
    obtain ⟨b, hat, -, -, hblank⟩ := byteAt_at p c t
    rw [skipWhitespaceLoop, if_pos (lt_byteLength _ _ _), hat]
    show (if isAsciiWhitespaceByte b = true then _ else _) = _
    rw [hblank]
    by_cases hc : isAsciiWhitespace c = true
    · have hascii : c.toNat < 128 := by
        rw [Opath.isAsciiWhitespace_iff] at hc
        omega
      have hsplit : p ++ c :: t = (p ++ [c]) ++ t := by simp
      have hlen : byteLength p + 1 = byteLength (p ++ [c]) := by simp [utf8Size_ascii hascii]
      have hshort : t.length < fuel := by
        simp only [List.length_cons] at hfuel
        omega
      have hrest := ih (p ++ [c]) hshort
      rw [if_pos hc, hlen, hsplit, hrest, List.takeWhile_cons_of_pos hc]
      simp
    · rw [if_neg hc, List.takeWhile_cons_of_neg hc]
      simp
      rfl

/-- Where a key of the text behind `p` stands in bytes. -/
def offsetIn (s : Text) (k : Nat) : Nat := byteLength (s.take k)

theorem memberOfGroupKeysLoop_eq (p t : Text) {fuel : Nat} (hfuel : t.length < fuel)
    (inSingle inDouble : Bool) (keys : List Nat) :
    memberOfGroupKeysLoop (p ++ t) fuel (byteLength p) inSingle inDouble keys
      = .ok (keys ++ (Opath.memberOfGroupKeysFrom 0 inSingle inDouble p.length t).map
          (offsetIn (p ++ t))) := by
  induction fuel generalizing p t inSingle inDouble keys with
  | zero => exact absurd hfuel (Nat.not_lt_zero _)
  | succ fuel ih =>
    cases t with
    | nil =>
      simp [memberOfGroupKeysLoop, Opath.memberOfGroupKeysFrom]
      rfl
    | cons c t =>
      obtain ⟨b, hat, hquote, hdouble, -⟩ := byteAt_at p c t
      have hsplit : p ++ c :: t = (p ++ [c]) ++ t := by simp
      have hshort : t.length < fuel := by
        rw [List.length_cons] at hfuel
        omega
      have hstep := ih (p ++ [c]) t hshort
      rw [← hsplit, ← next_offset, List.length_append, List.length_singleton] at hstep
      rw [memberOfGroupKeysLoop, if_pos (lt_byteLength _ _ _), hat, Opath.memberOfGroupKeysFrom]
      show (if b = quoteByte ∧ inDouble = false then _ else _) = _
      by_cases hsingle : c = '\'' ∧ inDouble = false
      · obtain ⟨rfl, hin⟩ := hsingle
        rw [if_pos ⟨hquote.2 rfl, hin⟩]
        have hnext := byteAt_next p (c := '\'') (by decide) t
        by_cases hescape : inSingle = true ∧ t.head? = some '\''
        · -- a doubled quote stays inside the literal
          obtain ⟨rest, rfl⟩ : ∃ rest, t = '\'' :: rest := by
            cases t with
            | nil => simp at hescape
            | cons d rest => exact ⟨rest, by simpa using hescape.2⟩
          rw [if_pos ⟨hescape.1, hnext.2 hescape.2⟩, if_pos ⟨rfl, hin⟩, if_pos hescape]
          have hsplit' : p ++ '\'' :: '\'' :: rest = (p ++ ['\'', '\'']) ++ rest := by simp
          have hlen : byteLength p + 2 = byteLength (p ++ ['\'', '\'']) := by simp; rfl
          have hrest := ih (p ++ ['\'', '\'']) rest
            (by simp only [List.length_cons] at hshort; omega) inSingle inDouble keys
          rw [← hsplit', ← hlen, List.length_append] at hrest
          exact hrest
        · rw [if_neg (fun h => hescape ⟨h.1, hnext.1 h.2⟩), if_pos ⟨rfl, hin⟩, if_neg hescape]
          exact hstep (!inSingle) inDouble keys
      · rw [if_neg (fun h => hsingle ⟨hquote.1 h.1, h.2⟩), if_neg hsingle]
        by_cases hdouble' : c = '"' ∧ inSingle = false
        · rw [if_pos ⟨hdouble.2 hdouble'.1, hdouble'.2⟩, if_pos hdouble']
          obtain ⟨rfl, -⟩ := hdouble'
          exact hstep inSingle (!inDouble) keys
        · rw [if_neg (fun h => hdouble' ⟨hdouble.1 h.1, h.2⟩), if_neg hdouble']
          by_cases hout : inSingle = false ∧ inDouble = false
          · obtain ⟨rfl, rfl⟩ := hout
            rw [if_pos ⟨rfl, rfl⟩, suffixAt_at]
            by_cases hkey : Opath.memberOfGroupKey.isPrefixOf (c :: t) = true
            · obtain ⟨rest, hrest⟩ := List.isPrefixOf_iff_prefix.1 hkey
              show (if Opath.memberOfGroupKey.isPrefixOf (c :: t) = true then _ else _) = _
              rw [if_pos hkey, if_pos ⟨rfl, rfl, hkey⟩]
              have hscan := Opath.keys_key rest p.length
              have hunfold : Opath.memberOfGroupKeysFrom 0 false false p.length (c :: t)
                  = p.length :: Opath.memberOfGroupKeysFrom
                      (Opath.memberOfGroupKey.length - 1) false false (p.length + 1) t := by
                rw [Opath.memberOfGroupKeysFrom, if_neg hsingle, if_neg hdouble',
                  if_pos ⟨rfl, rfl, hkey⟩]
              rw [hrest, hunfold] at hscan
              rw [hscan]
              have hshort' : rest.length < fuel := by
                have hlen := congrArg List.length hrest
                rw [List.length_append, List.length_cons] at hlen
                have hpos : 0 < Opath.memberOfGroupKey.length := by decide
                omega
              have hjump := ih (p ++ Opath.memberOfGroupKey) rest hshort' false false
                (keys ++ [byteLength p])
              rw [List.append_assoc, hrest, byteLength_append, List.length_append] at hjump
              refine hjump.trans ?_
              have htake : offsetIn (p ++ c :: t) p.length = byteLength p := by
                simp [offsetIn]
              rw [List.map_cons, htake, List.append_assoc]
              rfl
            · show (if Opath.memberOfGroupKey.isPrefixOf (c :: t) = true then _ else _) = _
              rw [if_neg hkey, if_neg (fun h => hkey h.2.2)]
              exact hstep false false keys
          · rw [if_neg hout, if_neg (fun h => hout ⟨h.1, h.2.1⟩)]
            show (Bind.bind (orPanic (suffixAt (p ++ c :: t) (byteLength p))) _) = _
            rw [suffixAt_at]
            exact hstep inSingle inDouble keys

/-! ## The functions of the recogniser -/

theorem byteLength_toAsciiLowercase (s : Text) : byteLength (toAsciiLowercase s) = byteLength s := by
  induction s with
  | nil => rfl
  | cons c s ih =>
    rw [Letters.toAsciiLowercase_cons, byteLength_cons, byteLength_cons, ih]
    rcases Letters.toLower_cases c with ⟨-, hle, hlow⟩ | ⟨-, hlow⟩
    · rw [utf8Size_ascii (c := c) (by omega), utf8Size_ascii (by omega)]
    · rw [hlow]

theorem offsetIn_toAsciiLowercase (s : Text) (k : Nat) : offsetIn (toAsciiLowercase s) k = offsetIn s k := by
  rw [offsetIn, offsetIn, toAsciiLowercase, ← List.map_take]
  exact byteLength_toAsciiLowercase _

@[simp] theorem offsetIn_append (p t : Text) : offsetIn (p ++ t) p.length = byteLength p := by
  simp [offsetIn]

theorem memberOfGroupKeys_eq (lower : Text) : memberOfGroupKeys lower
    = .ok ((Opath.memberOfGroupKeys lower).map (offsetIn lower)) := by
  have hfuel : lower.length < byteLength lower + 1 := Nat.lt_succ_of_le (length_le_byteLength _)
  exact memberOfGroupKeysLoop_eq [] lower hfuel false false []

theorem readOpathLiteral_eq (p t : Text) : readOpathLiteral (p ++ '\'' :: t) (byteLength p)
    = .ok ((Opath.readLiteral t).map (fun r => (r.1, byteLength (p ++ '\'' :: t.take r.2)))) := by
  have hsplit : p ++ '\'' :: t = (p ++ ['\'']) ++ t := by simp
  have hlen : byteLength p + 1 = byteLength (p ++ ['\'']) := by simp; rfl
  have hfuel : t.length < byteLength (p ++ '\'' :: t) + 1 := by
    have hle := length_le_byteLength (p ++ '\'' :: t)
    rw [List.length_append, List.length_cons] at hle
    omega
  rw [readOpathLiteral, hlen, hsplit, readOpathLiteralLoop_eq _ _ _ (by rwa [← hsplit])]
  simp

theorem skipWhitespace_eq (p : Text) {w t : Text} (hw : Opath.Blank w) (ht : Opath.NoBlankStart t) :
    skipWhitespace (p ++ (w ++ t)) (byteLength p) = .ok (byteLength (p ++ w)) := by
  have hfuel : (w ++ t).length < byteLength (p ++ (w ++ t)) + 1 := by
    have hle := length_le_byteLength (p ++ (w ++ t))
    rw [List.length_append] at hle
    omega
  have htake : (w ++ t).takeWhile isAsciiWhitespace = w := by
    rw [List.takeWhile_append_of_pos hw]
    cases t with
    | nil => simp
    | cons c t => simp [ht c rfl]
  rw [skipWhitespace, skipWhitespaceLoop_eq _ _ hfuel, htake]

theorem startsProperty_eq (a t : Text) : startsProperty uni (toAsciiLowercase (a ++ t)) (byteLength a)
    = .ok (Opath.startsProperty uni (toAsciiLowercase (a ++ t)) a.length) := by
  have hbefore : prefixAt (toAsciiLowercase (a ++ t)) (byteLength a) = some (toAsciiLowercase a) := by
    rw [Letters.toAsciiLowercase_append, ← byteLength_toAsciiLowercase a]
    exact prefixAt_append _ _
  have htake : (toAsciiLowercase (a ++ t)).take a.length = toAsciiLowercase a := by
    rw [Letters.toAsciiLowercase_append, ← Letters.length_toAsciiLowercase a, List.take_left]
  rw [startsProperty, Opath.startsProperty, hbefore, htake]
  simp only [orPanic, bind, Except.bind]
  cases (toAsciiLowercase a).getLast? with
  | none | some c => rfl

/-- A clause with its span in bytes. -/
def inBytes (filter : Text) (c : Opath.MemberClause) : Opath.MemberClause :=
  ⟨(offsetIn filter c.span.1, offsetIn filter c.span.2), c.dn⟩

theorem suffixAt_lower (p t : Text) :
    orPanic (suffixAt (toAsciiLowercase (p ++ t)) (byteLength p)) = .ok (toAsciiLowercase t) := by
  rw [Letters.toAsciiLowercase_append, ← byteLength_toAsciiLowercase p]
  exact suffixAt_at _ _

/-- What follows `-eq`, byte by byte. -/
theorem clause_behind_eq {a x w e w' t filter : Text}
    (hfilter : filter = (a ++ x) ++ (w ++ (e ++ (w' ++ t))))
    (hkey : toAsciiLowercase x = Opath.memberOfGroupKey) (hw : Opath.Blank w)
    (he : toAsciiLowercase e = "-eq".toList) (hw' : Opath.Blank w') (ht : Opath.NoBlankStart t)
    (hstart : Opath.startsProperty uni (toAsciiLowercase filter) a.length = true) :
    (if byteAt filter (byteLength ((a ++ x) ++ (w ++ (e ++ w')))) ≠ some quoteByte then
        (pure none : Checked (Option Opath.MemberClause))
      else do
        match ← readOpathLiteral filter (byteLength ((a ++ x) ++ (w ++ (e ++ w')))) with
        | none => pure none
        | some (dn, stop) =>
          pure (if isBlank dn then none else some ⟨(byteLength a, stop), dn⟩))
      = .ok ((Opath.memberClauseAt uni filter a.length).map (inBytes filter)) := by
  have hlen : (a ++ x).length = a.length + Opath.memberOfGroupKey.length := by
    rw [List.length_append, ← hkey, Letters.length_toAsciiLowercase]
  rw [Opath.memberClauseAt_eq hfilter hlen hw he hw' ht, hstart,
    if_neg (show ¬ true = false by simp)]
  have hsplit : filter = ((a ++ x) ++ (w ++ (e ++ w'))) ++ t := by
    rw [hfilter]
    simp
  have hquote := byteAt_quote ((a ++ x) ++ (w ++ (e ++ w'))) t
  rw [← hsplit] at hquote
  by_cases hhead : t.head? = some '\''
  · obtain ⟨t', rfl⟩ : ∃ t', t = '\'' :: t' := by
      cases t with
      | nil => simp at hhead
      | cons d t' => exact ⟨t', by simpa using hhead⟩
    have hread := readOpathLiteral_eq ((a ++ x) ++ (w ++ (e ++ w'))) t'
    rw [← hsplit] at hread
    rw [if_neg (not_not.2 (hquote.2 hhead)), if_neg (not_not.2 hhead), hread, List.tail_cons]
    cases hlit : Opath.readLiteral t' with
    | none => rfl
    | some r =>
      obtain ⟨dn, n⟩ := r
      have hn : n ≤ t'.length := by
        obtain ⟨rest, rfl, -, rfl⟩ := Opath.readLiteral_some hlit
        simp
      -- the span ends behind the closing quote
      have hstop : offsetIn filter (((a ++ x) ++ (w ++ (e ++ w'))).length + 1 + n)
          = byteLength (((a ++ x) ++ (w ++ (e ++ w'))) ++ '\'' :: t'.take n) := by
        have hcut : filter = (((a ++ x) ++ (w ++ (e ++ w'))) ++ '\'' :: t'.take n) ++ t'.drop n := by
          rw [hsplit]
          simp
        have hcount : ((a ++ x) ++ (w ++ (e ++ w'))).length + 1 + n
            = (((a ++ x) ++ (w ++ (e ++ w'))) ++ '\'' :: t'.take n).length := by
          simp [hn]
          omega
        rw [hcount, hcut]
        exact offsetIn_append _ _
      have hopen : offsetIn filter a.length = byteLength a := by
        rw [hfilter, List.append_assoc]
        exact offsetIn_append _ _
      show Except.ok (if isBlank dn = true then none else _) = Except.ok (Option.map _ (if _ then _ else _))
      by_cases hblank : isBlank dn = true
      · rw [if_pos hblank, if_pos hblank]
        rfl
      · rw [if_neg hblank, if_neg hblank, Option.map_some, inBytes, hstop, hopen]
  · rw [if_pos (fun h => hhead (hquote.1 h)), if_pos hhead]
    rfl

theorem memberClauseAt_eq {a x t : Text} (hkey : toAsciiLowercase x = Opath.memberOfGroupKey) :
    memberClauseAt uni (a ++ (x ++ t)) (toAsciiLowercase (a ++ (x ++ t))) (byteLength a)
      = .ok ((Opath.memberClauseAt uni (a ++ (x ++ t)) a.length).map
          (inBytes (a ++ (x ++ t)))) := by
  have hlen : (a ++ x).length = a.length + Opath.memberOfGroupKey.length := by
    rw [List.length_append, ← hkey, Letters.length_toAsciiLowercase]
  have hskip : byteLength a + byteLength Opath.memberOfGroupKey = byteLength (a ++ x) := by
    rw [byteLength_append, ← hkey, byteLength_toAsciiLowercase]
  obtain ⟨w, t₁, rfl, hw, hstart₁⟩ := Opath.exists_blank_split t
  have hassoc : a ++ (x ++ (w ++ t₁)) = (a ++ x) ++ (w ++ t₁) := (List.append_assoc _ _ _).symm
  rw [memberClauseAt, startsProperty_eq]
  show (if Opath.startsProperty uni _ a.length = false then _ else _) = _
  cases hstart : Opath.startsProperty uni (toAsciiLowercase (a ++ (x ++ (w ++ t₁)))) a.length with
  | false =>
    rw [if_pos rfl, Opath.memberClauseAt]
    simp only [hstart, if_true]
    rfl
  | true =>
    rw [if_neg (by simp), hskip, hassoc, skipWhitespace_eq _ hw hstart₁]
    have hsuffix := suffixAt_lower ((a ++ x) ++ w) t₁
    rw [List.append_assoc] at hsuffix
    show (Bind.bind (orPanic (suffixAt (toAsciiLowercase ((a ++ x) ++ (w ++ t₁)))
      (byteLength ((a ++ x) ++ w)))) _) = _
    rw [hsuffix]
    show (if "-eq".toList.isPrefixOf (toAsciiLowercase t₁) = false then _ else _) = _
    by_cases heq : "-eq".toList <+: toAsciiLowercase t₁
    · obtain ⟨e, t₂, rfl, he⟩ := Opath.exists_eq_split heq
      obtain ⟨w', t₃, rfl, hw', hstart₃⟩ := Opath.exists_blank_split t₂
      have hbyte : byteLength ((a ++ x) ++ w) + byteLength "-eq".toList
          = byteLength ((a ++ x) ++ (w ++ e)) := by
        rw [← List.append_assoc, byteLength_append _ e, ← byteLength_toAsciiLowercase e, he]
      have hfold : (a ++ x) ++ (w ++ (e ++ (w' ++ t₃)))
          = ((a ++ x) ++ (w ++ e)) ++ (w' ++ t₃) := by simp
      have hskip' := skipWhitespace_eq ((a ++ x) ++ (w ++ e)) hw' hstart₃
      rw [← hfold, ← hbyte] at hskip'
      have hend : ((a ++ x) ++ (w ++ e)) ++ w' = (a ++ x) ++ (w ++ (e ++ w')) := by simp
      rw [if_neg (by rw [Bool.not_eq_false, List.isPrefixOf_iff_prefix]; exact heq), hskip', hend]
      rw [hassoc] at hstart
      exact clause_behind_eq rfl hkey hw he hw' hstart₃ hstart
    · rw [if_pos (by rw [← Bool.not_eq_true, List.isPrefixOf_iff_prefix]; exact heq),
        Opath.memberClauseAt_not_eq rfl hlen hw hstart₁ heq]
      rfl

theorem memberClausesAt_eq {filter : Text} {keys : List Nat}
    (hkeys : ∀ k ∈ keys, ∃ a x t, filter = a ++ (x ++ t) ∧
      toAsciiLowercase x = Opath.memberOfGroupKey ∧ a.length = k) :
    memberClausesAt uni filter (toAsciiLowercase filter) (keys.map (offsetIn filter))
      = .ok ((keys.filterMap (Opath.memberClauseAt uni filter)).map (inBytes filter)) := by
  induction keys with
  | nil => rfl
  | cons k keys ih =>
    have hrest := ih (fun k' hk' => hkeys k' (List.mem_cons_of_mem _ hk'))
    obtain ⟨a, x, t, rfl, hkey, rfl⟩ := hkeys k List.mem_cons_self
    rw [List.map_cons, memberClausesAt, offsetIn_append, memberClauseAt_eq hkey, hrest]
    cases hclause : Opath.memberClauseAt uni (a ++ (x ++ t)) a.length with
    | none =>
      rw [List.filterMap_cons_none hclause]
      rfl
    | some c =>
      rw [List.filterMap_cons_some hclause]
      rfl

theorem memberOfGroupClauses_eq (filter : Text) : memberOfGroupClauses uni filter
    = .ok ((Opath.memberOfGroupClauses uni filter).map (inBytes filter)) := by
  have hoffset : offsetIn (toAsciiLowercase filter) = offsetIn filter := by
    funext k
    exact offsetIn_toAsciiLowercase filter k
  rw [memberOfGroupClauses, memberOfGroupKeys_eq, hoffset]
  refine memberClausesAt_eq ?_
  intro k hk
  obtain ⟨ks, ks', hsplit⟩ := List.append_of_mem hk
  obtain ⟨a, x, t, hfilter, hkey, hlen, -⟩ := Opath.key_split hsplit
  exact ⟨a, x, t, hfilter, hkey, hlen⟩

theorem countMemberOfGroup_eq (filter : Text) :
    countMemberOfGroup filter = .ok (Opath.countMemberOfGroup filter) := by
  rw [countMemberOfGroup, memberOfGroupKeys_eq]
  show Except.ok _ = _
  rw [List.length_map]
  rfl

theorem scopeGroupsInFilter_eq (filter : Text) :
    scopeGroupsInFilter uni filter = .ok (Opath.scopeGroupsInFilter uni filter) := by
  rw [scopeGroupsInFilter, memberOfGroupClauses_eq, countMemberOfGroup_eq]
  show Except.ok _ = _
  rw [List.length_map, List.map_map]
  rfl

/-! ## What is left of the filter -/

theorem offsetIn_mono (s : Text) {i j : Nat} (h : i ≤ j) : offsetIn s i ≤ offsetIn s j := by
  obtain ⟨n, rfl⟩ := Nat.exists_eq_add_of_le h
  rw [offsetIn, offsetIn, List.take_add, byteLength_append]
  exact Nat.le_add_right _ _

theorem offsetIn_lt (s : Text) {i j : Nat} (h : i < j) (hj : j ≤ s.length) : offsetIn s i < offsetIn s j := by
  obtain ⟨n, rfl⟩ := Nat.exists_eq_add_of_le (Nat.le_of_lt h)
  have hle := length_le_byteLength ((s.drop i).take n)
  rw [List.length_take, List.length_drop] at hle
  rw [offsetIn, offsetIn, List.take_add, byteLength_append]
  omega

theorem offsetIn_le (s : Text) (i : Nat) : offsetIn s i ≤ byteLength s := by
  have hsplit := byteLength_append (s.take i) (s.drop i)
  rw [List.take_append_drop] at hsplit
  rw [offsetIn, hsplit]
  exact Nat.le_add_right _ _

theorem slice_offsets (s : Text) {i j : Nat} (h : i ≤ j) :
    slice s (offsetIn s i) (offsetIn s j) = some ((s.drop i).take (j - i)) := by
  obtain ⟨n, rfl⟩ := Nat.exists_eq_add_of_le h
  have hsplit : s = s.take i ++ ((s.drop i).take n ++ s.drop (i + n)) := by
    rw [← List.append_assoc, ← List.take_add, List.take_append_drop]
  have hslice := slice_append (s.take i) ((s.drop i).take n) (s.drop (i + n))
  rw [← hsplit, ← List.take_add] at hslice
  rw [Nat.add_sub_cancel_left]
  exact hslice

theorem suffixAt_offset (s : Text) (i : Nat) : suffixAt s (offsetIn s i) = some (s.drop i) := by
  have hsuffix := suffixAt_append (s.take i) (s.drop i)
  rwa [List.take_append_drop] at hsuffix

/-- Increasing and disjoint spans cut the filter without a panic. -/
theorem residueFrom_eq {filter : Text} {clauses : List Opath.MemberClause} {cursor : Nat}
    (hspan : ∀ c ∈ clauses, cursor ≤ c.span.1)
    (hdisjoint : clauses.Pairwise (fun a b => a.span.2 ≤ b.span.1)) :
    residueFrom filter (offsetIn filter cursor) (clauses.map (inBytes filter))
      = .ok (Opath.residueFrom filter cursor clauses) := by
  induction clauses generalizing cursor with
  | nil =>
    rw [List.map_nil, residueFrom, suffixAt_offset]
    rfl
  | cons c clauses ih =>
    obtain ⟨hbehind, hrest⟩ := List.pairwise_cons.1 hdisjoint
    rw [List.map_cons, residueFrom]
    show (Bind.bind (orPanic (slice filter (offsetIn filter cursor) (offsetIn filter c.span.1)))
      fun part => Bind.bind (residueFrom filter (offsetIn filter c.span.2) _) _) = _
    rw [slice_offsets _ (hspan c List.mem_cons_self), ih hbehind hrest]
    rfl

theorem rewritableScopeDns_eq (filter : Text) :
    rewritableScopeDns uni filter = .ok (Opath.rewritableScopeDns uni filter) := by
  rw [rewritableScopeDns, memberOfGroupClauses_eq, Opath.rewritableScopeDns]
  show (if List.map (inBytes filter) _ = [] then _ else _) = _
  by_cases hnil : Opath.memberOfGroupClauses uni filter = []
  · rw [if_pos (by rw [hnil]; rfl)]
    simp only [hnil, if_true]
    rfl
  rw [if_neg (fun h => hnil (List.map_eq_nil_iff.1 h)), countMemberOfGroup_eq]
  show (if List.length (List.map _ _) ≠ Opath.countMemberOfGroup filter then _ else _) = _
  rw [List.length_map]
  simp only [hnil, if_false]
  by_cases hcount : (Opath.memberOfGroupClauses uni filter).length
      ≠ Opath.countMemberOfGroup filter
  · rw [if_pos hcount, if_pos hcount]
    rfl
  rw [if_neg hcount, if_neg hcount]
  have hresidue := @residueFrom_eq filter (Opath.memberOfGroupClauses uni filter) 0
    (fun _ _ => Nat.zero_le _) (Opath.clauses_disjoint filter)
  show (Bind.bind (residueFrom filter 0 _) _) = _
  have hzero : offsetIn filter 0 = 0 := by simp [offsetIn]
  rw [hzero] at hresidue
  rw [hresidue]
  show (if Opath.leftoverOf _ ≠ [] then _ else _) = _
  by_cases hleft : Opath.leftoverOf
      (Opath.residueFrom filter 0 (Opath.memberOfGroupClauses uni filter)) ≠ []
  · rw [if_pos hleft, if_pos hleft]
    rfl
  rw [if_neg hleft, if_neg hleft, List.map_map]
  rfl

theorem filterNamesOnlyGroup_eq (filter dn : Text) :
    filterNamesOnlyGroup uni filter dn = .ok (Exchange.filterNamesOnlyGroup uni filter dn) := by
  rw [filterNamesOnlyGroup, exactScopeDns, rewritableScopeDns_eq, Exchange.filterNamesOnlyGroup,
    Opath.exactScopeDns]
  cases Opath.rewritableScopeDns uni filter with
  | error e | ok dns => rfl

/-! ## No panic -/

/-- On any filter the functions of the recogniser come to an answer without a panic. The spans of
    the clauses are increasing and disjoint, and no key but its own is inside a clause: from an
    opening quote on, the key scanner is outside quotes again where the literal reader ends, and
    finds nothing more where the reader finds no end. -/
theorem recogniser_never_panics (uni : Unicode) (filter dn : Text) :
    ∃ keys clauses,
      memberOfGroupKeys (toAsciiLowercase filter) = .ok keys ∧
      memberOfGroupClauses uni filter = .ok clauses ∧
      countMemberOfGroup filter = .ok keys.length ∧
      scopeGroupsInFilter uni filter = .ok (Opath.scopeGroupsInFilter uni filter) ∧
      rewritableScopeDns uni filter = .ok (Opath.rewritableScopeDns uni filter) ∧
      filterNamesOnlyGroup uni filter dn = .ok (Exchange.filterNamesOnlyGroup uni filter dn) ∧
      clauses.Pairwise (fun a b => a.span.2 ≤ b.span.1) ∧
      (∀ c ∈ clauses, c.span.1 < c.span.2 ∧ c.span.2 ≤ byteLength filter ∧
        ∀ k ∈ keys, k ≤ c.span.1 ∨ c.span.2 ≤ k) ∧
      ∀ p t, filter = p ++ '\'' :: t →
        ∃ literal, readOpathLiteral filter (byteLength p) = .ok literal ∧
          memberOfGroupKeysLoop (toAsciiLowercase filter) (byteLength filter + 1) (byteLength p)
              false false []
            = match literal with
              | none => .ok []
              | some (_, stop) => memberOfGroupKeysLoop (toAsciiLowercase filter)
                  (byteLength filter + 1) stop false false [] := by
  have hoffset : offsetIn (toAsciiLowercase filter) = offsetIn filter := by
    funext k
    exact offsetIn_toAsciiLowercase filter k
  refine ⟨_, _, memberOfGroupKeys_eq _, memberOfGroupClauses_eq _, ?_, scopeGroupsInFilter_eq _,
    rewritableScopeDns_eq _, filterNamesOnlyGroup_eq _ _, ?_, ?_, ?_⟩
  · rw [countMemberOfGroup_eq, List.length_map]
    rfl
  · rw [List.pairwise_map]
    exact (Opath.clauses_disjoint filter).imp (fun h => offsetIn_mono filter h)
  · intro c hc
    obtain ⟨c', hc', rfl⟩ := List.mem_map.1 hc
    obtain ⟨hlt, hle, hkeys⟩ := Opath.clause_span hc'
    refine ⟨offsetIn_lt filter hlt hle, offsetIn_le filter _, ?_⟩
    intro k hk
    rw [hoffset] at hk
    obtain ⟨k', hk', rfl⟩ := List.mem_map.1 hk
    exact (hkeys k' hk').imp (offsetIn_mono filter) (offsetIn_mono filter)
  · rintro p t rfl
    refine ⟨_, readOpathLiteral_eq p t, ?_⟩
    -- the scan from a character on, whatever is before it
    have hscan : ∀ q u, p ++ '\'' :: t = q ++ u →
        memberOfGroupKeysLoop (toAsciiLowercase (p ++ '\'' :: t)) (byteLength (p ++ '\'' :: t) + 1)
            (byteLength q) false false []
          = .ok ((Opath.memberOfGroupKeysFrom 0 false false q.length (toAsciiLowercase u)).map
              (offsetIn (p ++ '\'' :: t))) := by
      intro q u hqu
      have hfuel : (toAsciiLowercase u).length < byteLength (p ++ '\'' :: t) + 1 := by
        have hle := length_le_byteLength (p ++ '\'' :: t)
        rw [hqu, List.length_append] at hle
        rw [hqu, Letters.length_toAsciiLowercase]
        omega
      have hloop := memberOfGroupKeysLoop_eq (toAsciiLowercase q) (toAsciiLowercase u) hfuel
        false false []
      rw [← Letters.toAsciiLowercase_append, ← hqu, byteLength_toAsciiLowercase,
        Letters.length_toAsciiLowercase, hoffset] at hloop
      exact hloop
    rw [hscan p ('\'' :: t) rfl]
    cases hlit : Opath.readLiteral t with
    | none =>
      have hnone := Opath.keys_unterminated hlit (p.length + 1)
      have hopen : Opath.memberOfGroupKeysFrom 0 false false p.length
          (toAsciiLowercase ('\'' :: t))
          = Opath.memberOfGroupKeysFrom 0 true false (p.length + 1) (toAsciiLowercase t) := by
        have hlow : toAsciiLowercase ('\'' :: t) = '\'' :: toAsciiLowercase t := rfl
        rw [hlow, Opath.memberOfGroupKeysFrom, if_pos ⟨rfl, rfl⟩,
          if_neg (fun h => absurd h.1 (by simp))]
        rfl
      rw [hopen, hnone]
      rfl
    | some r =>
      obtain ⟨dn', n⟩ := r
      have hn : n ≤ t.length := by
        obtain ⟨rest, rfl, -, rfl⟩ := Opath.readLiteral_some hlit
        simp
      have hcut : p ++ '\'' :: t = (p ++ '\'' :: t.take n) ++ t.drop n := by simp
      rw [Opath.keys_of_readLiteral hlit]
      show _ = memberOfGroupKeysLoop _ _ (byteLength (p ++ '\'' :: t.take n)) false false []
      rw [hscan (p ++ '\'' :: t.take n) (t.drop n) hcut]
      congr 3
      simp [hn]
      omega

end OpathBytes
