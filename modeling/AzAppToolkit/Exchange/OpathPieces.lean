import AzAppToolkit.Exchange.OpathProofs

set_option autoImplicit false

/-! # A written filter, piece by piece

A text that writes a filter is cut into gaps, connectives and comparisons. The scanner is followed
over them from left to right; the clauses it reads are the readable comparisons, and what it leaves
is the rest. The main theorem compares the two with the tree. -/

namespace Opath

open Letters

variable {uni : Unicode}

/-! ## Pieces -/

/-- A stretch of a written filter. -/
inductive Piece (uni : Unicode) where
  | gap (c : Char) (h : isAsciiWhitespace c = true ∨ c = '(' ∨ c = ')')
  | word (k : Connective) (w : Text) (h : IsWord k w)
  | atom (c : Comparison uni) (w w' : Text) (hw : Blank w) (hw' : Blank w')

def Piece.text : Piece uni → Text
  | .gap c _ => [c]
  | .word _ w _ => w
  | .atom c w w' _ _ => c.text w w'

def Piece.comparison : Piece uni → Option (Comparison uni)
  | .atom c _ _ _ _ => some c
  | _ => none

def Piece.connective : Piece uni → Option Connective
  | .word k _ _ => some k
  | _ => none

def textOf (ps : List (Piece uni)) : Text := ps.flatMap Piece.text

/-- A comparison never comes directly after a connective or another comparison. -/
def Spaced : (glued : Bool) → List (Piece uni) → Prop
  | _, [] => True
  | _, .gap _ _ :: ps => Spaced false ps
  | _, .word _ _ _ :: ps => Spaced true ps
  | glued, .atom _ _ _ _ _ :: ps => glued = false ∧ Spaced true ps

@[simp] theorem textOf_nil : textOf ([] : List (Piece uni)) = [] := rfl

@[simp] theorem textOf_cons (p : Piece uni) (ps : List (Piece uni)) :
    textOf (p :: ps) = p.text ++ textOf ps := rfl

@[simp] theorem textOf_append (ps qs : List (Piece uni)) :
    textOf (ps ++ qs) = textOf ps ++ textOf qs := List.flatMap_append

theorem Spaced.append {ps qs : List (Piece uni)} {glued : Bool} (hps : Spaced glued ps)
    (hqs : ∀ b, Spaced b qs) : Spaced glued (ps ++ qs) := by
  induction ps generalizing glued with
  | nil => exact hqs glued
  | cons p ps ih =>
    cases p with
    | gap c h =>
      have hps' : Spaced false ps := hps
      exact ih hps'
    | word k w h =>
      have hps' : Spaced true ps := hps
      exact ih hps'
    | atom c w w' hw hw' => exact ⟨hps.1, ih hps.2⟩

/-- What the pieces of a written filter are. -/
structure Cut (f : Filter uni) (s : Text) (ps : List (Piece uni)) : Prop where
  text : textOf ps = s
  comparisons : ps.filterMap Piece.comparison = f.comparisons
  connectives : ps.filterMap Piece.connective = f.connectives
  spaced : Spaced false ps

/-- Whitespace is cut into gaps. -/
theorem Blank.exists_gaps (uni : Unicode) {w : Text} (hw : Blank w) : ∃ gs : List (Piece uni), textOf gs = w ∧
    gs.filterMap Piece.comparison = [] ∧ gs.filterMap Piece.connective = [] ∧
    ∀ ps, Spaced false ps → Spaced false (gs ++ ps) ∧ ∀ b, Spaced b gs := by
  induction w with
  | nil => exact ⟨[], rfl, rfl, rfl, fun ps hps => ⟨hps, fun _ => trivial⟩⟩
  | cons c w ih =>
    obtain ⟨gs, htext, hcmp, hcon, hsp⟩ := ih (fun d hd => hw d (List.mem_cons_of_mem _ hd))
    refine ⟨.gap c (Or.inl (hw c List.mem_cons_self)) :: gs, ?_, hcmp, hcon, fun ps hps => ?_⟩
    · rw [textOf_cons, htext]
      rfl
    · exact ⟨(hsp ps hps).1, fun _ => (hsp ps hps).2 false⟩

/-- A text that does not go on a word has its comparison, if it starts with one, apart. -/
theorem Spaced.glue {ps : List (Piece uni)} (hps : Spaced false ps)
    (hapart : StartsApart uni (textOf ps)) : Spaced true ps := by
  cases ps with
  | nil => trivial
  | cons p ps =>
    cases p with
    | gap c h => exact hps
    | word k w h => exact hps
    | atom c w w' hw hw' =>
      cases hprop : c.property with
      | nil => exact absurd hprop c.property_ne
      | cons d rest =>
        have hd : wordChar uni d = true := c.property_word d (by simp [hprop])
        have := hapart d (by simp [Piece.text, Comparison.text, Comparison.head, hprop])
        rw [hd] at this
        exact absurd this (by decide)

/-- Two cuts joined by a connective. -/
theorem Cut.join {l r f : Filter uni} {s s' w : Text} {ps qs : List (Piece uni)} {k : Connective}
    (hl : Cut l s ps) (hr : Cut r s' qs) (hw : IsWord k w) (hapart : StartsApart uni s')
    (hcmp : f.comparisons = l.comparisons ++ r.comparisons)
    (hcon : f.connectives = l.connectives ++ k :: r.connectives) :
    Cut f (s ++ (w ++ s')) (ps ++ .word k w hw :: qs) where
  text := by rw [textOf_append, textOf_cons, hl.text, hr.text]; rfl
  comparisons := by
    rw [List.filterMap_append, hl.comparisons, hcmp, ← hr.comparisons]
    rfl
  connectives := by
    rw [List.filterMap_append, hl.connectives, hcon, ← hr.connectives]
    rfl
  spaced := hl.spaced.append (fun _ => hr.spaced.glue (hr.text ▸ hapart))

/-- Every text of a filter can be cut. -/
theorem Prints.cut {f : Filter uni} {s : Text} (h : Prints f s) : ∃ ps, Cut f s ps := by
  induction h with
  | cmp c hw hw' =>
    refine ⟨[.atom c _ _ hw hw'], ?_, rfl, rfl, rfl, trivial⟩
    simp [textOf, Piece.text, Comparison.text, Comparison.head]
  | pad hs hw hw' ih =>
    obtain ⟨ps, hps⟩ := ih
    obtain ⟨gs, htext, hcmp, hcon, hsp⟩ := hw.exists_gaps uni
    obtain ⟨gs', htext', hcmp', hcon', hsp'⟩ := hw'.exists_gaps uni
    refine ⟨gs ++ (ps ++ gs'), ?_, ?_, ?_, ?_⟩
    · rw [textOf_append, textOf_append, htext, htext', hps.text]
    · rw [List.filterMap_append, List.filterMap_append, hcmp, hcmp', hps.comparisons]
      simp
    · rw [List.filterMap_append, List.filterMap_append, hcon, hcon', hps.connectives]
      simp
    · exact (hsp _ (hps.spaced.append (hsp' [] trivial).2)).1
  | paren hs ih =>
    obtain ⟨ps, hps⟩ := ih
    refine ⟨.gap '(' (by simp) :: (ps ++ [.gap ')' (by simp)]), ?_, ?_, ?_, ?_⟩
    · simp [Piece.text, hps.text]
    · rw [← hps.comparisons, List.filterMap_cons_none rfl, List.filterMap_append]
      exact List.append_nil _
    · rw [← hps.connectives, List.filterMap_cons_none rfl, List.filterMap_append]
      exact List.append_nil _
    · exact hps.spaced.append (fun _ => trivial)
  | and hl hr hw hapart ihl ihr | or hl hr hw hapart ihl ihr =>
    obtain ⟨⟨ps, hps⟩, qs, hqs⟩ := And.intro ihl ihr
    exact ⟨_, hps.join hqs hw hapart rfl rfl⟩
  | not hs hw hapart ih =>
    obtain ⟨ps, hps⟩ := ih
    refine ⟨.word .not _ hw :: ps, ?_, ?_, ?_, hps.spaced.glue (hps.text ▸ hapart)⟩
    · rw [textOf_cons, hps.text]
      rfl
    · exact hps.comparisons
    · rw [Filter.connectives, ← hps.connectives]
      rfl

/-! ## Scanning the pieces -/

/-- The clause the recogniser reads from a piece at offset `i`. -/
def Piece.clause (i : Nat) : Piece uni → Option MemberClause
  | .atom c w w' _ _ =>
    if c.Readable then some ⟨(i, i + (c.text w w').length), c.literal.value⟩ else none
  | _ => none

/-- A piece that leaves the two counts of the recogniser equal. -/
def Piece.Clean : Piece uni → Prop
  | .atom c _ _ _ _ => c.Readable
  | _ => True

def clausesFrom : Nat → List (Piece uni) → List MemberClause
  | _, [] => []
  | i, p :: ps => (p.clause i).toList ++ clausesFrom (i + p.text.length) ps

theorem keys_skip (x y : Text) (inSingle inDouble : Bool) (i : Nat) :
    memberOfGroupKeysFrom x.length inSingle inDouble i (x ++ y)
      = memberOfGroupKeysFrom 0 inSingle inDouble (i + x.length) y := by
  induction x generalizing i with
  | nil => rfl
  | cons c x ih =>
    rw [List.length_cons, List.cons_append, memberOfGroupKeysFrom, ih, Nat.add_right_comm]
    rfl

theorem keys_key (y : Text) (i : Nat) :
    memberOfGroupKeysFrom 0 false false i (memberOfGroupKey ++ y)
      = i :: memberOfGroupKeysFrom 0 false false (i + memberOfGroupKey.length) y := by
  have hskip := keys_skip memberOfGroupKey.tail y false false (i + 1)
  have hcons : memberOfGroupKey ++ y = 'm' :: (memberOfGroupKey.tail ++ y) := rfl
  have hpre : memberOfGroupKey.isPrefixOf (memberOfGroupKey ++ y) = true :=
    List.isPrefixOf_iff_prefix.2 (List.prefix_append _ _)
  rw [hcons] at hpre ⊢
  rw [memberOfGroupKeysFrom, if_neg (fun h => absurd h.1 (by decide)),
    if_neg (fun h => absurd h.1 (by decide)), if_pos ⟨rfl, rfl, hpre⟩]
  rw [List.length_tail] at hskip
  rw [hskip, Nat.add_assoc]
  rfl

theorem plain_of_blank {w : Text} (hw : Blank w) : '\'' ∉ toAsciiLowercase w ∧ '"' ∉ toAsciiLowercase w := by
  rw [mem_toAsciiLowercase (by decide), mem_toAsciiLowercase (by decide)]
  exact ⟨fun h => absurd (hw _ h) (by decide), fun h => absurd (hw _ h) (by decide)⟩

theorem plain_of_word {s : Text} (hs : ∀ c ∈ s, wordChar uni c = true) :
    '\'' ∉ toAsciiLowercase s ∧ '"' ∉ toAsciiLowercase s := by
  rw [mem_toAsciiLowercase (by decide), mem_toAsciiLowercase (by decide)]
  constructor
  · intro h
    have := wordChar_ascii uni (by decide) (hs _ h)
    revert this
    decide
  · intro h
    have := wordChar_ascii uni (by decide) (hs _ h)
    revert this
    decide

theorem Comparison.plain_head (c : Comparison uni) {w w' : Text} (hw : Blank w) (hw' : Blank w') :
    '\'' ∉ toAsciiLowercase (c.head w w') ∧ '"' ∉ toAsciiLowercase (c.head w w') := by
  have hp := plain_of_word c.property_word
  have ho := plain_of_word c.op_word
  have h1 := plain_of_blank hw
  have h2 := plain_of_blank hw'
  simp only [Comparison.head, toAsciiLowercase_append, toAsciiLowercase_cons, List.mem_append,
    List.mem_cons, List.cons_append]
  constructor
  · rintro (h | h | h | h | h)
    exacts [hp.1 h, h1.1 h, absurd h (by decide), ho.1 h, h2.1 h]
  · rintro (h | h | h | h | h)
    exacts [hp.2 h, h1.2 h, absurd h (by decide), ho.2 h, h2.2 h]

/-- The keys the scanner finds in a comparison, and the clauses read from them. -/
theorem scan_atom {c : Comparison uni} {w w' pre post filter : Text} (hw : Blank w) (hw' : Blank w')
    (hfilter : filter = pre ++ (c.text w w' ++ post))
    (hstart : startsProperty uni (toAsciiLowercase filter) pre.length = true)
    (hpost : post.head? ≠ some '\'') :
    ∃ ks, memberOfGroupKeysFrom 0 false false pre.length (toAsciiLowercase (c.text w w' ++ post))
        = ks ++ memberOfGroupKeysFrom 0 false false (pre.length + (c.text w w').length)
            (toAsciiLowercase post) ∧
      ks.filterMap (memberClauseAt uni filter)
        = ((Piece.atom c w w' hw hw').clause pre.length).toList ∧
      (c.Readable → ks.length = 1) := by
  have hpost' : (toAsciiLowercase post).head? ≠ some '\'' := by
    cases post with
    | nil => simp
    | cons d post =>
      intro h
      exact hpost (by simpa [toLower_eq_iff] using h)
  have hlen : pre.length + (c.text w w').length
      = pre.length + (c.head w w').length + c.literal.print.length := by
    rw [Comparison.text, List.length_append]
    omega
  rw [hlen, Comparison.text, List.append_assoc, toAsciiLowercase_append]
  obtain ⟨hq, hqq⟩ := c.plain_head hw hw'
  have hclause := fun hprop => clause_at_property hfilter hw hw' hprop hstart hpost
  by_cases hread : c.Readable
  · -- the key is the property, and no other follows it
    have hm : 'm' ∉ toAsciiLowercase (w ++ ('-' :: c.op ++ w')) := by
      simp only [toAsciiLowercase_append, toAsciiLowercase_cons, List.mem_append, List.mem_cons,
        hread.1.2]
      rintro (h | (h | h) | h)
      exacts [not_mem_blank hw h, absurd h (by decide), absurd h (by decide), not_mem_blank hw' h]
    rw [Comparison.head, toAsciiLowercase_append] at hq hqq
    simp only [List.mem_append, not_or] at hq hqq
    have hplen : (c.head w w').length
        = memberOfGroupKey.length + (w ++ ('-' :: c.op ++ w')).length := by
      rw [Comparison.head, List.length_append, ← length_toAsciiLowercase c.property, hread.1.1]
    refine ⟨[pre.length], ?_, ?_, fun _ => rfl⟩
    · rw [hplen, Comparison.head, toAsciiLowercase_append, hread.1.1, List.append_assoc, keys_key,
        keys_none _ _ hq.2 hqq.2 hm, toAsciiLowercase_append c.literal.print,
        keys_literal _ _ hpost', length_toAsciiLowercase, ← Nat.add_assoc]
      rfl
    · simp [hclause hread.1.1, Piece.clause, hread]
  · -- no key in it gives a clause
    have hbreak : ∀ ch, (toAsciiLowercase ([] ++ (c.literal.print ++ post))).head? = some ch →
        ch ∉ memberOfGroupKey :=
      break_of_mark (fun _ => isAlpha_of_mem_key) (by simp [Blank]) (c.literal.head_not_alpha post)
    obtain ⟨ks, hks, hpos⟩ := keys_plain (toAsciiLowercase (c.head w w'))
      (toAsciiLowercase (c.literal.print ++ post)) hq hqq hbreak 0 pre.length (Nat.zero_le _)
    refine ⟨ks, ?_, ?_, fun h => absurd h hread⟩
    · rw [hks, length_toAsciiLowercase, toAsciiLowercase_append, keys_literal _ _ hpost']
    · rw [Piece.clause, if_neg hread, Option.toList_none, List.filterMap_eq_nil_iff]
      intro k hk
      obtain ⟨j, rfl, hj⟩ := hpos k hk
      by_cases hother : j ≠ 0 ∨ toAsciiLowercase c.property ≠ memberOfGroupKey
      · exact clause_elsewhere hfilter hw hw' hj hother
      · simp only [ne_eq, not_or, not_not] at hother
        rw [hother.1, Nat.add_zero, hclause hother.2, if_neg hread]

/-- A gap character, in lower case, is itself. -/
theorem toLower_gap {c : Char} (h : isAsciiWhitespace c = true ∨ c = '(' ∨ c = ')') :
    c.toLower = c ∧ (c.toNat ≤ 32 ∨ c.toNat = 40 ∨ c.toNat = 41) := by
  have hn : c.toNat ≤ 32 ∨ c.toNat = 40 ∨ c.toNat = 41 := by
    rcases h with h | rfl | rfl
    · rw [isAsciiWhitespace_iff] at h
      omega
    · exact Or.inr (Or.inl rfl)
    · exact Or.inr (Or.inr rfl)
  refine ⟨?_, hn⟩
  rcases toLower_cases c with ⟨h1, -, -⟩ | ⟨-, h⟩
  · omega
  · exact h

theorem wordChar_gap {c : Char} (h : isAsciiWhitespace c = true ∨ c = '(' ∨ c = ')') :
    wordChar uni c = false := by
  have hn := (toLower_gap h).2
  rw [← Bool.not_eq_true]
  intro hword
  have := wordChar_ascii uni (by omega) hword
  omega

theorem not_mem_gap {c d : Char} (h : isAsciiWhitespace c = true ∨ c = '(' ∨ c = ')')
    (hd : 32 < d.toNat ∧ d.toNat ≠ 40 ∧ d.toNat ≠ 41) : d ∉ toAsciiLowercase [c] := by
  obtain ⟨hlow, hn⟩ := toLower_gap h
  rw [toAsciiLowercase_cons, hlow, toAsciiLowercase_nil, List.mem_singleton, char_eq_iff]
  omega

/-- A gap or a connective holds no key. -/
theorem Piece.scan_plain {p : Piece uni} (hp : p.comparison = none) (rest : Text) (i : Nat) :
    memberOfGroupKeysFrom 0 false false i (toAsciiLowercase (p.text ++ rest))
      = memberOfGroupKeysFrom 0 false false (i + p.text.length) (toAsciiLowercase rest) := by
  have hplain : '\'' ∉ toAsciiLowercase p.text ∧ '"' ∉ toAsciiLowercase p.text ∧
      'm' ∉ toAsciiLowercase p.text := by
    cases p with
    | gap c h =>
      exact ⟨not_mem_gap h (by decide), not_mem_gap h (by decide), not_mem_gap h (by decide)⟩
    | word k w h =>
      rw [Piece.text, h]
      cases k <;> decide
    | atom => exact absurd hp (by simp [Piece.comparison])
  rw [toAsciiLowercase_append, keys_none _ _ hplain.1 hplain.2.1 hplain.2.2,
    length_toAsciiLowercase]

/-- What comes after a connective or a comparison is no quote. -/
theorem Spaced.head_ne_quote {ps : List (Piece uni)} (h : Spaced true ps) :
    (textOf ps).head? ≠ some '\'' := by
  cases ps with
  | nil => simp
  | cons p ps =>
    cases p with
    | gap c hc =>
      intro hq
      obtain rfl : c = '\'' := Option.some.inj hq
      exact absurd hc (by decide)
    | word k w hw =>
      cases w with
      | nil => cases k <;> exact absurd hw (by unfold IsWord; decide)
      | cons d w =>
        intro hq
        obtain rfl : d = '\'' := Option.some.inj hq
        have hhead : some '\'' = k.word.head? := congrArg List.head? hw
        cases k <;> exact absurd hhead (by decide)
    | atom c w w' hw hw' => exact absurd h.1 (by decide)

/-- The scanner over the pieces: its keys, the clauses read from them, and their number. -/
theorem scan_pieces {filter : Text} (ps : List (Piece uni)) {pre : Text} {glued : Bool}
    (hfilter : filter = pre ++ textOf ps) (hspaced : Spaced glued ps)
    (hstart : glued = false →
      startsProperty uni (toAsciiLowercase filter) pre.length = true) :
    let ks := memberOfGroupKeysFrom 0 false false pre.length (toAsciiLowercase (textOf ps))
    ks.filterMap (memberClauseAt uni filter) = clausesFrom pre.length ps ∧
      ((∀ p ∈ ps, p.Clean) → ks.length = (clausesFrom pre.length ps).length) := by
  induction ps generalizing pre glued with
  | nil => exact ⟨rfl, fun _ => rfl⟩
  | cons p ps ih =>
    have hfilter' : filter = (pre ++ p.text) ++ textOf ps := by
      rw [hfilter, textOf_cons, List.append_assoc]
    have hlen : (pre ++ p.text).length = pre.length + p.text.length := List.length_append
    simp only [textOf_cons, clausesFrom]
    cases p with
    | gap c hc =>
      have hspaced' : Spaced false ps := hspaced
      have hnext : startsProperty uni (toAsciiLowercase filter) (pre.length + 1) = true := by
        rw [startsProperty_after hfilter', wordChar_gap hc]
        rfl
      obtain ⟨hclauses, hcount⟩ := ih hfilter' hspaced' (fun _ => hlen ▸ hnext)
      rw [Piece.scan_plain rfl, ← hlen]
      exact ⟨hclauses, fun h => hcount (fun q hq => h q (List.mem_cons_of_mem _ hq))⟩
    | word k w hw =>
      have hspaced' : Spaced true ps := hspaced
      obtain ⟨hclauses, hcount⟩ := ih hfilter' hspaced' (fun h => absurd h (by decide))
      rw [Piece.scan_plain rfl, ← hlen]
      exact ⟨hclauses, fun h => hcount (fun q hq => h q (List.mem_cons_of_mem _ hq))⟩
    | atom c w w' hw hw' =>
      obtain ⟨hglued, hspaced'⟩ := hspaced
      obtain ⟨hclauses, hcount⟩ := ih hfilter' hspaced' (fun h => absurd h (by decide))
      have hatom : filter = pre ++ (c.text w w' ++ textOf ps) := hfilter
      obtain ⟨ks, hks, hread, hone⟩ := scan_atom hw hw' hatom (hstart hglued)
        hspaced'.head_ne_quote
      rw [Piece.text, hks, List.filterMap_append, hread, List.length_append, List.length_append]
      rw [hlen, Piece.text] at hclauses hcount
      refine ⟨by rw [← hclauses], fun h => ?_⟩
      have hclean : c.Readable := h _ List.mem_cons_self
      rw [← hcount (fun q hq => h q (List.mem_cons_of_mem _ hq)), hone hclean, Piece.clause,
        if_pos hclean]
      rfl

/-! ## What is left -/

/-- The text of the pieces that are no clause. -/
def unread : List (Piece uni) → Text
  | [] => []
  | p :: ps => (if (p.clause 0).isSome then [] else p.text) ++ unread ps

theorem Piece.clause_span {p : Piece uni} {i : Nat} {m : MemberClause} (h : p.clause i = some m) :
    m.span = (i, i + p.text.length) ∧ (p.clause 0).isSome = true := by
  cases p with
  | gap | word => exact absurd h nofun
  | atom c w w' hw hw' =>
    simp only [Piece.clause] at h ⊢
    split at h
    · next hread =>
      obtain rfl := Option.some.inj h
      exact ⟨rfl, by simp [hread]⟩
    · exact absurd h nofun

theorem Piece.clause_none {p : Piece uni} {i : Nat} (h : p.clause i = none) :
    (p.clause 0).isSome = false := by
  cases p with
  | gap | word => rfl
  | atom c w w' hw hw' =>
    simp only [Piece.clause] at h ⊢
    split at h
    · exact absurd h nofun
    · next hread => simp [hread]

/-- Cutting the clauses out leaves the unread pieces. -/
theorem residue_pieces {filter : Text} (ps : List (Piece uni)) {pre x : Text}
    (hfilter : filter = pre ++ (x ++ textOf ps)) :
    residueFrom filter pre.length (clausesFrom (pre.length + x.length) ps) = x ++ unread ps := by
  induction ps generalizing pre x with
  | nil => rw [clausesFrom, residueFrom, hfilter, List.drop_left]; rfl
  | cons p ps ih =>
    rw [clausesFrom, unread]
    cases hclause : p.clause (pre.length + x.length) with
    | none =>
      -- the piece joins what is kept
      rw [Piece.clause_none hclause]
      have hfilter' : filter = pre ++ ((x ++ p.text) ++ textOf ps) := by
        rw [hfilter, textOf_cons, List.append_assoc]
      have hlen : pre.length + (x ++ p.text).length = pre.length + x.length + p.text.length := by
        rw [List.length_append, Nat.add_assoc]
      rw [← hlen]
      simpa using ih hfilter'
    | some m =>
      -- the clause is cut out and the cursor moves past it
      obtain ⟨hspan, hsome⟩ := Piece.clause_span hclause
      have hfilter' : filter = (pre ++ (x ++ p.text)) ++ ([] ++ textOf ps) := by
        rw [hfilter, textOf_cons]
        simp
      have hlen : pre.length + x.length + p.text.length = (pre ++ (x ++ p.text)).length := by
        simp
        omega
      have htake : (filter.drop pre.length).take (pre.length + x.length - pre.length) = x := by
        rw [hfilter, List.drop_left, Nat.add_sub_cancel_left, List.take_left]
      have hrest := ih hfilter'
      rw [List.length_nil, Nat.add_zero, List.nil_append] at hrest
      rw [Option.toList_some, List.singleton_append, residueFrom, hspan, hsome, htake, hlen,
        hrest, if_pos rfl, List.nil_append]

theorem mem_replaceOr {d : Char} (hd : d ≠ '-' ∧ d ≠ 'o' ∧ d ≠ 'r') {s : Text} (h : d ∈ s) :
    d ∈ replaceOr s := by
  induction s using replaceOr.induct with
  | case1 => exact h
  | case2 rest ih =>
    rw [replaceOr]
    simp only [List.mem_cons, hd.1, hd.2.1, hd.2.2, false_or] at h
    exact List.mem_cons_of_mem _ (ih h)
  | case3 c rest hne ih =>
    rw [replaceOr]
    · rcases List.mem_cons.1 h with rfl | h
      · exact List.mem_cons_self
      · exact List.mem_cons_of_mem _ (ih h)
    · exact hne

/-- A character that is neither blank nor part of `-or` is left over. -/
theorem mem_leftoverOf {d : Char} (hd : d ≠ '-' ∧ d ≠ 'o' ∧ d ≠ 'r')
    (hkeep : (!isWhitespace d && d != '(' && d != ')') = true) {s : Text}
    (h : d ∈ toAsciiLowercase s) : d ∈ leftoverOf s :=
  List.mem_filter.2 ⟨mem_replaceOr hd h, hkeep⟩

theorem leftoverOf_gap {c : Char} (hc : isAsciiWhitespace c = true ∨ c = '(' ∨ c = ')') (s : Text) :
    leftoverOf ([c] ++ s) = leftoverOf s := by
  obtain ⟨hlow, hn⟩ := toLower_gap hc
  have hdash : c ≠ '-' := by
    rw [Ne, char_eq_iff]
    have : '-'.toNat = 45 := rfl
    omega
  have hdrop : (!isWhitespace c && c != '(' && c != ')') = false := by
    rcases hc with h | rfl | rfl
    · rw [isWhitespace_of_ascii h]
      rfl
    · rfl
    · rfl
  rw [leftoverOf, List.singleton_append, toAsciiLowercase_cons, hlow, replaceOr]
  · rw [List.filter_cons_of_neg (by rw [hdrop]; decide)]
    rfl
  · exact fun _ h => absurd h hdash

theorem leftoverOf_or {w : Text} (hw : IsWord .or w) (s : Text) : leftoverOf (w ++ s) = leftoverOf s := by
  rw [leftoverOf, toAsciiLowercase_append, hw]
  rfl

/-- Nothing is left over exactly when every comparison was read and every connective is `-or`. -/
theorem leftoverOf_unread (ps : List (Piece uni)) : leftoverOf (unread ps) = [] ↔
    (∀ c ∈ ps.filterMap Piece.comparison, c.Readable) ∧
    ∀ k ∈ ps.filterMap Piece.connective, k = .or := by
  constructor
  · intro hnone
    -- a quote, or the `n` of `-and` and `-not`, would be left
    have hgone : ∀ d : Char, (d = '\'' ∨ d = '"' ∨ d = 'n') →
        d ∉ toAsciiLowercase (unread ps) := by
      intro d hd hmem
      have : d ∈ leftoverOf (unread ps) := by
        rcases hd with rfl | rfl | rfl <;> exact mem_leftoverOf (by decide) (by decide) hmem
      rw [hnone] at this
      exact absurd this (by simp)
    clear hnone
    induction ps with
    | nil => simp
    | cons p ps ih =>
      simp only [unread, toAsciiLowercase_append, List.mem_append, not_or] at hgone
      obtain ⟨hcmp, hcon⟩ := ih (fun d hd => (hgone d hd).2)
      cases p with
      | gap c h => exact ⟨hcmp, hcon⟩
      | word k w h =>
        refine ⟨hcmp, fun k' hk' => ?_⟩
        rcases List.mem_cons.1 hk' with rfl | hk'
        · have hn : 'n' ∉ toAsciiLowercase w := (hgone 'n' (by simp)).1
          rw [h] at hn
          revert hn
          cases k' <;> decide
        · exact hcon k' hk'
      | atom c w w' hw hw' =>
        refine ⟨fun c' hc' => ?_, hcon⟩
        rcases List.mem_cons.1 hc' with rfl | hc'
        · by_contra hread
          have hquote := fun d hd => (hgone d hd).1
          simp only [Piece.clause, if_neg hread, Option.isSome_none, Piece.text,
            Bool.false_eq_true, if_false, Comparison.text, toAsciiLowercase_append,
            List.mem_append, not_or] at hquote
          rcases c'.literal.head_print with h | h
          · exact (hquote '\'' (by simp)).2
              ((mem_toAsciiLowercase (by decide)).2 (List.mem_of_head? h))
          · exact (hquote '"' (by simp)).2
              ((mem_toAsciiLowercase (by decide)).2 (List.mem_of_head? h))
        · exact hcmp c' hc'
  · rintro ⟨hcmp, hcon⟩
    induction ps with
    | nil => rfl
    | cons p ps ih =>
      cases p with
      | gap c h =>
        rw [unread, show (Piece.gap c h).clause 0 = none from rfl]
        exact (leftoverOf_gap h _).trans (ih hcmp hcon)
      | word k w h =>
        obtain rfl : k = .or := hcon k List.mem_cons_self
        rw [unread, show (Piece.word .or w h).clause 0 = none from rfl]
        exact (leftoverOf_or h _).trans
          (ih hcmp (fun k' hk' => hcon k' (List.mem_cons_of_mem _ hk')))
      | atom c w w' hw hw' =>
        have hread : c.Readable := hcmp c List.mem_cons_self
        rw [unread, show (Piece.atom c w w' hw hw').clause 0
          = some ⟨(0, 0 + (c.text w w').length), c.literal.value⟩ from if_pos hread]
        exact ih (fun c' hc' => hcmp c' (List.mem_cons_of_mem _ hc')) hcon

/-! ## The recogniser on a written filter -/

theorem Piece.clause_dn (p : Piece uni) (i : Nat) :
    (p.clause i).map (·.dn) = (p.comparison.filter (fun c => decide c.Readable)).map
      (fun c => c.literal.value) := by
  cases p with
  | gap | word => rfl
  | atom c w w' hw hw' =>
    by_cases hread : c.Readable <;> simp [Piece.clause, Piece.comparison, hread]

theorem clausesFrom_dns (ps : List (Piece uni)) (i : Nat) : (clausesFrom i ps).map (·.dn)
    = ((ps.filterMap Piece.comparison).filter (fun c => decide c.Readable)).map
      (fun c => c.literal.value) := by
  induction ps generalizing i with
  | nil => rfl
  | cons p ps ih =>
    rw [clausesFrom, List.map_append, ih]
    have hp := p.clause_dn i
    cases hcmp : p.comparison with
    | none =>
      rw [hcmp] at hp
      have hnone : p.clause i = none := by simpa using hp
      rw [hnone, List.filterMap_cons_none hcmp]
      rfl
    | some c =>
      rw [hcmp] at hp
      rw [List.filterMap_cons_some hcmp]
      by_cases hread : c.Readable
      · rw [List.filter_cons_of_pos (by simp [hread]), List.map_cons]
        simp only [Option.filter_some, hread, decide_true, if_true, Option.map_some] at hp
        obtain ⟨m, hm, hdn⟩ := Option.map_eq_some_iff.1 hp
        rw [hm, ← hdn]
        rfl
      · rw [List.filter_cons_of_neg (by simp [hread])]
        simp only [Option.filter_some, hread, decide_false, Bool.false_eq_true, if_false,
          Option.map_none, Option.map_eq_none_iff] at hp
        rw [hp]
        rfl

section Recognise

variable {f : Filter uni} {s : Text} {ps : List (Piece uni)}

theorem Cut.clauses (h : Cut f s ps) : memberOfGroupClauses uni s = clausesFrom 0 ps ∧
    ((∀ c ∈ f.comparisons, c.Readable) → (clausesFrom 0 ps).length = countMemberOfGroup s) := by
  have hfilter : s = [] ++ textOf ps := h.text.symm
  have hscan := scan_pieces ps hfilter h.spaced (fun _ => rfl)
  rw [h.text] at hscan
  refine ⟨hscan.1, fun hread => (hscan.2 (fun p hp => ?_)).symm⟩
  cases p with
  | gap | word => trivial
  | atom c w w' hw hw' =>
    refine hread c ?_
    rw [← h.comparisons]
    exact List.mem_filterMap.2 ⟨_, hp, rfl⟩

theorem Cut.leftover (h : Cut f s ps) :
    leftoverOf (residueFrom s 0 (memberOfGroupClauses uni s)) = [] ↔
      (∀ c ∈ f.comparisons, c.Readable) ∧ ∀ k ∈ f.connectives, k = .or := by
  have hfilter : s = [] ++ ([] ++ textOf ps) := h.text.symm
  have hres := residue_pieces ps hfilter
  rw [h.clauses.1, ← h.comparisons, ← h.connectives, ← leftoverOf_unread]
  exact iff_of_eq (congrArg (fun x => leftoverOf x = []) hres)

theorem Filter.comparisons_ne_nil (f : Filter uni) : f.comparisons ≠ [] := by
  induction f with
  | cmp c => exact List.cons_ne_nil _ _
  | and l r ihl | or l r ihl => exact List.append_ne_nil_of_left_ne_nil ihl _
  | not f ih => exact ih

/-- The operands, when every comparison is readable. -/
theorem Cut.dns (h : Cut f s ps) (hread : ∀ c ∈ f.comparisons, c.Readable) :
    (memberOfGroupClauses uni s).map (·.dn) = f.operands := by
  rw [h.clauses.1, clausesFrom_dns, h.comparisons, List.filter_eq_self.2]
  · rfl
  · exact fun c hc => decide_eq_true (hread c hc)

/-- The recogniser accepts a written filter exactly when each comparison is a readable group
    clause and each connective is `-or`, and returns the sorted operands. -/
theorem Cut.rewritable (h : Cut f s ps) (dns : List Text) :
    rewritableScopeDns uni s = .ok dns ↔
      ((∀ c ∈ f.comparisons, c.Readable) ∧ ∀ k ∈ f.connectives, k = .or) ∧
        dns = Text.dedup (Text.sort f.operands) := by
  simp only [rewritableScopeDns]
  constructor
  · intro hok
    split at hok
    · exact absurd hok nofun
    split at hok
    · exact absurd hok nofun
    split at hok
    · exact absurd hok nofun
    · next hleft =>
      have hpure := h.leftover.1 (not_not.1 hleft)
      refine ⟨hpure, ?_⟩
      rw [← h.dns hpure.1]
      exact (Except.ok.inj hok).symm
  · rintro ⟨hpure, rfl⟩
    have hne : memberOfGroupClauses uni s ≠ [] := by
      intro hnil
      have := h.dns hpure.1
      rw [hnil] at this
      exact f.comparisons_ne_nil (List.map_eq_nil_iff.1 this.symm)
    have hcount : (memberOfGroupClauses uni s).length = countMemberOfGroup s := by
      rw [h.clauses.1]
      exact h.clauses.2 hpure.1
    rw [if_neg hne, if_neg (not_not.2 hcount), if_neg (not_not.2 (h.leftover.2 hpure)),
      h.dns hpure.1]

end Recognise

/-! ## The rewritten filter -/

/-- `MemberOfGroup -eq 'dn'`. -/
def groupComparison (uni : Unicode) (dn : Text) : Comparison uni where
  property := "MemberOfGroup".toList
  op := "eq".toList
  literal := .single dn
  property_ne := by decide
  property_word := fun c h => wordChar_of_isAlpha uni
    (List.all_eq_true.1 (show "MemberOfGroup".toList.all Char.isAlpha = true by decide) c h)
  op_ne := by decide
  op_letters := List.all_eq_true.1 (by decide)

/-- The disjunction `member_of_group_filter` writes. -/
def groupChain (uni : Unicode) : Text → List Text → Filter uni
  | dn, [] => .cmp (groupComparison uni dn)
  | dn, d :: rest => .or (.cmp (groupComparison uni dn)) (groupChain uni d rest)

theorem groupChain_comparisons (dn : Text) (rest : List Text) :
    (groupChain uni dn rest).comparisons = (dn :: rest).map (groupComparison uni) := by
  induction rest generalizing dn with
  | nil => rfl
  | cons d rest ih => rw [groupChain, Filter.comparisons, ih]; rfl

theorem groupChain_connectives (dn : Text) (rest : List Text) :
    ∀ k ∈ (groupChain uni dn rest).connectives, k = .or := by
  induction rest generalizing dn with
  | nil => simp [groupChain, Filter.connectives]
  | cons d rest ih =>
    intro k hk
    rcases List.mem_cons.1 hk with rfl | hk
    · rfl
    · exact ih d k hk

theorem blank_space : Blank [' '] := by simp [Blank, isAsciiWhitespace]

theorem prints_clause (dn : Text) : Prints (.cmp (groupComparison uni dn))
    ("MemberOfGroup -eq '".toList ++ escapeOpath dn ++ ['\'']) :=
  Prints.cmp (groupComparison uni dn) blank_space blank_space

theorem prints_memberOfGroupFilter (dn : Text) (rest : List Text) :
    Prints (groupChain uni dn rest) (memberOfGroupFilter (dn :: rest)) := by
  induction rest generalizing dn with
  | nil =>
    have hclause := @prints_clause uni dn
    simpa [memberOfGroupFilter, List.intercalate, groupChain] using hclause
  | cons d rest ih =>
    have hnil : Blank [] := by simp [Blank]
    have hword : IsWord .or "-or".toList := rfl
    have hleft := Prints.pad (@prints_clause uni dn) hnil blank_space
    have hright := Prints.pad (ih d) blank_space hnil
    have hor := Prints.or hleft hright hword (fun c hc => by
      obtain rfl := Option.some.inj hc
      exact wordChar_gap (Or.inl rfl))
    have htext : memberOfGroupFilter (dn :: d :: rest)
        = ("MemberOfGroup -eq '".toList ++ escapeOpath dn ++ ['\'']) ++
          (" -or ".toList ++ memberOfGroupFilter (d :: rest)) := by
      simp [memberOfGroupFilter, List.intercalate]
    rw [htext, groupChain]
    simpa using hor

theorem comparison_readable {c : Comparison uni} {text : Text} (hgroup : c.IsGroup)
    (hlit : c.literal = .single text) (hblank : isBlank text = false) : c.Readable := by
  rw [Comparison.Readable, hlit]
  exact ⟨hgroup, rfl, hblank⟩

/-- The filter written from an accepted group list is accepted again, for the same groups. -/
theorem rewritten_accepted {dns : List Text} (hne : dns ≠ []) (hblank : ∀ dn ∈ dns, isBlank dn = false) :
    (∃ t : Filter uni, Prints t (memberOfGroupFilter dns)) ∧
    ∀ t : Filter uni, Prints t (memberOfGroupFilter dns) →
      t.IsGroupChain ∧ ∀ dn, dn ∈ t.operands ↔ dn ∈ dns := by
  obtain ⟨first, rest, rfl⟩ := List.exists_cons_of_ne_nil hne
  have hprints := @prints_memberOfGroupFilter uni first rest
  refine ⟨⟨_, hprints⟩, fun t ht => ?_⟩
  obtain ⟨ps, hcut⟩ := hprints.cut
  obtain ⟨qs, hcut'⟩ := ht.cut
  -- both trees are cut from one text, so the recogniser gives both of them one answer
  have hread : ∀ c ∈ (groupChain uni first rest).comparisons, c.Readable := by
    rw [groupChain_comparisons]
    intro c hc
    obtain ⟨dn, hdn, rfl⟩ := List.mem_map.1 hc
    exact comparison_readable ⟨rfl, rfl⟩ rfl (hblank dn hdn)
  have hok := (hcut.rewritable _).2 ⟨⟨hread, groupChain_connectives first rest⟩, rfl⟩
  obtain ⟨⟨hread', hor'⟩, hsame⟩ := (hcut'.rewritable _).1 hok
  refine ⟨t.isGroupChain_iff.2 ⟨fun c hc => (hread' c hc).1, hor'⟩, fun dn => ?_⟩
  have hoperands : (groupChain uni first rest).operands = first :: rest := by
    rw [Filter.operands, groupChain_comparisons, List.map_map]
    exact List.map_id _
  rw [← Text.mem_sort, ← Text.mem_dedup, ← hsame, Text.mem_dedup, Text.mem_sort, hoperands]

/-- The recogniser on a written filter. What it accepts is a pure disjunction of group comparisons,
    its list is the sorted duplicate-free list of their operands, and the filter written back from
    the list selects the same recipients. It accepts every such disjunction with single-quoted,
    non-blank operands, and nothing with another connective or another comparison. -/
theorem rewritable_exact (t : Filter uni) (s : Text) (hprints : Prints t s) :
    (∀ dns, rewritableScopeDns uni s = .ok dns →
      t.IsGroupChain ∧ dns.Pairwise (· < ·) ∧ (∀ dn, dn ∈ dns ↔ dn ∈ t.operands) ∧
      (∃ t' : Filter uni, Prints t' (memberOfGroupFilter dns)) ∧
      ∀ t' : Filter uni, Prints t' (memberOfGroupFilter dns) →
        ∀ (R : Type) (m : Meaning R), t'.denote m = t.denote m) ∧
    (t.IsGroupChain →
      (∀ c ∈ t.comparisons, ∃ text, c.literal = .single text ∧ isBlank text = false) →
      ∃ dns, rewritableScopeDns uni s = .ok dns) ∧
    ((∃ k ∈ t.connectives, k ≠ .or) ∨ (∃ c ∈ t.comparisons, ¬ c.IsGroup) →
      ∃ e, rewritableScopeDns uni s = .error e) := by
  obtain ⟨ps, hcut⟩ := hprints.cut
  refine ⟨fun dns hok => ?_, fun hchain hsingle => ?_, fun hother => ?_⟩
  · obtain ⟨⟨hread, hor⟩, rfl⟩ := (hcut.rewritable dns).1 hok
    have hchain : t.IsGroupChain := t.isGroupChain_iff.2 ⟨fun c hc => (hread c hc).1, hor⟩
    have hmem : ∀ dn, dn ∈ Text.dedup (Text.sort t.operands) ↔ dn ∈ t.operands := fun dn => by
      rw [Text.mem_dedup, Text.mem_sort]
    have hne : Text.dedup (Text.sort t.operands) ≠ [] := by
      obtain ⟨c, hc⟩ := List.exists_mem_of_ne_nil _ t.comparisons_ne_nil
      exact List.ne_nil_of_mem ((hmem _).2 (List.mem_map.2 ⟨c, hc, rfl⟩))
    have hblank : ∀ dn ∈ Text.dedup (Text.sort t.operands), isBlank dn = false := by
      intro dn hdn
      obtain ⟨c, hc, rfl⟩ := List.mem_map.1 ((hmem dn).1 hdn)
      exact (hread c hc).2.2
    obtain ⟨hexists, hback⟩ := rewritten_accepted hne hblank
    refine ⟨hchain, Text.dedup_strict (Text.sort_sorted _), hmem, hexists, fun t' ht' R m => ?_⟩
    obtain ⟨hchain', hmem'⟩ := hback t' ht'
    ext r
    simp only [hchain'.mem_denote, hchain.mem_denote, hmem', hmem]
  · obtain ⟨hgroup, hor⟩ := t.isGroupChain_iff.1 hchain
    refine ⟨_, (hcut.rewritable _).2 ⟨⟨fun c hc => ?_, hor⟩, rfl⟩⟩
    obtain ⟨text, hlit, hblank⟩ := hsingle c hc
    exact comparison_readable (hgroup c hc) hlit hblank
  · cases hres : rewritableScopeDns uni s with
    | error e => exact ⟨e, rfl⟩
    | ok dns =>
      obtain ⟨⟨hread, hor⟩, -⟩ := (hcut.rewritable dns).1 hres
      rcases hother with ⟨k, hk, hne⟩ | ⟨c, hc, hne⟩
      · exact absurd (hor k hk) hne
      · exact absurd (hread c hc).1 hne

/-- The tables restricted to ASCII. -/
def asciiUnicode : Unicode := ⟨Char.isAlphanum, toAsciiLowercase, fun _ _ => rfl⟩

/-- Two groups, one of them with a quote in its name and a fake clause in the other. -/
theorem rewritable_exact_two_groups :
    Prints (groupChain asciiUnicode "CN=O'Neil".toList ["CN=a -or MemberOfGroup -eq 'b'".toList])
      ("MemberOfGroup -eq 'CN=O''Neil' -or " ++
        "MemberOfGroup -eq 'CN=a -or MemberOfGroup -eq ''b'''").toList ∧
    ∃ dns, rewritableScopeDns asciiUnicode ("MemberOfGroup -eq 'CN=O''Neil' -or " ++
        "MemberOfGroup -eq 'CN=a -or MemberOfGroup -eq ''b'''").toList = .ok dns ∧
      ∀ dn, dn ∈ dns ↔ dn ∈ ["CN=O'Neil".toList, "CN=a -or MemberOfGroup -eq 'b'".toList] := by
  have hprints : Prints
      (groupChain asciiUnicode "CN=O'Neil".toList ["CN=a -or MemberOfGroup -eq 'b'".toList])
      ("MemberOfGroup -eq 'CN=O''Neil' -or " ++
        "MemberOfGroup -eq 'CN=a -or MemberOfGroup -eq ''b'''").toList :=
    prints_memberOfGroupFilter _ _
  obtain ⟨hok, haccept, -⟩ := rewritable_exact _ _ hprints
  obtain ⟨dns, hdns⟩ := haccept ⟨⟨by decide, by decide⟩, ⟨by decide, by decide⟩⟩ (by
    intro c hc
    rw [groupChain_comparisons] at hc
    obtain ⟨dn, hdn, rfl⟩ := List.mem_map.1 hc
    have hblank : ∀ dn ∈ ["CN=O'Neil".toList, "CN=a -or MemberOfGroup -eq 'b'".toList],
        isBlank dn = false := by decide
    exact ⟨dn, rfl, hblank dn hdn⟩)
  exact ⟨hprints, dns, hdns, (hok dns hdns).2.2.1⟩

end Opath
