import AzAppToolkit.Lib.Scanning
import AzAppToolkit.Sso.Metadata

set_option autoImplicit false

/-! # The metadata scanner does not panic

The byte offsets are followed as cuts of the text, so that every slice is defined and each loop comes to
its end. A search finds the next position of a test: the names have no border, so that none is skipped
when the search goes on behind an occurrence. -/

namespace Metadata

open OpathBytes (Fault Checked orPanic)
open Slices
open Scanning (next pieces Clear)

/-! ## `find` and `rfind` -/

section Find

variable {needle s : Text} {c : Char}

/-- The first occurrence ends a stretch without one. -/
theorem breakOn_cases (hne : needle ≠ []) (before s : Text) :
    (Text.breakOn needle s = none ∧ Clear (fun _ r => needle.isPrefixOf r) before s []) ∨
      ∃ a b, s = a ++ (needle ++ b) ∧ Text.breakOn needle s = some (a, b) ∧
        Clear (fun _ r => needle.isPrefixOf r) before a (needle ++ b) := by
  induction s generalizing before with
  | nil =>
    refine Or.inl ⟨?_, .nil⟩
    rw [Text.breakOn, if_neg]
    rw [List.isPrefixOf_iff_prefix, List.prefix_nil]
    exact hne
  | cons c s ih =>
    rw [Text.breakOn]
    by_cases h : needle.isPrefixOf (c :: s) = true
    · obtain ⟨b, hb⟩ := List.isPrefixOf_iff_prefix.1 h
      refine Or.inr ⟨[], b, hb.symm, ?_, .nil⟩
      rw [if_pos h, ← hb, List.drop_left]
    · rw [if_neg h]
      rw [Bool.not_eq_true] at h
      rcases ih (before ++ [c]) with ⟨hnone, hclear⟩ | ⟨a, b, rfl, hsome, hclear⟩
      · refine Or.inl ⟨by rw [hnone]; rfl, .cons ?_ hclear⟩
        rwa [List.append_nil]
      · exact Or.inr ⟨c :: a, b, rfl, by rw [hsome]; rfl, .cons h hclear⟩

theorem rfind_some {i : Nat} (h : rfind needle s = some i) :
    ∃ u v, s = u ++ (needle ++ v) ∧ i = byteLength u := by
  induction s generalizing i with
  | nil =>
    rw [rfind] at h
    split at h
    · next hpre =>
      obtain ⟨v, hv⟩ := List.isPrefixOf_iff_prefix.1 hpre
      exact ⟨[], v, hv.symm, (Option.some.inj h).symm⟩
    · exact nomatch h
  | cons c s ih =>
    rw [rfind] at h
    cases hrest : rfind needle s with
    | some j =>
      rw [hrest] at h
      obtain ⟨u, v, rfl, rfl⟩ := ih hrest
      exact ⟨c :: u, v, rfl, (Option.some.inj h).symm⟩
    | none =>
      rw [hrest] at h
      dsimp only at h
      split at h
      · next hpre =>
        obtain ⟨v, hv⟩ := List.isPrefixOf_iff_prefix.1 hpre
        exact ⟨[], v, hv.symm, (Option.some.inj h).symm⟩
      · exact nomatch h

theorem rfind_none {n : Text} (h : c ∉ s) : rfind (c :: n) s = none := by
  cases hfind : rfind (c :: n) s with
  | none => rfl
  | some i =>
    obtain ⟨u, v, rfl, -⟩ := rfind_some hfind
    exact absurd (List.mem_append_right u List.mem_cons_self) h

/-- The last occurrence is the one behind which the first character does not come again. -/
theorem rfind_last {n v : Text} (h : c ∉ n ++ v) (u : Text) :
    rfind (c :: n) (u ++ c :: (n ++ v)) = some (byteLength u) := by
  induction u with
  | nil => simp [rfind, rfind_none h]
  | cons d u ih => simp [rfind, ih]

end Find

/-! ## The walks back -/

section Walks

variable {before rest localName : Text}

theorem stripLast_some {c : Char} {s t : Text} (h : stripLast c s = some t) : s = t ++ [c] := by
  unfold stripLast at h
  split at h
  · next hlast =>
    rw [← Option.some.inj h]
    exact (List.dropLast_append_getLast? c hlast).symm
  · exact absurd h.symm (Option.some_ne_none t)

theorem walkBack_ok (before : Text) : ∃ b, walkBack before = .ok b := by
  unfold walkBack
  split
  · exact ⟨_, rfl⟩
  · split
    · exact ⟨_, rfl⟩
    · split
      · exact ⟨_, rfl⟩
      · next colon _ lt hlt =>
        obtain ⟨u, v, rfl, rfl⟩ := rfind_some hlt
        have hshape : u ++ (['<'] ++ v) = (u ++ ['<']) ++ v := by simp
        have hoffset : byteLength u + 1 = byteLength (u ++ ['<']) := by simp; decide
        rw [hshape, hoffset, suffixAt_append, prefixAt_append]
        dsimp only [orPanic, bind, Except.bind]
        split
        · exact ⟨_, rfl⟩
        · exact ⟨_, rfl⟩

theorem walkBackClose_ok (before : Text) : ∃ b, walkBackClose before = .ok b := by
  unfold walkBackClose
  split
  · exact ⟨_, rfl⟩
  · split
    · exact ⟨_, rfl⟩
    · split
      · exact ⟨_, rfl⟩
      · next c _ lt hlt =>
        obtain ⟨u, v, rfl, rfl⟩ := rfind_some hlt
        have hoffset : byteLength u + 2 = byteLength (u ++ closing) := by simp [closing]; decide
        rw [← List.append_assoc, hoffset, suffixAt_append]
        exact ⟨_, rfl⟩

/-- The walk back ends at an open tag. -/
def opens (before : Text) : Bool :=
  match walkBack before with
  | .ok b => b
  | .error _ => false

def closes (before : Text) : Bool :=
  match walkBackClose before with
  | .ok b => b
  | .error _ => false

theorem walkBack_eq (before : Text) : walkBack before = .ok (opens before) := by
  obtain ⟨b, hb⟩ := walkBack_ok before
  rw [opens, hb]

theorem walkBackClose_eq (before : Text) : walkBackClose before = .ok (closes before) := by
  obtain ⟨b, hb⟩ := walkBackClose_ok before
  rw [closes, hb]

/-- An open tag of the element is at the cut. -/
def isOpen (localName before rest : Text) : Bool :=
  localName.isPrefixOf rest && ((rest.drop localName.length).head?.any endsName && opens before)

def isClose (localName before rest : Text) : Bool :=
  localName.isPrefixOf rest && (closes before && (rest.drop localName.length).head? == some '>')

theorem elementOpenAt_eq (localName before after : Text) :
    elementOpenAt (before ++ (localName ++ after)) localName (byteLength before) =
      .ok (isOpen localName before (localName ++ after)) := by
  have hname : localName.isPrefixOf (localName ++ after) = true :=
    List.isPrefixOf_iff_prefix.2 (List.prefix_append localName after)
  have hafter : suffixAt (before ++ (localName ++ after)) (byteLength before + byteLength localName) =
      some after := by
    rw [← byteLength_append, ← List.append_assoc, suffixAt_append]
  unfold elementOpenAt isOpen
  rw [suffixAt_append, hafter, prefixAt_append, List.drop_left]
  dsimp only [orPanic, bind, Except.bind]
  rw [hname, if_pos rfl, Bool.true_and]
  split
  · next hend => rw [walkBack_eq, hend, Bool.true_and]
  · next hend =>
    rw [Bool.not_eq_true] at hend
    rw [hend]
    rfl

theorem elementCloseAt_eq (localName before after : Text) :
    elementCloseAt (before ++ (localName ++ after)) localName (byteLength before) =
      .ok (isClose localName before (localName ++ after)) := by
  have hname : localName.isPrefixOf (localName ++ after) = true :=
    List.isPrefixOf_iff_prefix.2 (List.prefix_append localName after)
  have hafter : suffixAt (before ++ (localName ++ after)) (byteLength before + byteLength localName) =
      some after := by
    rw [← byteLength_append, ← List.append_assoc, suffixAt_append]
  unfold elementCloseAt isClose
  rw [hafter, prefixAt_append, List.drop_left, hname, Bool.true_and]
  dsimp only [orPanic, bind, Except.bind]
  rw [walkBackClose_eq]
  cases closes before <;> rfl

end Walks

/-! ## The searches -/

section Search

/-- The test of a search decides a property of cuts, and holds only where the name is. -/
structure Finds (test : Text → Text → Nat → Checked Bool) (localName : Text)
    (q : Text → Text → Bool) : Prop where
  tested : ∀ before after,
    test (before ++ (localName ++ after)) localName (byteLength before) = .ok (q before (localName ++ after))
  named : ∀ before rest, q before rest = true → localName <+: rest

theorem finds_open (localName : Text) : Finds elementOpenAt localName (isOpen localName) :=
  ⟨elementOpenAt_eq localName, fun before rest h => by
    unfold isOpen at h
    rw [Bool.and_eq_true, List.isPrefixOf_iff_prefix] at h
    exact h.1⟩

theorem finds_close (localName : Text) : Finds elementCloseAt localName (isClose localName) :=
  ⟨elementCloseAt_eq localName, fun before rest h => by
    unfold isClose at h
    rw [Bool.and_eq_true, List.isPrefixOf_iff_prefix] at h
    exact h.1⟩

/-- No end of the name but the whole is a start of it. -/
def Borderless (localName : Text) : Prop :=
  localName ≠ [] ∧ ∀ x c y, localName = x ++ c :: y → x ≠ [] → ¬ c :: y <+: localName

theorem borderless_of_tails {localName : Text} (hne : localName ≠ [])
    (h : localName.tail.tails.all (fun t => t.isEmpty || !t.isPrefixOf localName) = true) :
    Borderless localName := by
  refine ⟨hne, fun x c y heq hx hpre => ?_⟩
  obtain ⟨d, x, rfl⟩ := List.exists_cons_of_ne_nil hx
  have hmem : c :: y ∈ localName.tail.tails := by
    rw [List.mem_tails, heq]
    exact List.suffix_append x (c :: y)
  have hall := List.all_eq_true.1 h _ hmem
  rw [List.isEmpty_cons, Bool.false_or, Bool.not_eq_true', Bool.eq_false_iff] at hall
  exact hall (List.isPrefixOf_iff_prefix.2 hpre)

theorem borderless_descriptorName : Borderless descriptorName :=
  borderless_of_tails (by decide) (by decide)

theorem borderless_certName : Borderless certName := borderless_of_tails (by decide) (by decide)

variable {test : Text → Text → Nat → Checked Bool} {localName : Text} {q : Text → Text → Bool}

/-- Behind its first character the name holds no other position. -/
theorem Finds.clear_behind (hfinds : Finds test localName q) (hname : Borderless localName)
    {c : Char} {name : Text} (hc : localName = c :: name) (before after : Text) :
    Clear q (before ++ [c]) name after := by
  intro x d y heq
  rw [Bool.eq_false_iff]
  intro hq
  have hpre := hfinds.named _ _ hq
  have hlonger : d :: y <+: localName := by
    refine List.prefix_of_prefix_length_le (List.prefix_append (d :: y) after) hpre ?_
    rw [hc, heq, List.length_cons, List.length_cons, List.length_append, List.length_cons]
    omega
  exact hname.2 (c :: x) d y (by rw [hc, heq]; rfl) (by simp) hlonger

theorem Finds.clear_name (hfinds : Finds test localName q) (hname : Borderless localName)
    {before after : Text} (h : q before (localName ++ after) = false) :
    Clear q before localName after := by
  obtain ⟨c, name, hc⟩ := List.exists_cons_of_ne_nil hname.1
  have hbehind := hfinds.clear_behind hname hc before after
  rw [hc] at h ⊢
  exact .cons h hbehind

/-- At a position a piece begins, and the name is part of it. -/
theorem Finds.pieces_named (hfinds : Finds test localName q) (hname : Borderless localName)
    {before after : Text} (hq : q before (localName ++ after) = true) :
    pieces q before (localName ++ after) =
      ([], (localName ++ (pieces q (before ++ localName) after).1) ::
        (pieces q (before ++ localName) after).2) := by
  obtain ⟨c, name, hc⟩ := List.exists_cons_of_ne_nil hname.1
  have hbehind := hfinds.clear_behind hname hc before after
  subst hc
  have hhere := Scanning.pieces_here hq
  rw [List.append_eq, Scanning.pieces_clear hbehind, ← List.append_cons] at hhere
  exact hhere

/-- Where the name does not occur, there is no position. -/
theorem Finds.clear_of_unnamed (hfinds : Finds test localName q) {before a rest : Text}
    (h : Clear (fun _ r => localName.isPrefixOf r) before a rest) : Clear q before a rest := by
  intro x c y heq
  rw [Bool.eq_false_iff]
  intro hq
  have hunnamed := h x c y heq
  rw [Bool.eq_false_iff] at hunnamed
  exact hunnamed (List.isPrefixOf_iff_prefix.2 (hfinds.named _ _ hq))

/-- The search finds the next position. -/
theorem findElementLoop_spec (hfinds : Finds test localName q) (hname : Borderless localName)
    {fuel : Nat} {rest : Text} (hfuel : rest.length < fuel) (before : Text) :
    findElementLoop test (before ++ rest) localName fuel (byteLength before) =
      .ok ((next q before rest).map (fun r => byteLength r.1)) := by
  induction fuel generalizing before rest with
  | zero => exact absurd hfuel (Nat.not_lt_zero _)
  | succ fuel ih =>
    rw [findElementLoop, suffixAt_append]
    dsimp only [orPanic, bind, Except.bind]
    unfold find
    rcases breakOn_cases hname.1 before rest with ⟨hnone, hclear⟩ | ⟨a, b, rfl, hsome, hclear⟩
    · have hnext := Scanning.next_clear (hfinds.clear_of_unnamed hclear)
      rw [List.append_nil] at hnext
      rw [hnone, hnext]
      rfl
    · have hshape : before ++ (a ++ (localName ++ b)) = (before ++ a) ++ (localName ++ b) := by simp
      rw [hsome, Option.map_some, hshape, Scanning.next_clear (hfinds.clear_of_unnamed hclear)]
      dsimp only
      rw [← byteLength_append, hfinds.tested]
      dsimp only
      cases hq : q (before ++ a) (localName ++ b) with
      | true =>
        obtain ⟨c, name, hc⟩ := List.exists_cons_of_ne_nil hname.1
        rw [if_pos rfl, hc, List.cons_append, next, ← List.cons_append, ← hc, if_pos hq]
        rfl
      | false =>
        have hpos := List.length_pos_of_ne_nil hname.1
        have hlength : b.length < fuel := by
          rw [List.length_append, List.length_append] at hfuel
          omega
        rw [if_neg Bool.false_ne_true, Scanning.next_clear (hfinds.clear_name hname hq),
          ← byteLength_append, ← List.append_assoc]
        exact ih hlength _

theorem findElementOpen_eq (hname : Borderless localName) (before rest : Text) :
    findElementOpen (before ++ rest) localName (byteLength before) =
      .ok ((next (isOpen localName) before rest).map (fun r => byteLength r.1)) := by
  refine findElementLoop_spec (finds_open localName) hname ?_ before
  have hlength := length_le_byteLength rest
  rw [byteLength_append]
  omega

theorem findElementClose_eq (hname : Borderless localName) (before rest : Text) :
    findElementClose (before ++ rest) localName (byteLength before) =
      .ok ((next (isClose localName) before rest).map (fun r => byteLength r.1)) := by
  refine findElementLoop_spec (finds_close localName) hname ?_ before
  have hlength := length_le_byteLength rest
  rw [byteLength_append]
  omega

end Search

/-! ## The blocks -/

section Blocks

/-- Where pieces begin that follow one another from an offset on. -/
def offsets (offset : Nat) : List Text → List Nat
  | [] => []
  | block :: blocks => offset :: offsets (offset + byteLength block) blocks

/-- What comes before the first descriptor of a text, and what each of them begins. -/
abbrev blocksFrom (before rest : Text) : Text × List Text := pieces (isOpen descriptorName) before rest

theorem boundsLoop_spec {fuel : Nat} {rest : Text} (hfuel : rest.length < fuel) (before : Text)
    (bounds : List Nat) :
    boundsLoop (before ++ rest) fuel (byteLength before) bounds =
      .ok (bounds ++ offsets (byteLength (before ++ (blocksFrom before rest).1))
        (blocksFrom before rest).2) := by
  induction fuel generalizing before rest bounds with
  | zero => exact absurd hfuel (Nat.not_lt_zero _)
  | succ fuel ih =>
    rw [boundsLoop, findElementOpen_eq borderless_descriptorName]
    dsimp only [bind, Except.bind]
    rcases Scanning.next_cases (p := isOpen descriptorName) before rest with
      ⟨hnone, hclear⟩ | ⟨a, b, rfl, hsome, hclear, hopen⟩
    · have hpieces := Scanning.pieces_clear hclear
      rw [List.append_nil] at hpieces
      rw [hnone, blocksFrom, hpieces]
      simp [pieces, offsets, pure, Except.pure]
    · obtain ⟨after, rfl⟩ := (finds_open descriptorName).named _ _ hopen
      have hpieces : blocksFrom before (a ++ (descriptorName ++ after)) =
          (a, (descriptorName ++ (blocksFrom (before ++ a ++ descriptorName) after).1) ::
            (blocksFrom (before ++ a ++ descriptorName) after).2) := by
        rw [blocksFrom, Scanning.pieces_clear hclear,
          (finds_open descriptorName).pieces_named borderless_descriptorName hopen, List.append_nil]
      have hlength : after.length < fuel := by
        have hpos := List.length_pos_of_ne_nil borderless_descriptorName.1
        rw [List.length_append, List.length_append] at hfuel
        omega
      have hshape : before ++ (a ++ (descriptorName ++ after)) =
          (before ++ a ++ descriptorName) ++ after := by simp
      rw [hsome, hpieces]
      dsimp only [Option.map_some]
      rw [← byteLength_append, hshape, ih hlength, offsets]
      simp [Nat.add_assoc]

/-- The slices between the bounds are the blocks. -/
theorem readBlocks_eq (before : Text) (blocks : List Text) (out : List Text) :
    readBlocks (before ++ blocks.flatten) (offsets (byteLength before) blocks) out =
      blocks.foldlM readBlock out := by
  induction blocks generalizing before out with
  | nil => rfl
  | cons block blocks ih =>
    have hend : (offsets (byteLength before + byteLength block) blocks).head?.getD
        (byteLength (before ++ (block :: blocks).flatten)) = byteLength (before ++ block) := by
      cases blocks with
      | nil => simp [offsets]
      | cons next blocks => simp [offsets]
    have hslice : slice (before ++ (block :: blocks).flatten) (byteLength before)
        (byteLength (before ++ block)) = some block := by
      rw [List.flatten_cons]
      exact slice_append before block _
    rw [offsets, readBlocks, hend, hslice, List.foldlM_cons]
    dsimp only [orPanic, bind, Except.bind]
    cases readBlock out block with
    | error fault => rfl
    | ok out =>
      have hrest := ih (before ++ block) out
      rw [List.append_assoc, byteLength_append] at hrest
      exact hrest

theorem parseSigningCerts_eq (xml : Text) :
    parseSigningCerts xml = (blocksFrom [] xml).2.foldlM readBlock [] := by
  have hlength := length_le_byteLength xml
  have hfuel : xml.length < byteLength xml + 1 := by omega
  have hbounds := boundsLoop_spec hfuel [] []
  have hflatten := Scanning.flatten_pieces (p := isOpen descriptorName) [] xml
  rw [List.nil_append, List.nil_append, List.nil_append] at hbounds
  unfold parseSigningCerts
  rw [← byteLength_nil, hbounds]
  have hread := readBlocks_eq (blocksFrom [] xml).1 (blocksFrom [] xml).2 []
  rw [hflatten] at hread
  exact hread

end Blocks

/-! ## The certificates of a block -/

section Certs

/-- One turn of the loop: the body that is found, and where it goes on. -/
def certStep (before rest : Text) : Option (Text × Text × Text) :=
  match next (isOpen certName) before rest with
  | none => none
  | some (opening, tag) =>
    match Text.breakOn ['>'] tag with
    | none => none
    | some (attrs, content) =>
      let bodyStart := opening ++ attrs ++ ['>']
      match next (isClose certName) bodyStart content with
      | none => none
      | some (close, tail) =>
        some (Cuts.beforeLast (· == '<') (close.drop bodyStart.length), close ++ certName,
          tail.drop certName.length)

theorem certStep_some {before rest body before' rest' : Text}
    (h : certStep before rest = some (body, before', rest')) :
    before' ++ rest' = before ++ rest ∧ rest'.length < rest.length := by
  unfold certStep at h
  rcases Scanning.next_cases (p := isOpen certName) before rest with
    ⟨hnone, -⟩ | ⟨a, tag, rfl, hsome, -, -⟩
  · rw [hnone] at h
    exact nomatch h
  · rw [hsome] at h
    dsimp only at h
    split at h
    · exact nomatch h
    · next attrs content hbreak =>
      obtain ⟨rfl, -⟩ := Cuts.breakOn_eq_some_iff.1 hbreak
      rcases Scanning.next_cases (p := isClose certName) (before ++ a ++ attrs ++ ['>']) content with
        ⟨hnone, -⟩ | ⟨w, tail, rfl, hclose, -, hq⟩
      · rw [hnone] at h
        exact nomatch h
      · obtain ⟨z, rfl⟩ := (finds_close certName).named _ _ hq
        rw [hclose] at h
        obtain ⟨-, rfl, rfl⟩ : _ ∧ _ ∧ _ := by simpa using h
        constructor
        · simp
        · simp only [List.length_append, List.length_cons]
          omega

theorem certLoop_succ (before rest : Text) (fuel : Nat) (out : List Text) :
    certLoop (before ++ rest) (fuel + 1) (byteLength before) out =
      match certStep before rest with
      | none => .ok out
      | some (body, before', _) =>
        certLoop (before ++ rest) fuel (byteLength before') (push out (withoutWhitespace body)) := by
  have hone : byteLength ['>'] = 1 := by decide
  rw [certLoop, findElementOpen_eq borderless_certName]
  dsimp only [bind, Except.bind]
  unfold certStep
  rcases Scanning.next_cases (p := isOpen certName) before rest with
    ⟨hnone, -⟩ | ⟨a, tag, rfl, hsome, -, -⟩
  · rw [hnone]
    rfl
  · have hshape : before ++ (a ++ tag) = (before ++ a) ++ tag := by simp
    rw [hsome, hshape]
    dsimp only [Option.map_some]
    rw [suffixAt_append]
    dsimp only [orPanic]
    unfold find
    cases hbreak : Text.breakOn ['>'] tag with
    | none => rfl
    | some parts =>
      obtain ⟨attrs, content⟩ := parts
      obtain ⟨rfl, -⟩ := Cuts.breakOn_eq_some_iff.1 hbreak
      have hbody : byteLength (before ++ a) + byteLength attrs + 1 =
          byteLength (before ++ a ++ attrs ++ ['>']) := by
        simp only [byteLength_append, hone]
      have hshape : before ++ a ++ (attrs ++ '>' :: content) =
          (before ++ a ++ attrs ++ ['>']) ++ content := by simp
      dsimp only [Option.map_some]
      rw [hbody, hshape, findElementClose_eq borderless_certName]
      generalize before ++ a ++ attrs ++ ['>'] = bodyStart
      dsimp only
      rcases Scanning.next_cases (p := isClose certName) bodyStart content with
        ⟨hnone, -⟩ | ⟨w, tail, rfl, hclose, -, -⟩
      · rw [hnone]
        rfl
      · have hinner : slice (bodyStart ++ (w ++ tail)) (byteLength bodyStart)
            (byteLength (bodyStart ++ w)) = some w := slice_append ..
        rw [hclose]
        dsimp only [Option.map_some]
        rw [hinner]
        dsimp only
        rw [List.drop_left, byteLength_append _ certName]
        by_cases hangle : '<' ∈ w
        · obtain ⟨u, c, v, rfl, hc, hv⟩ := Cuts.exists_last (p := (· == '<')) ⟨_, hangle, rfl⟩
          obtain rfl : c = '<' := beq_iff_eq.1 hc
          have hv' : '<' ∉ v := fun hmem => Bool.noConfusion ((hv _ hmem).symm.trans rfl)
          have hbody : slice (bodyStart ++ (u ++ '<' :: v ++ tail)) (byteLength bodyStart)
              (byteLength (bodyStart ++ u)) = some u := by
            rw [List.append_assoc]
            exact slice_append ..
          have hlast : rfind ['<'] (u ++ '<' :: v) = some (byteLength u) := rfind_last (n := []) hv' u
          rw [hlast, Option.elim_some, ← byteLength_append, hbody,
            Cuts.beforeLast_append_sep hv hc]
        · have hplain : ∀ x ∈ w, (x == '<') = false := by
            intro x hx
            rw [beq_eq_false_iff_ne]
            rintro rfl
            exact hangle hx
          have hwhole : Cuts.beforeLast (· == '<') w = w := by
            have hreverse : ∀ x ∈ w.reverse, (x == '<') = false :=
              fun x hx => hplain x (List.mem_reverse.1 hx)
            unfold Cuts.beforeLast
            rw [Cuts.afterFirst_of_none hreverse, List.reverse_reverse]
          rw [rfind_none hangle, Option.elim_none, hinner, hwhole]

/-- The bodies that the loop reads from a cut on. -/
def bodies (before rest : Text) : List Text :=
  match _h : certStep before rest with
  | none => []
  | some (body, before', rest') => withoutWhitespace body :: bodies before' rest'
termination_by rest.length
decreasing_by exact (certStep_some (by assumption)).2

theorem bodies_none {before rest : Text} (h : certStep before rest = none) : bodies before rest = [] := by
  rw [bodies]
  split
  · rfl
  · next hstep => exact absurd (hstep.symm.trans h) (Option.some_ne_none _)

theorem bodies_some {before rest body before' rest' : Text}
    (h : certStep before rest = some (body, before', rest')) :
    bodies before rest = withoutWhitespace body :: bodies before' rest' := by
  rw [bodies]
  split
  · next hstep => exact absurd (h.symm.trans hstep) (Option.some_ne_none _)
  · next hstep =>
    obtain ⟨rfl, rfl, rfl⟩ : _ ∧ _ ∧ _ := by simpa using h.symm.trans hstep
    rfl

/-- The loop ends, whatever the block is. -/
theorem certLoop_eq {fuel : Nat} {rest : Text} (hfuel : rest.length < fuel) (before : Text)
    (out : List Text) :
    certLoop (before ++ rest) fuel (byteLength before) out = .ok ((bodies before rest).foldl push out) := by
  induction fuel generalizing before rest out with
  | zero => exact absurd hfuel (Nat.not_lt_zero _)
  | succ fuel ih =>
    rw [certLoop_succ]
    cases hstep : certStep before rest with
    | none =>
      rw [bodies_none hstep]
      rfl
    | some found =>
      obtain ⟨body, before', rest'⟩ := found
      obtain ⟨hsame, hshorter⟩ := certStep_some hstep
      rw [bodies_some hstep, ← hsame]
      exact ih (by omega) before' _

/-- The bodies that are read of a block. -/
def blockBodies (block : Text) : List Text :=
  if isEncryption (Cuts.before (· == '>') block) then [] else bodies [] block

theorem readBlock_eq (out : List Text) (block : Text) :
    readBlock out block = .ok ((blockBodies block).foldl push out) := by
  have hattrs : (Text.splitOn (· == '>') block).head?.getD [] = Cuts.before (· == '>') block :=
    Cuts.head?_splitOn _ block
  unfold readBlock blockBodies
  rw [hattrs]
  dsimp only
  split
  · rfl
  · have hlength := length_le_byteLength block
    have hfuel : block.length < byteLength block + 1 := by omega
    exact certLoop_eq hfuel [] out

/-- What is read from a cut of the document on: the bodies of the block that is read, which has a cut of
its own, and those of the blocks that begin further on. -/
def reads (reading : Bool) (inBlock before rest : Text) : List Text :=
  (if reading then bodies inBlock (blocksFrom before rest).1 else []) ++
    (blocksFrom before rest).2.flatMap blockBodies

/-- No string makes the scanner panic or run forever. -/
theorem parseSigningCerts_reads (xml : Text) :
    parseSigningCerts xml = .ok ((reads false [] [] xml).foldl push []) := by
  rw [parseSigningCerts_eq, reads, if_neg Bool.false_ne_true, List.nil_append]
  generalize (blocksFrom [] xml).2 = blocks
  generalize ([] : List Text) = out
  induction blocks generalizing out with
  | nil => rfl
  | cons block blocks ih =>
    rw [List.foldlM_cons, readBlock_eq, List.flatMap_cons, List.foldl_append]
    exact ih _

end Certs

end Metadata
