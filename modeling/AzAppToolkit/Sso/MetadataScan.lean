import AzAppToolkit.Sso.MetadataBytes
import AzAppToolkit.Sso.MetadataDocs

set_option autoImplicit false

/-! # Where the scanner stops in a document

The walks back decide a position by what stands since the last `<`. Behind a `>` or a blank of a tag no
name is one of an element, whatever text or attribute it stands in; so a tag or an end tag has at most one
position, at its local name. -/

namespace Metadata

open Slices
open Scanning (Clear)

/-! ## The walks back from a cut -/

section Walks

variable {before u p v : Text} {c d : Char}

theorem stripLast_snoc (c : Char) (s : Text) : stripLast c (s ++ [c]) = some s := by
  unfold stripLast
  rw [List.getLast?_concat, if_pos rfl, List.dropLast_concat]

theorem stripLast_snoc_ne (h : d ≠ c) (s : Text) : stripLast c (s ++ [d]) = none := by
  unfold stripLast
  rw [List.getLast?_concat, if_neg (fun heq => h (Option.some.inj heq))]

theorem endsWith_closing (u : Text) : endsWith closing (u ++ closing) = true :=
  List.isSuffixOf_iff_suffix.2 (List.suffix_append u closing)

theorem endsWith_closing_snoc (h : c ≠ '/') (u : Text) : endsWith closing (u ++ [c]) = false := by
  rw [Bool.eq_false_iff]
  intro hends
  obtain ⟨w, hw⟩ := List.isSuffixOf_iff_suffix.1 hends
  have hlast := congrArg List.getLast? hw
  rw [List.getLast?_concat, closing] at hlast
  exact h (by simpa using hlast.symm)

theorem opens_of_last (hangle : c ≠ '<') (hcolon : c ≠ ':') (u : Text) : opens (u ++ [c]) = false := by
  unfold opens walkBack
  rw [stripLast_snoc_ne hangle, stripLast_snoc_ne hcolon]
  rfl

theorem opens_angle (before : Text) : opens (before ++ ['<']) = !endsWith closing before := by
  unfold opens walkBack
  rw [stripLast_snoc]
  rfl

theorem opens_colon (hp : '<' ∉ p) (before : Text) :
    opens (before ++ '<' :: (p ++ [':'])) = (p.all isPrefixChar && !p.isEmpty) := by
  have hshape : before ++ '<' :: (p ++ [':']) = (before ++ '<' :: p) ++ [':'] := by simp
  have hstart : before ++ '<' :: p = (before ++ ['<']) ++ p := by simp
  have hoffset : byteLength before + 1 = byteLength (before ++ ['<']) := by simp; decide
  have hends : endsWith closing (before ++ ['<']) = false := endsWith_closing_snoc (by decide) before
  have hfind : rfind ['<'] (before ++ '<' :: p) = some (byteLength before) := rfind_last (n := []) hp before
  unfold opens walkBack
  rw [hshape, stripLast_snoc_ne (by decide), stripLast_snoc]
  dsimp only
  rw [hfind]
  dsimp only
  rw [hstart, hoffset, suffixAt_append, prefixAt_append]
  dsimp only [OpathBytes.orPanic, bind, Except.bind]
  rw [hends]
  cases p.all isPrefixChar <;> rfl

theorem opens_of_not_mem (h : '<' ∉ before) : opens before = false := by
  rcases List.eq_nil_or_concat before with rfl | ⟨u, c, rfl⟩
  · rfl
  · rw [List.concat_eq_append] at h ⊢
    have hangle : c ≠ '<' := by
      rintro rfl
      exact h (List.mem_append_right u List.mem_cons_self)
    by_cases hcolon : c = ':'
    · subst hcolon
      have hu : '<' ∉ u := fun hmem => h (List.mem_append_left _ hmem)
      unfold opens walkBack
      rw [stripLast_snoc_ne hangle, stripLast_snoc]
      dsimp only
      rw [rfind_none hu]
      rfl
    · exact opens_of_last hangle hcolon u

theorem closes_of_last (hslash : c ≠ '/') (hcolon : c ≠ ':') (u : Text) : closes (u ++ [c]) = false := by
  unfold closes walkBackClose
  rw [endsWith_closing_snoc hslash, if_neg Bool.false_ne_true, stripLast_snoc_ne hcolon]
  rfl

theorem closes_closing (u : Text) : closes (u ++ closing) = true := by
  unfold closes walkBackClose
  rw [endsWith_closing, if_pos rfl]
  rfl

theorem closes_colon (hangle : '<' ∉ p) (hne : p ≠ []) (hp : p.all isPrefixChar = true) (u : Text) :
    closes (u ++ (closing ++ (p ++ [':']))) = true := by
  have hshape : u ++ (closing ++ (p ++ [':'])) = (u ++ (closing ++ p)) ++ [':'] := by simp
  have hstart : u ++ (closing ++ p) = (u ++ closing) ++ p := by simp
  have hoffset : byteLength u + 2 = byteLength (u ++ closing) := by simp [closing]; decide
  have hfind : rfind closing (u ++ (closing ++ p)) = some (byteLength u) := by
    refine rfind_last (n := ['/']) ?_ u
    intro hmem
    rcases List.mem_cons.1 hmem with h | h
    · exact absurd h (by decide)
    · exact hangle h
  unfold closes walkBackClose
  rw [hshape, endsWith_closing_snoc (by decide), if_neg Bool.false_ne_true, stripLast_snoc]
  dsimp only
  rw [hfind]
  dsimp only
  rw [hstart, hoffset, suffixAt_append]
  dsimp only [OpathBytes.orPanic, bind, Except.bind]
  rw [hp]
  cases p with
  | nil => exact absurd rfl hne
  | cons c p => rfl

end Walks

/-! ## Sealed texts -/

section Sealed

variable {before u v w x : Text}

/-- The last `<` has a `>` or a blank behind it. -/
def Sealed (before : Text) : Prop :=
  '<' ∉ before ∨ ∃ u v, before = u ++ '<' :: v ∧ '<' ∉ v ∧ v.all isPrefixChar = false

theorem sealed_of_not_mem (h : '<' ∉ before) : Sealed before := Or.inl h

theorem sealed_tag (u : Text) (hv : '<' ∉ v) (hpre : v.all isPrefixChar = false) :
    Sealed (u ++ '<' :: v) := Or.inr ⟨u, v, rfl, hv, hpre⟩

theorem Sealed.append (h : Sealed before) (hx : '<' ∉ x) : Sealed (before ++ x) := by
  rcases h with h | ⟨u, v, rfl, hv, hpre⟩
  · refine Or.inl (fun hmem => ?_)
    exact (List.mem_append.1 hmem).elim h hx
  · refine Or.inr ⟨u, v ++ x, by simp, fun hmem => (List.mem_append.1 hmem).elim hv hx, ?_⟩
    rw [List.all_append, hpre, Bool.false_and]

/-- What stands behind the last `<` ends what stands behind any. -/
theorem suffix_of_angle (hv : '<' ∉ v) (h : u ++ '<' :: v = w ++ '<' :: x) : v <:+ x := by
  have hplain : ∀ t : Text, '<' ∉ t → ∀ c ∈ t, (c == '<') = false := by
    intro t ht c hc
    rw [beq_eq_false_iff_ne]
    rintro rfl
    exact ht hc
  have hbehind : Cuts.afterLast (· == '<') (u ++ '<' :: v) = v := Cuts.afterLast_append_sep (hplain v hv) rfl
  by_cases hx : '<' ∈ x
  · obtain ⟨a, c, b, rfl, hc, hb⟩ := Cuts.exists_last (p := (· == '<')) ⟨_, hx, rfl⟩
    have hshape : w ++ '<' :: (a ++ c :: b) = (w ++ '<' :: a) ++ c :: b := by simp
    rw [h, hshape, Cuts.afterLast_append_sep hb hc] at hbehind
    rw [← hbehind]
    exact ⟨a ++ [c], by simp⟩
  · rw [h, Cuts.afterLast_append_sep (hplain x hx) rfl] at hbehind
    rw [hbehind]

theorem Sealed.not_closing (h : Sealed before) : endsWith closing before = false := by
  rw [Bool.eq_false_iff]
  intro hends
  obtain ⟨w, hw⟩ := List.isSuffixOf_iff_suffix.1 hends
  rcases h with h | ⟨u, v, rfl, hv, hpre⟩
  · exact h (hw ▸ List.mem_append_right w List.mem_cons_self)
  · have hsuffix : v <:+ ['/'] := suffix_of_angle hv hw.symm
    have hall : v.all isPrefixChar = true := by
      rw [List.all_eq_true]
      intro c hc
      obtain rfl := List.mem_singleton.1 (hsuffix.subset hc)
      decide
    exact Bool.noConfusion (hpre.symm.trans hall)

theorem Sealed.opens (h : Sealed before) : opens before = false := by
  rcases h with h | ⟨u, v, rfl, hv, hpre⟩
  · exact opens_of_not_mem h
  · rcases List.eq_nil_or_concat v with rfl | ⟨p, c, rfl⟩
    · exact nomatch hpre
    · rw [List.concat_eq_append] at hv hpre ⊢
      by_cases hcolon : c = ':'
      · subst hcolon
        have hp : p.all isPrefixChar = false := by
          have hc : [':'].all isPrefixChar = true := by decide
          rwa [List.all_append, hc, Bool.and_true] at hpre
        rw [opens_colon (fun hmem => hv (List.mem_append_left _ hmem)), hp, Bool.false_and]
      · have hangle : c ≠ '<' := by
          rintro rfl
          exact hv (List.mem_append_right p List.mem_cons_self)
        have hshape : u ++ '<' :: (p ++ [c]) = (u ++ '<' :: p) ++ [c] := by simp
        rw [hshape]
        exact opens_of_last hangle hcolon _

theorem Sealed.closes (h : Sealed before) : closes before = false := by
  unfold Metadata.closes walkBackClose
  rw [h.not_closing, if_neg Bool.false_ne_true]
  cases hstrip : stripLast ':' before with
  | none => rfl
  | some c =>
    obtain rfl := stripLast_some hstrip
    dsimp only
    cases hfind : rfind closing c with
    | none => rfl
    | some lt =>
      obtain ⟨w, name, rfl, rfl⟩ := rfind_some hfind
      have hstart : w ++ (closing ++ name) = (w ++ closing) ++ name := by simp
      have hoffset : byteLength w + 2 = byteLength (w ++ closing) := by simp [closing]; decide
      dsimp only
      rw [hstart, hoffset, suffixAt_append]
      dsimp only [OpathBytes.orPanic, bind, Except.bind, pure, Except.pure]
      rcases h with h | ⟨u, v, heq, hv, hpre⟩
      · refine absurd ?_ h
        simp [closing]
      · -- what stands behind the last `<` ends the name, and has the `>` or the blank
        have hsuffix : v <:+ '/' :: (name ++ [':']) := by
          refine suffix_of_angle hv (u := u) (w := w) ?_
          rw [← heq]
          simp [closing]
        have hname : name.all isPrefixChar = false := by
          rw [Bool.eq_false_iff]
          intro hall
          have hv' : v.all isPrefixChar = true := by
            rw [List.all_eq_true] at hall ⊢
            intro c hc
            rcases List.mem_cons.1 (hsuffix.subset hc) with rfl | hc
            · decide
            · rcases List.mem_append.1 hc with hc | hc
              · exact hall c hc
              · obtain rfl := List.mem_singleton.1 hc
                decide
          exact Bool.noConfusion (hpre.symm.trans hv')
        rw [hname, Bool.and_false]

end Sealed

/-! ## Names -/

section Names

variable {name before l z rest a : Text} {c d : Char}

theorem isNameChar_angle : isNameChar '<' = false := by decide

theorem not_angle_of_valid (h : l.all isNameChar = true) : '<' ∉ l := by
  intro hmem
  have hangle := List.all_eq_true.1 h _ hmem
  rw [isNameChar_angle] at hangle
  exact Bool.false_ne_true hangle

theorem isPrefixChar_of_isNameChar (h : isNameChar c = true) : isPrefixChar c = true := by
  unfold isNameChar endsName at h
  unfold isPrefixChar
  simp only [Bool.and_eq_true, Bool.not_eq_true', Bool.or_eq_false_iff] at h
  obtain ⟨⟨⟨hblank, hangle⟩, -⟩, -⟩ := h
  rw [hblank, bne, hangle]
  rfl

/-- A name is found where it stands whole. -/
theorem named_iff (hname : name.all isNameChar = true) (hl : l.all isNameChar = true)
    (hc : isNameChar c = false) (hd : isNameChar d = false) {y : Text}
    (h : name ++ c :: y = l ++ d :: z) : name = l ∧ c = d := by
  have hcut : ∀ {s t : Text} {e : Char}, s.all isNameChar = true → isNameChar e = false →
      Cuts.before (fun c => !isNameChar c) (s ++ e :: t) = s := by
    intro s t e hs he
    refine Cuts.before_append_sep (fun x hx => ?_) (by rw [he]; rfl)
    rw [List.all_eq_true.1 hs x hx]
    rfl
  have heq : name = l := by
    rw [← hcut (t := y) hname hc, h, hcut hl hd]
  subst heq
  exact ⟨rfl, (List.cons.inj (List.append_cancel_left h)).1⟩

theorem isNameChar_of_endsName (h : endsName c = true) : isNameChar c = false := by
  unfold isNameChar
  rw [h]
  rfl

theorem isOpen_at (hname : name.all isNameChar = true) (hl : l.all isNameChar = true)
    (hd : isNameChar d = false) (before z : Text) :
    isOpen name before (l ++ d :: z) = (name == l && (endsName d && opens before)) := by
  by_cases heq : name = l
  · subst heq
    have hpre : name.isPrefixOf (name ++ d :: z) = true :=
      List.isPrefixOf_iff_prefix.2 (List.prefix_append name _)
    unfold isOpen
    rw [hpre, List.drop_left, beq_self_eq_true]
    rfl
  · have hne : (name == l) = false := by rwa [beq_eq_false_iff_ne]
    rw [hne, Bool.false_and, Bool.eq_false_iff]
    intro hopen
    unfold isOpen at hopen
    rw [Bool.and_eq_true, Bool.and_eq_true, List.isPrefixOf_iff_prefix] at hopen
    obtain ⟨⟨y, hy⟩, hends, -⟩ := hopen
    rw [← hy, List.drop_left] at hends
    cases y with
    | nil => exact Bool.noConfusion hends
    | cons c y => exact heq (named_iff hname hl (isNameChar_of_endsName hends) hd hy).1

theorem isClose_at (hname : name.all isNameChar = true) (hl : l.all isNameChar = true)
    (hd : isNameChar d = false) (before z : Text) :
    isClose name before (l ++ d :: z) = (name == l && (closes before && d == '>')) := by
  by_cases heq : name = l
  · subst heq
    have hpre : name.isPrefixOf (name ++ d :: z) = true :=
      List.isPrefixOf_iff_prefix.2 (List.prefix_append name _)
    unfold isClose
    rw [hpre, List.drop_left, beq_self_eq_true]
    rfl
  · have hne : (name == l) = false := by rwa [beq_eq_false_iff_ne]
    rw [hne, Bool.false_and, Bool.eq_false_iff]
    intro hclose
    unfold isClose at hclose
    rw [Bool.and_eq_true, Bool.and_eq_true, List.isPrefixOf_iff_prefix] at hclose
    obtain ⟨⟨y, hy⟩, -, hends⟩ := hclose
    rw [← hy, List.drop_left] at hends
    cases y with
    | nil => exact Bool.noConfusion hends
    | cons c y =>
      obtain rfl : c = '>' := Option.some.inj (eq_of_beq hends)
      exact heq (named_iff hname hl (by decide) hd hy).1

end Names

/-! ## Tokens

A tag or an end tag is a lead, a local name and what stands behind it. -/

section Tokens

variable {name before u a l y rest x : Text} {c : Char}

theorem clear_sealed (h : Sealed before) (ha : '<' ∉ a) (name rest : Text) :
    Clear (isOpen name) before a rest := by
  intro x c y heq
  have hx : '<' ∉ x := fun hmem => ha (heq ▸ List.mem_append_left _ hmem)
  unfold isOpen
  rw [(h.append hx).opens, Bool.and_false, Bool.and_false]

theorem clear_close_sealed (h : Sealed before) (ha : '<' ∉ a) (name rest : Text) :
    Clear (isClose name) before a rest := by
  intro x c y heq
  have hx : '<' ∉ x := fun hmem => ha (heq ▸ List.mem_append_left _ hmem)
  unfold isClose
  rw [(h.append hx).closes, Bool.false_and, Bool.and_false]

/-- Behind a character and before another. -/
theorem clear_inside (hc : c ≠ '<' ∧ c ≠ ':') (ha : ∀ d ∈ a.dropLast, d ≠ '<' ∧ d ≠ ':')
    (name u rest : Text) : Clear (isOpen name) (u ++ [c]) a rest := by
  intro x d y heq
  have hopens : opens (u ++ [c] ++ x) = false := by
    rcases List.eq_nil_or_concat x with rfl | ⟨x', e, rfl⟩
    · rw [List.append_nil]
      exact opens_of_last hc.1 hc.2 u
    · have he : e ∈ a.dropLast := by
        rw [heq, List.dropLast_append_of_ne_nil (List.cons_ne_nil d y)]
        exact List.mem_append_left _ (by simp)
      rw [List.concat_eq_append, ← List.append_assoc]
      exact opens_of_last (ha e he).1 (ha e he).2 _
  unfold isOpen
  rw [hopens, Bool.and_false, Bool.and_false]

theorem clear_close_inside (hc : c ≠ '/' ∧ c ≠ ':') (ha : ∀ d ∈ a.dropLast, d ≠ '/' ∧ d ≠ ':')
    (name u rest : Text) : Clear (isClose name) (u ++ [c]) a rest := by
  intro x d y heq
  have hcloses : closes (u ++ [c] ++ x) = false := by
    rcases List.eq_nil_or_concat x with rfl | ⟨x', e, rfl⟩
    · rw [List.append_nil]
      exact closes_of_last hc.1 hc.2 u
    · have he : e ∈ a.dropLast := by
        rw [heq, List.dropLast_append_of_ne_nil (List.cons_ne_nil d y)]
        exact List.mem_append_left _ (by simp)
      rw [List.concat_eq_append, ← List.append_assoc]
      exact closes_of_last (ha e he).1 (ha e he).2 _
  unfold isClose
  rw [hcloses, Bool.false_and, Bool.and_false]

theorem ne_of_isNameChar (h : isNameChar c = true) : c ≠ '<' ∧ c ≠ ':' ∧ c ≠ '/' ∧ c ≠ '>' := by
  refine ⟨?_, ?_, ?_, ?_⟩ <;> rintro rfl <;> exact absurd h (by decide)

/-- What stands before the local name of a tag or of an end tag. -/
def tokenLead (stop : Bool) (name : Name) : Text := '<' :: ((if stop then ['/'] else []) ++ name.lead)

/-- What can stand behind a name in a tag: a blank or a `>`, or a `/` before one. -/
structure Behind (y : Text) : Prop where
  ended : ∀ c ∈ y.head?, endsName c = true
  cut : ∃ t d z, y = t ++ d :: z ∧ (∀ e ∈ t, e ≠ '<' ∧ e ≠ ':') ∧ isPrefixChar d = false
  angle : '<' ∉ y
  closed : '>' ∈ y

theorem Behind.cons (hy : Behind y) : ∃ d z, y = d :: z ∧ endsName d = true := by
  cases y with
  | nil => exact absurd hy.closed List.not_mem_nil
  | cons d z => exact ⟨d, z, rfl, hy.ended d rfl⟩

theorem Name.lead_none {name : Name} (h : name.space = none) : name.lead = [] := by
  unfold Name.lead
  rw [h]
  rfl

theorem Name.lead_some {name : Name} {space : NamePart} (h : name.space = some space) :
    name.lead = space.chars ++ [':'] := by
  unfold Name.lead
  rw [h]
  rfl

theorem NamePart.cons (part : NamePart) :
    ∃ c s, part.chars = c :: s ∧ isNameChar c = true ∧ ∀ d ∈ s, isNameChar d = true := by
  obtain ⟨c, s, h⟩ := List.exists_cons_of_ne_nil part.nonempty
  have hvalid := part.valid
  rw [h, List.all_cons, Bool.and_eq_true, List.all_eq_true] at hvalid
  exact ⟨c, s, h, hvalid.1, hvalid.2⟩

theorem not_angle_lead (n : Name) : '<' ∉ n.lead := by
  cases hspace : n.space with
  | none =>
    rw [n.lead_none hspace]
    exact List.not_mem_nil
  | some space =>
    rw [n.lead_some hspace]
    intro hmem
    rcases List.mem_append.1 hmem with hmem | hmem
    · exact not_angle_of_valid space.valid hmem
    · exact absurd (List.mem_singleton.1 hmem) (by decide)

theorem isOpen_mark (hname : name.all isNameChar = true) (hne : name ≠ []) {d : Char}
    (hd : isNameChar d = false) (before z : Text) : isOpen name before (d :: z) = false := by
  have hat := isOpen_at hname (l := []) rfl hd before z
  have hempty : (name == []) = false := by rwa [beq_eq_false_iff_ne]
  rwa [hempty, Bool.false_and] at hat

theorem isClose_mark (hname : name.all isNameChar = true) (hne : name ≠ []) {d : Char}
    (hd : isNameChar d = false) (before z : Text) : isClose name before (d :: z) = false := by
  have hat := isClose_at hname (l := []) rfl hd before z
  have hempty : (name == []) = false := by rwa [beq_eq_false_iff_ne]
  rwa [hempty, Bool.false_and] at hat

theorem dropLast_space {space : NamePart} {c : Char} {s : Text} (h : space.chars = c :: s) :
    ∀ d ∈ (s ++ [':']).dropLast, isNameChar d = true := by
  intro d hd
  rw [List.dropLast_concat] at hd
  exact List.all_eq_true.1 space.valid d (h ▸ List.mem_cons_of_mem c hd)

/-- A namespace is not taken for a name: a colon ends it. -/
theorem clear_space (hname : name.all isNameChar = true) (n : Name) (before rest : Text) :
    Clear (isOpen name) before n.lead rest := by
  cases hspace : n.space with
  | none =>
    rw [n.lead_none hspace]
    exact .nil
  | some space =>
    obtain ⟨c, s, hchars, hc, -⟩ := space.cons
    have hfirst : isOpen name before (space.chars ++ ':' :: rest) = false := by
      have hends : endsName ':' = false := by decide
      rw [isOpen_at hname space.valid (by decide), hends, Bool.false_and, Bool.and_false]
    have hinside : ∀ d ∈ (s ++ [':']).dropLast, d ≠ '<' ∧ d ≠ ':' := by
      intro d hd
      have hd' := ne_of_isNameChar (dropLast_space hchars d hd)
      exact ⟨hd'.1, hd'.2.1⟩
    have hc' := ne_of_isNameChar hc
    rw [n.lead_some hspace, hchars, List.cons_append]
    refine .cons ?_ (clear_inside ⟨hc'.1, hc'.2.1⟩ hinside name before rest)
    rw [hchars] at hfirst
    simpa using hfirst

theorem clear_close_space (hname : name.all isNameChar = true) (n : Name) (before rest : Text) :
    Clear (isClose name) before n.lead rest := by
  cases hspace : n.space with
  | none =>
    rw [n.lead_none hspace]
    exact .nil
  | some space =>
    obtain ⟨c, s, hchars, hc, -⟩ := space.cons
    have hfirst : isClose name before (space.chars ++ ':' :: rest) = false := by
      have hcolon : (':' == '>') = false := by decide
      rw [isClose_at hname space.valid (by decide), hcolon, Bool.and_false, Bool.and_false]
    have hinside : ∀ d ∈ (s ++ [':']).dropLast, d ≠ '/' ∧ d ≠ ':' := by
      intro d hd
      have hd' := ne_of_isNameChar (dropLast_space hchars d hd)
      exact ⟨hd'.2.2.1, hd'.2.1⟩
    have hc' := ne_of_isNameChar hc
    rw [n.lead_some hspace, hchars, List.cons_append]
    refine .cons ?_ (clear_close_inside ⟨hc'.2.2.1, hc'.2.1⟩ hinside name before rest)
    rw [hchars] at hfirst
    simpa using hfirst

theorem clear_lead (hname : name.all isNameChar = true) (hne : name ≠ []) (stop : Bool) (n : Name)
    (before rest : Text) : Clear (isOpen name) before (tokenLead stop n) rest := by
  refine .cons (isOpen_mark hname hne (by decide) before _) ?_
  cases stop with
  | false => exact clear_space hname n _ rest
  | true => exact .cons (isOpen_mark hname hne (by decide) _ _) (clear_space hname n _ rest)

theorem clear_close_lead (hname : name.all isNameChar = true) (hne : name ≠ []) (n : Name)
    (before rest : Text) : Clear (isClose name) before (tokenLead true n) rest :=
  .cons (isClose_mark hname hne (by decide) before _)
    (.cons (isClose_mark hname hne (by decide) _ _) (clear_close_space hname n _ rest))

/-- An end tag is taken for a tag if it has a namespace. -/
theorem opens_lead (h : Sealed before) (stop : Bool) (n : Name) :
    opens (before ++ tokenLead stop n) = (!stop || n.space.isSome) := by
  cases hspace : n.space with
  | none =>
    unfold tokenLead
    rw [n.lead_none hspace]
    cases stop with
    | false =>
      have hopens := opens_angle before
      rw [h.not_closing] at hopens
      exact hopens
    | true =>
      have hshape : before ++ '<' :: (['/'] ++ []) = (before ++ ['<']) ++ ['/'] := by simp
      rw [if_pos rfl, hshape, opens_of_last (by decide) (by decide)]
      rfl
  | some space =>
    have hspaceAll : space.chars.all isPrefixChar = true := by
      rw [List.all_eq_true]
      exact fun c hc => isPrefixChar_of_isNameChar (List.all_eq_true.1 space.valid c hc)
    have hmark : ((if stop then ['/'] else []) ++ space.chars).all isPrefixChar = true := by
      rw [List.all_append, hspaceAll, Bool.and_true]
      cases stop <;> decide
    have hangle : '<' ∉ (if stop then ['/'] else []) ++ space.chars := by
      intro hmem
      rcases List.mem_append.1 hmem with hmem | hmem
      · cases stop with
        | false => exact List.not_mem_nil hmem
        | true => exact absurd (List.mem_singleton.1 hmem) (by decide)
      · exact not_angle_of_valid space.valid hmem
    unfold tokenLead
    rw [n.lead_some hspace, ← List.append_assoc, opens_colon hangle, hmark, Option.isSome_some,
      Bool.or_true, Bool.true_and, Bool.not_eq_true', List.isEmpty_eq_false_iff]
    exact List.append_ne_nil_of_right_ne_nil _ space.nonempty

theorem closes_lead (n : Name) (before : Text) : closes (before ++ tokenLead true n) = true := by
  cases hspace : n.space with
  | none =>
    unfold tokenLead
    rw [n.lead_none hspace]
    exact closes_closing before
  | some space =>
    have hspaceAll : space.chars.all isPrefixChar = true := by
      rw [List.all_eq_true]
      exact fun c hc => isPrefixChar_of_isNameChar (List.all_eq_true.1 space.valid c hc)
    unfold tokenLead
    rw [n.lead_some hspace]
    exact closes_colon (not_angle_of_valid space.valid) space.nonempty hspaceAll before

theorem not_angle_token (stop : Bool) (n : Name) (hy : Behind y) :
    '<' ∉ (if stop then ['/'] else []) ++ (n.lead ++ (n.localPart.chars ++ y)) := by
  intro hmem
  rcases List.mem_append.1 hmem with hmem | hmem
  · cases stop with
    | false => exact List.not_mem_nil hmem
    | true => exact absurd (List.mem_singleton.1 hmem) (by decide)
  · rcases List.mem_append.1 hmem with hmem | hmem
    · exact not_angle_lead n hmem
    · exact (List.mem_append.1 hmem).elim (not_angle_of_valid n.localPart.valid) hy.angle

theorem sealed_token (stop : Bool) (n : Name) (hy : Behind y) (before : Text) :
    Sealed (before ++ (tokenLead stop n ++ (n.localPart.chars ++ y))) := by
  have hshape : tokenLead stop n ++ (n.localPart.chars ++ y) =
      '<' :: ((if stop then ['/'] else []) ++ (n.lead ++ (n.localPart.chars ++ y))) := by
    simp [tokenLead]
  rw [hshape]
  refine sealed_tag before (not_angle_token stop n hy) ?_
  rw [Bool.eq_false_iff]
  intro hall
  have hclosed := List.all_eq_true.1 hall '>' (by simp [hy.closed])
  exact absurd hclosed (by decide)

/-- Behind the name there is no further position in the tag. -/
theorem clear_behind_name (stop : Bool) (n : Name) (hy : Behind y) (name before rest : Text) :
    Clear (isOpen name) (before ++ tokenLead stop n ++ n.localPart.chars) y rest := by
  obtain ⟨t, d, z, rfl, ht, hd⟩ := hy.cut
  obtain ⟨s, c, hchars⟩ : ∃ s c, n.localPart.chars = s ++ [c] :=
    ⟨_, _, (List.dropLast_append_getLast n.localPart.nonempty).symm⟩
  have hc : isNameChar c = true :=
    List.all_eq_true.1 n.localPart.valid c (hchars ▸ List.mem_append_right s List.mem_cons_self)
  have hnear : Clear (isOpen name) (before ++ tokenLead stop n ++ n.localPart.chars) (t ++ [d])
      (z ++ rest) := by
    rw [hchars, ← List.append_assoc]
    refine clear_inside ⟨(ne_of_isNameChar hc).1, (ne_of_isNameChar hc).2.1⟩ ?_ name _ _
    rwa [List.dropLast_concat]
  have hangle : '<' ∉ t ++ [d] ∧ '<' ∉ z := by
    constructor
    · intro hmem
      refine hy.angle ?_
      rcases List.mem_append.1 hmem with hmem | hmem
      · exact List.mem_append_left _ hmem
      · exact List.mem_append_right t (List.mem_singleton.1 hmem ▸ List.mem_cons_self)
    · exact fun hmem => hy.angle (List.mem_append_right t (List.mem_cons_of_mem d hmem))
  have hsealed : Sealed (before ++ tokenLead stop n ++ n.localPart.chars ++ (t ++ [d])) := by
    have hshape : before ++ tokenLead stop n ++ n.localPart.chars ++ (t ++ [d]) =
        before ++ '<' :: (((if stop then ['/'] else []) ++ n.lead ++ n.localPart.chars) ++ (t ++ [d])) := by
      simp [tokenLead]
    rw [hshape]
    refine sealed_tag before ?_ ?_
    · intro hmem
      rcases List.mem_append.1 hmem with hmem | hmem
      · refine not_angle_token stop n hy ?_
        rw [← List.append_assoc, ← List.append_assoc]
        exact List.mem_append_left _ hmem
      · exact hangle.1 hmem
    · simp [hd]
  have hshape : t ++ d :: z = (t ++ [d]) ++ z := by simp
  rw [hshape]
  exact hnear.append (clear_sealed hsealed hangle.2 name rest)

/-- A tag of another name is passed over, and so is an end tag without a namespace. -/
theorem clear_token (hname : name.all isNameChar = true) (hne : name ≠ []) (h : Sealed before) (stop : Bool)
    (n : Name) (hy : Behind y) (hother : n.localPart.chars = name → (!stop || n.space.isSome) = false)
    (rest : Text) : Clear (isOpen name) before (tokenLead stop n ++ (n.localPart.chars ++ y)) rest := by
  refine (clear_lead hname hne stop n before _).append ?_
  refine Clear.append ?_ (clear_behind_name stop n hy name before rest)
  obtain ⟨d, z, rfl, hd⟩ := hy.cons
  obtain ⟨c, s, hchars, hc, hs⟩ := n.localPart.cons
  have hfirst : isOpen name (before ++ tokenLead stop n) (n.localPart.chars ++ d :: (z ++ rest)) = false := by
    rw [isOpen_at hname n.localPart.valid (isNameChar_of_endsName hd), opens_lead h]
    by_cases heq : n.localPart.chars = name
    · rw [hother heq, Bool.and_false, Bool.and_false]
    · have hbeq : (name == n.localPart.chars) = false := by
        rw [beq_eq_false_iff_ne]
        exact fun hname => heq hname.symm
      rw [hbeq, Bool.false_and]
  rw [hchars] at hfirst ⊢
  refine .cons hfirst ?_
  refine clear_inside ⟨(ne_of_isNameChar hc).1, (ne_of_isNameChar hc).2.1⟩ (fun e he => ?_) name _ _
  have he' := ne_of_isNameChar (hs e (List.dropLast_subset s he))
  exact ⟨he'.1, he'.2.1⟩

/-- Of its own name it is a position. -/
theorem isOpen_token (hname : name.all isNameChar = true) (h : Sealed before) (stop : Bool) (n : Name)
    (hy : Behind y) (hown : n.localPart.chars = name) (hopens : (!stop || n.space.isSome) = true)
    (rest : Text) : isOpen name (before ++ tokenLead stop n) (n.localPart.chars ++ (y ++ rest)) = true := by
  obtain ⟨d, z, rfl, hd⟩ := hy.cons
  rw [List.cons_append, isOpen_at hname n.localPart.valid (isNameChar_of_endsName hd), opens_lead h, hopens,
    hown, hd, beq_self_eq_true]
  rfl

/-! ### The tags of a document -/

theorem isPrefixChar_of_blank (h : isWhitespace c = true) : isPrefixChar c = false := by
  unfold isPrefixChar
  rw [h]
  simp

theorem not_angle_of_blank (b : Blank) : '<' ∉ b.chars := by
  intro hmem
  have hblank := List.all_eq_true.1 b.valid _ hmem
  exact absurd hblank (by decide)

theorem not_angle_attribute (a : Attribute) : '<' ∉ a.print := by
  have hname : '<' ∉ a.name.print := by
    intro hmem
    rcases List.mem_append.1 hmem with hmem | hmem
    · exact not_angle_lead a.name hmem
    · exact not_angle_of_valid a.name.localPart.valid hmem
  have hvalue : '<' ∉ a.value := by
    intro hmem
    have hvalid := List.all_eq_true.1 a.valid _ hmem
    exact absurd hvalid (by simp)
  have hquote : '<' ≠ a.quote.char := by cases a.quote <;> decide
  have hgap := not_angle_of_blank a.gap
  have hbefore := not_angle_of_blank a.beforeEq
  have hafter := not_angle_of_blank a.afterEq
  unfold Attribute.print
  simp [hgap, hname, hbefore, hafter, hquote, hvalue]

theorem not_angle_tail (tag : Tag) : '<' ∉ tag.tail := by
  intro hmem
  rcases List.mem_append.1 hmem with hmem | hmem
  · obtain ⟨a, -, ha⟩ := List.mem_flatMap.1 hmem
    exact not_angle_attribute a ha
  · exact not_angle_of_blank tag.trailing hmem

theorem Tag.tail_cases (tag : Tag) : tag.tail = [] ∨ ∃ c z, tag.tail = c :: z ∧ isWhitespace c = true := by
  unfold Tag.tail
  cases tag.attrs with
  | nil =>
    rw [List.flatMap_nil, List.nil_append]
    cases hchars : tag.trailing.chars with
    | nil => exact Or.inl rfl
    | cons c z =>
      have hvalid := tag.trailing.valid
      rw [hchars, isBlank, List.all_cons, Bool.and_eq_true] at hvalid
      exact Or.inr ⟨c, z, rfl, hvalid.1⟩
  | cons a attrs =>
    obtain ⟨c, gap, hgap⟩ := List.exists_cons_of_ne_nil a.separated
    have hvalid := a.gap.valid
    rw [hgap, isBlank, List.all_cons, Bool.and_eq_true] at hvalid
    rw [List.flatMap_cons, Attribute.print, hgap]
    exact Or.inr ⟨c, _, rfl, hvalid.1⟩

theorem behind_tag (tag : Tag) (selfClosing : Bool) : Behind (tag.tail ++ tagEnd selfClosing) := by
  have hend : '<' ∉ tagEnd selfClosing ∧ '>' ∈ tagEnd selfClosing := by
    cases selfClosing <;> decide
  refine ⟨?_, ?_, ?_, List.mem_append_right _ hend.2⟩
  · intro d hd
    rcases tag.tail_cases with htail | ⟨c, z, htail, hc⟩
    · rw [htail] at hd
      cases selfClosing with
      | false =>
        obtain rfl : '>' = d := Option.some.inj hd
        decide
      | true =>
        obtain rfl : '/' = d := Option.some.inj hd
        decide
    · rw [htail] at hd
      obtain rfl : c = d := Option.some.inj hd
      unfold endsName
      rw [hc]
      rfl
  · rcases tag.tail_cases with htail | ⟨c, z, htail, hc⟩
    · rw [htail]
      cases selfClosing with
      | false => exact ⟨[], '>', [], rfl, by simp, by decide⟩
      | true => exact ⟨['/'], '>', [], rfl, by simp, by decide⟩
    · rw [htail]
      exact ⟨[], c, z ++ tagEnd selfClosing, rfl, by simp, isPrefixChar_of_blank hc⟩
  · intro hmem
    exact (List.mem_append.1 hmem).elim (not_angle_tail tag) hend.1

theorem behind_end : Behind ['>'] :=
  ⟨fun _ h => Option.some.inj h ▸ by decide, ⟨[], '>', [], rfl, by simp, by decide⟩, by decide, by decide⟩

theorem Tag.print_eq (tag : Tag) (selfClosing : Bool) :
    tag.print selfClosing =
      tokenLead false tag.name ++ (tag.name.localPart.chars ++ (tag.tail ++ tagEnd selfClosing)) := by
  simp [Tag.print, Name.print, tokenLead]

theorem Name.printEnd_eq (name : Name) :
    name.printEnd = tokenLead true name ++ (name.localPart.chars ++ ['>']) := by
  simp [Name.printEnd, Name.print, tokenLead]

end Tokens

end Metadata
