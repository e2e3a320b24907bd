import AzAppToolkit.Exchange.Opath

set_option autoImplicit false

/-! # Recipient filters as trees

What a recipient filter means, independent of how the toolkit reads it: a tree of comparisons, the
texts it can be written as, and the set of recipients it denotes. The writing is as free as OPATH
allows: any ASCII whitespace and letter case, parentheses anywhere, either quote. It leaves the
precedence of the connectives open, so a text may be the writing of several trees; what is proved
about a text holds for each of them. -/

namespace Opath

variable (uni : Unicode)

/-! ## Trees -/

/-- A quoted operand: in single quotes, where an inner quote is doubled, or in double quotes. -/
inductive Literal where
  | single (text : Text)
  | double (text : Text) (noQuote : '"' ∉ text)

def Literal.value : Literal → Text
  | .single text => text
  | .double text _ => text

def Literal.print : Literal → Text
  | .single text => '\'' :: (escapeOpath text ++ ['\''])
  | .double text _ => '"' :: (text ++ ['"'])

/-- A character of a property name. -/
def wordChar (c : Char) : Bool := uni.isAlphanumeric c || c == '_'

/-- `Property -op literal`. -/
structure Comparison where
  property : Text
  op : Text
  literal : Literal
  property_ne : property ≠ []
  property_word : ∀ c ∈ property, wordChar uni c = true
  op_ne : op ≠ []
  op_letters : ∀ c ∈ op, c.isAlpha = true

inductive Filter where
  | cmp (c : Comparison uni)
  | and (l r : Filter)
  | or (l r : Filter)
  | not (f : Filter)

inductive Connective where
  | and
  | or
  | not
deriving DecidableEq

def Connective.word : Connective → Text
  | .and => "-and".toList
  | .or => "-or".toList
  | .not => "-not".toList

variable {uni}

def Filter.comparisons : Filter uni → List (Comparison uni)
  | .cmp c => [c]
  | .and l r | .or l r => l.comparisons ++ r.comparisons
  | .not f => f.comparisons

/-- The connectives of a filter, in the order they are written. -/
def Filter.connectives : Filter uni → List Connective
  | .cmp _ => []
  | .and l r => l.connectives ++ .and :: r.connectives
  | .or l r => l.connectives ++ .or :: r.connectives
  | .not f => .not :: f.connectives

/-- A `MemberOfGroup -eq …` comparison, in any letter case. -/
def Comparison.IsGroup (c : Comparison uni) : Prop :=
  toAsciiLowercase c.property = memberOfGroupKey ∧ toAsciiLowercase c.op = "eq".toList

instance (c : Comparison uni) : Decidable c.IsGroup := inferInstanceAs (Decidable (_ ∧ _))

/-- A pure disjunction of `MemberOfGroup -eq …` comparisons. -/
def Filter.IsGroupChain : Filter uni → Prop
  | .cmp c => c.IsGroup
  | .or l r => l.IsGroupChain ∧ r.IsGroupChain
  | .and _ _ | .not _ => False

/-- The decoded operands. -/
def Filter.operands (f : Filter uni) : List Text := f.comparisons.map (fun c => c.literal.value)

theorem Filter.isGroupChain_iff (f : Filter uni) :
    f.IsGroupChain ↔ (∀ c ∈ f.comparisons, c.IsGroup) ∧ ∀ k ∈ f.connectives, k = .or := by
  induction f with
  | cmp c => simp [IsGroupChain, comparisons, connectives]
  | and l r =>
    refine ⟨False.elim, fun h => ?_⟩
    exact absurd (h.2 .and (by simp [connectives])) (by decide)
  | or l r ihl ihr =>
    simp only [IsGroupChain, comparisons, connectives, ihl, ihr, List.mem_append, List.mem_cons]
    constructor
    · rintro ⟨⟨hl, hl'⟩, hr, hr'⟩
      exact ⟨fun c hc => hc.elim (hl c) (hr c),
        fun k hk => hk.elim (hl' k) (fun hk => hk.elim id (hr' k))⟩
    · rintro ⟨hc, hk⟩
      exact ⟨⟨fun c h => hc c (Or.inl h), fun k h => hk k (Or.inl h)⟩,
        fun c h => hc c (Or.inr h), fun k h => hk k (Or.inr (Or.inr h))⟩
  | not f =>
    refine ⟨False.elim, fun h => ?_⟩
    exact absurd (h.2 .not (by simp [connectives])) (by decide)

/-! ## What a filter denotes -/

/-- The recipients a comparison selects, by its property and operator in lower case and its decoded
    operand. -/
abbrev Meaning (R : Type) := (property op value : Text) → Set R

def Comparison.denote {R : Type} (m : Meaning R) (c : Comparison uni) : Set R :=
  m (toAsciiLowercase c.property) (toAsciiLowercase c.op) c.literal.value

def Filter.denote {R : Type} (m : Meaning R) : Filter uni → Set R
  | .cmp c => c.denote m
  | .and l r => l.denote m ∩ r.denote m
  | .or l r => l.denote m ∪ r.denote m
  | .not f => (f.denote m)ᶜ

/-- A pure disjunction selects the members of the groups it names. -/
theorem Filter.IsGroupChain.mem_denote {f : Filter uni} (h : f.IsGroupChain) {R : Type}
    (m : Meaning R) (r : R) :
    r ∈ f.denote m ↔ ∃ dn ∈ f.operands, r ∈ m memberOfGroupKey "eq".toList dn := by
  induction f with
  | cmp c =>
    obtain ⟨hprop, hop⟩ := h
    simp [Filter.denote, Comparison.denote, hprop, hop, Filter.operands, Filter.comparisons]
  | and l r => exact h.elim
  | or l r ihl ihr =>
    simp only [Filter.denote, Set.mem_union, ihl h.1, ihr h.2, Filter.operands, Filter.comparisons,
      List.map_append, List.mem_append]
    constructor
    · rintro (⟨dn, hdn, hr⟩ | ⟨dn, hdn, hr⟩)
      · exact ⟨dn, Or.inl hdn, hr⟩
      · exact ⟨dn, Or.inr hdn, hr⟩
    · rintro ⟨dn, hdn | hdn, hr⟩
      · exact Or.inl ⟨dn, hdn, hr⟩
      · exact Or.inr ⟨dn, hdn, hr⟩
  | not f => exact h.elim

/-! ## The texts of a filter -/

/-- ASCII whitespace, possibly none. -/
def Blank (w : Text) : Prop := ∀ c ∈ w, isAsciiWhitespace c = true

/-- `w` is the connective, in some letter case. -/
def IsWord (k : Connective) (w : Text) : Prop := toAsciiLowercase w = k.word

/-- The text does not go on a word it is put after. -/
def StartsApart (uni : Unicode) (s : Text) : Prop := ∀ c, s.head? = some c → wordChar uni c = false

/-- `Prints f s`: the text `s` is a way to write `f`. -/
inductive Prints : Filter uni → Text → Prop
  | cmp (c : Comparison uni) {w w' : Text} (hw : Blank w) (hw' : Blank w') :
      Prints (.cmp c) (c.property ++ (w ++ ('-' :: c.op ++ (w' ++ c.literal.print))))
  | pad {f : Filter uni} {s w w' : Text} (hs : Prints f s) (hw : Blank w) (hw' : Blank w') :
      Prints f (w ++ (s ++ w'))
  | paren {f : Filter uni} {s : Text} (hs : Prints f s) : Prints f ('(' :: (s ++ [')']))
  | and {l r : Filter uni} {s s' w : Text} (hl : Prints l s) (hr : Prints r s')
      (hw : IsWord .and w) (hapart : StartsApart uni s') : Prints (.and l r) (s ++ (w ++ s'))
  | or {l r : Filter uni} {s s' w : Text} (hl : Prints l s) (hr : Prints r s')
      (hw : IsWord .or w) (hapart : StartsApart uni s') : Prints (.or l r) (s ++ (w ++ s'))
  | not {f : Filter uni} {s w : Text} (hs : Prints f s) (hw : IsWord .not w)
      (hapart : StartsApart uni s) : Prints (.not f) (w ++ s)

end Opath
