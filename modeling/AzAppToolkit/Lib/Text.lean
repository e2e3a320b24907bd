import Mathlib

set_option autoImplicit false

/-! # Texts

A `&str` as the list of its characters, with the operations of the Rust standard library that the
toolkit uses on strings. What these take from the Unicode tables, `char::is_alphanumeric` and
`str::to_lowercase`, is a parameter, of which only the ASCII part is fixed. -/

/-- A `&str`, as its characters. -/
abbrev Text := List Char

/-- The Unicode tables the source consults. -/
structure Unicode where
  isAlphanumeric : Char → Bool
  toLowercase : Text → Text
  isAlphanumeric_ascii : ∀ c : Char, c.toNat < 128 → isAlphanumeric c = c.isAlphanum

/-- `u8::is_ascii_whitespace`: space, tab, line feed, form feed, carriage return. -/
def isAsciiWhitespace (c : Char) : Bool :=
  c.toNat == 32 || c.toNat == 9 || c.toNat == 10 || c.toNat == 12 || c.toNat == 13

/-- `char::is_whitespace`: the Unicode property `White_Space`. -/
def isWhitespace (c : Char) : Bool :=
  let n := c.toNat
  (9 ≤ n && n ≤ 13) || n == 32 || n == 0x85 || n == 0xA0 || n == 0x1680 ||
    (0x2000 ≤ n && n ≤ 0x200A) || n == 0x2028 || n == 0x2029 || n == 0x202F || n == 0x205F ||
    n == 0x3000

/-- `str::to_ascii_lowercase`. -/
def toAsciiLowercase (s : Text) : Text := s.map Char.toLower

/-- `s.trim().is_empty()`. -/
def isBlank (s : Text) : Bool := s.all isWhitespace

namespace Text

/-- `str::trim`. -/
def trim (s : Text) : Text := ((s.dropWhile isWhitespace).reverse.dropWhile isWhitespace).reverse

/-- `str::eq_ignore_ascii_case`. -/
def eqIgnoreAsciiCase (a b : Text) : Bool := toAsciiLowercase a == toAsciiLowercase b

/-- `str::contains`. -/
def contains (needle s : Text) : Bool := s.tails.any (fun t => needle.isPrefixOf t)

/-- `str::split` on the characters `p` holds of. -/
def splitOn (p : Char → Bool) : Text → List Text
  | [] => [[]]
  | c :: s =>
    if p c then [] :: splitOn p s
    else match splitOn p s with
      | [] => [[c]]
      | part :: parts => (c :: part) :: parts

/-- The text before the first `needle`, and the text after it. -/
def breakOn (needle : Text) : Text → Option (Text × Text)
  | [] => if needle.isPrefixOf [] then some ([], []) else none
  | c :: s =>
    if needle.isPrefixOf (c :: s) then some ([], (c :: s).drop needle.length)
    else (breakOn needle s).map (fun parts => (c :: parts.1, parts.2))

/-- `char::is_control`: the general category `Cc`. -/
def isControl (c : Char) : Bool := c.toNat < 32 || (127 ≤ c.toNat && c.toNat < 160)

/-- `str::parse` to an unsigned integer of `bits` bits: a `+` or nothing, then decimal digits. -/
def parseUnsigned (bits : Nat) (s : Text) : Option Nat :=
  let digits := if ['+'].isPrefixOf s then s.drop 1 else s
  if digits.isEmpty || digits.any (fun c => !c.isDigit) then none
  else
    let n := digits.foldl (fun n c => 10 * n + (c.toNat - '0'.toNat)) 0
    if n < 2 ^ bits then some n else none

/-- `[String]::join`. -/
def join (separator : Text) (parts : List Text) : Text := separator.intercalate parts

/-- `Vec::dedup`: drop consecutive repeats. -/
def dedup : List Text → List Text
  | a :: b :: rest => if a = b then dedup (b :: rest) else a :: dedup (b :: rest)
  | l => l

/-- `Vec::sort`. A `String` is ordered by its bytes, which is the order of its characters. -/
def sort (l : List Text) : List Text := l.mergeSort (fun a b => decide (a ≤ b))

theorem eqIgnoreAsciiCase_refl (a : Text) : eqIgnoreAsciiCase a a = true := beq_self_eq_true _

theorem eqIgnoreAsciiCase_iff {a b : Text} :
    eqIgnoreAsciiCase a b = true ↔ toAsciiLowercase a = toAsciiLowercase b := beq_iff_eq

theorem mem_dedup (l : List Text) (a : Text) : a ∈ dedup l ↔ a ∈ l := by
  induction l using dedup.induct with
  | case1 a' rest ih => simp [dedup, ih]
  | case2 a' b rest hne ih => simp [dedup, hne, ih]
  | case3 l hl => rw [dedup]; exact hl

theorem dedup_strict {l : List Text} (h : l.Pairwise (· ≤ ·)) : (dedup l).Pairwise (· < ·) := by
  induction l using dedup.induct with
  | case1 a rest ih =>
    rw [dedup, if_pos rfl]
    exact ih (List.pairwise_cons.1 h).2
  | case2 a b rest hne ih =>
    obtain ⟨hfirst, hrest⟩ := List.pairwise_cons.1 h
    rw [dedup, if_neg hne]
    refine List.pairwise_cons.2 ⟨fun c hc => ?_, ih hrest⟩
    have hab : a < b := lt_of_le_of_ne (hfirst b List.mem_cons_self) hne
    rcases List.mem_cons.1 ((mem_dedup _ _).1 hc) with rfl | hc
    · exact hab
    · exact lt_of_lt_of_le hab ((List.pairwise_cons.1 hrest).1 c hc)
  | case3 l hl =>
    rw [dedup]
    · match l with
      | [] => exact List.Pairwise.nil
      | [a] => exact List.pairwise_singleton _ _
      | a :: b :: rest => exact (hl a b rest rfl).elim
    · exact hl

theorem sort_sorted (l : List Text) : (sort l).Pairwise (· ≤ ·) := by
  have htrans : ∀ a b c : Text, decide (a ≤ b) = true → decide (b ≤ c) = true →
      decide (a ≤ c) = true := by
    intro a b c hab hbc
    rw [decide_eq_true_eq] at hab hbc ⊢
    exact le_trans hab hbc
  have htotal : ∀ a b : Text, (decide (a ≤ b) || decide (b ≤ a)) = true := by
    intro a b
    rw [Bool.or_eq_true, decide_eq_true_eq, decide_eq_true_eq]
    exact le_total a b
  exact (List.pairwise_mergeSort htrans htotal l).imp (fun hab => of_decide_eq_true hab)

theorem mem_sort (l : List Text) (a : Text) : a ∈ sort l ↔ a ∈ l := List.mem_mergeSort

end Text
