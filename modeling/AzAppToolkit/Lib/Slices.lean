import AzAppToolkit.Lib.Bytes

set_option autoImplicit false

/-! # Byte offsets into a text

Rust's `&s[i..]`, `&s[..i]` and `&s[a..b]` on a `&str`. Each of them panics where an offset lies
past the end, inside a character, or before the other one; here it is undefined there. At the end of
a prefix all of them are defined, and the byte that stands there is the first byte of what follows. -/

namespace Slices

/-- `str::len`. -/
def byteLength : Text → Nat
  | [] => 0
  | c :: s => c.utf8Size + byteLength s

/-- `&s[i..]`. -/
def suffixAt : Text → Nat → Option Text
  | s, 0 => some s
  | [], _ + 1 => none
  | c :: s, i + 1 => if c.utf8Size ≤ i + 1 then suffixAt s (i + 1 - c.utf8Size) else none

/-- `&s[..i]`. -/
def prefixAt : Text → Nat → Option Text
  | _, 0 => some []
  | [], _ + 1 => none
  | c :: s, i + 1 =>
    if c.utf8Size ≤ i + 1 then (prefixAt s (i + 1 - c.utf8Size)).map (fun p => c :: p) else none

/-- `&s[a..b]`. -/
def slice (s : Text) (a b : Nat) : Option Text := (prefixAt s b).bind (fun p => suffixAt p a)

/-- `s.as_bytes()[i]`. -/
def byteAt (s : Text) (i : Nat) : Option UInt8 := (Bytes.encode s)[i]?

/-! ## Offsets at the end of a prefix -/

@[simp] theorem byteLength_nil : byteLength [] = 0 := rfl

@[simp] theorem byteLength_cons (c : Char) (s : Text) :
    byteLength (c :: s) = c.utf8Size + byteLength s := rfl

@[simp] theorem byteLength_append (s t : Text) : byteLength (s ++ t) = byteLength s + byteLength t := by
  induction s with
  | nil => simp
  | cons c s ih => simp [ih, Nat.add_assoc]

@[simp] theorem length_encode (s : Text) : (Bytes.encode s).length = byteLength s := by
  induction s with
  | nil => rfl
  | cons c s ih =>
    simp only [Bytes.encode] at ih
    simp [Bytes.encode, ih]

theorem length_le_byteLength (s : Text) : s.length ≤ byteLength s := by
  induction s with
  | nil => exact Nat.le_refl _
  | cons c s ih =>
    have hpos := c.utf8Size_pos
    rw [List.length_cons, byteLength_cons]
    omega

/-- One character further on. -/
theorem suffixAt_cons (c : Char) (s : Text) (i : Nat) :
    suffixAt (c :: s) (c.utf8Size + i) = suffixAt s i := by
  obtain ⟨n, hn⟩ := Nat.exists_eq_succ_of_ne_zero (Nat.ne_of_gt c.utf8Size_pos)
  have hoff : c.utf8Size + i = n + i + 1 := by omega
  rw [hoff, suffixAt, if_pos (by omega)]
  congr 1
  omega

theorem prefixAt_cons (c : Char) (s : Text) (i : Nat) :
    prefixAt (c :: s) (c.utf8Size + i) = (prefixAt s i).map (fun p => c :: p) := by
  obtain ⟨n, hn⟩ := Nat.exists_eq_succ_of_ne_zero (Nat.ne_of_gt c.utf8Size_pos)
  have hoff : c.utf8Size + i = n + i + 1 := by omega
  rw [hoff, prefixAt, if_pos (by omega)]
  congr 2
  omega

@[simp] theorem suffixAt_append (p t : Text) : suffixAt (p ++ t) (byteLength p) = some t := by
  induction p with
  | nil => simp [suffixAt]
  | cons c p ih => simp [suffixAt_cons, ih]

@[simp] theorem prefixAt_append (p t : Text) : prefixAt (p ++ t) (byteLength p) = some p := by
  induction p with
  | nil => simp [prefixAt]
  | cons c p ih => simp [prefixAt_cons, ih]

theorem slice_append (p m t : Text) :
    slice (p ++ (m ++ t)) (byteLength p) (byteLength (p ++ m)) = some m := by
  rw [slice, ← List.append_assoc, prefixAt_append]
  exact suffixAt_append p m

/-! ## The byte at an offset -/

/-- The first byte of a character: itself if it is ASCII, else no ASCII byte. -/
theorem head_utf8EncodeChar (c : Char) : ∃ b rest, String.utf8EncodeChar c = b :: rest ∧
    ((c.toNat < 128 ∧ b.toNat = c.toNat) ∨ (128 ≤ c.toNat ∧ 128 ≤ b.toNat)) := by
  have hnat : c.toNat = c.val.toNat := rfl
  rw [hnat]
  unfold String.utf8EncodeChar
  dsimp only
  split
  · next h =>
    refine ⟨_, _, rfl, Or.inl ⟨by omega, ?_⟩⟩
    rw [UInt8.toNat_ofNat']
    omega
  · split
    · refine ⟨_, _, rfl, Or.inr ⟨by omega, ?_⟩⟩
      rw [UInt8.toNat_ofNat']
      omega
    · split
      · refine ⟨_, _, rfl, Or.inr ⟨by omega, ?_⟩⟩
        rw [UInt8.toNat_ofNat']
        omega
      · refine ⟨_, _, rfl, Or.inr ⟨by omega, ?_⟩⟩
        rw [UInt8.toNat_ofNat']
        omega

theorem byteAt_append (p t : Text) : byteAt (p ++ t) (byteLength p) = byteAt t 0 := by
  rw [byteAt, Bytes.encode, List.flatMap_append, ← length_encode p]
  exact (List.getElem?_append_right (Nat.le_refl _)).trans (by rw [Nat.sub_self]; rfl)

@[simp] theorem byteAt_nil (i : Nat) : byteAt [] i = none := rfl

/-- The byte at the start of a character tells an ASCII character from every other one. -/
theorem byteAt_head (c : Char) (t : Text) : ∃ b, byteAt (c :: t) 0 = some b ∧
    ∀ d : Char, d.toNat < 128 → (b.toNat = d.toNat ↔ c = d) := by
  obtain ⟨b, rest, henc, hb⟩ := head_utf8EncodeChar c
  refine ⟨b, ?_, ?_⟩
  · simp [byteAt, Bytes.encode, henc]
  · intro d hd
    rw [← Char.toNat_inj]
    omega

theorem utf8Size_ascii {c : Char} (h : c.toNat < 128) : c.utf8Size = 1 := by
  rw [Char.utf8Size_eq_one_iff, UInt32.le_iff_toNat_le]
  have hnat : c.toNat = c.val.toNat := rfl
  rw [hnat] at h
  exact Nat.le_of_lt_succ h

end Slices
