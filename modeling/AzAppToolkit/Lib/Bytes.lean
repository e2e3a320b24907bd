import AzAppToolkit.Lib.Text

set_option autoImplicit false

/-! # Bytes and the texts they decode to

`String::from_utf8_lossy` and the decoding of `application/x-www-form-urlencoded`. The lossy decoder
replaces each maximal part of an ill-formed sequence by one `U+FFFD`; a sequence never reaches across an
ASCII byte, so decoding splits there. -/

namespace Bytes

/-! ## UTF-8 -/

/-- `char::REPLACEMENT_CHARACTER`. -/
def replacement : Char := Char.ofNat 0xFFFD

/-- Of a lead byte: how many bytes are to follow, and between which bounds the first of them lies. -/
def lead (b : UInt8) : Option (Nat × Nat × Nat) :=
  let n := b.toNat
  if 0xC2 ≤ n && n ≤ 0xDF then some (1, 0x80, 0xBF)
  else if n == 0xE0 then some (2, 0xA0, 0xBF)
  else if n == 0xED then some (2, 0x80, 0x9F)
  else if 0xE1 ≤ n && n ≤ 0xEF then some (2, 0x80, 0xBF)
  else if n == 0xF0 then some (3, 0x90, 0xBF)
  else if 0xF1 ≤ n && n ≤ 0xF3 then some (3, 0x80, 0xBF)
  else if n == 0xF4 then some (3, 0x80, 0x8F)
  else none

/-- How many of the `owed` bytes are there. -/
def following : (owed lo hi : Nat) → List UInt8 → Nat
  | 0, _, _, _ => 0
  | _ + 1, _, _, [] => 0
  | owed + 1, lo, hi, b :: rest =>
    if lo ≤ b.toNat && b.toNat ≤ hi then following owed 0x80 0xBF rest + 1 else 0

/-- The character that starts here, and how many bytes behind the first it takes. -/
def decodeChar (b : UInt8) (rest : List UInt8) : Char × Nat :=
  if b.toNat < 0x80 then (Char.ofNat b.toNat, 0)
  else match lead b with
    | none => (replacement, 0)
    | some (owed, lo, hi) =>
      let got := following owed lo hi rest
      if got = owed then
        (Char.ofNat ((rest.take owed).foldl (fun v b => v * 64 + b.toNat % 64)
          (b.toNat % 2 ^ (6 - owed))), got)
      else (replacement, got)

/-- The text, with some bytes already taken. -/
def decodeFrom : Nat → List UInt8 → Text
  | _, [] => []
  | taken + 1, _ :: rest => decodeFrom taken rest
  | 0, b :: rest => (decodeChar b rest).1 :: decodeFrom (decodeChar b rest).2 rest

/-- `String::from_utf8_lossy`. -/
def decodeLossy (bytes : List UInt8) : Text := decodeFrom 0 bytes

/-- `str::as_bytes`. -/
def encode (s : Text) : List UInt8 := s.flatMap String.utf8EncodeChar

theorem following_le (owed lo hi : Nat) (rest : List UInt8) : following owed lo hi rest ≤ rest.length := by
  induction owed generalizing lo hi rest with
  | zero => exact Nat.zero_le _
  | succ owed ih =>
    cases rest with
    | nil => exact Nat.le_refl _
    | cons b rest =>
      unfold following
      split
      · exact Nat.succ_le_succ (ih _ _ rest)
      · exact Nat.zero_le _

/-- No byte of a sequence is sought behind an ASCII byte. -/
theorem following_append {a : UInt8} (ha : a.toNat < 0x80) (owed : Nat) {lo hi : Nat} (hlo : 0x80 ≤ lo)
    (pre post : List UInt8) : following owed lo hi (pre ++ a :: post) = following owed lo hi pre := by
  induction owed generalizing lo hi pre with
  | zero => rfl
  | succ owed ih =>
    cases pre with
    | nil =>
      have hnot : ¬ (decide (lo ≤ a.toNat) && decide (a.toNat ≤ hi)) = true := by
        simp only [Bool.and_eq_true, decide_eq_true_eq]
        omega
      show (if lo ≤ a.toNat && a.toNat ≤ hi then _ else 0) = 0
      rw [if_neg hnot]
    | cons b pre =>
      show (if lo ≤ b.toNat && b.toNat ≤ hi then following owed 0x80 0xBF (pre ++ a :: post) + 1 else 0) =
        if lo ≤ b.toNat && b.toNat ≤ hi then following owed 0x80 0xBF pre + 1 else 0
      rw [ih (Nat.le_refl _)]

theorem lead_lo {b : UInt8} {owed lo hi : Nat} (h : lead b = some (owed, lo, hi)) : 0x80 ≤ lo := by
  unfold lead at h
  dsimp only at h
  repeat' split at h
  all_goals cases h <;> decide

theorem decodeChar_le (b : UInt8) (rest : List UInt8) : (decodeChar b rest).2 ≤ rest.length := by
  unfold decodeChar
  split
  · exact Nat.zero_le _
  · split
    · exact Nat.zero_le _
    · next owed lo hi hlead =>
      dsimp only
      split
      · exact following_le _ _ _ _
      · exact following_le _ _ _ _

theorem decodeChar_append {a : UInt8} (ha : a.toNat < 0x80) (b : UInt8) (pre post : List UInt8) :
    decodeChar b (pre ++ a :: post) = decodeChar b pre := by
  unfold decodeChar
  split
  · rfl
  · split
    · rfl
    · next owed lo hi hlead =>
      rw [following_append ha owed (lead_lo hlead)]
      dsimp only
      split
      · next hall =>
        have hle : owed ≤ pre.length := hall ▸ following_le owed lo hi pre
        rw [List.take_append_of_le_length hle]
      · rfl

/-- Decoding splits at an ASCII byte. -/
theorem decodeFrom_append {a : UInt8} (ha : a.toNat < 0x80) (pre post : List UInt8) {taken : Nat}
    (htaken : taken ≤ pre.length) :
    decodeFrom taken (pre ++ a :: post) = decodeFrom taken pre ++ Char.ofNat a.toNat :: decodeLossy post := by
  induction pre generalizing taken with
  | nil =>
    obtain rfl : taken = 0 := Nat.le_zero.1 htaken
    have hchar : decodeChar a post = (Char.ofNat a.toNat, 0) := by
      unfold decodeChar
      rw [if_pos ha]
    show (decodeChar a post).1 :: decodeFrom (decodeChar a post).2 post = _
    rw [hchar]
    rfl
  | cons b pre ih =>
    cases taken with
    | succ taken => exact ih (Nat.le_of_succ_le_succ htaken)
    | zero =>
      show (decodeChar b (pre ++ a :: post)).1 ::
        decodeFrom (decodeChar b (pre ++ a :: post)).2 (pre ++ a :: post) = _
      rw [decodeChar_append ha, ih (decodeChar_le b pre)]
      rfl

theorem decodeLossy_append {a : UInt8} (ha : a.toNat < 0x80) (pre post : List UInt8) :
    decodeLossy (pre ++ a :: post) = decodeLossy pre ++ Char.ofNat a.toNat :: decodeLossy post :=
  decodeFrom_append ha pre post (Nat.zero_le _)

/-! ## Forms -/

def hexValue (b : UInt8) : Option Nat :=
  let n := b.toNat
  if 48 ≤ n && n ≤ 57 then some (n - 48)
  else if 65 ≤ n && n ≤ 70 then some (n - 55)
  else if 97 ≤ n && n ≤ 102 then some (n - 87)
  else none

/-- A `%` without two hexadecimal digits behind it is itself. -/
def percentDecode : List UInt8 → List UInt8
  | [] => []
  | [b] => [b]
  | [b, b'] => [b, b']
  | b :: high :: low :: rest =>
    if b = 37 then
      match hexValue high, hexValue low with
      | some h, some l => UInt8.ofNat (16 * h + l) :: percentDecode rest
      | _, _ => b :: percentDecode (high :: low :: rest)
    else b :: percentDecode (high :: low :: rest)

/-- `+` is a space, then percent-decoding, then UTF-8. -/
def formDecode (bytes : List UInt8) : Text :=
  decodeLossy (percentDecode (bytes.map (fun b => if b = 43 then 32 else b)))

/-- One `name=value` of a form; what has no `=` is a name. -/
def formPair (bytes : List UInt8) : Text × Text :=
  (formDecode (bytes.takeWhile (· != 61)), formDecode ((bytes.dropWhile (· != 61)).drop 1))

/-- `form_urlencoded::parse`: the pairs between the `&`, where there is anything. -/
def formParse (bytes : List UInt8) : List (Text × Text) :=
  ((bytes.splitOn 38).filter (fun part => !part.isEmpty)).map formPair

end Bytes
