import AzAppToolkit.Lib.Substring
import AzAppToolkit.Lib.Separators

set_option autoImplicit false

/-! # Refresh tokens in chunks

The stored form of a refresh token, `azapptoolkit-auth/src/token_cache.rs`: the token is cut into
chunks that fit a credential of the smallest store, each in a keyring entry of its own. Chunk 0 declares
how many there are and, like every later chunk, carries the generation of the write. Two older forms,
which only count or do neither, are still read. -/

namespace Auth

/-! ## Sizes -/

/-- `char::len_utf16`. -/
def lenUtf16 (c : Char) : Nat := if c.toNat < 0x10000 then 1 else 2

/-- How Windows counts a text. -/
def utf16Bytes (s : Text) : Nat := (s.map (fun c => lenUtf16 c * 2)).sum

def maxChunkUtf16Bytes : Nat := 2048

def chunkGenPrefix : Text := "azapp2:".toList

def chunkCountPrefix : Text := "azapp1:".toList

def chunkGenLen : Nat := 16

/-- The longest header: the marker, a count of 20 digits, the generation and two colons. -/
def chunkHeaderReserveUtf16Bytes : Nat := 2 * (7 + 20 + 1 + chunkGenLen + 1)

def maxPayloadUtf16Bytes : Nat := maxChunkUtf16Bytes - chunkHeaderReserveUtf16Bytes

theorem lenUtf16_le (c : Char) : lenUtf16 c ≤ 2 := by
  unfold lenUtf16
  split <;> omega

theorem lenUtf16_ascii {c : Char} (h : c.toNat < 128) : lenUtf16 c = 1 := by
  unfold lenUtf16
  exact if_pos (by omega)

@[simp] theorem utf16Bytes_nil : utf16Bytes [] = 0 := rfl

@[simp] theorem utf16Bytes_cons (c : Char) (s : Text) :
    utf16Bytes (c :: s) = lenUtf16 c * 2 + utf16Bytes s := by
  simp [utf16Bytes]

@[simp] theorem utf16Bytes_append (s t : Text) : utf16Bytes (s ++ t) = utf16Bytes s + utf16Bytes t := by
  simp [utf16Bytes]

theorem utf16Bytes_ascii {s : Text} (h : ∀ c ∈ s, c.toNat < 128) : utf16Bytes s = 2 * s.length := by
  induction s with
  | nil => rfl
  | cons c s ih =>
    rw [utf16Bytes_cons, lenUtf16_ascii (h c List.mem_cons_self),
      ih (fun d hd => h d (List.mem_cons_of_mem c hd)), List.length_cons]
    omega

/-! ## Cutting a token -/

/-- A refresh token: a `String`, whose bytes an `isize` counts. -/
structure RefreshToken where
  text : Text
  fits : (text.map Char.utf8Size).sum < 2 ^ 63

/-- The loop of `split_into_chunks`: the characters left, the chunk begun and its size. -/
def splitLoop : Text → Text → Nat → List Text
  | [], current, _ => [current]
  | c :: rest, current, bytes =>
    let width := lenUtf16 c * 2
    if 0 < bytes ∧ maxPayloadUtf16Bytes < bytes + width then
      current :: splitLoop rest [c] width
    else splitLoop rest (current ++ [c]) (bytes + width)

def splitIntoChunks (token : Text) : List Text := splitLoop token [] 0

theorem flatten_splitLoop (s current : Text) (bytes : Nat) :
    (splitLoop s current bytes).flatten = current ++ s := by
  induction s generalizing current bytes with
  | nil => simp [splitLoop]
  | cons c rest ih =>
    unfold splitLoop
    dsimp only
    split
    · simp [ih]
    · rw [ih]
      simp

/-- The chunks hold the token, in order. -/
theorem flatten_splitIntoChunks (token : Text) : (splitIntoChunks token).flatten = token :=
  flatten_splitLoop token [] 0

theorem splitLoop_fits {s current : Text} {bytes : Nat} (hbytes : utf16Bytes current = bytes)
    (hle : bytes ≤ maxPayloadUtf16Bytes) :
    ∀ chunk ∈ splitLoop s current bytes, utf16Bytes chunk ≤ maxPayloadUtf16Bytes := by
  induction s generalizing current bytes with
  | nil =>
    intro chunk hchunk
    rw [List.mem_singleton.1 hchunk, hbytes]
    exact hle
  | cons c rest ih =>
    intro chunk hchunk
    have hwidth : lenUtf16 c * 2 ≤ 4 := by
      have := lenUtf16_le c
      omega
    have hone : 4 ≤ maxPayloadUtf16Bytes := by decide
    unfold splitLoop at hchunk
    dsimp only at hchunk
    split at hchunk
    · rcases List.mem_cons.1 hchunk with rfl | hrest
      · rw [hbytes]
        exact hle
      · exact ih (by simp) (by omega) chunk hrest
    · next hfit => exact ih (by simp [hbytes]) (by omega) chunk hchunk

theorem splitIntoChunks_fits {token chunk : Text} (h : chunk ∈ splitIntoChunks token) :
    utf16Bytes chunk ≤ maxPayloadUtf16Bytes :=
  splitLoop_fits utf16Bytes_nil (Nat.zero_le _) chunk h

theorem length_splitLoop (s current : Text) (bytes : Nat) :
    1 ≤ (splitLoop s current bytes).length ∧
      (splitLoop s current bytes).length ≤ s.length + 1 := by
  induction s generalizing current bytes with
  | nil => simp [splitLoop]
  | cons c rest ih =>
    unfold splitLoop
    dsimp only
    split
    · have := ih [c] (lenUtf16 c * 2)
      simp only [List.length_cons]
      omega
    · have := ih (current ++ [c]) (bytes + lenUtf16 c * 2)
      simp only [List.length_cons]
      omega

theorem splitIntoChunks_pos (token : Text) : 0 < (splitIntoChunks token).length :=
  (length_splitLoop token [] 0).1

/-- A `usize` counts the chunks of a token. -/
theorem RefreshToken.count_lt (token : RefreshToken) : (splitIntoChunks token.text).length < 2 ^ 64 := by
  have hsize : ∀ s : Text, s.length ≤ (s.map Char.utf8Size).sum := by
    intro s
    induction s with
    | nil => simp
    | cons c rest ih =>
      have := Char.utf8Size_pos c
      simp only [List.length_cons, List.map_cons, List.sum_cons]
      omega
  have hlen := (length_splitLoop token.text [] 0).2
  have hfits := token.fits
  have := hsize token.text
  unfold splitIntoChunks
  omega

/-! ## The entries of a token -/

/-- An account of a tenant. Entra issues both ids as GUIDs, so neither holds a separator of the
    labels. -/
structure Account where
  tenantId : Text
  accountOid : Text
  tenantId_plain : ':' ∉ tenantId
  accountOid_plain : '#' ∉ accountOid

/-- The label of chunk `idx`. Chunk 0 keeps the label of the days before chunking. -/
def chunkAccount (tenantId accountOid : Text) (idx : Nat) : Text :=
  if idx = 0 then tenantId ++ ':' :: accountOid
  else tenantId ++ ':' :: (accountOid ++ '#' :: Text.decimal idx)

def encodeChunk (idx total : Nat) (chunkGen payload : Text) : Text :=
  if idx = 0 then chunkGenPrefix ++ (Text.decimal total ++ ':' :: (chunkGen ++ ':' :: payload))
  else chunkGen ++ ':' :: payload

/-- How chunk 0 declared its set. -/
inductive ChunkZero where
  | generation (total : Nat) (chunkGen payload : Text)
  | count (total : Nat) (payload : Text)
  | legacy (payload : Text)
  | malformed

/-- The header of the current form, behind its marker. -/
def decodeGeneration (rest : Text) : Option ChunkZero := do
  let (count, rest) ← Text.breakOn [':'] rest
  let total ← Text.parseUnsigned 64 count
  let (chunkGen, payload) ← Text.breakOn [':'] rest
  some (.generation total chunkGen payload)

/-- The header of the previous form, behind its marker. -/
def decodeCount (rest : Text) : Option ChunkZero := do
  let (count, payload) ← Text.breakOn [':'] rest
  let total ← Text.parseUnsigned 64 count
  some (.count total payload)

def decodeChunkZero (stored : Text) : ChunkZero :=
  if chunkGenPrefix.isPrefixOf stored then
    (decodeGeneration (stored.drop chunkGenPrefix.length)).getD .malformed
  else if chunkCountPrefix.isPrefixOf stored then
    (decodeCount (stored.drop chunkCountPrefix.length)).getD (.legacy stored)
  else .legacy stored

/-- A generation: base64url characters, in the length of the header. -/
def IsChunkGen (g : Text) : Prop :=
  g.length = chunkGenLen ∧ ∀ c ∈ g, c.isAlphanum = true ∨ c = '-' ∨ c = '_'

/-! ## Reading what was written -/

theorem breakOn_colon {a b : Text} (h : ':' ∉ a) : Text.breakOn [':'] (a ++ ':' :: b) = some (a, b) := by
  induction a with
  | nil => simp [Text.breakOn]
  | cons c a ih =>
    have hc : ¬ ':' = c := fun heq => h (heq ▸ List.mem_cons_self)
    have ha : ':' ∉ a := fun hmem => h (List.mem_cons_of_mem c hmem)
    simp [Text.breakOn, hc, ih ha]

theorem decimal_natCast (n : Nat) : Text.decimal (n : Int) = Nat.toDigits 10 n := by
  unfold Text.decimal
  rw [if_neg (by omega), Int.natAbs_natCast]

theorem isDigit_of_mem_decimal {n : Nat} {c : Char} (h : c ∈ Text.decimal (n : Int)) : c.isDigit = true := by
  rw [decimal_natCast] at h
  exact Nat.isDigit_of_mem_toDigits (by decide) (by decide) h

theorem not_mem_decimal {n : Nat} {c : Char} (h : c.isDigit = false) : c ∉ Text.decimal (n : Int) := by
  intro hmem
  rw [isDigit_of_mem_decimal hmem] at h
  exact absurd h (by simp)

/-- A count reads back as itself. -/
theorem parseUnsigned_decimal {bits n : Nat} (h : n < 2 ^ bits) :
    Text.parseUnsigned bits (Text.decimal (n : Int)) = some n := by
  have hplus : ['+'].isPrefixOf (Text.decimal (n : Int)) = false := by
    rw [Bool.eq_false_iff, Ne, List.isPrefixOf_iff_prefix]
    intro hle
    exact not_mem_decimal (by decide) (hle.subset List.mem_cons_self)
  have hdigits : (Text.decimal (n : Int)).any (fun c => !c.isDigit) = false := by
    rw [List.any_eq_false]
    intro c hc
    rw [isDigit_of_mem_decimal hc]
    simp
  have hne : (Text.decimal (n : Int)).isEmpty = false := by
    rw [List.isEmpty_eq_false_iff, decimal_natCast]
    exact Nat.toDigits_ne_nil
  unfold Text.parseUnsigned
  simp only [hplus, hdigits, hne, Bool.false_eq_true, if_false, Bool.or_false]
  rw [decimal_natCast, ← Nat.ofDigitChars_eq_foldl, Nat.ofDigitChars_ten_toDigits, if_pos h]

theorem IsChunkGen.no_colon {g : Text} (h : IsChunkGen g) : ':' ∉ g := by
  intro hmem
  rcases h.2 ':' hmem with hc | hc | hc <;> exact absurd hc (by decide)

/-- Chunk 0 says how many chunks there are, and of which generation. -/
theorem decode_encodeChunk_zero {total : Nat} {chunkGen payload : Text} (htotal : total < 2 ^ 64)
    (hgen : IsChunkGen chunkGen) :
    decodeChunkZero (encodeChunk 0 total chunkGen payload) = .generation total chunkGen payload := by
  unfold decodeChunkZero encodeChunk
  rw [if_pos rfl, if_pos (List.isPrefixOf_iff_prefix.2 (List.prefix_append _ _)), List.drop_left]
  unfold decodeGeneration
  rw [breakOn_colon (not_mem_decimal (by decide))]
  simp [parseUnsigned_decimal htotal, breakOn_colon hgen.no_colon]

/-- A later chunk says of which generation it is. -/
theorem breakOn_encodeChunk {idx total : Nat} {chunkGen payload : Text} (hidx : idx ≠ 0)
    (hgen : IsChunkGen chunkGen) :
    Text.breakOn [':'] (encodeChunk idx total chunkGen payload) = some (chunkGen, payload) := by
  unfold encodeChunk
  rw [if_neg hidx]
  exact breakOn_colon hgen.no_colon

/-! ## Sizes of entries -/

theorem isAscii_of_isAlphanum {c : Char} (h : c.isAlphanum = true) : c.toNat < 128 := by
  unfold Char.isAlphanum Char.isAlpha Char.isUpper Char.isLower Char.isDigit at h
  simp only [Bool.or_eq_true, Bool.and_eq_true, decide_eq_true_eq, UInt32.le_iff_toNat_le] at h
  have hval : c.toNat = c.val.toNat := rfl
  have h90 : ('Z'.val).toNat = 90 := rfl
  have h122 : ('z'.val).toNat = 122 := rfl
  have h57 : ('9'.val).toNat = 57 := rfl
  omega

theorem IsChunkGen.utf16 {g : Text} (h : IsChunkGen g) : utf16Bytes g = 2 * chunkGenLen := by
  rw [← h.1]
  refine utf16Bytes_ascii (fun c hc => ?_)
  rcases h.2 c hc with hc | rfl | rfl
  · exact isAscii_of_isAlphanum hc
  · decide
  · decide

theorem utf16Bytes_decimal {n : Nat} (h : n < 2 ^ 64) : utf16Bytes (Text.decimal (n : Int)) ≤ 40 := by
  have hascii : ∀ c ∈ Text.decimal (n : Int), c.toNat < 128 := by
    intro c hc
    refine isAscii_of_isAlphanum ?_
    unfold Char.isAlphanum
    rw [isDigit_of_mem_decimal hc, Bool.or_true]
  have hlen : (Nat.toDigits 10 n).length ≤ 20 := by
    rw [Nat.length_toDigits_le_iff (by decide) (by decide)]
    exact lt_of_lt_of_le h (by norm_num)
  rw [utf16Bytes_ascii hascii, decimal_natCast]
  omega

/-- Every entry fits, its header included. -/
theorem encodeChunk_fits {idx total : Nat} {chunkGen payload : Text} (htotal : total < 2 ^ 64)
    (hgen : IsChunkGen chunkGen) (hpayload : utf16Bytes payload ≤ maxPayloadUtf16Bytes) :
    utf16Bytes (encodeChunk idx total chunkGen payload) ≤ maxChunkUtf16Bytes := by
  have hcount := utf16Bytes_decimal htotal
  have hmarker : utf16Bytes chunkGenPrefix = 14 := by
    unfold chunkGenPrefix
    rw [String.toList_ofList]
    decide
  have hcolon : lenUtf16 ':' = 1 := by decide
  have hgenLen := hgen.utf16
  unfold chunkGenLen at hgenLen
  unfold maxPayloadUtf16Bytes maxChunkUtf16Bytes chunkHeaderReserveUtf16Bytes chunkGenLen at hpayload
  unfold encodeChunk maxChunkUtf16Bytes
  split
  · simp only [utf16Bytes_append, utf16Bytes_cons, hmarker, hcolon, hgenLen]
    omega
  · simp only [utf16Bytes_append, utf16Bytes_cons, hcolon, hgenLen]
    omega

/-! ## Labels -/

theorem decimal_inj {n m : Nat} (h : Text.decimal (n : Int) = Text.decimal (m : Int)) : n = m := by
  rw [decimal_natCast, decimal_natCast] at h
  have hn := Nat.ofDigitChars_ten_toDigits (n := n)
  rw [h, Nat.ofDigitChars_ten_toDigits] at hn
  exact hn.symm

def Account.label (account : Account) (idx : Nat) : Text :=
  chunkAccount account.tenantId account.accountOid idx

/-- A label belongs to one chunk of one account. -/
theorem Account.label_inj {account account' : Account} {idx idx' : Nat}
    (h : account.label idx = account'.label idx') : account = account' ∧ idx = idx' := by
  have hsplit : ∃ rest rest', account.label idx = account.tenantId ++ ':' :: rest ∧
      account'.label idx' = account'.tenantId ++ ':' :: rest' ∧
      (rest = rest' → account.accountOid = account'.accountOid ∧ idx = idx') := by
    have hdecimal : ∀ {o o' : Text} {n m : Nat}, '#' ∉ o → '#' ∉ o' →
        o ++ '#' :: Text.decimal (n : Int) = o' ++ '#' :: Text.decimal (m : Int) →
        o = o' ∧ n = m := by
      intro o o' n m ho ho' heq
      obtain ⟨hoid, hn⟩ := Separators.append_sep_inj ho ho' heq
      exact ⟨hoid, decimal_inj hn⟩
    unfold Account.label chunkAccount
    by_cases h0 : idx = 0 <;> by_cases h0' : idx' = 0
    · rw [if_pos h0, if_pos h0']
      exact ⟨_, _, rfl, rfl, fun heq => ⟨heq, by rw [h0, h0']⟩⟩
    · rw [if_pos h0, if_neg h0']
      refine ⟨_, _, rfl, rfl, fun heq => absurd ?_ account.accountOid_plain⟩
      rw [heq]
      simp
    · rw [if_neg h0, if_pos h0']
      refine ⟨_, _, rfl, rfl, fun heq => absurd ?_ account'.accountOid_plain⟩
      rw [← heq]
      simp
    · rw [if_neg h0, if_neg h0']
      exact ⟨_, _, rfl, rfl, hdecimal account.accountOid_plain account'.accountOid_plain⟩
  obtain ⟨rest, rest', hl, hl', hrest⟩ := hsplit
  rw [hl, hl'] at h
  obtain ⟨htenant, heq⟩ := Separators.append_sep_inj account.tenantId_plain account'.tenantId_plain h
  obtain ⟨hoid, hidx⟩ := hrest heq
  refine ⟨?_, hidx⟩
  cases account
  cases account'
  simp_all

end Auth
