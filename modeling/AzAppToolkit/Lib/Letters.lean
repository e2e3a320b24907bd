import AzAppToolkit.Lib.Text

set_option autoImplicit false

/-! # Letters and their case

Which characters `to_ascii_lowercase` changes, and what it leaves of a text: its length, its parts, and
every character that is no letter. -/

namespace Letters

/-! ## Characters -/

theorem char_eq_iff (c d : Char) : c = d ↔ c.toNat = d.toNat := Char.toNat_inj.symm

theorem isAlpha_iff (c : Char) :
    c.isAlpha = true ↔ (65 ≤ c.toNat ∧ c.toNat ≤ 90) ∨ (97 ≤ c.toNat ∧ c.toNat ≤ 122) := by
  simp only [Char.isAlpha, Char.isUpper, Char.isLower, Bool.or_eq_true, Bool.and_eq_true,
    decide_eq_true_eq, ge_iff_le, UInt32.le_iff_toNat_le]
  rfl

theorem isAlphanum_iff (c : Char) :
    c.isAlphanum = true ↔ c.isAlpha = true ∨ (48 ≤ c.toNat ∧ c.toNat ≤ 57) := by
  simp only [Char.isAlphanum, Char.isDigit, Bool.or_eq_true, Bool.and_eq_true,
    decide_eq_true_eq, ge_iff_le, UInt32.le_iff_toNat_le]
  rfl

theorem toLower_cases (c : Char) :
    (65 ≤ c.toNat ∧ c.toNat ≤ 90 ∧ c.toLower.toNat = c.toNat + 32) ∨
    (¬ (65 ≤ c.toNat ∧ c.toNat ≤ 90) ∧ c.toLower = c) := by
  unfold Char.toLower
  split
  · next h =>
    simp only [ge_iff_le, UInt32.le_iff_toNat_le] at h
    have h1 : 65 ≤ c.toNat := h.1
    have h2 : c.val.toNat ≤ 90 := h.2
    refine Or.inl ⟨h1, h2, ?_⟩
    show (c.val + 32).toNat = c.val.toNat + 32
    rw [UInt32.toNat_add]
    exact Nat.mod_eq_of_lt (show c.val.toNat + 32 < 2 ^ 32 by omega)
  · next h =>
    simp only [ge_iff_le, UInt32.le_iff_toNat_le] at h
    exact Or.inr ⟨h, rfl⟩

/-- Lowering the case neither makes nor loses a character that is no letter. -/
theorem toLower_eq_iff (c d : Char) (hd : d.isAlpha = false) : c.toLower = d ↔ c = d := by
  have hd' : ¬ ((65 ≤ d.toNat ∧ d.toNat ≤ 90) ∨ (97 ≤ d.toNat ∧ d.toNat ≤ 122)) := by
    rw [← isAlpha_iff, hd]
    exact Bool.false_ne_true
  rcases toLower_cases c with ⟨h1, h2, h3⟩ | ⟨-, h⟩
  · rw [char_eq_iff, char_eq_iff, h3]
    omega
  · rw [h]

/-! ## Texts -/

@[simp] theorem toAsciiLowercase_nil : toAsciiLowercase [] = [] := rfl

@[simp] theorem toAsciiLowercase_cons (c : Char) (s : Text) :
    toAsciiLowercase (c :: s) = c.toLower :: toAsciiLowercase s := rfl

@[simp] theorem toAsciiLowercase_append (s t : Text) :
    toAsciiLowercase (s ++ t) = toAsciiLowercase s ++ toAsciiLowercase t := List.map_append

@[simp] theorem length_toAsciiLowercase (s : Text) : (toAsciiLowercase s).length = s.length :=
  List.length_map _

theorem toAsciiLowercase_drop (s : Text) (n : Nat) :
    toAsciiLowercase (s.drop n) = (toAsciiLowercase s).drop n := List.map_drop

theorem mem_toAsciiLowercase {s : Text} {d : Char} (hd : d.isAlpha = false) :
    d ∈ toAsciiLowercase s ↔ d ∈ s := by
  simp only [toAsciiLowercase, List.mem_map]
  constructor
  · rintro ⟨c, hc, hcd⟩
    rwa [← (toLower_eq_iff c d hd).1 hcd]
  · exact fun h => ⟨d, h, (toLower_eq_iff d d hd).2 rfl⟩

end Letters
