import DualStack.Proofs.Numeral.Grammar

/-!
# Numerals for the bits of a number

A number of thirty-two bits can be written in every form of numeral: in decimal, or as the digits of
its two's complement pattern (`bits`) behind an opening that chooses a form for patterns
(`Form.openings`). Digits in upper case spell the number that they spell in lower case
(`Spells.map_toUpper`), and the signed reading of a pattern is the number that it was made from
(`ofBits_bits`). So the number is read back from each of these texts, with any number of zeros in
front of the digits (`readBack`).
-/

set_option autoImplicit false
set_option relaxedAutoImplicit false

namespace DualStack.Numeral

/-! ### Digits of either case -/

section Digits

variable {radix limit value : Nat} {text : List Char}

theorem IsDigit.toUpper {character : Char} {digit : Nat} (hradix : radix ≤ 16)
    (hdigit : IsDigit radix character digit) : IsDigit radix character.toUpper digit := by
  have hupper : ∀ value < 16, value.digitChar.toUpper.toUpper = value.digitChar.toUpper := by
    decide
  obtain ⟨hless, rfl | rfl⟩ := hdigit
  · exact ⟨hless, .inr rfl⟩
  · exact ⟨hless, .inr (hupper digit (by omega))⟩

/-- A row of digits spells the same number in upper case. -/
theorem Spells.map_toUpper (hspells : Spells radix text value) (hradix : radix ≤ 16) :
    Spells radix (text.map Char.toUpper) value := by
  obtain ⟨digits, hdigits, rfl⟩ := hspells
  refine ⟨digits, ?_, rfl⟩
  rw [← List.map_reverse, List.forall₂_map_left_iff]
  exact hdigits.imp fun character digit hdigit ↦ hdigit.toUpper hradix

/-- The digits of a number spell it. -/
theorem spells_toDigits (hradix : 1 < radix) (hsmall : radix ≤ 16) (value : Nat) :
    Spells radix (Nat.toDigits radix value) value := by
  have hread : magnitude radix value .tooLarge 0 (Nat.toDigits radix value) = .ok value :=
    magnitude_toDigits hradix hsmall (Nat.le_refl value)
  exact ((magnitude_eq_ok_iff hsmall (by omega)).mp hread).1

/-- Digits that spell a pattern of thirty-two bits are read as that pattern. -/
theorem pattern_of_spells (hpositive : 0 < radix) (hradix : radix ≤ 16) (hnonempty : text ≠ [])
    (hspells : Spells radix text value) (hle : value ≤ 0xFFFFFFFF) :
    pattern radix text = .ok (ofBits value) := by
  have hdigits : digits radix 0xFFFFFFFF .tooLarge text = .ok value :=
    (digits_eq_ok_iff hradix hpositive).mpr ⟨hnonempty, hspells, hle⟩
  unfold pattern
  split
  · exact absurd rfl hnonempty
  · -- A plus sign would have to be a digit.
    obtain ⟨digit, hplus⟩ := hspells.exists_isDigit List.mem_cons_self
    exact absurd rfl (hplus.ne_sign hradix).1
  · rw [hdigits]
    rfl

end Digits

/-! ### The bits of a number -/

/-- The thirty-two bits of a number in two's complement. -/
def bits (value : Int) : Nat := (BitVec.ofInt 32 value).toNat

/-- The digits of the bits of a number, in upper case and without zeros in front. -/
def bitDigits (radix : Nat) (value : Int) : List Char :=
  (Nat.toDigits radix (bits value)).map Char.toUpper

theorem bits_le (value : Int) : bits value ≤ 0xFFFFFFFF := by
  have hless : bits value < 2 ^ 32 := (BitVec.ofInt 32 value).isLt
  omega

/-- The signed reading of the bits of a number is that number. -/
theorem ofBits_bits {value : Int} (hlower : -0x80000000 ≤ value) (hupper : value ≤ 0x7FFFFFFF) :
    ofBits (bits value) = value := by
  rw [ofBits_eq, bits, BitVec.ofNat_toNat, BitVec.setWidth_eq, BitVec.toInt_ofInt]
  exact Int.bmod_eq_of_le (by omega) (by omega)

theorem bitDigits_ne_nil (radix : Nat) (value : Int) : bitDigits radix value ≠ [] :=
  fun hnil ↦ Nat.toDigits_ne_nil (List.map_eq_nil_iff.mp hnil)

theorem spells_bitDigits {radix : Nat} (hradix : 1 < radix) (hsmall : radix ≤ 16) (value : Int) :
    Spells radix (bitDigits radix value) (bits value) :=
  (spells_toDigits hradix hsmall (bits value)).map_toUpper hsmall

/-! ### Reading a number back -/

namespace Form

/-- The openings that choose a form. A decimal number has none. -/
def openings : Form → List String
  | binary => ["B"]
  | hexadecimal => ["X", "0X"]
  | decimal => []

theorem one_lt_radix (form : Form) : 1 < form.radix := by
  cases form <;> decide

end Form

/-- What follows an opening is read as a pattern of bits. -/
theorem read_opening {form : Form} {opening : String} (hopening : opening ∈ form.openings)
    (body : List Char) : read (opening ++ String.ofList body) = pattern form.radix body := by
  rw [read, String.toList_append, String.toList_ofList]
  cases form with
  | binary =>
    obtain rfl : opening = "B" := by simpa [Form.openings] using hopening
    rfl
  | hexadecimal =>
    obtain rfl | rfl : opening = "X" ∨ opening = "0X" := by
      simpa [Form.openings] using hopening
    · rfl
    · rfl
  | decimal => simp [Form.openings] at hopening

/-- A number is read back from the numerals that are written for it. -/
structure ReadBack (value : Int) : Prop where
  of_decimal : read (write value) = .ok value
  /-- The zeros are those that stand in front of the digits. -/
  of_bits : ∀ form : Form, ∀ opening ∈ form.openings, ∀ zeros : Nat,
    read (opening ++ String.ofList (List.replicate zeros '0' ++ bitDigits form.radix value)) =
      .ok value

theorem readBack {value : Int} (hlower : -0x80000000 ≤ value) (hupper : value ≤ 0x7FFFFFFF) :
    ReadBack value where
  of_decimal := read_write hlower hupper
  of_bits form opening hopening zeros := by
    obtain ⟨hpositive, hradix⟩ := form.radix_bounds
    have hspells : Spells form.radix (List.replicate zeros '0' ++ bitDigits form.radix value)
        (bits value) :=
      (spells_bitDigits form.one_lt_radix hradix value).leading_zeros hpositive zeros
    have hnonempty : List.replicate zeros '0' ++ bitDigits form.radix value ≠ [] :=
      List.append_ne_nil_of_right_ne_nil _ (bitDigits_ne_nil form.radix value)
    rw [read_opening hopening, pattern_of_spells hpositive hradix hnonempty hspells (bits_le value),
      ofBits_bits hlower hupper]

end DualStack.Numeral
