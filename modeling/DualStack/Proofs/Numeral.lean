import DualStack.Numeral
import DualStack.Word
import Mathlib.Tactic.Common

/-!
# Writing and reading numerals

The digits of a number are read back as that number (`magnitude_toDigits`), so that a number of
thirty-two bits survives being written in decimal and read again (`read_write`). Every number read
has thirty-two bits (`read_bounds`).
-/

set_option autoImplicit false
set_option relaxedAutoImplicit false

namespace DualStack.Numeral

/-! ### Digits -/

theorem digit?_digitChar {radix digit : Nat} (hradix : radix ≤ 16) (hdigit : digit < radix) :
    digit? radix digit.digitChar = some digit := by
  have hvalue : ∀ value < 16, digitValue? value.digitChar = some value := by decide
  simp [digit?, hvalue digit (by omega), hdigit]

/-- Digits are read in two parts. -/
theorem magnitude_append {radix limit value : Nat} {overflow : Error} (first second : List Char) :
    magnitude radix limit overflow value (first ++ second) =
      (magnitude radix limit overflow value first).bind fun read ↦
        magnitude radix limit overflow read second := by
  induction first generalizing value with
  | nil => rfl
  | cons character first ih =>
    simp only [List.cons_append, magnitude]
    split
    · rfl
    · split
      · exact ih
      · rfl

/-- The digits of a number within the limit are read as that number. -/
theorem magnitude_toDigits {radix limit value : Nat} {overflow : Error} (hradix : 1 < radix)
    (hsmall : radix ≤ 16) (hlimit : value ≤ limit) :
    magnitude radix limit overflow 0 (Nat.toDigits radix value) = .ok value := by
  induction value using Nat.strongRecOn with
  | ind value ih =>
    by_cases hone : value < radix
    · simp [Nat.toDigits_of_lt_base hone, magnitude, digit?_digitChar hsmall hone, hlimit]
    · have hless : value / radix < value := Nat.div_lt_self (by omega) hradix
      have hdigit : value % radix < radix := Nat.mod_lt value (by omega)
      have hwhole : value / radix * radix + value % radix = value := by
        rw [Nat.mul_comm]
        exact Nat.div_add_mod value radix
      rw [Nat.toDigits_of_base_le hradix (by omega), magnitude_append,
        ih (value / radix) hless (by omega)]
      simp [Except.bind, magnitude, digit?_digitChar hsmall hdigit, hwhole, hlimit]

/-- A number that is read lies within the limit. -/
theorem magnitude_le {radix limit value result : Nat} {overflow : Error} {text : List Char}
    (hvalue : value ≤ limit) (hread : magnitude radix limit overflow value text = .ok result) :
    result ≤ limit := by
  induction text generalizing value with
  | nil =>
    obtain rfl : value = result := by simpa [magnitude] using hread
    exact hvalue
  | cons character text ih =>
    unfold magnitude at hread
    split at hread
    · simp at hread
    · split at hread
      · next hle => exact ih hle hread
      · simp at hread

theorem digits_le {radix limit result : Nat} {overflow : Error} {text : List Char}
    (hread : digits radix limit overflow text = .ok result) : result ≤ limit := by
  cases text with
  | nil => simp [digits] at hread
  | cons character text => exact magnitude_le (Nat.zero_le limit) hread

/-! ### Numerals -/

theorem map_eq_ok {α β : Type} {transform : α → β} {outcome : Except Error α} {result : β}
    (hmap : outcome.map transform = .ok result) :
    ∃ value, outcome = .ok value ∧ transform value = result := by
  cases outcome with
  | error error => simp [Except.map] at hmap
  | ok value => exact ⟨value, rfl, by simpa [Except.map] using hmap⟩

theorem pattern_bounds {radix : Nat} {text : List Char} {value : Int}
    (hread : pattern radix text = .ok value) : -0x80000000 ≤ value ∧ value ≤ 0x7FFFFFFF := by
  unfold pattern at hread
  split at hread
  · simp at hread
  all_goals
    obtain ⟨bits, -, rfl⟩ := map_eq_ok hread
    have hlower : -(0x100000000 / 2) ≤ Int.bmod bits 0x100000000 := Int.le_bmod (by decide)
    have hupper : Int.bmod bits 0x100000000 < (0x100000000 + 1) / 2 := Int.bmod_lt (by decide)
    unfold ofBits
    omega

theorem decimal_bounds {text : List Char} {value : Int} (hread : decimal text = .ok value) :
    -0x80000000 ≤ value ∧ value ≤ 0x7FFFFFFF := by
  unfold decimal at hread
  split at hread
  · simp at hread
  all_goals
    obtain ⟨magnitude, hdigits, rfl⟩ := map_eq_ok hread
    have hle := digits_le hdigits
    rw [Int.ofNat_eq_natCast]
    omega

/-- A number that is read has thirty-two bits. -/
theorem read_bounds {text : String} {value : Int} (hread : read text = .ok value) :
    -0x80000000 ≤ value ∧ value ≤ 0x7FFFFFFF := by
  unfold read readChars at hread
  split at hread
  · exact pattern_bounds hread
  · exact pattern_bounds hread
  · exact pattern_bounds hread
  · exact decimal_bounds hread

/-! ### Numerals in decimal -/

theorem toList_write (value : Int) : (write value).toList = writeChars value :=
  String.toList_ofList

theorem digits_of_ne_nil {radix limit : Nat} {overflow : Error} {text : List Char}
    (hnonempty : text ≠ []) :
    digits radix limit overflow text = magnitude radix limit overflow 0 text := by
  cases text with
  | nil => exact absurd rfl hnonempty
  | cons character text => rfl

/-- Decimal digits alone are a number without a sign. -/
theorem readChars_of_isDigit {text : List Char} (hnonempty : text ≠ [])
    (hdigits : ∀ character ∈ text, character.isDigit = true) :
    readChars text = (digits 10 0x7FFFFFFF .tooLarge text).map Int.ofNat := by
  unfold readChars
  split
  · simp at hdigits
  · simp at hdigits
  · simp at hdigits
  · unfold decimal
    split
    · exact absurd rfl hnonempty
    · simp at hdigits
    · simp at hdigits
    · rfl

/-- A minus sign opens a decimal number. -/
theorem readChars_minus (text : List Char) :
    readChars ('-' :: text) =
      (digits 10 0x80000000 .tooSmall text).map fun value ↦ -Int.ofNat value := rfl

/-- A number of thirty-two bits is read back from its decimal numeral. -/
theorem read_write {value : Int} (hlower : -0x80000000 ≤ value) (hupper : value ≤ 0x7FFFFFFF) :
    read (write value) = .ok value := by
  have hnonempty : Nat.toDigits 10 value.natAbs ≠ [] := Nat.toDigits_ne_nil
  rw [read, toList_write, writeChars]
  split
  · next hnegative =>
    have hmagnitude : magnitude 10 0x80000000 .tooSmall 0 (Nat.toDigits 10 value.natAbs) =
        .ok value.natAbs := magnitude_toDigits (by decide) (by decide) (by omega)
    rw [readChars_minus, digits_of_ne_nil hnonempty, hmagnitude]
    simp only [Except.map]
    congr 1
    rw [Int.ofNat_eq_natCast]
    omega
  · next hpositive =>
    have hdigits : ∀ character ∈ Nat.toDigits 10 value.natAbs, character.isDigit = true :=
      fun character hcharacter ↦ Nat.isDigit_of_mem_toDigits (by decide) (by decide) hcharacter
    have hmagnitude : magnitude 10 0x7FFFFFFF .tooLarge 0 (Nat.toDigits 10 value.natAbs) =
        .ok value.natAbs := magnitude_toDigits (by decide) (by decide) (by omega)
    rw [readChars_of_isDigit hnonempty hdigits, digits_of_ne_nil hnonempty, hmagnitude]
    simp only [Except.map]
    congr 1
    rw [Int.ofNat_eq_natCast]
    omega

/-- Every decimal numeral has a digit. -/
theorem exists_isDigit_write (value : Int) :
    ∃ character ∈ (write value).toList, character.isDigit = true := by
  have hnonempty : Nat.toDigits 10 value.natAbs ≠ [] := Nat.toDigits_ne_nil
  obtain ⟨character, hmem⟩ := List.exists_mem_of_ne_nil _ hnonempty
  refine ⟨character, ?_, Nat.isDigit_of_mem_toDigits (by decide) (by decide) hmem⟩
  rw [toList_write, writeChars]
  split
  · exact List.mem_cons_of_mem _ hmem
  · exact hmem

theorem read_write_signed (word : Word) :
    read (write (Word.signed word)) = .ok (Word.signed word) := by
  have hbounds := Word.signed_bounds word
  exact read_write (by omega) (by omega)

/-- Words are told apart by their numerals. -/
theorem write_signed_injective {first second : Word}
    (hsame : write (Word.signed first) = write (Word.signed second)) : first = second := by
  have hread := read_write_signed first
  rw [hsame, read_write_signed] at hread
  rw [← Word.ofInt_signed first, ← Except.ok.inj hread, Word.ofInt_signed]

end DualStack.Numeral
