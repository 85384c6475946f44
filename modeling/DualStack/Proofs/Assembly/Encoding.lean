import DualStack.Assembly.Image
import DualStack.Proofs.Numeral

/-!
# The cell of a token

A token stands for a cell by itself when it is a mnemonic or a numeral in the range of a cell
(`Denotes`), and then it is encoded as that cell (`encode_eq_ok_iff_denotes`). Labels, mnemonics and
numerals exclude one another, so the order in which the encoder tries them does not matter.

The operands that pass the test on their bits are not all small, but those among them that a cell
takes lie between `-255` and `255` (`inOperandRange_iff`).
-/

set_option autoImplicit false
set_option relaxedAutoImplicit false

namespace DualStack.Assembly

/-! ### Labels, mnemonics and numerals -/

/-- A label is its colon and what follows. -/
theorem exists_toList_of_isLabel {token : String} (hlabel : isLabel token = true) :
    ∃ rest, token.toList = ':' :: rest := by
  unfold isLabel at hlabel
  cases hchars : token.toList with
  | nil => simp [hchars] at hlabel
  | cons first rest =>
    obtain rfl : first = ':' := by simpa [hchars] using hlabel
    exact ⟨rest, rfl⟩

theorem isLabel_mnemonic (instruction : Instruction) : isLabel instruction.mnemonic = false := by
  cases instruction <;> decide

theorem ofMnemonic?_of_isLabel {token : String} (hlabel : isLabel token = true) :
    Instruction.ofMnemonic? token = none := by
  cases hfound : Instruction.ofMnemonic? token with
  | none => rfl
  | some instruction =>
    rw [← Instruction.ofMnemonic?_eq_some_iff.mp hfound, isLabel_mnemonic] at hlabel
    simp at hlabel

theorem read_of_isLabel {token : String} (hlabel : isLabel token = true) :
    Numeral.read token = .error .invalidDigit := by
  obtain ⟨rest, hrest⟩ := exists_toList_of_isLabel hlabel
  rw [Numeral.read, hrest]
  rfl

theorem isLabel_of_read {token : String} {value : Int} (hread : Numeral.read token = .ok value) :
    isLabel token = false := by
  by_contra hlabel
  simp [read_of_isLabel (by simpa using hlabel)] at hread

/-- No mnemonic is a numeral. -/
theorem exists_read_mnemonic (instruction : Instruction) :
    ∃ error, Numeral.read instruction.mnemonic = .error error := by
  cases instruction <;> exact ⟨_, rfl⟩

/-- No mnemonic is the decimal numeral of a number, be it in the range of numerals or not. -/
theorem write_ne_mnemonic (value : Int) (instruction : Instruction) :
    Numeral.write value ≠ instruction.mnemonic := by
  intro hsame
  have hmnemonic : (instruction.mnemonic.toList.any Char.isDigit) = false := by
    cases instruction <;> decide
  obtain ⟨character, hmem, hdigit⟩ := Numeral.exists_isDigit_write value
  rw [hsame] at hmem
  exact List.any_eq_false.mp hmnemonic character hmem hdigit

theorem ofMnemonic?_of_read {token : String} {value : Int}
    (hread : Numeral.read token = .ok value) : Instruction.ofMnemonic? token = none := by
  cases hfound : Instruction.ofMnemonic? token with
  | none => rfl
  | some instruction =>
    obtain ⟨error, herror⟩ := exists_read_mnemonic instruction
    rw [← Instruction.ofMnemonic?_eq_some_iff.mp hfound, herror] at hread
    simp at hread

theorem takesOperand_mnemonic (instruction : Instruction) :
    takesOperand instruction.mnemonic = instruction.hasOperand := by
  simp [takesOperand, Instruction.ofMnemonic?_mnemonic]

theorem takesOperand_of_isLabel {token : String} (hlabel : isLabel token = true) :
    takesOperand token = false := by
  simp [takesOperand, ofMnemonic?_of_isLabel hlabel]

theorem takesOperand_of_read {token : String} {value : Int} (hread : Numeral.read token = .ok value) :
    takesOperand token = false := by
  simp [takesOperand, ofMnemonic?_of_read hread]

/-! ### The cell that a token denotes -/

/-- The numbers that a cell takes. -/
def FitsCell (value : Int) : Prop := -0x8000 ≤ value ∧ value ≤ 0xFFFF

/-- A token denotes the code of the instruction it names, or the number it is the numeral of. -/
inductive Denotes : String → Word → Prop
  | mnemonic (instruction : Instruction) : Denotes instruction.mnemonic instruction.code
  | number {token : String} {value : Int} (hread : Numeral.read token = .ok value)
      (hfits : FitsCell value) : Denotes token (Word.ofInt value)

/-- A token is encoded as a cell exactly when it denotes that cell. -/
theorem encode_eq_ok_iff_denotes {token : String} {cell : Word} :
    encode token = .ok cell ↔ Denotes token cell := by
  constructor
  · intro hencode
    unfold encode at hencode
    split at hencode
    · next instruction hfound =>
      obtain rfl : instruction.code = cell := by simpa using hencode
      rw [← Instruction.ofMnemonic?_eq_some_iff.mp hfound]
      exact .mnemonic instruction
    · split at hencode
      · next value hread =>
        split at hencode
        · next hfits =>
          obtain rfl : Word.ofInt value = cell := by simpa using hencode
          exact .number hread hfits
        · simp at hencode
      · simp at hencode
  · intro hdenotes
    cases hdenotes with
    | mnemonic instruction => simp [encode, Instruction.ofMnemonic?_mnemonic]
    | @number _ value hread hfits =>
      unfold FitsCell at hfits
      simp [encode, ofMnemonic?_of_read hread, hread, hfits]

/-- The decimal numeral of a number of thirty-two bits denotes that number, if a cell takes it. -/
theorem denotes_write_iff {value : Int} {cell : Word} (hlower : -0x80000000 ≤ value)
    (hupper : value ≤ 0x7FFFFFFF) :
    Denotes (Numeral.write value) cell ↔ FitsCell value ∧ Word.ofInt value = cell := by
  have hread := Numeral.read_write hlower hupper
  constructor
  · intro hdenotes
    generalize Numeral.write value = token at hdenotes hread
    cases hdenotes with
    | mnemonic instruction =>
      obtain ⟨error, herror⟩ := exists_read_mnemonic instruction
      simp [herror] at hread
    | number hread' hfits =>
      obtain rfl := Except.ok.inj (hread.symm.trans hread')
      exact ⟨hfits, rfl⟩
  · rintro ⟨hfits, rfl⟩
    exact .number hread hfits

/-! ### Operands in range -/

/-- Numbers of sixteen bits without the upper eight are the numbers below `256`. -/
theorem and_eq_zero_iff {number : Nat} (hnumber : number < 0x10000) :
    number &&& 0xFF00 = 0 ↔ number ≤ 0xFF := by
  constructor
  · intro hzero
    have hshift : (number >>> 8) &&& 0xFF = 0 := by
      have hboth : (number &&& 0xFF00) >>> 8 = (number >>> 8) &&& 0xFF := Nat.shiftRight_and_distrib
      simpa [hzero] using hboth.symm
    rw [show 0xFF = 2 ^ 8 - 1 from rfl, Nat.and_two_pow_sub_one_eq_mod,
      Nat.shiftRight_eq_div_pow] at hshift
    omega
  · intro hsmall
    have hall : ∀ small < 0x100, small &&& 0xFF00 = 0 := by decide +kernel
    exact hall number (by omega)

/-- Of the numbers that a cell takes, those between `-255` and `255` are operands. -/
theorem inOperandRange_iff {value : Int} (hfits : FitsCell value) :
    Layout.inOperandRange value = true ↔ -255 ≤ value ∧ value ≤ 255 := by
  obtain ⟨hlower, hupper⟩ := hfits
  rw [Layout.inOperandRange, beq_iff_eq, and_eq_zero_iff (by omega)]
  omega

end DualStack.Assembly
