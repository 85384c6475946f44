import DualStack.Proofs.Assembly.Encoding
import DualStack.Proofs.Memory.Reading

/-!
# Disassembling a part of a memory

The disassembly of the first cells of a memory is the beginning of the disassembly of more of them
(`Memory.disassemble_eq_take`), although it may end between an instruction and its operand. The walk
over fewer cells meets the same operand slots (`Walk.operandSlot_take_iff`), and there is one token
for each cell: the mnemonic of an instruction that is no operand, and otherwise a number
(`Memory.disassemble_truncates`).

The disassembly can also be made one instruction after another, each with the cells that belong to
it as far as there are any (`Walk.strideTokens`). This gives the same tokens
(`Memory.disassemble_eq_strideTokens`).
-/

set_option autoImplicit false
set_option relaxedAutoImplicit false

namespace DualStack

/-! ### The readings of the first cells -/

namespace Reading

variable {reading : Reading} {instruction : Instruction}

/-- The readings of the first cells are the first readings. -/
theorem take_ofCells (expected : Bool) (cells : List Word) (count : Nat) :
    (ofCells expected cells).take count = ofCells expected (cells.take count) := by
  induction cells generalizing expected count with
  | nil => simp [ofCells]
  | cons cell rest ih =>
    cases count with
    | zero => rfl
    | succ count => simp [ofCells, ih]

/-- A reading shows a mnemonic exactly where an instruction is read and no operand. -/
theorem token_eq_mnemonic_iff : reading.token = instruction.mnemonic ↔
    Instruction.decode? reading.cell = some instruction ∧ reading.isOperand = false := by
  have hnumber : Numeral.write (Word.signed reading.cell) ≠ instruction.mnemonic :=
    Assembly.write_ne_mnemonic _ _
  cases hoperand : reading.isOperand with
  | true => simp [token_of_isOperand hoperand, hnumber]
  | false =>
    cases hdecode : Instruction.decode? reading.cell with
    | none => simp [token_of_decode?_eq_none hdecode, hnumber]
    | some decoded =>
      rw [token_of_decode?_eq_some hoperand hdecode]
      have hinjective : decoded.mnemonic = instruction.mnemonic ↔ decoded = instruction :=
        ⟨Instruction.mnemonic_injective, congrArg Instruction.mnemonic⟩
      simp [hinjective]

end Reading

namespace Walk

variable {cells : List Word}

/-- The walk over the first cells meets the operand slots that the walk over all cells meets
there. -/
theorem operandSlot_take_iff {count slot : Nat} (hless : slot < count) :
    OperandSlot (cells.take count) slot ↔ OperandSlot cells slot := by
  by_cases hinside : slot < cells.length
  · obtain ⟨isOperand, hreading⟩ :=
      Reading.exists_getElem?_ofCells false (List.getElem?_eq_getElem hinside)
    have htaken : (Reading.ofCells false (cells.take count))[slot]? =
        some ⟨cells[slot], isOperand⟩ := by
      rw [← Reading.take_ofCells, List.getElem?_take_of_lt hless, hreading]
    rw [← Reading.isOperand_iff htaken, Reading.isOperand_iff hreading]
  · rw [List.take_of_length_le (by omega)]

/-! ### The walk in strides -/

/-- The tokens that the walk shows from a cell on at which it stands: the token of that cell, a
number for each cell behind it that its stride passes over, unless the cells end before, and then
the tokens from where the stride leads. -/
def strideTokens : List Word → List String
  | [] => []
  | cell :: rest =>
    Reading.token ⟨cell, false⟩ ::
      ((rest.take (stride cell - 1)).map (fun operand ↦ Numeral.write (Word.signed operand)) ++
        strideTokens (rest.drop (stride cell - 1)))
termination_by cells => cells.length
decreasing_by simp only [List.length_drop, List.length_cons]; omega

/-- The walk in strides shows the readings of the walk with one bit. -/
theorem strideTokens_eq (cells : List Word) :
    strideTokens cells = (Reading.ofCells false cells).map Reading.token := by
  induction cells using strideTokens.induct with
  | case1 => simp [strideTokens, Reading.ofCells]
  | case2 cell rest ih =>
    have hstride := Reading.stride_eq ⟨cell, false⟩ rfl
    rw [strideTokens, ih, Reading.ofCells, List.map_cons]
    cases hopens : Reading.opensOperand ⟨cell, false⟩ with
    | false => simp [hstride, hopens]
    | true =>
      cases rest with
      | nil => simp [Reading.ofCells]
      | cons operand rest =>
        simp [hstride, hopens, Reading.ofCells, Reading.token_of_isOperand,
          Reading.opensOperand_of_isOperand]

end Walk

/-! ### The first tokens of a memory -/

/-- A token shows a cell as the walk over the cells meets it. -/
structure ShowsCell (cells : List Word) (address : Nat) (cell : Word) (token : String) : Prop where
  number_or_mnemonic : token = Numeral.write (Word.signed cell) ∨
    ∃ instruction, Instruction.decode? cell = some instruction ∧ token = instruction.mnemonic
  mnemonic_iff : ∀ instruction : Instruction, token = instruction.mnemonic ↔
    Instruction.decode? cell = some instruction ∧ ¬ Walk.OperandSlot cells address

theorem Reading.showsCell {cells : List Word} {address : Nat} {reading : Reading}
    (hreading : (ofCells false cells)[address]? = some reading) :
    ShowsCell cells address reading.cell reading.token where
  number_or_mnemonic := by
    cases hdecode : Instruction.decode? reading.cell with
    | none => exact .inl (token_of_decode?_eq_none hdecode)
    | some instruction =>
      cases hoperand : reading.isOperand with
      | true => exact .inl (token_of_isOperand hoperand)
      | false => exact .inr ⟨instruction, rfl, token_of_decode?_eq_some hoperand hdecode⟩
  mnemonic_iff instruction := by
    rw [token_eq_mnemonic_iff, ← isOperand_iff hreading, Bool.not_eq_true]

namespace Memory

variable {memory : Memory} {first : Nat}

/-- The disassembly of the first cells is the beginning of the disassembly of all cells. -/
theorem disassemble_eq_take (memory : Memory) (count : Nat) :
    memory.disassemble count = memory.tokens.take count := by
  rw [disassemble_eq, tokens_eq, ← List.map_take, Reading.take_ofCells]

/-- The disassembly can be made one instruction after another. -/
theorem disassemble_eq_strideTokens (memory : Memory) (count : Nat) :
    memory.disassemble count = Walk.strideTokens (memory.cells.toList.take count) := by
  rw [disassemble_eq, Walk.strideTokens_eq]

theorem exists_getElem?_disassemble {address : Nat} {cell : Word} (hless : address < first)
    (hcell : memory.cells.toList[address]? = some cell) :
    ∃ token, (memory.disassemble first)[address]? = some token ∧
      ShowsCell memory.cells.toList address cell token := by
  obtain ⟨isOperand, hreading⟩ := Reading.exists_getElem?_ofCells false hcell
  refine ⟨Reading.token ⟨cell, isOperand⟩, ?_, Reading.showsCell hreading⟩
  rw [disassemble_eq_take, List.getElem?_take_of_lt hless, getElem?_tokens_of_reading hreading]

/-- A disassembly has one token for each cell, and it is the beginning of every longer one. Each
token shows its cell as the walk over the whole memory meets it, and the walk over a part of the
memory meets the same operand slots. -/
theorem disassemble_truncates (memory : Memory) {first second : Nat} (hle : first ≤ second) :
    (memory.disassemble first).length = min first memory.size ∧
    memory.disassemble first <+: memory.disassemble second ∧
    (∀ (address : Nat) (cell : Word), address < first →
      memory.cells.toList[address]? = some cell →
      ∃ token, (memory.disassemble first)[address]? = some token ∧
        ShowsCell memory.cells.toList address cell token) ∧
    ∀ slot < first, Walk.OperandSlot (memory.cells.toList.take first) slot ↔
      Walk.OperandSlot memory.cells.toList slot := by
  refine ⟨?_, ?_, ?_, fun slot hslot ↦ Walk.operandSlot_take_iff hslot⟩
  · rw [disassemble_eq_take, List.length_take, length_tokens]
  · rw [disassemble_eq_take, disassemble_eq_take]
    exact List.take_prefix_take_left hle
  · exact fun address cell hless hcell ↦ exists_getElem?_disassemble hless hcell

/-- The end of the first cells parts a call from its operand, and an operand before it has the code
of an instruction. -/
theorem disassemble_truncates_call :
    4 ≤ 5 ∧ 1 < 4 ∧ (⟨#[0xFF00, 0xFF01, 0xFF01, 0xFF0D, 7]⟩ : Memory).cells.toList[1]? =
      some 0xFF01 ∧
    ["LIT", "-255", "@", "CALL"] <+: ["LIT", "-255", "@", "CALL", "7"] ∧
    ShowsCell [0xFF00, 0xFF01, 0xFF01, 0xFF0D, 7] 1 0xFF01 "-255" := by
  have hshort : Memory.disassemble ⟨#[0xFF00, 0xFF01, 0xFF01, 0xFF0D, 7]⟩ 4 =
      ["LIT", "-255", "@", "CALL"] := by decide +kernel
  have hlong : Memory.disassemble ⟨#[0xFF00, 0xFF01, 0xFF01, 0xFF0D, 7]⟩ 5 =
      ["LIT", "-255", "@", "CALL", "7"] := by decide +kernel
  obtain ⟨-, hprefix, hshows, -⟩ := disassemble_truncates
    ⟨#[0xFF00, 0xFF01, 0xFF01, 0xFF0D, 7]⟩ (show 4 ≤ 5 by decide)
  rw [hshort, hlong] at hprefix
  obtain ⟨token, htoken, hcell⟩ := hshows 1 0xFF01 (by decide) rfl
  rw [hshort] at htoken
  obtain rfl : "-255" = token := by simpa using htoken
  exact ⟨by decide, by decide, rfl, hprefix, hcell⟩

end Memory

end DualStack
