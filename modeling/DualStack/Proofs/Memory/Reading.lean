import DualStack.Memory.Disassembly
import Mathlib.Tactic.Common

/-!
# How cells are read

A walk over the cells of a memory stands at address zero first. From an instruction it goes on to
the cell behind the instruction and its operand, and from any other cell to the next one
(`Walk.Stands`), one position after the other (`Walk.position`). The cells it skips are the operand
slots (`Walk.OperandSlot`).

The walk with one bit reads every cell (`Reading.ofCells`), and it reads as operands the cells that
lie in operand slots (`Reading.getElem?_ofCells_eq_some_iff`). The disassembly is the row of the
tokens of these readings (`Memory.disassemble_eq`). So the tokens of a memory show an instruction
where the walk stands at one, and a number everywhere else.
-/

set_option autoImplicit false
set_option relaxedAutoImplicit false

namespace DualStack

/-! ### Where the walk stands -/

namespace Walk

/-- How far the walk goes from a cell: instructions that never pass control on count as one cell. -/
def stride (cell : Word) : Nat :=
  match Instruction.decode? cell with
  | some instruction => max instruction.width.toNat 1
  | none => 1

/-- The positions at which the walk expects an instruction. The last of them may lie behind the
cells, by one cell if the operand of the last instruction is missing. -/
inductive Stands (cells : List Word) : Nat → Prop
  | start : Stands cells 0
  | next {position : Nat} {cell : Word} (hstands : Stands cells position)
      (hcell : cells[position]? = some cell) : Stands cells (position + stride cell)

/-- The cell behind an instruction with an operand at which the walk stands. -/
def OperandSlot (cells : List Word) (slot : Nat) : Prop :=
  ∃ position cell instruction, Stands cells position ∧ cells[position]? = some cell ∧
    Instruction.decode? cell = some instruction ∧ instruction.hasOperand = true ∧
      slot = position + 1

/-- The address to which so many steps of the walk lead. The walk that has left the cells stays where
it is. -/
def position (cells : List Word) : Nat → Nat
  | 0 => 0
  | count + 1 => position cells count + cells[position cells count]?.elim 0 stride

variable {cells : List Word} {cell : Word} {count : Nat}

theorem position_succ (hcell : cells[position cells count]? = some cell) :
    position cells (count + 1) = position cells count + stride cell := by
  simp [position, hcell]

/-- The walk stands where some number of steps leads. -/
theorem stands_iff {address : Nat} :
    Stands cells address ↔ ∃ count, position cells count = address := by
  constructor
  · intro hstands
    induction hstands with
    | start => exact ⟨0, rfl⟩
    | next _ hcell ih =>
      obtain ⟨count, rfl⟩ := ih
      exact ⟨count + 1, position_succ hcell⟩
  · rintro ⟨count, rfl⟩
    induction count with
    | zero => exact .start
    | succ count ih =>
      cases hcell : cells[position cells count]? with
      | none => simpa [position, hcell] using ih
      | some cell =>
        rw [position_succ hcell]
        exact ih.next hcell

theorem stride_of_decode? {instruction : Instruction}
    (hdecode : Instruction.decode? cell = some instruction)
    (hwidth : 1 ≤ instruction.width.toNat) : stride cell = instruction.width.toNat := by
  simp [stride, hdecode, hwidth]

theorem stride_le (cell : Word) : stride cell ≤ 2 := by
  unfold stride
  split
  · next instruction _ =>
    have hwidth := instruction.toNat_width_le
    omega
  · omega

/-- The walk leaves the cells by two cells at most. -/
theorem position_le (cells : List Word) (count : Nat) : position cells count ≤ cells.length + 1 := by
  induction count with
  | zero => exact Nat.zero_le _
  | succ count ih =>
    cases hcell : cells[position cells count]? with
    | none => simpa [position, hcell] using ih
    | some cell =>
      have hinside := (List.getElem?_eq_some_iff.mp hcell).1
      have hstride := stride_le cell
      rw [position_succ hcell]
      omega

end Walk

/-- A cell with the way it is read. -/
structure Reading where
  cell : Word
  /-- Whether the cell is the operand of the instruction before it. -/
  isOperand : Bool
  deriving DecidableEq, Repr

namespace Reading

/-- The token that a reading shows. -/
def token (reading : Reading) : String :=
  match reading.isOperand, Instruction.decode? reading.cell with
  | false, some instruction => instruction.mnemonic
  | _, _ => Numeral.write (Word.signed reading.cell)

/-- Whether the cell behind is read as an operand. -/
def opensOperand (reading : Reading) : Bool :=
  !reading.isOperand && (Instruction.decode? reading.cell).any Instruction.hasOperand

/-- The readings of a row of cells, the first of which is an operand or not. -/
def ofCells (expected : Bool) : List Word → List Reading
  | [] => []
  | cell :: rest => ⟨cell, expected⟩ :: ofCells (opensOperand ⟨cell, expected⟩) rest

variable {reading next : Reading} {cells : List Word} {expected : Bool} {index : Nat}

@[simp] theorem map_cell_ofCells : (ofCells expected cells).map cell = cells := by
  induction cells generalizing expected with
  | nil => rfl
  | cons cell rest ih => simp [ofCells, ih]

@[simp] theorem length_ofCells : (ofCells expected cells).length = cells.length := by
  induction cells generalizing expected with
  | nil => rfl
  | cons cell rest ih => simp [ofCells, ih]

theorem getElem?_cells (hreading : (ofCells expected cells)[index]? = some reading) :
    cells[index]? = some reading.cell := by
  have hcell : ((ofCells expected cells).map cell)[index]? = some reading.cell := by
    rw [List.getElem?_map, hreading, Option.map_some]
  rwa [map_cell_ofCells] at hcell

theorem exists_getElem?_ofCells (expected : Bool) {cell : Word}
    (hcell : cells[index]? = some cell) :
    ∃ isOperand, (ofCells expected cells)[index]? = some ⟨cell, isOperand⟩ := by
  obtain ⟨hindex, rfl⟩ := List.getElem?_eq_some_iff.mp hcell
  obtain ⟨reading, hreading⟩ : ∃ reading, (ofCells expected cells)[index]? = some reading :=
    ⟨_, List.getElem?_eq_getElem (by simpa using hindex)⟩
  have hsame := Option.some.inj ((getElem?_cells hreading).symm.trans hcell)
  exact ⟨reading.isOperand, by rw [hreading, ← hsame]⟩

/-! ### The token of a reading -/

theorem token_of_isOperand (hoperand : reading.isOperand = true) :
    reading.token = Numeral.write (Word.signed reading.cell) := by
  simp [token, hoperand]

theorem token_of_decode?_eq_none (hdecode : Instruction.decode? reading.cell = none) :
    reading.token = Numeral.write (Word.signed reading.cell) := by
  simp [token, hdecode]

theorem token_of_decode?_eq_some {instruction : Instruction} (hword : reading.isOperand = false)
    (hdecode : Instruction.decode? reading.cell = some instruction) :
    reading.token = instruction.mnemonic := by
  simp [token, hword, hdecode]

/-! ### The bit of the walk -/

theorem opensOperand_eq_true_iff : reading.opensOperand = true ↔
    reading.isOperand = false ∧ ∃ instruction,
      Instruction.decode? reading.cell = some instruction ∧ instruction.hasOperand = true := by
  simp [opensOperand, Option.any_eq_true]

theorem opensOperand_of_isOperand (hoperand : reading.isOperand = true) :
    reading.opensOperand = false := by
  simp [opensOperand, hoperand]

/-- The walk goes two cells on from an instruction with an operand, and otherwise one. -/
theorem stride_eq (reading : Reading) (hword : reading.isOperand = false) :
    Walk.stride reading.cell = if reading.opensOperand then 2 else 1 := by
  unfold Walk.stride opensOperand
  rw [hword]
  cases Instruction.decode? reading.cell with
  | none => rfl
  | some instruction => cases instruction <;> rfl

theorem isOperand_zero (hreading : (ofCells expected cells)[0]? = some reading) :
    reading.isOperand = expected := by
  cases cells with
  | nil => simp [ofCells] at hreading
  | cons cell rest =>
    obtain rfl : ⟨cell, expected⟩ = reading := by simpa [ofCells] using hreading
    rfl

/-- A cell is read as an operand if the cell before it opens one. -/
theorem isOperand_succ (hreading : (ofCells expected cells)[index]? = some reading)
    (hnext : (ofCells expected cells)[index + 1]? = some next) :
    next.isOperand = reading.opensOperand := by
  induction cells generalizing expected index with
  | nil => simp [ofCells] at hreading
  | cons cell rest ih =>
    cases index with
    | zero =>
      obtain rfl : ⟨cell, expected⟩ = reading := by simpa [ofCells] using hreading
      exact isOperand_zero (by simpa [ofCells] using hnext)
    | succ index => exact ih (by simpa [ofCells] using hreading) (by simpa [ofCells] using hnext)

/-- Where the walk stands, no operand is read. -/
theorem isOperand_of_stands (hstands : Walk.Stands cells index)
    (hreading : (ofCells false cells)[index]? = some reading) : reading.isOperand = false := by
  induction hstands generalizing reading with
  | start => exact isOperand_zero hreading
  | @next position cell _ hcell ih =>
    obtain ⟨isOperand, hfirst⟩ := exists_getElem?_ofCells false hcell
    have hword := ih hfirst
    rw [stride_eq ⟨cell, isOperand⟩ hword] at hreading
    split at hreading
    · -- The cell that the walk skips is the operand.
      next hopens =>
      obtain ⟨skipped, hskipped⟩ : ∃ skipped, (ofCells false cells)[position + 1]? = some skipped := by
        have hlength := (List.getElem?_eq_some_iff.mp hreading).1
        exact ⟨_, List.getElem?_eq_getElem (by omega)⟩
      have hoperand := isOperand_succ hfirst hskipped
      rw [isOperand_succ hskipped hreading]
      exact opensOperand_of_isOperand (hoperand.trans hopens)
    · next hcloses =>
      rw [isOperand_succ hfirst hreading]
      simpa using hcloses

/-- A cell that is read as an operand lies in an operand slot, and the walk stands at the others. -/
theorem slot_or_stands (hreading : (ofCells false cells)[index]? = some reading) :
    if reading.isOperand then Walk.OperandSlot cells index else Walk.Stands cells index := by
  induction index generalizing reading with
  | zero =>
    rw [isOperand_zero hreading]
    exact .start
  | succ index ih =>
    obtain ⟨before, hbefore⟩ : ∃ before, (ofCells false cells)[index]? = some before := by
      have hlength := (List.getElem?_eq_some_iff.mp hreading).1
      exact ⟨_, List.getElem?_eq_getElem (by omega)⟩
    have hstands := ih hbefore
    rw [isOperand_succ hbefore hreading]
    cases hoperand : before.isOperand with
    | true =>
      obtain ⟨position, cell, instruction, hposition, hfirst, hdecode, hhas, rfl⟩ :
          Walk.OperandSlot cells index := by simpa [hoperand] using hstands
      have hopens : opensOperand ⟨cell, false⟩ = true :=
        opensOperand_eq_true_iff.mpr ⟨rfl, instruction, hdecode, hhas⟩
      have hnext := hposition.next hfirst
      rw [stride_eq ⟨cell, false⟩ rfl, hopens] at hnext
      simpa [opensOperand_of_isOperand hoperand] using hnext
    | false =>
      replace hstands : Walk.Stands cells index := by simpa [hoperand] using hstands
      have hnext := hstands.next (getElem?_cells hbefore)
      rw [stride_eq before hoperand] at hnext
      cases hopens : before.opensOperand with
      | false => simpa [hopens] using hnext
      | true =>
        obtain ⟨-, instruction, hdecode, hhas⟩ := opensOperand_eq_true_iff.mp hopens
        exact ⟨index, before.cell, instruction, hstands, getElem?_cells hbefore, hdecode, hhas, rfl⟩

/-- The cells read as operands are those in operand slots. -/
theorem isOperand_iff (hreading : (ofCells false cells)[index]? = some reading) :
    reading.isOperand = true ↔ Walk.OperandSlot cells index := by
  constructor
  · intro hoperand
    simpa [hoperand] using slot_or_stands hreading
  · rintro ⟨position, cell, instruction, hposition, hcell, hdecode, hhas, rfl⟩
    obtain ⟨isOperand, hfirst⟩ := exists_getElem?_ofCells false hcell
    rw [isOperand_succ hfirst hreading]
    exact opensOperand_eq_true_iff.mpr
      ⟨isOperand_of_stands hposition hfirst, instruction, hdecode, hhas⟩

/-- The readings of a row of cells are its cells, read as operands in the operand slots. -/
theorem getElem?_ofCells_eq_some_iff : (ofCells false cells)[index]? = some reading ↔
    cells[index]? = some reading.cell ∧
      (reading.isOperand = true ↔ Walk.OperandSlot cells index) := by
  constructor
  · intro hreading
    exact ⟨getElem?_cells hreading, isOperand_iff hreading⟩
  · rintro ⟨hcell, hslot⟩
    obtain ⟨isOperand, hreading⟩ := exists_getElem?_ofCells false hcell
    have hsame : isOperand = reading.isOperand :=
      Bool.eq_iff_iff.mpr ((isOperand_iff hreading).trans hslot.symm)
    rw [hreading, hsame]

/-- What holds of the operands among the first readings holds of the cells in the operand slots up
to there. -/
theorem of_operandSlot {property : Word → Prop} {before after : List Reading}
    (hreadings : ofCells false cells = before ++ after)
    (hbefore : ∀ reading ∈ before, reading.isOperand = true → property reading.cell)
    {slot : Nat} (hless : slot < before.length) (hslot : Walk.OperandSlot cells slot) {cell : Word}
    (hcell : cells[slot]? = some cell) : property cell := by
  have hreading : (ofCells false cells)[slot]? = some ⟨cell, true⟩ :=
    getElem?_ofCells_eq_some_iff.mpr ⟨hcell, by simp [hslot]⟩
  rw [hreadings, List.getElem?_append_left hless] at hreading
  exact hbefore _ (List.mem_of_getElem? hreading) rfl

/-! ### The disassembly -/

/-- The walk shows the token of its reading and goes on with its bit. -/
theorem walk_next (walk : Walk) (cell : Word) :
    walk.next cell = ⟨walk.tokens.push (token ⟨cell, walk.expectsOperand⟩),
      opensOperand ⟨cell, walk.expectsOperand⟩⟩ := by
  unfold Walk.next token opensOperand
  cases walk.expectsOperand <;> cases Instruction.decode? cell <;> rfl

theorem foldl_next (tokens : Array String) :
    (cells.foldl Walk.next ⟨tokens, expected⟩).tokens.toList =
      tokens.toList ++ (ofCells expected cells).map token := by
  induction cells generalizing tokens expected with
  | nil => simp [ofCells]
  | cons cell rest ih =>
    rw [List.foldl_cons, walk_next, ih]
    simp [ofCells]

end Reading

/-- The disassembly of a memory shows the readings of its cells. -/
theorem Memory.disassemble_eq (memory : Memory) (count : Nat) :
    memory.disassemble count =
      (Reading.ofCells false (memory.cells.toList.take count)).map Reading.token := by
  rw [disassemble, Walk.start, Reading.foldl_next]
  simp

/-! ### The tokens of a memory -/

/-- The disassembly of all cells of a memory. -/
def Memory.tokens (memory : Memory) : List String := memory.disassemble memory.size

namespace Memory

variable {memory : Memory} {address : Nat} {cell : Word}

theorem tokens_eq (memory : Memory) :
    memory.tokens = (Reading.ofCells false memory.cells.toList).map Reading.token := by
  rw [tokens, disassemble_eq, List.take_of_length_le (by simp [size])]

@[simp] theorem length_tokens (memory : Memory) : memory.tokens.length = memory.size := by
  simp [tokens_eq, size]

/-- A cell is shown as it is read. -/
theorem getElem?_tokens_of_reading {reading : Reading}
    (hreading : (Reading.ofCells false memory.cells.toList)[address]? = some reading) :
    memory.tokens[address]? = some reading.token := by
  rw [tokens_eq, List.getElem?_map, hreading, Option.map_some]

/-- Where the walk stands, a cell is shown as the instruction it holds, or else as a number. -/
theorem getElem?_tokens_of_stands (hstands : Walk.Stands memory.cells.toList address)
    (hcell : memory.cells.toList[address]? = some cell) :
    memory.tokens[address]? = some (Reading.token ⟨cell, false⟩) := by
  obtain ⟨isOperand, hreading⟩ := Reading.exists_getElem?_ofCells false hcell
  obtain rfl : isOperand = false := Reading.isOperand_of_stands hstands hreading
  exact getElem?_tokens_of_reading hreading

/-- In an operand slot, a cell is shown as a number. -/
theorem getElem?_tokens_of_operandSlot (hslot : Walk.OperandSlot memory.cells.toList address)
    (hcell : memory.cells.toList[address]? = some cell) :
    memory.tokens[address]? = some (Numeral.write (Word.signed cell)) := by
  obtain ⟨isOperand, hreading⟩ := Reading.exists_getElem?_ofCells false hcell
  have hoperand : isOperand = true := (Reading.isOperand_iff hreading).mpr hslot
  rw [getElem?_tokens_of_reading hreading, Reading.token_of_isOperand hoperand]

end Memory

end DualStack
