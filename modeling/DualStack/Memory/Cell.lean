import DualStack.Instruction
import DualStack.Memory
import DualStack.Text.Hexadecimal

/-!
# Cells as a reader sees them

The listing of a memory has one line per cell (`Memory.listing`): the address, then the mnemonic if
the cell is an instruction, and otherwise the less significant byte of the cell, in hexadecimal and
in decimal.
-/

set_option autoImplicit false
set_option relaxedAutoImplicit false

namespace DualStack

/-- The contents of a cell, told apart by whether it is an instruction. -/
inductive Cell
  | instruction (decoded : Instruction)
  | data (value : Word)
  deriving DecidableEq, Repr

namespace Cell

/-- What the contents of a cell stand for. -/
def ofWord (word : Word) : Cell :=
  match Instruction.decode? word with
  | some decoded => .instruction decoded
  | none => .data word

/-- The text of a cell in a listing. -/
def text : Cell → String
  | .instruction decoded => decoded.mnemonic
  | .data value =>
    Text.hexadecimal (Word.lowByte value) ++ " (" ++ toString (Word.lowByte value) ++ ")"

end Cell

/-- The cell at an address. -/
def Memory.cell (memory : Memory) (address : Word) : Cell := Cell.ofWord (memory.read address)

/-- The listing of a memory, one line per cell. -/
def Memory.listing (memory : Memory) : List String :=
  memory.cells.toList.mapIdx fun address word ↦
    Text.hexadecimal address ++ ": " ++ (Cell.ofWord word).text

end DualStack
