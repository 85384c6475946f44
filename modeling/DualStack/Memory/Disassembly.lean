import DualStack.Instruction
import DualStack.Memory
import DualStack.Numeral

/-!
# Disassembly

A memory can be read as a program from its first cell on. The walk over the cells (`Walk.next`)
carries one bit: whether the cell at hand is the operand of the instruction before it. An operand is
a number even if it is the code of an instruction; elsewhere a code is shown as its mnemonic and any
other cell as a number. Every cell yields exactly one token, so `Memory.disassemble` of a number of
cells is the beginning of the disassembly of more of them.
-/

set_option autoImplicit false
set_option relaxedAutoImplicit false

namespace DualStack

/-- A walk over the cells of a program. -/
structure Walk where
  /-- The tokens of the cells passed. -/
  tokens : Array String
  /-- Whether the next cell is the operand of the last one. -/
  expectsOperand : Bool

namespace Walk

/-- The walk before the first cell. -/
def start : Walk := ⟨#[], false⟩

/-- Passes one cell. -/
def next (walk : Walk) (cell : Word) : Walk :=
  match walk.expectsOperand, Instruction.decode? cell with
  | false, some instruction => ⟨walk.tokens.push instruction.mnemonic, instruction.hasOperand⟩
  | _, _ => ⟨walk.tokens.push (Numeral.write (Word.signed cell)), false⟩

end Walk

/-- The tokens of the first `count` cells, or of all cells if there are fewer. -/
def Memory.disassemble (memory : Memory) (count : Nat) : List String :=
  ((memory.cells.toList.take count).foldl Walk.next Walk.start).tokens.toList

end DualStack
