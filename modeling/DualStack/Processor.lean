import DualStack.Instruction
import DualStack.Memory
import DualStack.Stack

/-!
# The processor and its core

The processor has a program counter, a halt flag and two stacks: operands and results live on the
data stack, return addresses and values put aside on the return stack. Together with a memory it
forms a core, the whole state that the execution of an instruction can read and change.
-/

set_option autoImplicit false
set_option relaxedAutoImplicit false

namespace DualStack

/-- The registers and stacks of the machine. -/
structure Processor where
  /-- The address of the next instruction. -/
  pc : Word
  /-- Whether execution has come to its end. -/
  halted : Bool
  dataStack : Stack
  returnStack : Stack
  deriving DecidableEq, Repr

namespace Processor

/-- A processor that has no program yet: it is halted, at address zero, with empty stacks. -/
def idle : Processor := ⟨0, true, .empty, .empty⟩

/-- A processor about to start the program at address zero. -/
def ready : Processor := ⟨0, false, .empty, .empty⟩

end Processor

/-- A processor and the memory it works on. -/
structure Core extends Processor where
  memory : Memory
  deriving DecidableEq, Repr

namespace Core

/-- The instruction at the program counter, if the cell there holds one. A halted processor has one
all the same, and outside the memory there is none. -/
def current? (core : Core) : Option Instruction := Instruction.decode? (core.memory.read core.pc)

/-- Whether the program counter lies within the memory. -/
def inBounds (core : Core) : Bool := core.pc.toNat < core.memory.size

end Core

end DualStack
