import DualStack.Processor
import DualStack.Processor.Event
import DualStack.Processor.Fault

/-!
# The effect of an instruction

An instruction acts on a core and reports the event it amounts to, or it fails (`Exec`). Nothing is
undone on failure: the core that a failed action leaves behind lacks what the action had popped.
Actions that only look at the stack before they change it, such as `OVER` and `SWAP`, lose nothing.

What happens to stacks, memory and halt flag (`act`) is kept apart from what happens to the program
counter, which goes to the target of the event or on by the width of the instruction (`perform`).
Neither asks whether the processor is halted, whether the program counter lies within the memory, or
which instruction the memory holds.
-/

set_option autoImplicit false
set_option relaxedAutoImplicit false

namespace DualStack

/-- An action on a core that may fail half way. -/
abbrev Exec := EStateM Fault Core

namespace Exec

/-- Fails for want of a word or of room on a stack. -/
def stackFault {α : Type} : Exec α := fun core ↦ .error ⟨.stack, core.pc⟩ core

/-- Takes the top off the data stack. -/
def popData : Exec Word := fun core ↦
  match core.dataStack.pop? with
  | some (top, below) => .ok top { core with dataStack := below }
  | none => stackFault core

/-- Puts a word on the data stack. -/
def pushData (value : Word) : Exec Unit := fun core ↦
  match core.dataStack.push? value with
  | some higher => .ok () { core with dataStack := higher }
  | none => stackFault core

/-- Takes the top off the return stack. -/
def popReturn : Exec Word := fun core ↦
  match core.returnStack.pop? with
  | some (top, below) => .ok top { core with returnStack := below }
  | none => stackFault core

/-- Puts a word on the return stack. -/
def pushReturn (value : Word) : Exec Unit := fun core ↦
  match core.returnStack.push? value with
  | some higher => .ok () { core with returnStack := higher }
  | none => stackFault core

/-- Looks at the top of the data stack. -/
def peekData : Exec Word := fun core ↦
  match core.dataStack.peek? with
  | some top => .ok top core
  | none => stackFault core

/-- Looks at the two topmost elements of the data stack; the lower one comes first. -/
def peekTwo : Exec (Word × Word) := fun core ↦
  match core.dataStack.peekTwo? with
  | some pair => .ok pair core
  | none => stackFault core

/-- Reads a cell of the memory. -/
def load (address : Word) : Exec Word := fun core ↦ .ok (core.memory.read address) core

/-- Replaces a cell of the memory. -/
def save (address value : Word) : Exec Unit := fun core ↦
  .ok () { core with memory := core.memory.write address value }

/-- Reads the cell after the instruction at the program counter. -/
def operand : Exec Word := fun core ↦ .ok (core.memory.read (core.pc + 1)) core

/-- The address of the instruction after a call. -/
def returnAddress : Exec Word := fun core ↦ .ok (core.pc + 2) core

/-- Ends the program. -/
def stop : Exec Unit := fun core ↦ .ok () { core with halted := true }

/-- Replaces the two topmost elements of the data stack by a combination of them. -/
def combine (operation : Word → Word → Word) : Exec Unit := do
  let right ← popData
  let left ← popData
  pushData (operation left right)

/-- What an instruction does to stacks, memory and halt flag. -/
def act : Instruction → Exec Event
  | .lit => do
    let value ← operand
    pushData value
    return .lit value
  | .fetch => do
    let address ← popData
    let value ← load address
    pushData value
    return .fetch address value
  | .store => do
    let address ← popData
    let value ← popData
    save address value
    return .store value address
  | .drop => do
    let value ← popData
    return .drop value
  | .dup => do
    let value ← peekData
    pushData value
    return .dup value
  | .copyBelow => do
    let (below, top) ← peekTwo
    pushData below
    return .copyBelow below top
  | .swap => do
    let (below, top) ← peekTwo
    discard popData
    discard popData
    pushData top
    pushData below
    return .swap below top
  | .add => do
    combine (· + ·)
    return .add
  | .sub => do
    combine (· - ·)
    return .sub
  | .and => do
    combine (· &&& ·)
    return .and
  | .or => do
    combine (· ||| ·)
    return .or
  | .xor => do
    combine (· ^^^ ·)
    return .xor
  | .jumpIfZero => do
    let condition ← popData
    let target ← operand
    return .jumpIfZero target condition
  | .call => do
    let target ← operand
    let back ← returnAddress
    pushReturn back
    return .call target
  | .exit => do
    let target ← popReturn
    return .exit target
  | .halt => do
    stop
    return .halt
  | .toReturn => do
    let value ← popData
    pushReturn value
    return .toReturn value
  | .fromReturn => do
    let value ← popReturn
    pushData value
    return .fromReturn value

/-- Sends control to where it belongs after an event. -/
def proceed (event : Event) : Exec Unit := fun core ↦
  .ok () { core with pc := event.target?.getD (core.pc + event.instruction.width) }

/-- The whole effect of an instruction. -/
def perform (instruction : Instruction) : Exec Event := do
  let event ← act instruction
  proceed event
  return event

end Exec

end DualStack
