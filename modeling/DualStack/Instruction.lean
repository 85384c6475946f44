import DualStack.Word

/-!
# Instructions

The processor knows eighteen instructions (`Instruction.all`). An instruction is the contents of one
cell, its `code`: codes have `0xFF` as their upper byte, so that cells in everyday use hold plain
numbers. In source text it is its `mnemonic`. `Instruction.width` is the distance to the next
instruction: instructions with an operand in the following cell have width two, and those that never
pass control on have width zero.

A cell is an instruction exactly when it is the code of one (`Instruction.decode?_eq_some_iff`), and
a text when it is the mnemonic of one (`Instruction.ofMnemonic?_eq_some_iff`).
-/

set_option autoImplicit false
set_option relaxedAutoImplicit false

namespace DualStack

/-- What the processor can do in one step. -/
inductive Instruction
  /-- Push the operand. -/
  | lit
  /-- Pop an address and push the cell stored there. -/
  | fetch
  /-- Pop an address, pop a value and store the value at the address. -/
  | store
  /-- Discard the top of the data stack. -/
  | drop
  /-- Push a copy of the top of the data stack. -/
  | dup
  /-- Push a copy of the second element of the data stack. -/
  | copyBelow
  /-- Exchange the two topmost elements of the data stack. -/
  | swap
  /-- Replace the two topmost elements by their sum. -/
  | add
  /-- Replace the two topmost elements by their difference, the topmost one subtracted. -/
  | sub
  /-- Replace the two topmost elements by their bitwise conjunction. -/
  | and
  /-- Replace the two topmost elements by their bitwise disjunction. -/
  | or
  /-- Replace the two topmost elements by their bitwise exclusive disjunction. -/
  | xor
  /-- Pop a condition and go to the operand address if it is zero. -/
  | jumpIfZero
  /-- Push the return address and go to the operand address. -/
  | call
  /-- Go to the address popped off the return stack. -/
  | exit
  /-- Stop the program. -/
  | halt
  /-- Move the top of the data stack to the return stack. -/
  | toReturn
  /-- Move the top of the return stack to the data stack. -/
  | fromReturn
  deriving DecidableEq, Repr

namespace Instruction

/-- All instructions by ascending code. -/
def all : List Instruction :=
  [lit, fetch, store, drop, dup, copyBelow, swap, add, sub, and, or, xor, jumpIfZero, call, exit,
    halt, toReturn, fromReturn]

/-- The contents of a cell that holds an instruction. -/
def code : Instruction → Word
  | lit => 0xFF00
  | fetch => 0xFF01
  | store => 0xFF02
  | drop => 0xFF03
  | dup => 0xFF04
  | copyBelow => 0xFF05
  | swap => 0xFF06
  | add => 0xFF07
  | sub => 0xFF08
  | and => 0xFF09
  | or => 0xFF0A
  | xor => 0xFF0B
  | jumpIfZero => 0xFF0C
  | call => 0xFF0D
  | exit => 0xFF0E
  | halt => 0xFF0F
  | toReturn => 0xFF10
  | fromReturn => 0xFF11

/-- The text of an instruction. -/
def mnemonic : Instruction → String
  | lit => "LIT"
  | fetch => "@"
  | store => "!"
  | drop => "DROP"
  | dup => "DUP"
  | copyBelow => "OVER"
  | swap => "SWAP"
  | add => "+"
  | sub => "-"
  | and => "AND"
  | or => "OR"
  | xor => "XOR"
  | jumpIfZero => "IF"
  | call => "CALL"
  | exit => "EXIT"
  | halt => "HALT"
  | toReturn => ">R"
  | fromReturn => "R>"

/-- The distance from an instruction to the one executed after it in the ordinary course. -/
def width : Instruction → Word
  | lit | jumpIfZero | call => 2
  | exit | halt => 0
  | _ => 1

/-- Whether the cell after an instruction is its operand. -/
def hasOperand (instruction : Instruction) : Bool := instruction.width == 2

/-- The instruction with a given mnemonic. -/
def ofMnemonic? (text : String) : Option Instruction := all.find? fun i ↦ i.mnemonic == text

/-- The instruction that a cell holds, if it holds one. -/
def decode? (cell : Word) : Option Instruction := all.find? fun i ↦ i.code == cell

theorem toNat_width_le (instruction : Instruction) : instruction.width.toNat ≤ 2 := by
  cases instruction <;> decide

/-- Every instruction is listed. -/
theorem mem_all (instruction : Instruction) : instruction ∈ all := by
  cases instruction <;> decide

/-- A code belongs to one instruction only. -/
theorem code_injective {first second : Instruction} (hsame : first.code = second.code) :
    first = second := by
  revert hsame
  cases first <;> cases second <;> decide

/-- Decoding finds the instruction whose code a cell holds. -/
theorem decode?_code (instruction : Instruction) : decode? instruction.code = some instruction := by
  cases instruction <;> decide

/-- A cell is an instruction exactly when it holds its code. -/
theorem decode?_eq_some_iff {cell : Word} {instruction : Instruction} :
    decode? cell = some instruction ↔ instruction.code = cell := by
  constructor
  · intro hfound
    simpa using List.find?_some hfound
  · rintro rfl
    exact decode?_code instruction

/-- Looking a mnemonic up finds its instruction. -/
theorem ofMnemonic?_mnemonic (instruction : Instruction) :
    ofMnemonic? instruction.mnemonic = some instruction := by
  cases instruction <;> decide

/-- A mnemonic belongs to one instruction only. -/
theorem mnemonic_injective {first second : Instruction}
    (hsame : first.mnemonic = second.mnemonic) : first = second := by
  have hfound := ofMnemonic?_mnemonic first
  rw [hsame, ofMnemonic?_mnemonic] at hfound
  exact (Option.some.inj hfound).symm

/-- A text names an instruction exactly when it is its mnemonic. -/
theorem ofMnemonic?_eq_some_iff {text : String} {instruction : Instruction} :
    ofMnemonic? text = some instruction ↔ instruction.mnemonic = text := by
  constructor
  · intro hfound
    simpa using List.find?_some hfound
  · rintro rfl
    exact ofMnemonic?_mnemonic instruction

end Instruction

end DualStack
