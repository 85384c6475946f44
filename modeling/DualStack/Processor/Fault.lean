import DualStack.Text.Hexadecimal
import DualStack.Word

/-!
# Faults

Execution can fail in three ways. A fault says which, and where the program counter stood.
-/

set_option autoImplicit false
set_option relaxedAutoImplicit false

namespace DualStack

/-- What stops a program other than its own end. -/
inductive Fault.Cause
  /-- A word was missing on a stack, or a full stack had to take one more. -/
  | stack
  /-- The cell at the program counter is not an instruction; this is its less significant byte. -/
  | notAnOpcode (byte : Nat)
  /-- The program counter lies outside the memory. -/
  | pcOutOfBounds
  deriving DecidableEq, Repr

/-- The wording of a cause. -/
def Fault.Cause.message : Fault.Cause → String
  | .stack => "stack overflow/underflow"
  | .notAnOpcode byte => "\"" ++ Text.hexadecimal byte ++ "\" is not an opcode"
  | .pcOutOfBounds => "PC out of bounds"

/-- A cause and the program counter it was met at. -/
structure Fault where
  cause : Fault.Cause
  pc : Word
  deriving DecidableEq, Repr

/-- The wording of a fault. -/
def Fault.message (fault : Fault) : String :=
  "runtime error at address " ++ Text.hexadecimal fault.pc.toNat ++ ": " ++ fault.cause.message

end DualStack
