import DualStack.Assembly.Error
import DualStack.Processor.Fault

/-!
# Errors of a machine

A machine remembers the last error it met, which came either from assembling its source or from
executing its program.
-/

set_option autoImplicit false
set_option relaxedAutoImplicit false

namespace DualStack.Machine

/-- An error met while a machine was at work. -/
inductive Error
  | assembly (error : Assembly.Error)
  | execution (fault : Fault)
  deriving DecidableEq, Repr

namespace Error

/-- The address an error was met at. -/
def address : Error → Nat
  | assembly error => error.address
  | execution fault => fault.pc.toNat

/-- The wording of an error. -/
def message : Error → String
  | assembly error => error.message
  | execution fault => fault.message

end Error

end DualStack.Machine
