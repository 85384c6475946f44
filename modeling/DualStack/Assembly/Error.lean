import DualStack.Text.Hexadecimal

/-!
# Assembly errors

Assembly stops at the first difficulty. An error says what is wrong and gives the address of the
cell that the token at fault would have filled.
-/

set_option autoImplicit false
set_option relaxedAutoImplicit false

namespace DualStack.Assembly

/-- What can be wrong with a program. -/
inductive Error.Cause
  /-- A label is defined a second time. -/
  | labelRedeclared (label : String)
  /-- A token is neither a mnemonic nor a numeral. -/
  | invalidInteger (token : String)
  /-- An operand refers to a label without a definition. -/
  | undeclaredLabel (label : String)
  /-- A number is out of range where it stands. -/
  | subrangeBounds (token : String)
  /-- The program has more cells than the memory. -/
  | outOfMemory
  deriving DecidableEq, Repr

/-- The wording of a cause. -/
def Error.Cause.message : Error.Cause → String
  | .labelRedeclared label => "label redeclared: " ++ label
  | .invalidInteger token => "\"" ++ token ++ "\" is not a valid integer value"
  | .undeclaredLabel label => "undeclared label: " ++ label
  | .subrangeBounds token => "constant value violates subrange bounds: " ++ token
  | .outOfMemory => "out of memory"

/-- A cause and the address it was met at. -/
structure Error where
  cause : Error.Cause
  address : Nat
  deriving DecidableEq, Repr

/-- The wording of an error. -/
def Error.message (error : Error) : String :=
  "compile error at address " ++ Text.hexadecimal error.address ++ ": " ++ error.cause.message

end DualStack.Assembly
