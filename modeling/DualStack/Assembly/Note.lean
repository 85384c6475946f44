import DualStack.Numeral

/-!
# Notes taken during assembly

Assembly keeps a record of its progress: each label it finds, each operand it reads and, at the end,
how much of the memory the program fills.
-/

set_option autoImplicit false
set_option relaxedAutoImplicit false

namespace DualStack.Assembly

/-- A remark on the progress of an assembly. -/
inductive Note
  /-- A label stands for an address. -/
  | labelFound (address : Nat) (name : String)
  /-- An operand at an address was read as a number. -/
  | operandRead (address : Nat) (token : String) (value : Int)
  /-- The whole program was encoded into a memory of a given size. -/
  | encoded (count size : Nat)
  deriving DecidableEq, Repr

/-- The wording of a note. -/
def Note.text : Note → String
  | .labelFound address name => "[" ++ toString address ++ "] Found label " ++ name
  | .operandRead address token value =>
    "[" ++ toString address ++ "] Operand " ++ token ++ " = " ++ Numeral.write value
  | .encoded count size =>
    "Encoded " ++ toString count ++ " of " ++ toString size ++ " cells"

end DualStack.Assembly
