import DualStack.Assembly.Token

/-!
# The items of a program

Read from left to right, every token of a program plays one of three parts (`Item`). The token after
the mnemonic of an instruction with an operand is that operand, whatever it looks like. Elsewhere a
label defines itself, and any other token stands for a cell. The scan (`Scan.next`) therefore
carries one bit, as the walk over a finished memory does.
-/

set_option autoImplicit false
set_option relaxedAutoImplicit false

namespace DualStack.Assembly

/-- A token together with the part it plays. -/
inductive Item
  /-- The definition of a label, which takes up no cell. -/
  | definition (name : String)
  /-- The operand of the instruction before it. -/
  | operand (token : String)
  /-- A mnemonic or a number on its own. -/
  | word (token : String)
  deriving DecidableEq, Repr

/-- A scan over the tokens of a program. -/
structure Scan where
  /-- The items of the tokens passed. -/
  items : Array Item
  /-- Whether the next token is the operand of the last one. -/
  expectsOperand : Bool

namespace Scan

/-- The scan before the first token. -/
def start : Scan := ⟨#[], false⟩

/-- Passes one token. -/
def next (scan : Scan) (token : String) : Scan :=
  if scan.expectsOperand then ⟨scan.items.push (.operand token), false⟩
  else if isLabel token then ⟨scan.items.push (.definition token), false⟩
  else ⟨scan.items.push (.word token), takesOperand token⟩

end Scan

/-- The items of a program, one for each token. -/
def Item.ofTokens (tokens : List String) : List Item :=
  (tokens.foldl Scan.next Scan.start).items.toList

end DualStack.Assembly
