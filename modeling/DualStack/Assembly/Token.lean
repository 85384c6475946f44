import DualStack.Instruction
import DualStack.Text.UpperCase

/-!
# Tokens of source text

Source text is a list of lines, and a line is a row of tokens (`tokenize`). Spaces and tabs separate
tokens, and every other character belongs to one. A semicolon drops the rest of its line together
with the token it touches. Tokens are put into upper case; where lines begin and end has no further
meaning.

A token that starts with a colon is a label (`isLabel`).
-/

set_option autoImplicit false
set_option relaxedAutoImplicit false

namespace DualStack.Assembly

/-- Whether a character separates tokens. -/
def isBlank (character : Char) : Bool := character == ' ' || character == '\t'

/-- Adds the token whose characters are `pending`, back to front, unless there are none. -/
def close (tokens : Array String) (pending : List Char) : Array String :=
  if pending.isEmpty then tokens
  else tokens.push (String.ofList (Text.upper pending.reverse))

/-- Adds the tokens of a line to those found already. The characters of the token at hand are
`pending`, back to front. -/
def tokensFrom (tokens : Array String) (pending : List Char) : List Char → Array String
  | [] => close tokens pending
  | character :: rest =>
    if character = ';' then tokens
    else if isBlank character then tokensFrom (close tokens pending) [] rest
    else tokensFrom tokens (character :: pending) rest

/-- The tokens of source lines, in order. -/
def tokenize (lines : List String) : List String :=
  (lines.foldl (fun tokens line ↦ tokensFrom tokens [] line.toList) #[]).toList

/-- Whether a token is the name of a label. -/
def isLabel (token : String) : Bool := token.toList.head? == some ':'

/-- Whether a token is the mnemonic of an instruction with an operand. -/
def takesOperand (token : String) : Bool :=
  (Instruction.ofMnemonic? token).any Instruction.hasOperand

end DualStack.Assembly
