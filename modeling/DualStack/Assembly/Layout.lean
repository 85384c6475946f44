import DualStack.Assembly.Error
import DualStack.Assembly.Item
import DualStack.Assembly.Note
import DualStack.Numeral

/-!
# The layout of a program

Laying out a program takes its label definitions away and lines up the tokens that remain, one for
each cell (`Layout.ofItems`). A label stands for the address of the token after its definition, that
is, for the number of tokens lined up before it. A label may be defined once only.

Numbers in operand position are checked here. The magnitude of such a number must have none of the
bits eight to fifteen set, and what is lined up is its decimal numeral. A number of seventeen bits
or more can pass that test and is then refused with the cells (`Assembly.encode`).
-/

set_option autoImplicit false
set_option relaxedAutoImplicit false

namespace DualStack.Assembly

/-- A program as far as it is laid out. -/
structure Layout where
  /-- The labels defined so far with their addresses, the latest first. -/
  labels : List (String × Nat)
  /-- The tokens lined up so far. -/
  stream : Array String
  /-- The notes taken. -/
  notes : Array Note

/-- An error together with the notes taken before it. -/
structure Failure where
  error : Error
  notes : Array Note

namespace Layout

/-- The layout of the program without items. -/
def empty : Layout := ⟨[], #[], #[]⟩

/-- The address of the next token to be lined up. -/
def address (layout : Layout) : Nat := layout.stream.size

/-- Gives up at the next address. -/
def fail (layout : Layout) (cause : Error.Cause) : Except Failure Layout :=
  .error ⟨⟨cause, layout.address⟩, layout.notes⟩

/-- Lines up a token. -/
def append (layout : Layout) (token : String) : Layout :=
  { layout with stream := layout.stream.push token }

/-- Takes a note. -/
def note (layout : Layout) (remark : Note) : Layout :=
  { layout with notes := layout.notes.push remark }

/-- Binds a label to the next address. -/
def define (layout : Layout) (name : String) : Except Failure Layout :=
  if (layout.labels.lookup name).isSome then
    layout.fail (.labelRedeclared name)
  else
    .ok { layout with
      labels := (name, layout.address) :: layout.labels
      notes := layout.notes.push (.labelFound layout.address name) }

/-- Whether the magnitude of a number has none of the bits eight to fifteen set. -/
def inOperandRange (value : Int) : Bool := value.natAbs &&& 0xFF00 == 0

/-- Lines up an operand: a label as it stands, a number in range as its decimal numeral. -/
def appendOperand (layout : Layout) (token : String) : Except Failure Layout :=
  if isLabel token then
    .ok (layout.append token)
  else
    match Numeral.read token with
    | .error _ => layout.fail (.invalidInteger token)
    | .ok value =>
      if inOperandRange value then
        .ok ((layout.note (.operandRead layout.address token value)).append (Numeral.write value))
      else
        layout.fail (.subrangeBounds token)

/-- Takes one item in. -/
def place (layout : Layout) : Item → Except Failure Layout
  | .definition name => layout.define name
  | .operand token => layout.appendOperand token
  | .word token => .ok (layout.append token)

/-- Lays out a program. -/
def ofItems (items : List Item) : Except Failure Layout := items.foldlM place empty

end Layout

end DualStack.Assembly
