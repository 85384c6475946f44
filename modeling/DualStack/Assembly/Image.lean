import DualStack.Assembly.Layout
import DualStack.Memory

/-!
# From source to memory image

A program that is laid out becomes a row of cells. A reference to a defined label is replaced by the
decimal numeral of its address (`Layout.resolve`), and then every token is encoded by itself
(`encode`): a mnemonic as the code of its instruction, a numeral between `-32768` and `65535` as the
word with its residue. The image of the program in a memory is these cells followed by zeros
(`Layout.image`); that they fit is checked last.

The whole way from tokens to image is `assemble`, which also answers with the notes taken.
-/

set_option autoImplicit false
set_option relaxedAutoImplicit false

namespace DualStack.Assembly

/-- The cell that a token stands for. -/
def encode (token : String) : Except Error.Cause Word :=
  match Instruction.ofMnemonic? token with
  | some instruction => .ok instruction.code
  | none =>
    match Numeral.read token with
    | .ok value =>
      if -0x8000 ≤ value ∧ value ≤ 0xFFFF then .ok (Word.ofInt value)
      else .error (.subrangeBounds token)
    | .error _ =>
      .error (if isLabel token then .undeclaredLabel token else .invalidInteger token)

namespace Layout

/-- A token with the address put in for a label that is defined. -/
def resolve (layout : Layout) (token : String) : String :=
  if isLabel token then
    match layout.labels.lookup token with
    | some address => Numeral.write address
    | none => token
  else
    token

/-- Adds the cell of a token to the cells before it. -/
def appendCell (layout : Layout) (cells : Array Word) (token : String) :
    Except Error (Array Word) :=
  match encode (layout.resolve token) with
  | .ok cell => .ok (cells.push cell)
  | .error cause => .error ⟨cause, cells.size⟩

/-- The cells of a program. -/
def cells (layout : Layout) : Except Error (Array Word) :=
  layout.stream.toList.foldlM layout.appendCell #[]

/-- The memory of a given size that starts with the program and is zero behind it. -/
def image (layout : Layout) (size : Nat) : Except Error Memory :=
  match layout.cells with
  | .error error => .error error
  | .ok cells =>
    if size < cells.size then .error ⟨.outOfMemory, size⟩ else .ok (Memory.ofCells cells size)

end Layout

/-- What an assembly comes to: the notes taken, and the image or the error that stopped it. -/
structure Outcome where
  notes : Array Note
  result : Except Error Memory

/-- Assembles tokens into a memory of a given size. -/
def assemble (tokens : List String) (size : Nat) : Outcome :=
  match Layout.ofItems (Item.ofTokens tokens) with
  | .error failure => ⟨failure.notes, .error failure.error⟩
  | .ok layout =>
    match layout.image size with
    | .error error => ⟨layout.notes, .error error⟩
    | .ok memory => ⟨layout.notes.push (.encoded layout.stream.size size), .ok memory⟩

end DualStack.Assembly
