import DualStack.Word

/-!
# Memory

A memory is a row of words, addressed from zero, that holds instructions and data alike. It has no
faults: a cell outside the memory reads as zero, and a write outside it is dropped.
-/

set_option autoImplicit false
set_option relaxedAutoImplicit false

namespace DualStack

/-- A row of words. -/
structure Memory where
  cells : Array Word
  deriving DecidableEq, Repr

namespace Memory

/-- A memory of zeros. -/
def zeros (size : Nat) : Memory := ⟨Array.replicate size 0⟩

/-- Given cells, followed by zeros up to a memory of at least `size` cells. -/
def ofCells (cells : Array Word) (size : Nat) : Memory :=
  ⟨cells ++ Array.replicate (size - cells.size) 0⟩

/-- The number of cells. -/
def size (memory : Memory) : Nat := memory.cells.size

/-- The cell at an address. -/
def read (memory : Memory) (address : Word) : Word := memory.cells[address.toNat]?.getD 0

/-- The memory with one cell replaced. -/
def write (memory : Memory) (address value : Word) : Memory :=
  ⟨memory.cells.setIfInBounds address.toNat value⟩

/-- The memory with neighbouring cells replaced, the first of them at a given position. -/
def writeAll (memory : Memory) (position : Nat) : List Word → Memory
  | [] => memory
  | value :: values => writeAll ⟨memory.cells.setIfInBounds position value⟩ (position + 1) values

@[simp] theorem size_zeros (count : Nat) : (zeros count).size = count := by
  simp [zeros, size]

@[simp] theorem size_write (memory : Memory) (address value : Word) :
    (memory.write address value).size = memory.size := by
  simp [write, size]

/-- A write within the memory is read back, and no other cell changes. -/
theorem read_write (memory : Memory) (address value other : Word) :
    (memory.write address value).read other =
      if address = other ∧ address.toNat < memory.size then value else memory.read other := by
  simp only [read, write, size, Array.getElem?_setIfInBounds, UInt16.toNat_inj]
  by_cases hsame : address = other
  · subst hsame
    by_cases hinside : address.toNat < memory.cells.size <;> simp [hinside]
  · simp [hsame]

/-- Within the memory there are its cells. -/
theorem read_of_getElem? {memory : Memory} {address cell : Word}
    (hcell : memory.cells[address.toNat]? = some cell) : memory.read address = cell := by
  rw [read, hcell, Option.getD_some]

/-- Outside the memory there are zeros. -/
theorem read_of_size_le {memory : Memory} {address : Word}
    (houtside : memory.size ≤ address.toNat) : memory.read address = 0 := by
  rw [read, Array.getElem?_eq_none houtside, Option.getD_none]

/-- A write outside the memory is dropped. -/
theorem write_of_size_le {memory : Memory} {address : Word} (value : Word)
    (houtside : memory.size ≤ address.toNat) : memory.write address value = memory := by
  rw [write, Array.setIfInBounds_eq_of_size_le houtside]

end Memory

end DualStack
