import DualStack.Word

/-!
# Configuration

The one thing to configure is the number of cells of the memory. A validated configuration
(`Config.ofSize?`) has between one and `Config.largest` cells, so that an address one or two cells
past an instruction is still a word.
-/

set_option autoImplicit false
set_option relaxedAutoImplicit false

namespace DualStack

/-- What a machine is built with. -/
structure Config where
  /-- The number of cells of the memory that the next assembly fills. -/
  memorySize : Nat
  deriving DecidableEq, Repr

namespace Config

/-- The largest memory that can be configured. -/
def largest : Nat := 0x8000

/-- A memory size that was refused. -/
structure Error where
  memorySize : Nat
  deriving DecidableEq, Repr

/-- The wording of an error. -/
def Error.message (error : Error) : String :=
  "memory size " ++ toString error.memorySize ++ " is outside 1..=" ++ toString largest

/-- The configuration in use when none is asked for. -/
def standard : Config := ⟨32⟩

/-- The configuration with a given memory size. -/
def ofSize? (memorySize : Nat) : Except Error Config :=
  if memorySize = 0 ∨ largest < memorySize then .error ⟨memorySize⟩ else .ok ⟨memorySize⟩

/-- The size of the `index`th block on offer: sixteen cells, doubled `index` times, but never more
than a number of sixty-four bits can say. From the sixtieth block on that is the answer, so no
wider shift has to be computed. -/
def blockSize (index : Nat) : Nat := min (16 <<< min index 60) 0xFFFFFFFFFFFFFFFF

/-- The configuration with the memory size of a block. -/
def ofBlock? (index : Nat) : Except Error Config := ofSize? (blockSize index)

/-- A configuration is validated exactly when its memory has a size within the range. -/
theorem ofSize?_eq_ok_iff {memorySize : Nat} {config : Config} :
    ofSize? memorySize = .ok config ↔
      (1 ≤ memorySize ∧ memorySize ≤ largest) ∧ config = ⟨memorySize⟩ := by
  unfold ofSize?
  split
  · next hrefused =>
    simp only [reduceCtorEq, false_iff]
    omega
  · next haccepted =>
    have hrange : 1 ≤ memorySize ∧ memorySize ≤ largest := by omega
    simp [hrange, eq_comm]

/-- An address one or two cells behind an address of a memory is still a word. -/
theorem toNat_add_of_lt {address : Word} (haddress : address.toNat < largest)
    {distance : Word} (hdistance : distance.toNat ≤ 2) :
    (address + distance).toNat = address.toNat + distance.toNat := by
  unfold largest at haddress
  rw [UInt16.toNat_add]
  omega

end Config

end DualStack
