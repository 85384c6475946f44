/-!
# Words

The machine has one kind of number, the sixteen-bit word. Its arithmetic wraps, so a word is both an
unsigned number and, when it is shown to a reader (`Word.signed`), a number in two's complement.
Writing an integer into a word (`Word.ofInt`) keeps its residue modulo `2^16`, so that
`Word.ofInt (Word.signed word)` is `word` again (`Word.ofInt_signed`).
-/

set_option autoImplicit false
set_option relaxedAutoImplicit false

namespace DualStack

/-- A cell of the machine: a number modulo `2^16`. -/
abbrev Word := UInt16

namespace Word

/-- The two's complement reading of a word, between `-32768` and `32767`. -/
def signed (word : Word) : Int :=
  if word.toNat < 0x8000 then word.toNat else (word.toNat : Int) - 0x10000

/-- The word with the residue of an integer modulo `2^16`. -/
def ofInt (value : Int) : Word := UInt16.ofInt value

/-- The less significant half of a word. -/
def lowByte (word : Word) : Nat := word.toNat % 0x100

/-- The residue of an integer, read off its word. -/
theorem toNat_ofInt (value : Int) : ((ofInt value).toNat : Int) = value % 0x10000 := by
  have hresidue : (value % 2 ^ 16).toNat % 2 ^ 16 = (value % 0x10000).toNat := by omega
  have hlower : 0 ≤ value % 0x10000 := Int.emod_nonneg _ (by decide)
  rw [ofInt, UInt16.ofInt, UInt16.toNat_ofNat', hresidue, Int.toNat_of_nonneg hlower]

/-- A word is written from every integer that has it as its residue. -/
theorem eq_ofInt {word : Word} {value : Int} (hresidue : (word.toNat : Int) = value % 0x10000) :
    word = ofInt value := by
  apply UInt16.toNat_inj.mp
  have hwritten := toNat_ofInt value
  omega

theorem signed_bounds (word : Word) : -0x8000 ≤ signed word ∧ signed word ≤ 0x7FFF := by
  have hbound : word.toNat < 65536 := word.toNat_lt
  unfold signed
  split <;> omega

/-- The two's complement reading of the word with a given residue. -/
theorem signed_ofInt (value : Int) : signed (ofInt value) = Int.bmod value 0x10000 := by
  have hresidue := toNat_ofInt value
  unfold signed
  rw [Int.bmod_def]
  split <;> omega

/-- Writing the two's complement reading of a word gives the word back. -/
theorem ofInt_signed (word : Word) : ofInt (signed word) = word := by
  symm
  apply eq_ofInt
  have hbound : word.toNat < 65536 := word.toNat_lt
  unfold signed
  split <;> omega

end Word

end DualStack
