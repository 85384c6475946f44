import DualStack.Config
import DualStack.Proofs.Assembly.Image

/-!
# Which programs assemble, and to what

The conditions for a program to assemble are about its items only (`Assemblable`): the names differ,
literal operands are small numbers, label operands are defined, words are mnemonics or numbers of a
cell, and there are no more cells than the memory has. Under these conditions and no others the
tokens of a program assemble. The memory is then an image of the program (`Image`): the items of the
stream are encoded from address zero on, and all other cells are zero (`assemble_iff_assemblable`).
-/

set_option autoImplicit false
set_option relaxedAutoImplicit false

namespace DualStack.Assembly

/-- The conditions for the items of a program to assemble into a memory of a given size. -/
structure Assemblable (items : List Item) (size : Nat) : Prop where
  /-- No name is defined twice. -/
  names_nodup : (Item.names items).Nodup
  /-- An operand that is no label is a number between `-255` and `255`. -/
  literals : ∀ token, .operand token ∈ items → isLabel token = false →
    ∃ value, Numeral.read token = .ok value ∧ -255 ≤ value ∧ value ≤ 255
  /-- An operand that is a label has a definition, before it or behind. -/
  references : ∀ name, .operand name ∈ items → isLabel name = true → name ∈ Item.names items
  /-- A word is a mnemonic or a number between `-32768` and `65535`. -/
  words : ∀ token, .word token ∈ items →
    (∃ instruction, Instruction.ofMnemonic? token = some instruction) ∨
      ∃ value, Numeral.read token = .ok value ∧ -0x8000 ≤ value ∧ value ≤ 0xFFFF
  /-- The items of the stream fit into the memory. -/
  fits : (Item.stream items).length ≤ size

/-- A memory that starts with the cells that the items of a program encode and is zero otherwise. -/
structure Image (items : List Item) (size : Nat) (memory : Memory) : Prop where
  size_eq : memory.size = size
  encoded : ∀ (index : Nat) (item : Item), (Item.stream items)[index]? = some item →
    ∃ cell, memory.cells[index]? = some cell ∧ Item.Encodes items item cell
  padded : ∀ index : Nat, (Item.stream items).length ≤ index → index < size →
    memory.cells[index]? = some 0

variable {items : List Item} {size : Nat}

/-! ### The conditions -/

/-- The conditions for a program to assemble say that its items encode cells. -/
theorem assemblable_iff : Assemblable items size ↔
    (Item.names items).Nodup ∧
      (∀ item ∈ Item.stream items, ∃ cell, Item.Encodes items item cell) ∧
      (Item.stream items).length ≤ size := by
  constructor
  · intro hassemblable
    refine ⟨hassemblable.names_nodup, ?_, hassemblable.fits⟩
    intro item hitem
    cases item with
    | definition name => simp [Item.stream, Item.isDefinition] at hitem
    | operand token =>
      have hmem := Item.mem_stream_operand.mp hitem
      cases hlabel : isLabel token with
      | false =>
        obtain ⟨value, hread, hlower, hupper⟩ := hassemblable.literals token hmem hlabel
        exact ⟨_, .literal hread hlower hupper⟩
      | true =>
        obtain ⟨address, hbinds⟩ := Item.exists_binds (hassemblable.references token hmem hlabel)
        exact ⟨_, .reference hlabel hbinds⟩
    | word token =>
      rcases hassemblable.words token (Item.mem_stream_word.mp hitem) with
        ⟨instruction, hfound⟩ | ⟨value, hread, hfits⟩
      · obtain rfl := Instruction.ofMnemonic?_eq_some_iff.mp hfound
        exact ⟨_, .word (.mnemonic instruction)⟩
      · exact ⟨_, .word (.number hread hfits)⟩
  · rintro ⟨hnodup, hencodes, hfits⟩
    refine ⟨hnodup, ?_, ?_, ?_, hfits⟩
    · intro token hmem hlabel
      obtain ⟨cell, hcell⟩ := hencodes _ (Item.mem_stream_operand.mpr hmem)
      cases hcell with
      | literal hread hlower hupper => exact ⟨_, hread, hlower, hupper⟩
      | reference hlabel' => simp [hlabel] at hlabel'
    · intro name hmem hlabel
      obtain ⟨cell, hcell⟩ := hencodes _ (Item.mem_stream_operand.mpr hmem)
      cases hcell with
      | literal hread => simp [isLabel_of_read hread] at hlabel
      | reference _ hbinds => exact hbinds.mem_names
    · intro token hmem
      obtain ⟨cell, hcell⟩ := hencodes _ (Item.mem_stream_word.mpr hmem)
      cases hcell with
      | word hdenotes =>
        cases hdenotes with
        | mnemonic instruction =>
          exact .inl ⟨instruction, Instruction.ofMnemonic?_mnemonic instruction⟩
        | number hread hfits => exact .inr ⟨_, hread, hfits⟩

/-! ### The image -/

/-- Cells that the items of a program encode, followed by zeros, are an image of it. -/
theorem image_ofCells {cells : Array Word} (hfits : cells.size ≤ size)
    (hcells : List.Forall₂ (Item.Encodes items) (Item.stream items) cells.toList) :
    Image items size (.ofCells cells size) := by
  have hlength : (Item.stream items).length = cells.size := by simpa using hcells.length_eq
  refine ⟨by simp [Memory.size, Memory.ofCells]; omega, ?_, ?_⟩
  · intro index item hitem
    obtain ⟨hindex, rfl⟩ := List.getElem?_eq_some_iff.mp hitem
    have hless : index < cells.size := by omega
    refine ⟨cells[index], ?_, hcells.get hindex (by simpa using hless)⟩
    simp [Memory.ofCells, Array.getElem?_append, hless]
  · intro index hlower hupper
    have hless : ¬ index < cells.size := by omega
    have hrest : index - cells.size < size - cells.size := by omega
    simp [Memory.ofCells, Array.getElem?_append, hless, hrest]

/-- What tokens assemble to is an image of their program. -/
theorem image_of_assemble {tokens : List String} (hsize : size ≤ 0xFFFF) {memory : Memory}
    (hmemory : (assemble tokens size).result = .ok memory) :
    Image (Item.scan tokens) size memory := by
  obtain ⟨-, cells, hcells, hfits, rfl⟩ := (assemble_eq_ok_iff hsize).mp hmemory
  exact image_ofCells hfits hcells

/-- Tokens assemble under the conditions on their items and no others, and what they assemble to is
an image of their program. -/
theorem assemble_iff_assemblable (tokens : List String) (size : Nat)
    (hsize : size ≤ Config.largest) :
    ((∃ memory, (assemble tokens size).result = .ok memory) ↔
      Assemblable (Item.scan tokens) size) ∧
    ∀ memory, (assemble tokens size).result = .ok memory →
      Image (Item.scan tokens) size memory := by
  have hwords : size ≤ 0xFFFF := Nat.le_trans hsize (by decide)
  refine ⟨?_, fun memory hmemory ↦ image_of_assemble hwords hmemory⟩
  rw [assemblable_iff, ← exists_forall₂_iff]
  constructor
  · rintro ⟨memory, hmemory⟩
    obtain ⟨hnodup, cells, hcells, hfits, -⟩ := (assemble_eq_ok_iff hwords).mp hmemory
    refine ⟨hnodup, ⟨cells.toList, hcells⟩, ?_⟩
    rw [hcells.length_eq, Array.length_toList]
    exact hfits
  · rintro ⟨hnodup, ⟨cells, hcells⟩, hfits⟩
    rw [hcells.length_eq] at hfits
    exact ⟨_, (assemble_eq_ok_iff hwords).mpr ⟨hnodup, cells.toArray, hcells, hfits, rfl⟩⟩

/-- A program with a label that is used before its definition assembles into eight cells. -/
theorem assemble_iff_assemblable_of_forward :
    8 ≤ Config.largest ∧
    ∃ memory,
      (assemble ["LIT", "-5", "IF", ":END", ":END", "HALT", "-1"] 8).result = .ok memory ∧
      Assemblable (Item.scan ["LIT", "-5", "IF", ":END", ":END", "HALT", "-1"]) 8 ∧
      Image (Item.scan ["LIT", "-5", "IF", ":END", ":END", "HALT", "-1"]) 8 memory := by
  have hcorrect := assemble_iff_assemblable ["LIT", "-5", "IF", ":END", ":END", "HALT", "-1"] 8
    (by decide)
  exact ⟨by decide, _, rfl, hcorrect.1.mp ⟨_, rfl⟩, hcorrect.2 _ rfl⟩

end DualStack.Assembly
