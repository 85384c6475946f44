import DualStack.Proofs.Assembly.Image
import DualStack.Proofs.Assembly.Tokens
import DualStack.Proofs.Memory.Reading

/-!
# Assembling a disassembly

The disassembly of any cells can be given to the assembler again, all tokens in one line. The
assembler takes each token for what the disassembler meant by it: its scan finds an operand where
the walk over the cells read one, and nowhere else (`Reading.ofTokens_map_token`), and a token
denotes the cell that it shows (`Reading.denotes_token`).

What can go wrong is only that a cell in an operand slot holds a number that operands may not have.
Then assembly stops at the first such slot, and otherwise it gives the cells back
(`reassemble_disassembly`).
-/

set_option autoImplicit false
set_option relaxedAutoImplicit false

namespace DualStack

open Assembly

namespace Reading

variable {reading : Reading}

/-! ### The token of a reading -/

/-- A reading shows the mnemonic of an instruction, or else a number behind which no operand is
read. -/
theorem token_cases (reading : Reading) :
    (∃ instruction : Instruction, reading.token = instruction.mnemonic ∧
      reading.cell = instruction.code ∧ reading.isOperand = false) ∨
    reading.token = Numeral.write (Word.signed reading.cell) ∧ reading.opensOperand = false := by
  cases hoperand : reading.isOperand with
  | true => exact .inr ⟨token_of_isOperand hoperand, opensOperand_of_isOperand hoperand⟩
  | false =>
    cases hdecode : Instruction.decode? reading.cell with
    | none => exact .inr ⟨token_of_decode?_eq_none hdecode, by simp [opensOperand, hdecode]⟩
    | some instruction =>
      have hcode := Instruction.decode?_eq_some_iff.mp hdecode
      exact .inl ⟨instruction, token_of_decode?_eq_some hoperand hdecode, hcode.symm, rfl⟩

theorem settled_token (reading : Reading) : Settled reading.token := by
  obtain ⟨instruction, htoken, -⟩ | ⟨htoken, -⟩ := reading.token_cases
  · rw [htoken]
    exact settled_mnemonic instruction
  · rw [htoken]
    exact settled_write _

theorem isLabel_token (reading : Reading) : isLabel reading.token = false := by
  obtain ⟨instruction, htoken, -⟩ | ⟨htoken, -⟩ := reading.token_cases
  · rw [htoken]
    exact isLabel_mnemonic instruction
  · rw [htoken]
    exact isLabel_of_read (Numeral.read_write_signed reading.cell)

/-- The assembler expects an operand behind the token exactly when the walk does. -/
theorem takesOperand_token (reading : Reading) :
    takesOperand reading.token = reading.opensOperand := by
  obtain ⟨instruction, htoken, hcell, hword⟩ | ⟨htoken, hopens⟩ := reading.token_cases
  · rw [htoken, takesOperand_mnemonic]
    simp [opensOperand, hword, hcell, Instruction.decode?_code]
  · rw [htoken, hopens]
    exact takesOperand_of_read (Numeral.read_write_signed reading.cell)

/-- The token denotes the cell. -/
theorem denotes_token (reading : Reading) : Denotes reading.token reading.cell := by
  obtain ⟨instruction, htoken, hcell, -⟩ | ⟨htoken, -⟩ := reading.token_cases
  · rw [htoken, hcell]
    exact .mnemonic instruction
  · have hbounds := Word.signed_bounds reading.cell
    rw [htoken, denotes_write_iff (by omega) (by omega)]
    exact ⟨⟨by omega, by omega⟩, Word.ofInt_signed reading.cell⟩

/-! ### The items of a disassembly -/

/-- The token of a reading with the part it plays. -/
def item (reading : Reading) : Item :=
  if reading.isOperand then .operand reading.token else .word reading.token

theorem item_of_isOperand (hoperand : reading.isOperand = true) :
    reading.item = .operand reading.token := by
  simp [item, hoperand]

theorem item_of_not_isOperand (hword : reading.isOperand = false) :
    reading.item = .word reading.token := by
  simp [item, hword]

/-- The scan of the assembler goes along with the walk. -/
theorem scan_next (items : Array Item) (reading : Reading) :
    Scan.next ⟨items, reading.isOperand⟩ reading.token =
      ⟨items.push reading.item, reading.opensOperand⟩ := by
  cases hoperand : reading.isOperand with
  | true => simp [Scan.next, item_of_isOperand hoperand, opensOperand_of_isOperand hoperand]
  | false =>
    simp [Scan.next, item_of_not_isOperand hoperand, isLabel_token, takesOperand_token]

theorem foldl_scan_next (expected : Bool) (cells : List Word) (items : Array Item) :
    (((ofCells expected cells).map token).foldl Scan.next ⟨items, expected⟩).items.toList =
      items.toList ++ (ofCells expected cells).map item := by
  induction cells generalizing items expected with
  | nil => simp [ofCells]
  | cons cell rest ih =>
    have hnext := scan_next items ⟨cell, expected⟩
    rw [ofCells, List.map_cons, List.foldl_cons, hnext, ih]
    simp

/-- The assembler finds the items that the disassembler meant. -/
theorem ofTokens_map_token (cells : List Word) :
    Item.ofTokens ((ofCells false cells).map token) = (ofCells false cells).map item := by
  simpa [Item.ofTokens, Scan.start] using foldl_scan_next false cells #[]

theorem isDefinition_item (reading : Reading) : reading.item.isDefinition = false := by
  unfold item
  split <;> rfl

theorem name?_item (reading : Reading) : reading.item.name? = none := by
  unfold item
  split <;> rfl

/-- A disassembly has no definitions, so that every item takes up a cell. -/
theorem stream_map_item (readings : List Reading) :
    Item.stream (readings.map item) = readings.map item := by
  rw [Item.stream, List.filter_eq_self]
  simp [isDefinition_item]

theorem names_map_item (readings : List Reading) : Item.names (readings.map item) = [] := by
  rw [Item.names, List.filterMap_eq_nil_iff]
  simp [name?_item]

/-- Lining up the item of a reading does not change its token. -/
theorem lined_item (reading : Reading) : reading.item.lined = reading.token := by
  cases hoperand : reading.isOperand with
  | true =>
    have htoken := token_of_isOperand hoperand
    have hread := Numeral.read_write_signed reading.cell
    rw [item_of_isOperand hoperand, htoken, Item.lined_of_read hread]
  | false => rw [item_of_not_isOperand hoperand, Item.lined]

end Reading

namespace Assembly

/-! ### Operands in range -/

/-- Whether a cell holds a number that operands may have. -/
def SmallOperand (cell : Word) : Prop := -255 ≤ Word.signed cell ∧ Word.signed cell ≤ 255

instance (cell : Word) : Decidable (SmallOperand cell) :=
  inferInstanceAs (Decidable (_ ∧ _))

theorem inOperandRange_signed_iff {cell : Word} :
    Layout.inOperandRange (Word.signed cell) = true ↔ SmallOperand cell := by
  have hbounds := Word.signed_bounds cell
  exact inOperandRange_iff ⟨by omega, by omega⟩

/-- Readings whose operands are small are a legal program. -/
theorem legal_map_item {readings : List Reading}
    (hsmall : ∀ reading ∈ readings, reading.isOperand = true → SmallOperand reading.cell) :
    Item.Legal (readings.map Reading.item) where
  names_nodup := by
    rw [Reading.names_map_item]
    exact List.nodup_nil
  operands token hmem := by
    obtain ⟨reading, hreading, hitem⟩ := List.mem_map.mp hmem
    cases hoperand : reading.isOperand with
    | true =>
      obtain rfl : reading.token = token := by
        simpa [Reading.item_of_isOperand hoperand] using hitem
      refine .inr ⟨Word.signed reading.cell, ?_, ?_⟩
      · rw [Reading.token_of_isOperand hoperand]
        exact Numeral.read_write_signed reading.cell
      · exact inOperandRange_signed_iff.mpr (hsmall reading hreading hoperand)
    | false => simp [Reading.item_of_not_isOperand hoperand] at hitem

/-- A layout of readings has their cells. -/
theorem cells_of_map_item {readings : List Reading} {layout : Layout}
    (hlayout : Layout.ofItems (readings.map Reading.item) = .ok layout) :
    layout.cells = .ok (readings.map Reading.cell).toArray := by
  have hstream : layout.stream.toList = readings.map Reading.token := by
    rw [(Layout.legal_and_covers_of_ofItems hlayout).2.stream_eq, Reading.stream_map_item,
      List.map_map]
    exact List.map_congr_left fun reading _ ↦ reading.lined_item
  rw [Layout.cells_eq_ok_iff, hstream, List.forall₂_map_left_iff, List.forall₂_map_right_iff,
    List.forall₂_same]
  intro reading _
  rw [Layout.resolve_of_not_isLabel reading.isLabel_token, encode_eq_ok_iff_denotes]
  exact reading.denotes_token

variable {cells : List Word} {size : Nat}

/-- The tokens of cells with small operands are assembled into these cells. -/
theorem assemble_map_token (hfits : cells.length ≤ size)
    (hsmall : ∀ reading ∈ Reading.ofCells false cells,
      reading.isOperand = true → SmallOperand reading.cell) :
    (assemble ((Reading.ofCells false cells).map Reading.token) size).result =
      .ok (Memory.ofCells cells.toArray size) := by
  obtain ⟨layout, hlayout⟩ := Layout.exists_ofItems (legal_map_item hsmall)
  have hcells := cells_of_map_item hlayout
  rw [Reading.map_cell_ofCells] at hcells
  rw [assemble_result_eq_ok_iff, Reading.ofTokens_map_token]
  exact ⟨layout, hlayout, Layout.image_eq_ok_iff.mpr ⟨_, hcells, hfits, rfl⟩⟩

/-- The first operand that is not small stops the assembly. -/
theorem assemble_map_token_eq_error {before after : List Reading} {reading : Reading}
    (hreadings : Reading.ofCells false cells = before ++ reading :: after)
    (hsmall : ∀ earlier ∈ before, earlier.isOperand = true → SmallOperand earlier.cell)
    (hoperand : reading.isOperand = true) (hlarge : ¬ SmallOperand reading.cell) (size : Nat) :
    (assemble ((Reading.ofCells false cells).map Reading.token) size).result =
      .error ⟨.subrangeBounds (Numeral.write (Word.signed reading.cell)), before.length⟩ := by
  have hread := Numeral.read_write_signed reading.cell
  have hrange : Layout.inOperandRange (Word.signed reading.cell) = false :=
    Bool.eq_false_iff.mpr fun htrue ↦ hlarge (inOperandRange_signed_iff.mp htrue)
  obtain ⟨notes, hlayout⟩ := Layout.ofItems_eq_error (legal_map_item hsmall) hread hrange
    (after.map Reading.item)
  rw [← Reading.token_of_isOperand hoperand, ← Reading.item_of_isOperand hoperand,
    ← List.map_cons, ← List.map_append, ← hreadings, ← Reading.ofTokens_map_token,
    Reading.stream_map_item, List.length_map] at hlayout
  rw [assemble_result_eq_error hlayout, Reading.token_of_isOperand hoperand]

/-! ### The round trip -/

/-- The tokens of a disassembly are found in the line that they are written into. -/
theorem tokenize_map_token (readings : List Reading) :
    tokenize [" ".intercalate (readings.map Reading.token)] = readings.map Reading.token := by
  apply tokenize_intercalate
  intro token hmem
  obtain ⟨reading, -, rfl⟩ := List.mem_map.mp hmem
  exact reading.settled_token

/-- What becomes of cells that are written as tokens and assembled again into a memory of a given
size. -/
structure Reassembles (cells : List Word) (size : Nat) (result : Except Error Memory) : Prop where
  /-- Assembly succeeds exactly when the cells in operand slots are small. -/
  succeeds_iff : (∃ image, result = .ok image) ↔
    ∀ slot cell, Walk.OperandSlot cells slot → cells[slot]? = some cell → SmallOperand cell
  /-- The image starts with the cells and is zero behind them. -/
  image_eq : ∀ image, result = .ok image →
    image.cells.toList = cells ++ List.replicate (size - cells.length) 0
  /-- Assembly fails at the first operand slot with a cell that is not small. -/
  error_eq : ∀ error, result = .error error → ∃ slot cell,
    Walk.OperandSlot cells slot ∧ cells[slot]? = some cell ∧ ¬ SmallOperand cell ∧
      (∀ earlier < slot, ∀ other, Walk.OperandSlot cells earlier →
        cells[earlier]? = some other → SmallOperand other) ∧
      error = ⟨.subrangeBounds (Numeral.write (Word.signed cell)), slot⟩

theorem Reassembles.of_ok
    (hsmall : ∀ slot cell, Walk.OperandSlot cells slot → cells[slot]? = some cell →
      SmallOperand cell) :
    Reassembles cells size (.ok (Memory.ofCells cells.toArray size)) where
  succeeds_iff := iff_of_true ⟨_, rfl⟩ hsmall
  image_eq := by
    rintro image ⟨⟩
    simp [Memory.ofCells]
  error_eq := by simp

theorem Reassembles.of_error {slot : Nat} {cell : Word} (hslot : Walk.OperandSlot cells slot)
    (hcell : cells[slot]? = some cell) (hlarge : ¬ SmallOperand cell)
    (hfirst : ∀ earlier < slot, ∀ other, Walk.OperandSlot cells earlier →
      cells[earlier]? = some other → SmallOperand other) :
    Reassembles cells size
      (.error ⟨.subrangeBounds (Numeral.write (Word.signed cell)), slot⟩) where
  succeeds_iff := iff_of_false (by simp) fun hsmall ↦ hlarge (hsmall slot cell hslot hcell)
  image_eq := by simp
  error_eq := by
    rintro error ⟨⟩
    exact ⟨slot, cell, hslot, hcell, hlarge, hfirst, rfl⟩

/-- The readings of cells have small operands only, or there is a first one that is not small. -/
theorem smallOperands_or_first (readings : List Reading) :
    (∀ reading ∈ readings, reading.isOperand = true → SmallOperand reading.cell) ∨
      ∃ before reading after, readings = before ++ reading :: after ∧
        (∀ earlier ∈ before, earlier.isOperand = true → SmallOperand earlier.cell) ∧
        reading.isOperand = true ∧ ¬ SmallOperand reading.cell := by
  rcases forall_or_first (fun reading : Reading ↦ reading.isOperand = true → SmallOperand reading.cell)
    readings with hsmall | ⟨before, reading, after, hreadings, hsmall, hlarge⟩
  · exact .inl hsmall
  · exact .inr ⟨before, reading, after, hreadings, hsmall, Classical.not_imp.mp hlarge⟩

/-- Cells that are written as tokens and assembled again come back if their operands are small, and
otherwise the first operand that is not small is reported. -/
theorem reassembles_map_token (hfits : cells.length ≤ size) :
    Reassembles cells size
      (assemble ((Reading.ofCells false cells).map Reading.token) size).result := by
  rcases smallOperands_or_first (Reading.ofCells false cells) with
    hsmall | ⟨before, reading, after, hreadings, hsmall, hoperand, hlarge⟩
  · rw [assemble_map_token hfits hsmall]
    apply Reassembles.of_ok
    intro slot cell hslot hcell
    have hless : slot < (Reading.ofCells false cells).length := by
      rw [Reading.length_ofCells]
      exact (List.getElem?_eq_some_iff.mp hcell).1
    exact Reading.of_operandSlot (List.append_nil _).symm hsmall hless hslot hcell
  · have hreading : (Reading.ofCells false cells)[before.length]? = some reading := by
      simp [hreadings]
    obtain ⟨hcell, hslot⟩ := Reading.getElem?_ofCells_eq_some_iff.mp hreading
    rw [assemble_map_token_eq_error hreadings hsmall hoperand hlarge]
    apply Reassembles.of_error (hslot.mp hoperand) hcell hlarge
    intro earlier hless other hearlier hother
    exact Reading.of_operandSlot hreadings hsmall hless hearlier hother

/-- A disassembly that is written into one line and assembled again gives the cells back, followed
by zeros, or the first cell in an operand slot that is not small is reported. -/
theorem reassemble_disassembly (memory : Memory) (count size : Nat)
    (hsize : min count memory.size ≤ size) :
    Reassembles (memory.cells.toList.take count) size
      (assemble (tokenize [" ".intercalate (memory.disassemble count)]) size).result := by
  rw [Memory.disassemble_eq, tokenize_map_token]
  apply reassembles_map_token
  rwa [List.length_take, Array.length_toList]

/-- A memory with the code of an instruction as one operand and a large number as another. -/
theorem reassemble_disassembly_of_codes :
    min 4 (Memory.size ⟨#[0xFF00, 0xFF01, 0xFF0C, 300]⟩) ≤ 6 ∧
    Reassembles [0xFF00, 0xFF01, 0xFF0C, 300] 6
      (assemble (tokenize
        [" ".intercalate (Memory.disassemble ⟨#[0xFF00, 0xFF01, 0xFF0C, 300]⟩ 4)]) 6).result ∧
    (assemble (tokenize
      [" ".intercalate (Memory.disassemble ⟨#[0xFF00, 0xFF01, 0xFF0C, 300]⟩ 4)]) 6).result =
        .error ⟨.subrangeBounds "300", 3⟩ := by
  refine ⟨by decide, ?_, by rfl⟩
  exact reassemble_disassembly ⟨#[0xFF00, 0xFF01, 0xFF0C, 300]⟩ 4 6 (by decide)

end Assembly

end DualStack
