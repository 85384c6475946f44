import DualStack.Proofs.Assembly.Correctness
import DualStack.Proofs.Processor.ClosedCode

/-!
# Programs that control cannot leave

A program is label-disciplined when it consists of instructions only, jumps and calls go to labels,
nothing is stored in the memory or put aside on the return stack, and it ends with an instruction
that does not pass control on (`LabelDisciplined`).

In such a program every label stands for an address where an instruction starts
(`LabelDisciplined.starts_of_binds`), and so does every address that control falls through to
(`LabelDisciplined.starts_of_falls`). What it assembles to is therefore closed code
(`LabelDisciplined.closed`).
-/

set_option autoImplicit false
set_option relaxedAutoImplicit false

namespace DualStack.Assembly

/-- The discipline of a program that keeps control within it. -/
structure LabelDisciplined (items : List Item) : Prop where
  /-- A word is a mnemonic, and neither that of a store nor that of a move to the return stack. -/
  words : ∀ token, .word token ∈ items →
    ∃ instruction : Instruction, instruction.mnemonic = token ∧ instruction ≠ .store ∧
      instruction ≠ .toReturn
  /-- The operand of a jump or a call is a label. -/
  targets : ∀ (index : Nat) (instruction : Instruction) (token : String),
    (Item.stream items)[index]? = some (.word instruction.mnemonic) →
    instruction = .jumpIfZero ∨ instruction = .call →
    (Item.stream items)[index + 1]? = some (.operand token) → isLabel token = true
  /-- Nothing follows the last instruction, which ends the program or a routine. -/
  last : ∃ instruction : Instruction, (instruction = .halt ∨ instruction = .exit) ∧
    items.getLast? = some (.word instruction.mnemonic)

/-- An instruction of the program starts at an address. -/
def Item.Starts (items : List Item) (address : Nat) : Prop :=
  ∃ instruction : Instruction, (stream items)[address]? = some (.word instruction.mnemonic)

theorem width_of_not_hasOperand {instruction : Instruction}
    (hoperand : instruction.hasOperand = false) (hexit : instruction ≠ .exit)
    (hhalt : instruction ≠ .halt) : instruction.width = 1 := by
  cases instruction <;> simp_all [Instruction.hasOperand, Instruction.width]

variable {items : List Item}

namespace LabelDisciplined

/-! ### Where instructions start -/

/-- An item of the stream that is no operand is an instruction. -/
theorem starts_of_stream (hdiscipline : LabelDisciplined items) {index : Nat} {item : Item}
    (hitem : (Item.stream items)[index]? = some item) (hoperand : item.isOperand = false) :
    Item.Starts items index := by
  have hmem := List.mem_of_getElem? hitem
  cases item with
  | definition name => simp [Item.stream, Item.isDefinition] at hmem
  | operand token => simp [Item.isOperand] at hoperand
  | word token =>
    obtain ⟨instruction, rfl, -⟩ := hdiscipline.words token (Item.mem_stream_word.mp hmem)
    exact ⟨instruction, hitem⟩

/-- The program ends with an instruction that does not pass control on. -/
theorem exists_eq_append (hdiscipline : LabelDisciplined items) :
    ∃ (before : List Item) (instruction : Instruction),
      items = before ++ [.word instruction.mnemonic] ∧
        (instruction = .halt ∨ instruction = .exit) := by
  obtain ⟨instruction, hends, hlast⟩ := hdiscipline.last
  obtain ⟨before, hitems⟩ := List.getLast?_eq_some_iff.mp hlast
  exact ⟨before, instruction, hitems, hends⟩

/-- An item of the stream is followed by another, unless it does not pass control on. -/
theorem exists_next (hdiscipline : LabelDisciplined items) {index : Nat} {item : Item}
    (hitem : (Item.stream items)[index]? = some item)
    (hpasses : ∀ instruction : Instruction, item = .word instruction.mnemonic →
      instruction ≠ .halt ∧ instruction ≠ .exit) :
    ∃ next, (Item.stream items)[index + 1]? = some next := by
  obtain ⟨before, instruction, rfl, hends⟩ := hdiscipline.exists_eq_append
  rw [Item.stream_append, Item.stream_word] at hitem ⊢
  have hindex := (List.getElem?_eq_some_iff.mp hitem).1
  by_cases hbefore : index + 1 < (Item.stream before ++ [Item.word instruction.mnemonic]).length
  · exact ⟨_, List.getElem?_eq_getElem hbefore⟩
  · obtain rfl : index = (Item.stream before).length := by
      rw [List.length_append, List.length_singleton] at hindex hbefore
      omega
    obtain rfl : .word instruction.mnemonic = item := by simpa using hitem
    have hboth := hpasses instruction rfl
    exact absurd hends (by simp [hboth])

/-- An instruction that passes control on is followed by another item of the stream. -/
theorem exists_next_of_word (hdiscipline : LabelDisciplined items) {index : Nat}
    {instruction : Instruction}
    (hitem : (Item.stream items)[index]? = some (.word instruction.mnemonic))
    (hhalt : instruction ≠ .halt) (hexit : instruction ≠ .exit) :
    ∃ next, (Item.stream items)[index + 1]? = some next := by
  apply hdiscipline.exists_next hitem
  intro other hother
  obtain rfl : instruction = other := Instruction.mnemonic_injective (by simpa using hother)
  exact ⟨hhalt, hexit⟩

/-- An instruction starts at address zero. -/
theorem starts_zero (hplaced : Item.WellPlaced false items) (hdiscipline : LabelDisciplined items) :
    Item.Starts items 0 := by
  obtain ⟨before, instruction, hitems, -⟩ := hdiscipline.exists_eq_append
  obtain ⟨first, hfirst⟩ : ∃ first, (Item.stream items)[0]? = some first :=
    ⟨_, List.getElem?_eq_getElem (by simp [hitems])⟩
  exact hdiscipline.starts_of_stream hfirst (hplaced.stream.isOperand_zero hfirst)

/-- A label stands for an address where an instruction starts. -/
theorem starts_of_binds (hplaced : Item.WellPlaced false items)
    (hdiscipline : LabelDisciplined items) {name : String} {address : Nat}
    (hbinds : Item.Binds items name address) : Item.Starts items address := by
  obtain ⟨front, instruction, rfl, -⟩ := hdiscipline.exists_eq_append
  -- The program does not end with a definition, so there is an item behind this one.
  rcases Item.binds_append_singleton_iff.mp hbinds with
    ⟨before, after, rfl, rfl⟩ | ⟨hdefinition, -⟩
  · rw [List.append_assoc, List.cons_append] at hplaced hdiscipline ⊢
    obtain ⟨first, hfirst⟩ :
        ∃ first, (Item.stream (after ++ [.word instruction.mnemonic]))[0]? = some first :=
      ⟨_, List.getElem?_eq_getElem (by simp)⟩
    have hitem : (Item.stream (before ++ .definition name ::
        (after ++ [.word instruction.mnemonic])))[(Item.stream before).length]? = some first := by
      rw [Item.stream_append, List.getElem?_append_right (Nat.le_refl _), Nat.sub_self]
      exact hfirst
    exact hdiscipline.starts_of_stream hitem (hplaced.of_append.stream.isOperand_zero hfirst)
  · simp at hdefinition

/-- The operand of an instruction follows it. -/
theorem exists_operand (hplaced : Item.WellPlaced false items)
    (hdiscipline : LabelDisciplined items) {index : Nat} {instruction : Instruction}
    (hitem : (Item.stream items)[index]? = some (.word instruction.mnemonic))
    (hoperand : instruction.hasOperand = true) :
    ∃ token, (Item.stream items)[index + 1]? = some (.operand token) := by
  obtain ⟨next, hnext⟩ := hdiscipline.exists_next_of_word hitem
    (by rintro rfl; simp [Instruction.hasOperand, Instruction.width] at hoperand)
    (by rintro rfl; simp [Instruction.hasOperand, Instruction.width] at hoperand)
  have hplace := hplaced.stream.isOperand_succ hitem hnext
  rw [Item.expectsOperand, takesOperand_mnemonic, hoperand] at hplace
  cases next with
  | operand token => exact ⟨token, hnext⟩
  | definition name => simp [Item.isOperand] at hplace
  | word token => simp [Item.isOperand] at hplace

/-- An instruction starts where control falls through to. -/
theorem starts_of_falls (hplaced : Item.WellPlaced false items)
    (hdiscipline : LabelDisciplined items) {index : Nat} {instruction : Instruction}
    (hitem : (Item.stream items)[index]? = some (.word instruction.mnemonic))
    (hexit : instruction ≠ .exit) (hhalt : instruction ≠ .halt) :
    Item.Starts items (index + instruction.width.toNat) := by
  cases hoperand : instruction.hasOperand with
  | false =>
    obtain ⟨next, hnext⟩ := hdiscipline.exists_next_of_word hitem hhalt hexit
    have hplace := hplaced.stream.isOperand_succ hitem hnext
    rw [Item.expectsOperand, takesOperand_mnemonic, hoperand] at hplace
    rw [width_of_not_hasOperand hoperand hexit hhalt]
    exact hdiscipline.starts_of_stream hnext hplace
  | true =>
    obtain ⟨token, htoken⟩ := hdiscipline.exists_operand hplaced hitem hoperand
    obtain ⟨next, hnext⟩ := hdiscipline.exists_next htoken (by simp)
    rw [beq_iff_eq.mp hoperand]
    exact hdiscipline.starts_of_stream hnext (hplaced.stream.isOperand_succ htoken hnext)

end LabelDisciplined

/-! ### The image of a disciplined program -/

theorem denotes_mnemonic_iff {instruction : Instruction} {cell : Word} :
    Denotes instruction.mnemonic cell ↔ instruction.code = cell := by
  rw [← encode_eq_ok_iff_denotes]
  simp [encode, Instruction.ofMnemonic?_mnemonic]

variable {size : Nat} {memory : Memory}

/-- The cells of an image lie within the memory. -/
theorem Image.lt_size (himage : Image items size memory) {index : Nat} {item : Item}
    (hitem : (Item.stream items)[index]? = some item) : index < size := by
  obtain ⟨cell, hcell, -⟩ := himage.encoded index item hitem
  have hinside : index < memory.size := (Array.getElem?_eq_some_iff.mp hcell).1
  exact himage.size_eq ▸ hinside

/-- The cells of an image are read at the addresses of their items. -/
theorem Image.encodes_read (himage : Image items size memory) {address : Word} {item : Item}
    (hitem : (Item.stream items)[address.toNat]? = some item) :
    Item.Encodes items item (memory.read address) := by
  obtain ⟨cell, hcell, hencodes⟩ := himage.encoded address.toNat item hitem
  rwa [Memory.read, hcell]

/-- The code of an instruction is read where it starts. -/
theorem Image.decode?_read (himage : Image items size memory) {address : Word}
    {instruction : Instruction}
    (hitem : (Item.stream items)[address.toNat]? = some (.word instruction.mnemonic)) :
    Instruction.decode? (memory.read address) = some instruction := by
  have hencodes := himage.encodes_read hitem
  rw [Item.encodes_word_iff, denotes_mnemonic_iff] at hencodes
  exact Instruction.decode?_eq_some_iff.mpr hencodes

/-- What is read where an instruction starts is the code of that instruction. -/
theorem Image.stream_of_decode? (himage : Image items size memory) {address : Word}
    {instruction : Instruction} (hstarts : Item.Starts items address.toNat)
    (hdecode : Instruction.decode? (memory.read address) = some instruction) :
    (Item.stream items)[address.toNat]? = some (.word instruction.mnemonic) := by
  obtain ⟨other, hother⟩ := hstarts
  obtain rfl := Option.some.inj ((himage.decode?_read hother).symm.trans hdecode)
  exact hother

/-- The operand of a jump or a call is the address of an instruction. -/
theorem LabelDisciplined.starts_of_jumps (hdiscipline : LabelDisciplined items)
    (hplaced : Item.WellPlaced false items) (himage : Image items size memory)
    (hsize : size ≤ Config.largest) {address : Word} {instruction : Instruction}
    (hitem : (Item.stream items)[address.toNat]? = some (.word instruction.mnemonic))
    (hjump : instruction = .jumpIfZero ∨ instruction = .call) :
    Item.Starts items (memory.read (address + 1)).toNat := by
  have hoperand : instruction.hasOperand = true := by rcases hjump with rfl | rfl <;> rfl
  obtain ⟨token, htoken⟩ := hdiscipline.exists_operand hplaced hitem hoperand
  have hlabel := hdiscipline.targets _ instruction token hitem hjump htoken
  have hnext : (address + 1).toNat = address.toNat + 1 :=
    Config.toNat_add_of_lt (Nat.lt_of_lt_of_le (himage.lt_size hitem) hsize) (by decide)
  rw [← hnext] at htoken
  obtain ⟨target, hbinds, hcell⟩ :=
    (Item.encodes_operand_iff_of_isLabel hlabel).mp (himage.encodes_read htoken)
  have hstarts := hdiscipline.starts_of_binds hplaced hbinds
  have htarget : target < size := himage.lt_size hstarts.choose_spec
  have hvalue := Word.toNat_ofInt target
  have hread : (memory.read (address + 1)).toNat = target := by
    unfold Config.largest at hsize
    rw [← hcell]
    omega
  rwa [hread]

/-- The image of a label-disciplined program is closed code. -/
theorem LabelDisciplined.closed (hdiscipline : LabelDisciplined items)
    (hplaced : Item.WellPlaced false items) (himage : Image items size memory)
    (hsize : size ≤ Config.largest) :
    Closed memory fun address ↦ Item.Starts items address.toNat where
  zero := hdiscipline.starts_zero hplaced
  inside := by
    rintro address ⟨instruction, hitem⟩
    exact himage.size_eq ▸ himage.lt_size hitem
  decodes := by
    rintro address ⟨instruction, hitem⟩
    exact ⟨instruction, himage.decode?_read hitem⟩
  harmless := by
    intro address instruction hstarts hdecode
    have hitem := himage.stream_of_decode? hstarts hdecode
    obtain ⟨other, hmnemonic, hharmless⟩ :=
      hdiscipline.words _ (Item.mem_stream_word.mp (List.mem_of_getElem? hitem))
    rwa [Instruction.mnemonic_injective hmnemonic] at hharmless
  falls := by
    intro address instruction hstarts hdecode hexit hhalt
    have hitem := himage.stream_of_decode? hstarts hdecode
    rw [Config.toNat_add_of_lt (Nat.lt_of_lt_of_le (himage.lt_size hitem) hsize)
      instruction.toNat_width_le]
    exact hdiscipline.starts_of_falls hplaced hitem hexit hhalt
  jumps := by
    intro address instruction hstarts hdecode hjump
    have hitem := himage.stream_of_decode? hstarts hdecode
    exact hdiscipline.starts_of_jumps hplaced himage hsize hitem hjump

end DualStack.Assembly
