import DualStack.Proofs.Assembly.Correctness
import DualStack.Proofs.Memory.Reading

/-!
# Disassembling an image

The image of a program does not tell instructions from numbers. Still the disassembler stands where
the assembler stood, as long as no number among the words of the program has the code of an
instruction (`Item.PlainWords`): operands are read as operands, whatever their cells look like, and
the instructions in front of them are the same (`Item.map_token_ofCells`).

The disassembly of the image is then the program without its definitions, in which every label and
every numeral has become a decimal number of sixteen bits (`Item.shown`, `disassemble_assembly`).
-/

set_option autoImplicit false
set_option relaxedAutoImplicit false

namespace DualStack.Assembly

namespace Item

/-! ### The address of a label -/

/-- The address of the first definition of a name. -/
def address? (name : String) : List Item → Option Nat
  | [] => none
  | item :: rest =>
    if item = .definition name then some 0
    else (address? name rest).map fun address ↦ (stream [item]).length + address

variable {items : List Item} {name : String} {address : Nat}

theorem address?_append_definition {before : List Item} (hnew : name ∉ names before)
    (after : List Item) :
    address? name (before ++ definition name :: after) = some (stream before).length := by
  induction before with
  | nil => rw [List.nil_append, address?, if_pos rfl]; rfl
  | cons item before ih =>
    have hitem : item ≠ definition name := by
      rintro rfl
      exact hnew (mem_names.mpr List.mem_cons_self)
    have hbefore : name ∉ names before :=
      fun hmem ↦ hnew (mem_names.mpr (List.mem_cons_of_mem _ (mem_names.mp hmem)))
    have hstream : stream (item :: before) = stream [item] ++ stream before :=
      stream_append [item] before
    rw [List.cons_append, address?, if_neg hitem, ih hbefore, Option.map_some, hstream,
      List.length_append]

/-- If no name is defined twice, the address of a name is the one that it is bound to. -/
theorem address?_eq_some (hnodup : (names items).Nodup) (hbinds : Binds items name address) :
    address? name items = some address := by
  obtain ⟨before, after, rfl, rfl⟩ := hbinds
  apply address?_append_definition
  intro hmem
  rw [names_append] at hnodup
  have hafter : name ∈ names (definition name :: after) := mem_names.mpr List.mem_cons_self
  exact (List.nodup_append.mp hnodup).2.2 name hmem name hafter rfl

/-- A name without a definition has no address. -/
theorem address?_eq_none (hfree : name ∉ names items) : address? name items = none := by
  induction items with
  | nil => rfl
  | cons item items ih =>
    have hitem : item ≠ definition name := by
      rintro rfl
      exact hfree (mem_names.mpr List.mem_cons_self)
    have hrest : name ∉ names items :=
      fun hmem ↦ hfree (mem_names.mpr (List.mem_cons_of_mem _ (mem_names.mp hmem)))
    rw [address?, if_neg hitem, ih hrest, Option.map_none]

/-! ### What a token becomes -/

/-- The token of an item. -/
def token : Item → String
  | definition name => name
  | operand token => token
  | word token => token

/-- The number that a token stands for in a program: a label for its address, a numeral for the
number it is read as, and a mnemonic for none. -/
def number? (items : List Item) (token : String) : Option Int :=
  if isLabel token then (address? token items).map fun address ↦ (address : Int)
  else (Numeral.read token).toOption

/-- How a token of a program is shown by the disassembler: if it stands for a number, as the decimal
numeral of the residue of that number between `-32768` and `32767`, and otherwise as it is. -/
def shown (items : List Item) (token : String) : String :=
  match number? items token with
  | some value => Numeral.write (Int.bmod value 0x10000)
  | none => token

theorem shown_mnemonic (items : List Item) (instruction : Instruction) :
    shown items instruction.mnemonic = instruction.mnemonic := by
  obtain ⟨error, hread⟩ := exists_read_mnemonic instruction
  simp [shown, number?, isLabel_mnemonic, hread, Except.toOption]

theorem shown_of_read {token : String} {value : Int} (hread : Numeral.read token = .ok value) :
    shown items token = Numeral.write (Int.bmod value 0x10000) := by
  simp [shown, number?, isLabel_of_read hread, hread, Except.toOption]

theorem shown_of_binds (hnodup : (names items).Nodup) (hlabel : isLabel name = true)
    (hbinds : Binds items name address) :
    shown items name = Numeral.write (Int.bmod address 0x10000) := by
  simp [shown, number?, hlabel, address?_eq_some hnodup hbinds]

/-- A number of sixteen bits is shown as it is. -/
theorem shown_of_read_of_bounds {token : String} {value : Int}
    (hread : Numeral.read token = .ok value) (hlower : -0x8000 ≤ value) (hupper : value ≤ 0x7FFF) :
    shown items token = Numeral.write value := by
  rw [shown_of_read hread, Int.bmod_eq_of_le (by omega) (by omega)]

/-! ### The readings of an image -/

/-- No number that stands on its own has the code of an instruction. -/
def PlainWords (items : List Item) : Prop :=
  ∀ token value, .word token ∈ items → Numeral.read token = .ok value →
    Instruction.decode? (Word.ofInt value) = none

/-- Whether an item is no number with the code of an instruction. -/
def isPlain : Item → Bool
  | word token =>
    (Numeral.read token).toOption.all fun value ↦ (Instruction.decode? (Word.ofInt value)).isNone
  | _ => true

theorem plainWords_iff : PlainWords items ↔ ∀ item ∈ items, item.isPlain = true := by
  constructor
  · intro hplain item hmem
    cases item with
    | word token =>
      cases hread : Numeral.read token with
      | error error => simp [isPlain, hread, Except.toOption]
      | ok value => simp [isPlain, hread, Except.toOption, hplain token value hmem hread]
    | definition name => rfl
    | operand token => rfl
  · intro hall token value hmem hread
    simpa [isPlain, hread, Except.toOption] using hall _ hmem

instance (items : List Item) : Decidable (PlainWords items) :=
  decidable_of_iff _ plainWords_iff.symm

variable {item : Item} {cell : Word}

/-- In its place, the cell of an item is read as the token that the item becomes. -/
theorem token_of_encodes (hnodup : (names items).Nodup) (hplain : PlainWords items)
    (hmem : item ∈ items) (hencodes : Encodes items item cell) :
    Reading.token ⟨cell, item.isOperand⟩ = shown items item.token := by
  cases hencodes with
  | word hdenotes =>
    cases hdenotes with
    | mnemonic instruction =>
      rw [Item.token, shown_mnemonic]
      exact Reading.token_of_decode?_eq_some rfl (Instruction.decode?_code instruction)
    | number hread hfits =>
      rw [Item.token, shown_of_read hread, ← Word.signed_ofInt]
      exact Reading.token_of_decode?_eq_none (hplain _ _ hmem hread)
  | literal hread hlower hupper =>
    rw [Item.token, shown_of_read hread, ← Word.signed_ofInt]
    exact Reading.token_of_isOperand rfl
  | reference hlabel hbinds =>
    rw [Item.token, shown_of_binds hnodup hlabel hbinds, ← Word.signed_ofInt]
    exact Reading.token_of_isOperand rfl

/-- In its place, the cell of an item opens an operand exactly when the item does. -/
theorem opensOperand_of_encodes (hplain : PlainWords items) (hmem : item ∈ items)
    (hencodes : Encodes items item cell) :
    Reading.opensOperand ⟨cell, item.isOperand⟩ = item.expectsOperand := by
  cases hencodes with
  | word hdenotes =>
    cases hdenotes with
    | mnemonic instruction =>
      rw [expectsOperand, takesOperand_mnemonic]
      simp [Reading.opensOperand, Item.isOperand, Instruction.decode?_code]
    | number hread hfits =>
      rw [expectsOperand, takesOperand_of_read hread]
      simp [Reading.opensOperand, hplain _ _ hmem hread]
  | literal hread hlower hupper => exact Reading.opensOperand_of_isOperand rfl
  | reference hlabel hbinds => exact Reading.opensOperand_of_isOperand rfl

/-- The cells of items are read as the tokens that the items become. -/
theorem map_token_ofCells (hnodup : (names items).Nodup) (hplain : PlainWords items)
    {row : List Item} {cells : List Word} {expected : Bool} (hrow : ∀ item ∈ row, item ∈ items)
    (hplaced : WellPlaced expected row) (hencodes : List.Forall₂ (Encodes items) row cells) :
    (Reading.ofCells expected cells).map Reading.token =
      row.map fun item ↦ shown items item.token := by
  induction hencodes generalizing expected with
  | nil => rfl
  | @cons item cell row cells hfirst hrest ih =>
    obtain ⟨rfl, hplaced⟩ := hplaced
    obtain ⟨hmem, hrow⟩ := List.forall_mem_cons.mp hrow
    rw [Reading.ofCells, List.map_cons, List.map_cons, token_of_encodes hnodup hplain hmem hfirst,
      opensOperand_of_encodes hplain hmem hfirst, ih hrow hplaced]

end Item

/-! ### The disassembly of an image -/

/-- What the disassembly of the image of a program shows. -/
structure ReadsBack (items : List Item) (image : Memory) : Prop where
  /-- The tokens are those of the stream, numerals and labels turned into decimal numbers. -/
  disassemble_eq : image.disassemble (Item.stream items).length =
    (Item.stream items).map fun item ↦ Item.shown items item.token
  /-- Mnemonics are shown as they were written. -/
  mnemonics : ∀ (index : Nat) (instruction : Instruction),
    (Item.stream items)[index]? = some (.word instruction.mnemonic) →
    (image.disassemble (Item.stream items).length)[index]? = some instruction.mnemonic
  /-- Literal operands are shown as decimal numerals of the same numbers. -/
  operands : ∀ (index : Nat) (token : String) (value : Int),
    (Item.stream items)[index]? = some (.operand token) → Numeral.read token = .ok value →
    (image.disassemble (Item.stream items).length)[index]? = some (Numeral.write value) ∧
      Numeral.read (Numeral.write value) = .ok value

/-- An image of a program of which the words are plain shows the tokens of the stream. -/
theorem disassemble_ofCells {items : List Item} {cells : Array Word} (size : Nat)
    (hnodup : (Item.names items).Nodup) (hplain : Item.PlainWords items)
    (hplaced : Item.WellPlaced false items)
    (hcells : List.Forall₂ (Item.Encodes items) (Item.stream items) cells.toList) :
    (Memory.ofCells cells size).disassemble (Item.stream items).length =
      (Item.stream items).map fun item ↦ Item.shown items item.token := by
  have hprefix : (Memory.ofCells cells size).cells.toList.take (Item.stream items).length =
      cells.toList := by
    rw [hcells.length_eq]
    simp [Memory.ofCells]
  have hstream : ∀ item ∈ Item.stream items, item ∈ items :=
    fun item hmem ↦ List.mem_of_mem_filter hmem
  rw [Memory.disassemble_eq, hprefix]
  exact Item.map_token_ofCells hnodup hplain hstream hplaced.stream hcells

/-- If the words of a program are plain, the disassembly of what it assembles to shows its stream,
numerals and labels turned into decimal numbers of sixteen bits. -/
theorem disassemble_assembly (tokens : List String) (size : Nat) (hsize : size ≤ Config.largest)
    (hplain : Item.PlainWords (Item.scan tokens)) (image : Memory)
    (himage : (assemble tokens size).result = .ok image) :
    ReadsBack (Item.scan tokens) image := by
  have hwords : size ≤ 0xFFFF := Nat.le_trans hsize (by decide)
  obtain ⟨hnodup, cells, hcells, -, rfl⟩ := (assemble_eq_ok_iff hwords).mp himage
  have hshown := disassemble_ofCells size hnodup hplain (Item.wellPlaced_scan tokens) hcells
  refine ⟨hshown, ?_, ?_⟩
  · intro index instruction hitem
    rw [hshown, List.getElem?_map, hitem, Option.map_some, Item.token, Item.shown_mnemonic]
  · intro index token value hitem hread
    obtain ⟨cell, hencodes⟩ :=
      exists_forall₂_iff.mp ⟨_, hcells⟩ _ (List.mem_of_getElem? hitem)
    obtain ⟨⟨hlower, hupper⟩, -⟩ := (Item.encodes_operand_iff_of_read hread).mp hencodes
    constructor
    · rw [hshown, List.getElem?_map, hitem, Option.map_some, Item.token,
        Item.shown_of_read_of_bounds hread (by omega) (by omega)]
    · exact Numeral.read_write (by omega) (by omega)

/-- A program with a forward call, an operand that has the code of an instruction, and numbers that
are written otherwise than they are shown. -/
theorem disassemble_assembly_of_calling :
    8 ≤ Config.largest ∧
    Item.PlainWords
      (Item.scan ["LIT", "-255", "CALL", ":F", "HALT", "65000", ":F", "X0F", "EXIT"]) ∧
    (assemble ["LIT", "-255", "CALL", ":F", "HALT", "65000", ":F", "X0F", "EXIT"] 8).result =
      .ok ⟨#[0xFF00, 0xFF01, 0xFF0D, 6, 0xFF0F, 65000, 15, 0xFF0E]⟩ ∧
    ReadsBack (Item.scan ["LIT", "-255", "CALL", ":F", "HALT", "65000", ":F", "X0F", "EXIT"])
      ⟨#[0xFF00, 0xFF01, 0xFF0D, 6, 0xFF0F, 65000, 15, 0xFF0E]⟩ ∧
    Memory.disassemble ⟨#[0xFF00, 0xFF01, 0xFF0D, 6, 0xFF0F, 65000, 15, 0xFF0E]⟩ 8 =
      ["LIT", "-255", "CALL", "6", "HALT", "-536", "15", "EXIT"] := by
  have hplain : Item.PlainWords
      (Item.scan ["LIT", "-255", "CALL", ":F", "HALT", "65000", ":F", "X0F", "EXIT"]) := by decide
  have himage :
      (assemble ["LIT", "-255", "CALL", ":F", "HALT", "65000", ":F", "X0F", "EXIT"] 8).result =
        .ok ⟨#[0xFF00, 0xFF01, 0xFF0D, 6, 0xFF0F, 65000, 15, 0xFF0E]⟩ := by decide +kernel
  have hback := disassemble_assembly _ 8 (by decide) hplain _ himage
  exact ⟨by decide, hplain, himage, hback, by decide +kernel⟩

end DualStack.Assembly
