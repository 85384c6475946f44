import DualStack.Proofs.Assembly.Layout
import Mathlib.Data.List.Forall2

/-!
# What assembling a program comes to

In a program an item of the stream encodes a cell (`Item.Encodes`): a word the cell that its token
denotes, a literal operand a number between `-255` and `255`, and a label operand the address that
the program binds it to. In a layout that covers the program, the token lined up for an item is
encoded as just that cell (`Layout.Covers.encode_iff`).

Assembling therefore succeeds exactly when the names of the program differ, each item of its stream
encodes a cell and the cells fit into the memory. The image then consists of these cells, followed
by zeros (`assemble_eq_ok_iff`).
-/

set_option autoImplicit false
set_option relaxedAutoImplicit false

namespace DualStack.Assembly

/-! ### Lists member by member -/

section Related

variable {α β : Type} {related : α → β → Prop} {list : List α}

/-- The members of a list can be related to those of some other list exactly when each of them is
related to something. -/
theorem exists_forall₂_iff :
    (∃ others, List.Forall₂ related list others) ↔
      ∀ member ∈ list, ∃ other, related member other := by
  induction list with
  | nil => simp
  | cons first rest ih =>
    rw [List.forall_mem_cons, ← ih]
    constructor
    · rintro ⟨_, hrelated⟩
      cases hrelated with
      | cons hfirst hrest => exact ⟨⟨_, hfirst⟩, ⟨_, hrest⟩⟩
    · rintro ⟨⟨other, hfirst⟩, ⟨others, hrest⟩⟩
      exact ⟨other :: others, .cons hfirst hrest⟩

/-- A relation between lists member by member follows from one that implies it for the members. -/
theorem forall₂_of_mem {other : α → β → Prop} {others : List β}
    (himplies : ∀ member ∈ list, ∀ value, related member value → other member value)
    (hrelated : List.Forall₂ related list others) : List.Forall₂ other list others := by
  have hmembers := (List.forall₂_and_left list others).mpr ⟨fun member hmem ↦ hmem, hrelated⟩
  exact hmembers.imp fun member value hboth ↦ himplies member hboth.1 value hboth.2

/-- All members of a list have a property, or there is a first one that does not. -/
theorem forall_or_first (property : α → Prop) (list : List α) :
    (∀ member ∈ list, property member) ∨
      ∃ before member after, list = before ++ member :: after ∧
        (∀ earlier ∈ before, property earlier) ∧ ¬ property member := by
  induction list with
  | nil => exact .inl nofun
  | cons first rest ih =>
    by_cases hfirst : property first
    · rcases ih with hall | ⟨before, member, after, rfl, hbefore, hmember⟩
      · exact .inl (List.forall_mem_cons.mpr ⟨hfirst, hall⟩)
      · exact .inr ⟨first :: before, member, after, rfl,
          List.forall_mem_cons.mpr ⟨hfirst, hbefore⟩, hmember⟩
    · exact .inr ⟨[], first, rest, rfl, nofun, hfirst⟩

end Related

/-! ### The cells of a program -/

/-- The cell that an item stands for in a program. -/
inductive Item.Encodes (items : List Item) : Item → Word → Prop
  /-- A word stands for what it denotes by itself. -/
  | word {token : String} {cell : Word} (hdenotes : Denotes token cell) :
      Encodes items (.word token) cell
  /-- A literal operand stands for a small number. -/
  | literal {token : String} {value : Int} (hread : Numeral.read token = .ok value)
      (hlower : -255 ≤ value) (hupper : value ≤ 255) :
      Encodes items (.operand token) (Word.ofInt value)
  /-- A label operand stands for the address of its definition. -/
  | reference {name : String} {address : Nat} (hlabel : isLabel name = true)
      (hbinds : Item.Binds items name address) :
      Encodes items (.operand name) (Word.ofInt address)

namespace Item

variable {items : List Item} {cell : Word}

theorem encodes_word_iff {token : String} :
    Encodes items (.word token) cell ↔ Denotes token cell := by
  constructor
  · rintro (hdenotes | _ | _)
    exact hdenotes
  · exact .word

theorem encodes_operand_iff_of_isLabel {name : String} (hlabel : isLabel name = true) :
    Encodes items (.operand name) cell ↔
      ∃ address : Nat, Binds items name address ∧ Word.ofInt address = cell := by
  constructor
  · rintro (_ | ⟨hread, -, -⟩ | ⟨-, hbinds⟩)
    · simp [isLabel_of_read hread] at hlabel
    · exact ⟨_, hbinds, rfl⟩
  · rintro ⟨address, hbinds, rfl⟩
    exact .reference hlabel hbinds

theorem encodes_operand_iff_of_read {token : String} {value : Int}
    (hread : Numeral.read token = .ok value) :
    Encodes items (.operand token) cell ↔
      (-255 ≤ value ∧ value ≤ 255) ∧ Word.ofInt value = cell := by
  constructor
  · rintro (_ | ⟨hread', hlower, hupper⟩ | ⟨hlabel, -⟩)
    · obtain rfl := Except.ok.inj (hread.symm.trans hread')
      exact ⟨⟨hlower, hupper⟩, rfl⟩
    · simp [isLabel_of_read hread] at hlabel
  · rintro ⟨⟨hlower, hupper⟩, rfl⟩
    exact .literal hread hlower hupper

/-- An operand that encodes a cell is legal. -/
theorem Encodes.legalOperand {token : String} (hencodes : Encodes items (.operand token) cell) :
    LegalOperand token := by
  cases hencodes with
  | @literal _ value hread hlower hupper =>
    have hfits : FitsCell value := ⟨by omega, by omega⟩
    exact .inr ⟨value, hread, (inOperandRange_iff hfits).mpr ⟨hlower, hupper⟩⟩
  | reference hlabel => exact .inl hlabel

end Item

namespace Layout

variable {layout : Layout} {items : List Item}

theorem resolve_of_not_isLabel {token : String} (hlabel : isLabel token = false) :
    layout.resolve token = token := by
  simp [resolve, hlabel]

/-- In a layout that covers a program, the token lined up for an item is encoded as the cell that
the item encodes. -/
theorem Covers.encode_iff (hcovers : layout.Covers items) (hlegal : Item.Legal items)
    (hsize : (Item.stream items).length ≤ 0xFFFF)
    (hwords : ∀ token, .word token ∈ items → isLabel token = false)
    {item : Item} (hitem : item ∈ Item.stream items) {cell : Word} :
    encode (layout.resolve item.lined) = .ok cell ↔ Item.Encodes items item cell := by
  cases item with
  | definition name => simp [Item.stream, Item.isDefinition] at hitem
  | word token =>
    have hlabel := hwords token (Item.mem_stream_word.mp hitem)
    rw [Item.lined, resolve_of_not_isLabel hlabel, encode_eq_ok_iff_denotes, Item.encodes_word_iff]
  | operand token =>
    rcases hlegal.operands token (Item.mem_stream_operand.mp hitem) with
      hlabel | ⟨value, hread, hrange⟩
    · rw [Item.lined_of_isLabel hlabel, Item.encodes_operand_iff_of_isLabel hlabel]
      cases hlookup : layout.labels.lookup token with
      | none =>
        have hfree : token ∉ Item.names items := hcovers.lookup_eq_none_iff.mp hlookup
        have hunbound : ∀ address, ¬ Item.Binds items token address :=
          fun address hbinds ↦ hfree hbinds.mem_names
        simp [resolve, hlabel, hlookup, encode, ofMnemonic?_of_isLabel hlabel,
          read_of_isLabel hlabel, hunbound]
      | some address =>
        have hbinds := (hcovers.lookup_iff token address).mp hlookup
        have haddress : address ≤ 0xFFFF := Nat.le_trans hbinds.address_le hsize
        have hunique : ∀ other, Item.Binds items token other ↔ address = other := by
          intro other
          rw [← hcovers.lookup_iff, hlookup, Option.some_inj]
        have hfits : FitsCell address := ⟨by omega, by omega⟩
        have hresolve : layout.resolve token = Numeral.write address := by
          simp [resolve, hlabel, hlookup]
        rw [hresolve, encode_eq_ok_iff_denotes, denotes_write_iff (by omega) (by omega)]
        simp [hunique, hfits]
    · have hbounds := Numeral.read_bounds hread
      have hlabel : isLabel (Numeral.write value) = false :=
        isLabel_of_read (Numeral.read_write hbounds.1 hbounds.2)
      rw [Item.lined_of_read hread, resolve_of_not_isLabel hlabel, encode_eq_ok_iff_denotes,
        denotes_write_iff hbounds.1 hbounds.2, Item.encodes_operand_iff_of_read hread]
      constructor
      · rintro ⟨hfits, hcell⟩
        exact ⟨(inOperandRange_iff hfits).mp hrange, hcell⟩
      · rintro ⟨⟨hlower, hupper⟩, hcell⟩
        exact ⟨⟨by omega, by omega⟩, hcell⟩

/-- The cells found behind given ones are the cells of the tokens, each resolved and encoded. -/
theorem foldlM_appendCell_eq_ok_iff {tokens : List String} {start cells : Array Word} :
    tokens.foldlM layout.appendCell start = .ok cells ↔
      ∃ rest, cells.toList = start.toList ++ rest ∧
        List.Forall₂ (fun token cell ↦ encode (layout.resolve token) = .ok cell) tokens rest := by
  induction tokens generalizing start with
  | nil =>
    simp [pure, Except.pure, ← Array.toList_inj, eq_comm]
  | cons token tokens ih =>
    rw [List.foldlM_cons]
    cases hencode : encode (layout.resolve token) with
    | error cause =>
      simp only [appendCell, hencode, bind, Except.bind, reduceCtorEq, false_iff]
      rintro ⟨_, -, hrest⟩
      cases hrest with
      | cons hfirst _ => simp [hencode] at hfirst
    | ok cell =>
      have hfirst : layout.appendCell start token = .ok (start.push cell) := by
        simp [appendCell, hencode]
      rw [hfirst]
      refine ih.trans ⟨?_, ?_⟩
      · rintro ⟨rest, hcells, hrest⟩
        exact ⟨cell :: rest, by simpa using hcells, .cons hencode hrest⟩
      · rintro ⟨_, hcells, hrest⟩
        cases hrest with
        | @cons _ first _ rest hfirst hrest =>
          obtain rfl := Except.ok.inj (hencode.symm.trans hfirst)
          exact ⟨rest, by simpa using hcells, hrest⟩

/-- The cells of a layout are those of the tokens lined up, each resolved and encoded. -/
theorem cells_eq_ok_iff {cells : Array Word} :
    layout.cells = .ok cells ↔
      List.Forall₂ (fun token cell ↦ encode (layout.resolve token) = .ok cell)
        layout.stream.toList cells.toList := by
  rw [Layout.cells, foldlM_appendCell_eq_ok_iff]
  simp

/-- A layout that covers a program has one cell for each item of the stream. -/
theorem Covers.length_eq_of_cells (hcovers : layout.Covers items) {cells : Array Word}
    (hcells : layout.cells = .ok cells) : (Item.stream items).length = cells.size := by
  have hlength := (cells_eq_ok_iff.mp hcells).length_eq
  simpa [hcovers.stream_eq] using hlength

/-- The cells of a layout that covers a program are those that the items of its stream encode. -/
theorem Covers.cells_eq_ok_iff (hcovers : layout.Covers items) (hlegal : Item.Legal items)
    (hsize : (Item.stream items).length ≤ 0xFFFF)
    (hwords : ∀ token, .word token ∈ items → isLabel token = false) {cells : Array Word} :
    layout.cells = .ok cells ↔
      List.Forall₂ (Item.Encodes items) (Item.stream items) cells.toList := by
  have hstream : layout.cells = .ok cells ↔
      List.Forall₂ (fun item cell ↦ encode (layout.resolve item.lined) = .ok cell)
        (Item.stream items) cells.toList := by
    rw [Layout.cells_eq_ok_iff, hcovers.stream_eq, List.forall₂_map_left_iff]
  have hitems : ∀ item ∈ Item.stream items, ∀ cell,
      encode (layout.resolve item.lined) = .ok cell ↔ Item.Encodes items item cell :=
    fun item hitem cell ↦ hcovers.encode_iff hlegal hsize hwords hitem
  rw [hstream]
  exact ⟨forall₂_of_mem fun item hitem cell ↦ (hitems item hitem cell).mp,
    forall₂_of_mem fun item hitem cell ↦ (hitems item hitem cell).mpr⟩

/-- A layout has an image exactly when its cells fit into the memory. -/
theorem image_eq_ok_iff {size : Nat} {memory : Memory} :
    layout.image size = .ok memory ↔
      ∃ cells,
        layout.cells = .ok cells ∧ cells.size ≤ size ∧ Memory.ofCells cells size = memory := by
  unfold image
  cases layout.cells with
  | error error => simp
  | ok cells =>
    by_cases hless : size < cells.size
    · simp [hless, Nat.not_le.mpr hless]
    · simp [hless, Nat.not_lt.mp hless]

end Layout

/-! ### The whole way -/

/-- Tokens are assembled exactly when they can be laid out and the layout has an image. -/
theorem assemble_result_eq_ok_iff {tokens : List String} {size : Nat} {memory : Memory} :
    (assemble tokens size).result = .ok memory ↔
      ∃ layout, Layout.ofItems (Item.ofTokens tokens) = .ok layout ∧
        layout.image size = .ok memory := by
  unfold assemble
  cases Layout.ofItems (Item.ofTokens tokens) with
  | error failure => simp
  | ok layout =>
    cases hlayout : layout.image size with
    | error error => simp [hlayout]
    | ok memory => simp [hlayout]

/-- Tokens that cannot be laid out are not assembled, for the same reason. -/
theorem assemble_result_eq_error {tokens : List String} {failure : Failure}
    (hlayout : Layout.ofItems (Item.ofTokens tokens) = .error failure) (size : Nat) :
    (assemble tokens size).result = .error failure.error := by
  simp [assemble, hlayout]

/-- A program whose names differ and whose items encode cells is legal. -/
theorem Item.legal_of_encodes {items : List Item} {cells : List Word}
    (hnodup : (Item.names items).Nodup)
    (hcells : List.Forall₂ (Item.Encodes items) (Item.stream items) cells) : Item.Legal items where
  names_nodup := hnodup
  operands token hmem := by
    obtain ⟨cell, hencodes⟩ :=
      exists_forall₂_iff.mp ⟨cells, hcells⟩ _ (Item.mem_stream_operand.mpr hmem)
    exact hencodes.legalOperand

/-- Tokens assemble to a memory exactly when the names of the program differ and the memory consists
of the cells that the items of its stream encode, followed by zeros. -/
theorem assemble_eq_ok_iff {tokens : List String} {size : Nat} (hsize : size ≤ 0xFFFF)
    {memory : Memory} :
    (assemble tokens size).result = .ok memory ↔
      (Item.names (Item.scan tokens)).Nodup ∧
        ∃ cells : Array Word,
          List.Forall₂ (Item.Encodes (Item.scan tokens)) (Item.stream (Item.scan tokens))
            cells.toList ∧
          cells.size ≤ size ∧ Memory.ofCells cells size = memory := by
  have hwords : ∀ token, .word token ∈ Item.scan tokens → isLabel token = false :=
    fun token hmem ↦ isLabel_of_word_mem_scan hmem
  rw [assemble_result_eq_ok_iff, ofTokens_eq_scan]
  constructor
  · rintro ⟨layout, hlayout, himage⟩
    obtain ⟨hlegal, hcovers⟩ := Layout.legal_and_covers_of_ofItems hlayout
    obtain ⟨cells, hcells, hfits, hmemory⟩ := Layout.image_eq_ok_iff.mp himage
    have hlength := hcovers.length_eq_of_cells hcells
    exact ⟨hlegal.names_nodup, cells,
      (hcovers.cells_eq_ok_iff hlegal (by omega) hwords).mp hcells, hfits, hmemory⟩
  · rintro ⟨hnodup, cells, hcells, hfits, hmemory⟩
    have hlegal := Item.legal_of_encodes hnodup hcells
    have hlength : (Item.stream (Item.scan tokens)).length = cells.size := by
      simpa using hcells.length_eq
    obtain ⟨layout, hlayout⟩ := Layout.exists_ofItems hlegal
    have hcovers := (Layout.legal_and_covers_of_ofItems hlayout).2
    have hlayoutCells := (hcovers.cells_eq_ok_iff hlegal (by omega) hwords).mpr hcells
    exact ⟨layout, hlayout, Layout.image_eq_ok_iff.mpr ⟨cells, hlayoutCells, hfits, hmemory⟩⟩

end DualStack.Assembly
