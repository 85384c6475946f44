import DualStack.Proofs.Assembly.Image
import DualStack.Proofs.Assembly.Tokens
import DualStack.Proofs.Numeral.Bits

/-!
# Numbers that are handed on as text

Between its passes the assembler hands numbers on as text: laying out lines up the decimal numeral
of a literal operand, and resolving puts the decimal numeral of an address in the place of a label.
Such a text is nothing but a decimal number (`PlainNumeral`): it is no mnemonic, and it begins
neither as a label nor as a numeral of another form. So it is encoded as the number that was written
(`encodedAs_write`), whether it is the number of a literal or the address of a label
(`Layout.rereadsOperands`). Together with the numerals that a source text may have for a number this
is `numerals_survive`.
-/

set_option autoImplicit false
set_option relaxedAutoImplicit false

namespace DualStack.Assembly

/-! ### Decimal numerals among the tokens -/

/-- A text that can be mistaken for nothing but a decimal number. -/
structure PlainNumeral (text : String) : Prop where
  ne_mnemonic : ∀ instruction : Instruction, text ≠ instruction.mnemonic
  not_opened : ∀ opening ∈ [":", "B", "X", "0X"], ¬ opening.toList <+: text.toList

/-- No character of a decimal numeral comes behind the nine, and each of the openings has one that
does. -/
theorem plainNumeral_write (value : Int) : PlainNumeral (Numeral.write value) where
  ne_mnemonic := write_ne_mnemonic value
  not_opened opening hopening hfirst := by
    have hall : ([":", "B", "X", "0X"].all fun opening ↦
        opening.toList.any fun character ↦ 0x39 < character.toNat) = true := by decide
    have hany := List.all_eq_true.mp hall opening hopening
    obtain ⟨character, hmem, hhigh⟩ := List.any_eq_true.mp hany
    have hless : 0x39 < character.toNat := of_decide_eq_true hhigh
    have hrange := (toNat_mem_write (hfirst.subset hmem)).2
    omega

/-! ### Decimal numerals that are encoded -/

/-- A text is encoded as the numeral of a given number. -/
structure EncodedAs (text : String) (value : Int) : Prop where
  read_eq : Numeral.read text = .ok value
  encode_eq : encode text =
    if -0x8000 ≤ value ∧ value ≤ 0xFFFF then .ok (Word.ofInt value)
    else .error (.subrangeBounds text)

theorem encodedAs_write {value : Int} (hlower : -0x80000000 ≤ value)
    (hupper : value ≤ 0x7FFFFFFF) : EncodedAs (Numeral.write value) value := by
  have hread := Numeral.read_write hlower hupper
  exact ⟨hread, by rw [encode, ofMnemonic?_of_read hread, hread]⟩

/-! ### The operands of a program -/

namespace Layout

variable {layout : Layout} {items : List Item}

/-- The numbers that are handed on for the operands of a program are the numbers that are encoded
for them. -/
structure RereadsOperands (layout : Layout) (items : List Item) : Prop where
  /-- A literal is lined up as the decimal numeral of its number, which resolving leaves alone. -/
  literals : ∀ (index : Nat) (token : String),
    (Item.stream items)[index]? = some (.operand token) → isLabel token = false →
    ∃ value, Numeral.read token = .ok value ∧
      layout.stream[index]? = some (Numeral.write value) ∧
      layout.resolve (Numeral.write value) = Numeral.write value ∧
      EncodedAs (Numeral.write value) value
  /-- A label is resolved to the decimal numeral of its address. -/
  references : ∀ (index : Nat) (name : String) (address : Nat),
    (Item.stream items)[index]? = some (.operand name) → isLabel name = true →
    Item.Binds items name address →
    layout.stream[index]? = some name ∧ layout.resolve name = Numeral.write address ∧
      (address ≤ 0x7FFFFFFF → EncodedAs (Numeral.write address) address)

theorem Covers.getElem?_stream (hcovers : layout.Covers items) {index : Nat} {item : Item}
    (hitem : (Item.stream items)[index]? = some item) :
    layout.stream[index]? = some item.lined := by
  rw [← Array.getElem?_toList, hcovers.stream_eq, List.getElem?_map, hitem, Option.map_some]

theorem rereadsOperands (hcovers : layout.Covers items) (hlegal : Item.Legal items) :
    layout.RereadsOperands items where
  literals index token hitem hlabel := by
    have hmem := Item.mem_stream_operand.mp (List.mem_of_getElem? hitem)
    obtain hcolon | ⟨value, hread, -⟩ := hlegal.operands token hmem
    · simp [hlabel] at hcolon
    · have hbounds := Numeral.read_bounds hread
      have hlined := hcovers.getElem?_stream hitem
      rw [Item.lined_of_read hread] at hlined
      exact ⟨value, hread, hlined, resolve_of_not_isLabel (isLabel_write value),
        encodedAs_write hbounds.1 hbounds.2⟩
  references index name address hitem hlabel hbinds := by
    have hlined := hcovers.getElem?_stream hitem
    rw [Item.lined_of_isLabel hlabel] at hlined
    refine ⟨hlined, ?_, fun haddress ↦ encodedAs_write (by omega) (by omega)⟩
    simp [resolve, hlabel, (hcovers.lookup_iff name address).mpr hbinds]

end Layout

/-- Numbers of thirty-two bits are read back from their numerals in every form. Their decimal
numerals, and those of addresses, are no other tokens, so the assembler encodes for each operand the
number that it has read for it or bound to it. -/
theorem numerals_survive :
    (∀ value : Int, -0x80000000 ≤ value → value ≤ 0x7FFFFFFF → Numeral.ReadBack value) ∧
    (∀ value : Int, PlainNumeral (Numeral.write value)) ∧
    ∀ (tokens : List String) (layout : Layout),
      Layout.ofItems (Item.ofTokens tokens) = .ok layout →
      layout.RereadsOperands (Item.scan tokens) := by
  refine ⟨fun value hlower hupper ↦ Numeral.readBack hlower hupper, plainNumeral_write, ?_⟩
  intro tokens layout hlayout
  rw [ofTokens_eq_scan] at hlayout
  obtain ⟨hlegal, hcovers⟩ := Layout.legal_and_covers_of_ofItems hlayout
  exact Layout.rereadsOperands hcovers hlegal

/-- The smallest number, whose magnitude is out of range, and a program with an operand of each
kind. -/
theorem numerals_survive_smallest :
    (-0x80000000 : Int) ≤ -0x80000000 ∧ (-0x80000000 : Int) ≤ 0x7FFFFFFF ∧
    Numeral.read "-2147483648" = .ok (-0x80000000) ∧
    Numeral.read "0X0080000000" = .ok (-0x80000000) ∧
    PlainNumeral "-2147483648" ∧
    ∃ layout,
      Layout.ofItems (Item.ofTokens ["LIT", "XFF", "CALL", ":F", ":F", "EXIT"]) = .ok layout ∧
      layout.stream = #["LIT", "255", "CALL", ":F", "EXIT"] ∧ layout.resolve ":F" = "4" ∧
      layout.RereadsOperands (Item.scan ["LIT", "XFF", "CALL", ":F", ":F", "EXIT"]) := by
  obtain ⟨hnumbers, hplain, hprograms⟩ := numerals_survive
  have hback := hnumbers (-0x80000000) (by decide) (by decide)
  have hdecimal : Numeral.write (-0x80000000) = "-2147483648" := by decide +kernel
  have hhexadecimal : "0X" ++ String.ofList (List.replicate 2 '0' ++
      Numeral.bitDigits Numeral.Form.hexadecimal.radix (-0x80000000)) = "0X0080000000" := by
    decide +kernel
  refine ⟨by decide, by decide, ?_, ?_, ?_, _, rfl, by decide +kernel, by decide +kernel, ?_⟩
  · exact hdecimal ▸ hback.of_decimal
  · exact hhexadecimal ▸ hback.of_bits .hexadecimal "0X" (by decide) 2
  · exact hdecimal ▸ hplain (-0x80000000)
  · exact hprograms _ _ rfl

end DualStack.Assembly
