import DualStack.Proofs.Assembly.Readback
import DualStack.Proofs.Assembly.Tokens

/-!
# Which error is reported

A program can be at fault in many places at once, and only one of them is reported. Items are taken
in from left to right. The first one to which there is an objection (`Objection`) is reported, even
if an item before it stands for no cell. Only a program without objections is encoded, and then the
first item of its stream that stands for no cell is reported, with the token that it has become by
then (`Item.resolved`). A program that is only too long is reported last.

`Refused` puts these three cases together, and `assemble_eq_error_iff` shows that they are the ones
in which assembly fails, each with the error it gives.
-/

set_option autoImplicit false
set_option relaxedAutoImplicit false

namespace DualStack.Assembly

/-! ### Objections to an item -/

/-- Whether the magnitude of a number has one of the bits eight to fifteen set. -/
def HasUpperByte (value : Int) : Prop :=
  ∃ bit, 8 ≤ bit ∧ bit ≤ 15 ∧ value.natAbs.testBit bit = true

theorem testBit_upperByte (bit : Nat) : (0xFF00 : Nat).testBit bit = true ↔ 8 ≤ bit ∧ bit ≤ 15 := by
  have hshift : (0xFF00 : Nat) = (2 ^ 8 - 1) <<< 8 := rfl
  rw [hshift, Nat.testBit_shiftLeft, Nat.testBit_two_pow_sub_one]
  simp only [Bool.and_eq_true, decide_eq_true_eq]
  omega

/-- The test on the bits of an operand looks at the bits eight to fifteen. -/
theorem inOperandRange_eq_false_iff {value : Int} :
    Layout.inOperandRange value = false ↔ HasUpperByte value := by
  rw [Layout.inOperandRange, beq_eq_false_iff_ne]
  constructor
  · intro hne
    obtain ⟨bit, hbit⟩ := Nat.exists_testBit_of_ne_zero hne
    rw [Nat.testBit_and, Bool.and_eq_true, testBit_upperByte] at hbit
    exact ⟨bit, hbit.2.1, hbit.2.2, hbit.1⟩
  · rintro ⟨bit, hlower, hupper, hbit⟩ hzero
    have hboth : (value.natAbs &&& 0xFF00).testBit bit = true := by
      rw [Nat.testBit_and, hbit, (testBit_upperByte bit).mpr ⟨hlower, hupper⟩]
      rfl
    simp [hzero] at hboth

/-- Why an item cannot be taken in behind the items before it. -/
inductive Objection (before : List Item) : Item → Error.Cause → Prop
  /-- It defines a name once more. -/
  | redeclared {name : String} (hdefined : name ∈ Item.names before) :
      Objection before (.definition name) (.labelRedeclared name)
  /-- It is an operand, but neither a label nor a numeral. -/
  | unreadable {token : String} (hlabel : isLabel token = false)
      (hread : ∀ value, Numeral.read token ≠ .ok value) :
      Objection before (.operand token) (.invalidInteger token)
  /-- It is an operand whose magnitude has one of the bits eight to fifteen set. -/
  | large {token : String} {value : Int} (hread : Numeral.read token = .ok value)
      (hbyte : HasUpperByte value) : Objection before (.operand token) (.subrangeBounds token)

/-- Whether there is no objection to any item of a program. -/
def Unobjectionable (items : List Item) : Prop :=
  ∀ before item after cause, items = before ++ item :: after → ¬ Objection before item cause

namespace Item

variable {items before : List Item} {item : Item}

/-- An item is admissible, or there is an objection to it. -/
theorem admissible_or_objection (before : List Item) (item : Item) :
    item.Admissible (names before) ∨ ∃ cause, Objection before item cause := by
  cases item with
  | definition name =>
    by_cases hdefined : name ∈ names before
    · exact .inr ⟨_, .redeclared hdefined⟩
    · exact .inl hdefined
  | word token => exact .inl trivial
  | operand token =>
    cases hlabel : isLabel token with
    | true => exact .inl (.inl hlabel)
    | false =>
      cases hread : Numeral.read token with
      | error error => exact .inr ⟨_, .unreadable hlabel fun value hvalue ↦ by simp [hread] at hvalue⟩
      | ok value =>
        cases hrange : Layout.inOperandRange value with
        | true => exact .inl (.inr ⟨value, hread, hrange⟩)
        | false => exact .inr ⟨_, .large hread (inOperandRange_eq_false_iff.mp hrange)⟩

/-- There is no objection to an admissible item. -/
theorem Admissible.not_objection (hadmissible : item.Admissible (names before))
    {cause : Error.Cause} : ¬ Objection before item cause := by
  intro hobjection
  cases hobjection with
  | redeclared hdefined => exact hadmissible hdefined
  | unreadable hlabel hread =>
    rcases hadmissible with hlabel' | ⟨value, hvalue, -⟩
    · simp [hlabel] at hlabel'
    · exact hread value hvalue
  | large hread hbyte =>
    rcases hadmissible with hlabel | ⟨value, hvalue, hrange⟩
    · simp [isLabel_of_read hread] at hlabel
    · obtain rfl := Except.ok.inj (hread.symm.trans hvalue)
      simp [inOperandRange_eq_false_iff.mpr hbyte] at hrange

/-- A program is legal if there is no objection to any of its items. -/
theorem legal_iff_unobjectionable : Legal items ↔ Unobjectionable items := by
  constructor
  · rintro hlegal before item after cause rfl
    rw [List.append_cons] at hlegal
    have hfirst : Legal (before ++ [item]) := hlegal.of_append
    exact (legal_append_singleton_iff.mp hfirst).2.not_objection
  · intro hnone
    induction items using List.reverseRecOn with
    | nil => exact legal_nil
    | append_singleton items item ih =>
      refine legal_append_singleton_iff.mpr ⟨ih ?_, ?_⟩
      · rintro before other after cause rfl
        exact hnone before other (after ++ [item]) cause (by simp)
      · rcases admissible_or_objection items item with hadmissible | ⟨cause, hobjection⟩
        · exact hadmissible
        · exact absurd hobjection (hnone items item [] cause rfl)

/-- There is no objection to any item of a program, or there is a first item with one. -/
theorem legal_or_first_objection (items : List Item) :
    Legal items ∨
      ∃ before item after cause, items = before ++ item :: after ∧ Legal before ∧
        Objection before item cause := by
  induction items using List.reverseRecOn with
  | nil => exact .inl legal_nil
  | append_singleton items item ih =>
    rcases ih with hlegal | ⟨before, first, after, cause, rfl, hlegal, hobjection⟩
    · rcases admissible_or_objection items item with hadmissible | ⟨cause, hobjection⟩
      · exact .inl (legal_append_singleton_iff.mpr ⟨hlegal, hadmissible⟩)
      · exact .inr ⟨items, item, [], cause, rfl, hlegal, hobjection⟩
    · exact .inr ⟨before, first, after ++ [item], cause, by simp, hlegal, hobjection⟩

/-! ### The tokens that are encoded -/

/-- The token that is encoded for an item of a program. An operand that stands for a number has
become the decimal numeral of that number, and everything else is as it was written. -/
def resolved (items : List Item) : Item → String
  | operand token => (number? items token).elim token Numeral.write
  | item => item.token

end Item

/-- What is wrong with a token that stands for no cell. -/
def complaint (token : String) : Error.Cause :=
  if isLabel token then .undeclaredLabel token
  else if (Numeral.read token).isOk then .subrangeBounds token
  else .invalidInteger token

/-- A token that stands for no cell is not encoded. -/
theorem encode_eq_error {token : String} (hnone : ¬ ∃ cell, Denotes token cell) :
    encode token = .error (complaint token) := by
  have hmnemonic : Instruction.ofMnemonic? token = none := by
    rw [Option.eq_none_iff_forall_ne_some]
    intro instruction hfound
    rw [Instruction.ofMnemonic?_eq_some_iff] at hfound
    exact hnone ⟨instruction.code, hfound ▸ Denotes.mnemonic instruction⟩
  unfold encode complaint
  rw [hmnemonic]
  cases hread : Numeral.read token with
  | error error =>
    cases hlabel : isLabel token <;> simp [Except.isOk, Except.toBool]
  | ok value =>
    have hfits : ¬ FitsCell value := fun hfits ↦ hnone ⟨_, .number hread hfits⟩
    unfold FitsCell at hfits
    simp [hfits, isLabel_of_read hread, Except.isOk, Except.toBool]

namespace Layout

variable {layout : Layout} {items before after : List Item} {item : Item} {cause : Error.Cause}

theorem Covers.lookup_eq (hcovers : layout.Covers items) (hnodup : (Item.names items).Nodup)
    (name : String) : layout.labels.lookup name = Item.address? name items := by
  cases hlookup : layout.labels.lookup name with
  | none => exact (Item.address?_eq_none (hcovers.lookup_eq_none_iff.mp hlookup)).symm
  | some address =>
    exact (Item.address?_eq_some hnodup ((hcovers.lookup_iff name address).mp hlookup)).symm

/-- The token lined up for an item of the stream is resolved to the token that is encoded. -/
theorem Covers.resolve_lined (hcovers : layout.Covers items) (hnodup : (Item.names items).Nodup)
    (hwords : ∀ token, .word token ∈ items → isLabel token = false)
    (hitem : item ∈ Item.stream items) : layout.resolve item.lined = item.resolved items := by
  cases item with
  | definition name => simp [Item.stream, Item.isDefinition] at hitem
  | word token => exact resolve_of_not_isLabel (hwords token (Item.mem_stream_word.mp hitem))
  | operand token =>
    cases hlabel : isLabel token with
    | true =>
      rw [Item.lined_of_isLabel hlabel, resolve, hcovers.lookup_eq hnodup]
      cases haddress : Item.address? token items <;>
        simp [Item.resolved, Item.number?, hlabel, haddress]
    | false =>
      cases hread : Numeral.read token with
      | error error =>
        simp [Item.lined, Item.resolved, Item.number?, hlabel, hread, Except.toOption,
          resolve_of_not_isLabel]
      | ok value =>
        simp [Item.lined, Item.resolved, Item.number?, hlabel, hread, Except.toOption,
          resolve_of_not_isLabel, isLabel_write]

/-! ### Programs that are not laid out, and layouts that are not encoded -/

/-- An item to which there is an objection is not taken in. -/
theorem Covers.place_of_objection (hcovers : layout.Covers before)
    (hobjection : Objection before item cause) : layout.place item = layout.fail cause := by
  cases hobjection with
  | @redeclared name hdefined =>
    obtain ⟨address, hbinds⟩ := Item.exists_binds hdefined
    simp [Layout.place, Layout.define, (hcovers.lookup_iff name address).mpr hbinds]
  | @unreadable token hlabel hread =>
    cases hresult : Numeral.read token with
    | ok value => exact absurd hresult (hread value)
    | error error => simp [Layout.place, appendOperand, hlabel, hresult]
  | large hread hbyte =>
    simp [Layout.place, appendOperand, isLabel_of_read hread, hread,
      inOperandRange_eq_false_iff.mpr hbyte]

/-- The first token that is not encoded is reported with its address. -/
theorem cells_eq_error {before after : List String} {token : String}
    (hstream : layout.stream.toList = before ++ token :: after)
    (hbefore : ∀ earlier ∈ before, ∃ cell, encode (layout.resolve earlier) = .ok cell)
    (htoken : encode (layout.resolve token) = .error cause) :
    layout.cells = .error ⟨cause, before.length⟩ := by
  obtain ⟨found, hfound⟩ := exists_forall₂_iff.mpr hbefore
  have hcells : before.foldlM layout.appendCell #[] = .ok found.toArray :=
    foldlM_appendCell_eq_ok_iff.mpr ⟨found, by simp, hfound⟩
  rw [Layout.cells, hstream, List.foldlM_append, hcells, hfound.length_eq]
  change (token :: after).foldlM layout.appendCell found.toArray = _
  simp [List.foldlM_cons, appendCell, htoken, bind, Except.bind]

end Layout

/-! ### The error of a program -/

section Assemble

variable {tokens : List String} {size : Nat} {before after : List Item} {item : Item}

/-- The first item to which there is an objection is reported with its address. -/
theorem assemble_of_objection {cause : Error.Cause}
    (hitems : Item.scan tokens = before ++ item :: after) (hlegal : Item.Legal before)
    (hobjection : Objection before item cause) :
    (assemble tokens size).result = .error ⟨cause, (Item.stream before).length⟩ := by
  obtain ⟨notes, hlayout⟩ := Layout.ofItems_eq_error_of_place hlegal
    (fun layout hcovers ↦ hcovers.place_of_objection hobjection) after
  rw [← hitems, ← ofTokens_eq_scan] at hlayout
  exact assemble_result_eq_error hlayout size

/-- A legal program has a layout, and what is encoded in it are the resolved tokens. -/
theorem exists_layout (hlegal : Item.Legal (Item.scan tokens)) :
    ∃ layout, Layout.ofItems (Item.ofTokens tokens) = .ok layout ∧
      layout.stream.toList = (Item.stream (Item.scan tokens)).map Item.lined ∧
      ∀ item ∈ Item.stream (Item.scan tokens),
        layout.resolve item.lined = item.resolved (Item.scan tokens) := by
  rw [ofTokens_eq_scan]
  obtain ⟨layout, hlayout⟩ := Layout.exists_ofItems hlegal
  have hcovers := (Layout.legal_and_covers_of_ofItems hlayout).2
  exact ⟨layout, hlayout, hcovers.stream_eq, fun item hitem ↦
    hcovers.resolve_lined hlegal.names_nodup (fun token hmem ↦ isLabel_of_word_mem_scan hmem) hitem⟩

/-- In a legal program the first item that stands for no cell is reported with its address. -/
theorem assemble_of_undenoted (hlegal : Item.Legal (Item.scan tokens))
    (hstream : Item.stream (Item.scan tokens) = before ++ item :: after)
    (hbefore : ∀ earlier ∈ before, ∃ cell, Denotes (earlier.resolved (Item.scan tokens)) cell)
    (hitem : ¬ ∃ cell, Denotes (item.resolved (Item.scan tokens)) cell) :
    (assemble tokens size).result =
      .error ⟨complaint (item.resolved (Item.scan tokens)), before.length⟩ := by
  obtain ⟨layout, hlayout, hlined, hresolve⟩ := exists_layout hlegal
  rw [hstream, List.map_append, List.map_cons] at hlined
  rw [hstream] at hresolve
  have hcells : layout.cells =
      .error ⟨complaint (item.resolved (Item.scan tokens)), (before.map Item.lined).length⟩ := by
    apply Layout.cells_eq_error hlined
    · intro token hmem
      obtain ⟨earlier, hearlier, rfl⟩ := List.mem_map.mp hmem
      obtain ⟨cell, hcell⟩ := hbefore earlier hearlier
      rw [hresolve earlier (by simp [hearlier])]
      exact ⟨cell, encode_eq_ok_iff_denotes.mpr hcell⟩
    · rw [hresolve item (by simp)]
      exact encode_eq_error hitem
  rw [List.length_map] at hcells
  simp [assemble, hlayout, Layout.image, hcells]

/-- A legal program whose items stand for cells fails only if it is too long. -/
theorem assemble_of_denoted (hlegal : Item.Legal (Item.scan tokens))
    (hstream : ∀ item ∈ Item.stream (Item.scan tokens),
      ∃ cell, Denotes (item.resolved (Item.scan tokens)) cell) :
    (size < (Item.stream (Item.scan tokens)).length →
      (assemble tokens size).result = .error ⟨.outOfMemory, size⟩) ∧
    ((Item.stream (Item.scan tokens)).length ≤ size →
      ∃ memory, (assemble tokens size).result = .ok memory) := by
  obtain ⟨layout, hlayout, hlined, hresolve⟩ := exists_layout hlegal
  have htokens : ∀ token ∈ layout.stream.toList,
      ∃ cell, encode (layout.resolve token) = .ok cell := by
    intro token hmem
    rw [hlined] at hmem
    obtain ⟨item, hitem, rfl⟩ := List.mem_map.mp hmem
    obtain ⟨cell, hcell⟩ := hstream item hitem
    rw [hresolve item hitem]
    exact ⟨cell, encode_eq_ok_iff_denotes.mpr hcell⟩
  obtain ⟨found, hfound⟩ := exists_forall₂_iff.mpr htokens
  have hcells : layout.cells = .ok found.toArray := Layout.cells_eq_ok_iff.mpr hfound
  have hlength : (Item.stream (Item.scan tokens)).length = found.length := by
    rw [← hfound.length_eq, hlined, List.length_map]
  rw [hlength]
  constructor
  · intro hlong
    simp [assemble, hlayout, Layout.image, hcells, hlong]
  · intro hfits
    simp [assemble, hlayout, Layout.image, hcells, Nat.not_lt.mpr hfits]

end Assemble

/-- The error that the items of a program are refused with by a memory of a given size. -/
inductive Refused (items : List Item) (size : Nat) : Error → Prop
  /-- The first item to which there is an objection is reported. -/
  | objection {before after : List Item} {item : Item} {cause : Error.Cause}
      (hitems : items = before ++ item :: after) (hbefore : Unobjectionable before)
      (hitem : Objection before item cause) :
      Refused items size ⟨cause, (Item.stream before).length⟩
  /-- If there is no objection, the first item of the stream that stands for no cell is reported. -/
  | undenoted {before after : List Item} {item : Item} (hitems : Unobjectionable items)
      (hstream : Item.stream items = before ++ item :: after)
      (hbefore : ∀ earlier ∈ before, ∃ cell, Denotes (earlier.resolved items) cell)
      (hitem : ¬ ∃ cell, Denotes (item.resolved items) cell) :
      Refused items size ⟨complaint (item.resolved items), before.length⟩
  /-- If all items of the stream stand for cells, there are too many of them. -/
  | overfull (hitems : Unobjectionable items)
      (hstream : ∀ item ∈ Item.stream items, ∃ cell, Denotes (item.resolved items) cell)
      (hsize : size < (Item.stream items).length) : Refused items size ⟨.outOfMemory, size⟩

section Assemble

variable {tokens : List String} {size : Nat} {error : Error}

theorem assemble_of_refused (hrefused : Refused (Item.scan tokens) size error) :
    (assemble tokens size).result = .error error := by
  cases hrefused with
  | objection hitems hbefore hitem =>
    exact assemble_of_objection hitems (Item.legal_iff_unobjectionable.mpr hbefore) hitem
  | undenoted hitems hstream hbefore hitem =>
    exact assemble_of_undenoted (Item.legal_iff_unobjectionable.mpr hitems) hstream hbefore hitem
  | overfull hitems hstream hsize =>
    exact (assemble_of_denoted (Item.legal_iff_unobjectionable.mpr hitems) hstream).1 hsize

/-- A program is refused, or it is legal, all its items stand for cells and these fit. -/
theorem refused_or_denoted (items : List Item) (size : Nat) :
    (∃ error, Refused items size error) ∨
      Item.Legal items ∧
        (∀ item ∈ Item.stream items, ∃ cell, Denotes (item.resolved items) cell) ∧
        (Item.stream items).length ≤ size := by
  rcases Item.legal_or_first_objection items with
    hlegal | ⟨before, item, after, cause, hitems, hlegal, hobjection⟩
  · have hitems := Item.legal_iff_unobjectionable.mp hlegal
    rcases forall_or_first (fun item : Item ↦ ∃ cell, Denotes (item.resolved items) cell)
      (Item.stream items) with hstream | ⟨before, item, after, hstream, hbefore, hitem⟩
    · rcases Nat.lt_or_ge size (Item.stream items).length with hlong | hfits
      · exact .inl ⟨_, .overfull hitems hstream hlong⟩
      · exact .inr ⟨hlegal, hstream, hfits⟩
    · exact .inl ⟨_, .undenoted hitems hstream hbefore hitem⟩
  · exact .inl ⟨_, .objection hitems (Item.legal_iff_unobjectionable.mp hlegal) hobjection⟩

/-- A program that is assembled is legal, and all its items stand for cells. -/
theorem legal_and_denoted_of_assemble {memory : Memory}
    (hmemory : (assemble tokens size).result = .ok memory) :
    Item.Legal (Item.scan tokens) ∧
      ∀ item ∈ Item.stream (Item.scan tokens),
        ∃ cell, Denotes (item.resolved (Item.scan tokens)) cell := by
  rcases refused_or_denoted (Item.scan tokens) size with ⟨error, hrefused⟩ | ⟨hlegal, hstream, -⟩
  · simp [assemble_of_refused hrefused] at hmemory
  · exact ⟨hlegal, hstream⟩

end Assemble

/-- Assembly fails exactly with the error that the items of the program are refused with. -/
theorem assemble_eq_error_iff (tokens : List String) (size : Nat) (error : Error) :
    (assemble tokens size).result = .error error ↔ Refused (Item.scan tokens) size error := by
  constructor
  · intro hresult
    rcases refused_or_denoted (Item.scan tokens) size with
      ⟨other, hrefused⟩ | ⟨hlegal, hstream, hfits⟩
    · rw [assemble_of_refused hrefused] at hresult
      obtain rfl := Except.error.inj hresult
      exact hrefused
    · obtain ⟨memory, hmemory⟩ := (assemble_of_denoted hlegal hstream).2 hfits
      simp [hmemory] at hresult
  · exact assemble_of_refused

/-- An operand out of range is reported even if an unknown word stands before it. -/
example : (assemble ["NOP", "LIT", "300"] 8).result = .error ⟨.subrangeBounds "300", 2⟩ := by rfl

end DualStack.Assembly
