import DualStack.Proofs.Assembly.FirstError

/-!
# Operands out of range

An operand that is a number lies between `-255` and `255`. The first test looks at the bits eight to
fifteen of the magnitude only, so a number of seventeen bits or more can pass it, and is then refused
with the cells, when its token has become a decimal numeral.

Suppose that nothing else is wrong with a program: with zeros in place of its large operands it
assembles (`withZeros`). Then one of the large operands is reported (`LargeReport`). It is the first
one that fails the test on its bits, as it is written, and only if there is none the first large one,
as a decimal numeral. So the first large operand is not always the one reported, nor as it is
written: `reports_first_large_iff` says when it is, and `reports_later_large` shows a program where it
is not.
-/

set_option autoImplicit false
set_option relaxedAutoImplicit false

namespace DualStack.Assembly

/-! ### Programs with other operands -/

namespace Item

/-- An item with another token in place of an operand. -/
def mapOperand (change : String → String) : Item → Item
  | operand token => operand (change token)
  | item => item

variable {change : String → String} {items : List Item}

/-- Operands are scanned as operands, whatever they are. -/
theorem scan_mapOperand (change : String → String) (tokens : List String) :
    scan ((scan tokens).map fun item ↦ (item.mapOperand change).token) =
      (scan tokens).map (mapOperand change) := by
  induction tokens using Item.scan.induct with
  | case1 => rfl
  | case2 token hlabel => simp [scan, hlabel, mapOperand, Item.token]
  | case3 token hlabel => simp [scan, hlabel, mapOperand, Item.token]
  | case4 token following rest hlabel ih =>
    rw [scan_of_isLabel hlabel, List.map_cons, List.map_cons, ← ih]
    exact scan_of_isLabel hlabel _
  | case5 token following rest hlabel htakes ih =>
    have hboth (other : String) (more : List String) :
        scan (token :: other :: more) = word token :: operand other :: scan more := by
      rw [scan, if_neg hlabel, if_pos htakes]
    simp only [hboth, List.map_cons, ← ih]
    exact hboth (change following) _
  | case6 token following rest hlabel htakes ih =>
    rw [Bool.not_eq_true] at hlabel htakes
    rw [scan_of_not_takesOperand hlabel htakes, List.map_cons, List.map_cons, ← ih]
    exact scan_of_not_takesOperand hlabel htakes _

theorem names_map_mapOperand (items : List Item) :
    names (items.map (mapOperand change)) = names items := by
  rw [names, names, List.filterMap_map]
  congr 1
  funext item
  cases item <;> rfl

theorem stream_map_mapOperand (items : List Item) :
    stream (items.map (mapOperand change)) = (stream items).map (mapOperand change) := by
  rw [stream, stream, List.filter_map]
  congr 2
  funext item
  cases item <;> rfl

theorem mapOperand_eq_definition_iff {item : Item} {name : String} :
    item.mapOperand change = definition name ↔ item = definition name := by
  cases item <;> simp [mapOperand]

theorem address?_map_mapOperand (name : String) (items : List Item) :
    address? name (items.map (mapOperand change)) = address? name items := by
  induction items with
  | nil => rfl
  | cons item items ih =>
    have hlength : (stream [item.mapOperand change]).length = (stream [item]).length := by
      rw [← List.map_singleton, stream_map_mapOperand, List.length_map]
    rw [List.map_cons, address?, address?, ih, hlength]
    simp only [mapOperand_eq_definition_iff]

/-- An item is resolved to the same token in a program with other operands. -/
theorem resolved_map_mapOperand (item : Item) (items : List Item) :
    item.resolved (items.map (mapOperand change)) = item.resolved items := by
  cases item with
  | definition name => rfl
  | word token => rfl
  | operand token => simp only [resolved, number?, address?_map_mapOperand]

end Item

/-! ### Large operands -/

/-- Whether an item is an operand with a number that operands may not have. -/
def Item.IsLarge : Item → Prop
  | operand token => ∃ value, Numeral.read token = .ok value ∧ (value < -255 ∨ 255 < value)
  | _ => False

/-- Whether an item is an operand with a number that fails the test on its bits. -/
def Item.FailsTest : Item → Prop
  | operand token => ∃ value, Numeral.read token = .ok value ∧ HasUpperByte value
  | _ => False

/-- A token, or zero in place of a number that operands may not have. -/
def zeroIfLarge (token : String) : String :=
  match Numeral.read token with
  | .ok value => if -255 ≤ value ∧ value ≤ 255 then token else "0"
  | .error _ => token

/-- The tokens of a program with zeros in place of its large operands. -/
def withZeros (tokens : List String) : List String :=
  (Item.scan tokens).map fun item ↦ (item.mapOperand zeroIfLarge).token

/-- The error of a program in which nothing is wrong but that operands are large. -/
inductive LargeReport (items : List Item) : Error → Prop
  /-- The first operand that fails the test on its bits is reported as it is written. -/
  | written {before after : List Item} {token : String} {value : Int}
      (hitems : items = before ++ .operand token :: after)
      (hread : Numeral.read token = .ok value) (hbyte : HasUpperByte value)
      (hbefore : ∀ item ∈ before, ¬ item.FailsTest) :
      LargeReport items ⟨.subrangeBounds token, (Item.stream before).length⟩
  /-- If there is none, the first large operand is reported as a decimal numeral. -/
  | rewritten {before after : List Item} {token : String} {value : Int}
      (hpass : ∀ item ∈ items, ¬ item.FailsTest)
      (hitems : items = before ++ .operand token :: after)
      (hread : Numeral.read token = .ok value) (hlarge : value < -255 ∨ 255 < value)
      (hbefore : ∀ item ∈ before, ¬ item.IsLarge) :
      LargeReport items ⟨.subrangeBounds (Numeral.write value), (Item.stream before).length⟩

section Large

variable {tokens : List String} {size : Nat} {before after items : List Item} {item : Item}
  {token : String} {value : Int} {error : Error}

theorem mapOperand_of_not_isLarge (hsmall : ¬ item.IsLarge) :
    item.mapOperand zeroIfLarge = item := by
  cases item with
  | definition name => rfl
  | word token => rfl
  | operand token =>
    cases hread : Numeral.read token with
    | error error => simp [Item.mapOperand, zeroIfLarge, hread]
    | ok value =>
      have hrange : -255 ≤ value ∧ value ≤ 255 := by
        by_contra hlarge
        exact hsmall ⟨value, hread, by omega⟩
      simp [Item.mapOperand, zeroIfLarge, hread, hrange]

/-- A number that passes the test on its bits is small, or it is too large for a cell. -/
theorem not_fitsCell_of_large (hlarge : value < -255 ∨ 255 < value)
    (hpasses : ¬ HasUpperByte value) : ¬ FitsCell value := by
  intro hfits
  have hrange : Layout.inOperandRange value = true := by
    rw [← Bool.not_eq_false, inOperandRange_eq_false_iff]
    exact hpasses
  have hsmall := (inOperandRange_iff hfits).mp hrange
  omega

/-- A number that fails the test on its bits is large. -/
theorem large_of_hasUpperByte (hbyte : HasUpperByte value) : value < -255 ∨ 255 < value := by
  by_contra hsmall
  have hfits : FitsCell value := ⟨by omega, by omega⟩
  have hrange := (inOperandRange_iff hfits).mpr ⟨by omega, by omega⟩
  simp [inOperandRange_eq_false_iff.mpr hbyte] at hrange

theorem Item.FailsTest.isLarge (hfails : item.FailsTest) : item.IsLarge := by
  cases item with
  | definition name => exact hfails
  | word token => exact hfails
  | operand token =>
    obtain ⟨value, hread, hbyte⟩ := hfails
    exact ⟨value, hread, large_of_hasUpperByte hbyte⟩

/-- A program is legal if it is so with zeros, and all its numbers pass the test on their bits. -/
theorem legal_of_withZeros (hlegal : Item.Legal (items.map (Item.mapOperand zeroIfLarge)))
    (hpass : ∀ item ∈ items, ¬ item.FailsTest) : Item.Legal items where
  names_nodup := Item.names_map_mapOperand items ▸ hlegal.names_nodup
  operands token hmem := by
    cases hread : Numeral.read token with
    | ok value =>
      refine .inr ⟨value, hread, ?_⟩
      rw [← Bool.not_eq_false, inOperandRange_eq_false_iff]
      exact fun hbyte ↦ hpass _ hmem ⟨value, hread, hbyte⟩
    | error error =>
      have hsame : zeroIfLarge token = token := by simp [zeroIfLarge, hread]
      apply hlegal.operands token
      exact List.mem_map.mpr ⟨_, hmem, by rw [Item.mapOperand, hsame]⟩

/-- What is known of a program that assembles with zeros in place of its large operands. -/
theorem legal_and_denoted_of_withZeros {memory : Memory}
    (hrepaired : (assemble (withZeros tokens) size).result = .ok memory) :
    Item.Legal ((Item.scan tokens).map (Item.mapOperand zeroIfLarge)) ∧
      ∀ item ∈ Item.stream (Item.scan tokens), ¬ item.IsLarge →
        ∃ cell, Denotes (item.resolved (Item.scan tokens)) cell := by
  obtain ⟨hlegal, hdenoted⟩ := legal_and_denoted_of_assemble hrepaired
  rw [withZeros, Item.scan_mapOperand] at hlegal hdenoted
  refine ⟨hlegal, fun item hitem hsmall ↦ ?_⟩
  rw [← Item.resolved_map_mapOperand]
  apply hdenoted
  rw [Item.stream_map_mapOperand]
  exact List.mem_map.mpr ⟨item, hitem, mapOperand_of_not_isLarge hsmall⟩

/-- The operand that is reported is the one that the report tells. -/
theorem assemble_of_largeReport {memory : Memory}
    (hrepaired : (assemble (withZeros tokens) size).result = .ok memory)
    (hreport : LargeReport (Item.scan tokens) error) :
    (assemble tokens size).result = .error error := by
  obtain ⟨hlegal, hdenoted⟩ := legal_and_denoted_of_withZeros hrepaired
  cases hreport with
  | @written before after token value hitems hread hbyte hbefore =>
    rw [hitems, List.map_append] at hlegal
    exact assemble_of_objection hitems (legal_of_withZeros hlegal.of_append hbefore)
      (.large hread hbyte)
  | @rewritten before after token value hpass hitems hread hlarge hbefore =>
    have hstream : Item.stream (Item.scan tokens) =
        Item.stream before ++ .operand token :: Item.stream after := by
      rw [hitems, List.append_cons, Item.stream_append, Item.stream_append, Item.stream_operand,
        ← List.append_cons]
    have hresolved : (Item.operand token).resolved (Item.scan tokens) = Numeral.write value := by
      simp [Item.resolved, Item.number?, isLabel_of_read hread, hread, Except.toOption]
    have hbounds := Numeral.read_bounds hread
    have hwrite := Numeral.read_write hbounds.1 hbounds.2
    have hnumber : ¬ HasUpperByte value :=
      fun hbyte ↦ hpass (.operand token) (by simp [hitems]) ⟨value, hread, hbyte⟩
    have hcell : ¬ ∃ cell, Denotes (Numeral.write value) cell := by
      rintro ⟨cell, hcell⟩
      rw [denotes_write_iff hbounds.1 hbounds.2] at hcell
      exact not_fitsCell_of_large hlarge hnumber hcell.1
    have hsmall : ∀ earlier ∈ Item.stream before,
        ∃ cell, Denotes (earlier.resolved (Item.scan tokens)) cell := by
      intro earlier hearlier
      exact hdenoted earlier (by simp [hstream, hearlier])
        (hbefore earlier (List.mem_of_mem_filter hearlier))
    rw [← hresolved] at hcell
    rw [assemble_of_undenoted (legal_of_withZeros hlegal hpass) hstream hsmall hcell, hresolved,
      complaint, isLabel_write, hwrite]
    rfl

theorem not_failsTest_operand (hread : Numeral.read token = .ok value)
    (hbyte : ¬ HasUpperByte value) : ¬ (Item.operand token).FailsTest := by
  rintro ⟨other, hother, hbyte'⟩
  obtain rfl := Except.ok.inj (hread.symm.trans hother)
  exact hbyte hbyte'

/-- If an operand fails the test on its bits behind others that pass it, an operand behind these is
reported. -/
theorem exists_largeReport_of_failsTest {rest : List Item}
    (hitems : items = (before ++ .operand token :: after) ++ item :: rest)
    (hpass : ∀ earlier ∈ before ++ .operand token :: after, ¬ earlier.FailsTest)
    (hfails : item.FailsTest) :
    ∃ later, LargeReport items
      ⟨.subrangeBounds later, (Item.stream before).length + (Item.stream after).length + 1⟩ := by
  cases item with
  | definition name => exact hfails.elim
  | word token => exact hfails.elim
  | operand later =>
    obtain ⟨number, hlater, hnumber⟩ := hfails
    have hlength : (Item.stream (before ++ .operand token :: after)).length =
        (Item.stream before).length + (Item.stream after).length + 1 := by
      rw [Item.stream_append, List.length_append]
      rfl
    exact ⟨later, hlength ▸ .written hitems hlater hnumber hpass⟩

/-- If nothing is wrong with a program but that operands are large, one of them is reported. It is
the first one, as it is written, exactly if that operand fails the test on its bits, or if no operand
behind it does and it is written as a decimal numeral. -/
theorem reports_first_large_iff
    (hrepaired : ∃ memory, (assemble (withZeros tokens) size).result = .ok memory)
    (hitems : Item.scan tokens = before ++ .operand token :: after)
    (hread : Numeral.read token = .ok value) (hlarge : value < -255 ∨ 255 < value)
    (hbefore : ∀ item ∈ before, ¬ item.IsLarge) :
    (∃ error, (assemble tokens size).result = .error error ∧
      LargeReport (Item.scan tokens) error) ∧
    ((assemble tokens size).result = .error ⟨.subrangeBounds token, (Item.stream before).length⟩ ↔
      HasUpperByte value ∨
        (∀ item ∈ after, ¬ item.FailsTest) ∧ token = Numeral.write value) := by
  obtain ⟨memory, hrepaired⟩ := hrepaired
  have hpass : ∀ item ∈ before, ¬ item.FailsTest :=
    fun item hmem hfails ↦ hbefore item hmem hfails.isLarge
  by_cases hbyte : HasUpperByte value
  · have hreport : LargeReport (Item.scan tokens)
        ⟨.subrangeBounds token, (Item.stream before).length⟩ := .written hitems hread hbyte hpass
    have hresult := assemble_of_largeReport hrepaired hreport
    exact ⟨⟨_, hresult, hreport⟩, iff_of_true hresult (.inl hbyte)⟩
  have hself := not_failsTest_operand hread hbyte
  rcases forall_or_first (fun item : Item ↦ ¬ item.FailsTest) after with
    hafter | ⟨middle, item, rest, rfl, hmiddle, hfails⟩
  · have hall : ∀ item ∈ Item.scan tokens, ¬ item.FailsTest := by
      rw [hitems, List.forall_mem_append, List.forall_mem_cons]
      exact ⟨hpass, hself, hafter⟩
    have hreport := LargeReport.rewritten hall hitems hread hlarge hbefore
    have hresult := assemble_of_largeReport hrepaired hreport
    refine ⟨⟨_, hresult, hreport⟩, ?_⟩
    rw [hresult]
    constructor
    · intro hsame
      exact .inr ⟨hafter, by simpa [eq_comm] using hsame⟩
    · rintro (hbyte' | ⟨-, rfl⟩)
      · exact absurd hbyte' hbyte
      · rfl
  · have hearlier : ∀ item ∈ before ++ .operand token :: middle, ¬ item.FailsTest := by
      rw [List.forall_mem_append, List.forall_mem_cons]
      exact ⟨hpass, hself, hmiddle⟩
    have hsplit : Item.scan tokens = (before ++ .operand token :: middle) ++ item :: rest := by
      simp [hitems]
    obtain ⟨later, hreport⟩ := exists_largeReport_of_failsTest hsplit hearlier (not_not.mp hfails)
    have hresult := assemble_of_largeReport hrepaired hreport
    refine ⟨⟨_, hresult, hreport⟩, iff_of_false ?_ ?_⟩
    · rw [hresult, Except.error.injEq, Error.mk.injEq]
      omega
    · rintro (hbyte' | ⟨hafter, -⟩)
      · exact hbyte hbyte'
      · exact hfails (hafter item (by simp))

end Large

/-- Two large operands, of which the first fails the test on its bits. -/
theorem reports_first_large_iff_of_hexadecimal :
    (assemble (withZeros ["LIT", "X1FF", "CALL", "X10000"]) 8).result =
        .ok ⟨#[0xFF00, 0, 0xFF0D, 0, 0, 0, 0, 0]⟩ ∧
      (assemble ["LIT", "X1FF", "CALL", "X10000"] 8).result =
        .error ⟨.subrangeBounds "X1FF", 1⟩ := by
  have hrepaired : (assemble (withZeros ["LIT", "X1FF", "CALL", "X10000"]) 8).result =
      .ok ⟨#[0xFF00, 0, 0xFF0D, 0, 0, 0, 0, 0]⟩ := by decide +kernel
  have hbyte : HasUpperByte 511 := ⟨8, by decide, by decide, by decide⟩
  have hbefore : ∀ item ∈ [Item.word "LIT"], ¬ item.IsLarge := by simp [Item.IsLarge]
  have hreports := @reports_first_large_iff ["LIT", "X1FF", "CALL", "X10000"] 8 [.word "LIT"]
    [.word "CALL", .operand "X10000"] "X1FF" 511 ⟨_, hrepaired⟩ (by decide +kernel)
    (by decide +kernel) (by decide) hbefore
  exact ⟨hrepaired, hreports.2.mpr (.inl hbyte)⟩

/-- The first of two large operands is not reported, because it passes the test on its bits. -/
theorem reports_later_large :
    Item.scan (tokenize ["LIT X10000 LIT 256"]) =
        [.word "LIT", .operand "X10000", .word "LIT", .operand "256"] ∧
      Numeral.read "X10000" = .ok 65536 ∧
      (assemble (withZeros (tokenize ["LIT X10000 LIT 256"])) 8).result =
        .ok ⟨#[0xFF00, 0, 0xFF00, 0, 0, 0, 0, 0]⟩ ∧
      (assemble (tokenize ["LIT X10000 LIT 256"]) 8).result =
        .error ⟨.subrangeBounds "256", 3⟩ ∧
      (assemble (tokenize ["LIT X10000 LIT 256"]) 8).result ≠
        .error ⟨.subrangeBounds "X10000", 1⟩ := by
  decide +kernel

end DualStack.Assembly
