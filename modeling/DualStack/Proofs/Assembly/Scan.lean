import DualStack.Assembly.Item

/-!
# The scan with a cursor

The items of a program can be told by a cursor that moves by one token over a definition or a word
on its own, and by two over an instruction with its operand (`Item.scan`). It finds the items that
the scan with one bit finds (`ofTokens_eq_scan`).

The items that take up a cell are the stream of the program (`Item.stream`). A definition binds its
name to the number of such items before it (`Item.Binds`).

Operands stand behind the instructions that take them and nowhere else (`Item.WellPlaced`). This
holds of the items that a scan finds (`Item.wellPlaced_scan`), and still holds of their stream
(`Item.WellPlaced.stream`).
-/

set_option autoImplicit false
set_option relaxedAutoImplicit false

namespace DualStack.Assembly

/-! ### The cursor -/

/-- The items found by a cursor. The token after an instruction with an operand is passed together
with the instruction, whatever it is. -/
def Item.scan : List String → List Item
  | [] => []
  | [token] => if isLabel token then [.definition token] else [.word token]
  | token :: following :: rest =>
    if isLabel token then .definition token :: scan (following :: rest)
    else if takesOperand token then .word token :: .operand following :: scan rest
    else .word token :: scan (following :: rest)

theorem Item.scan_of_isLabel {token : String} (hlabel : isLabel token = true)
    (rest : List String) : scan (token :: rest) = .definition token :: scan rest := by
  cases rest <;> simp [scan, hlabel]

theorem Item.scan_of_not_takesOperand {token : String} (hlabel : isLabel token = false)
    (hoperand : takesOperand token = false) (rest : List String) :
    scan (token :: rest) = .word token :: scan rest := by
  cases rest <;> simp [scan, hlabel, hoperand]

/-- The scan with one bit goes on from the items found so far as the cursor does. -/
theorem foldl_next (tokens : List String) (items : Array Item) :
    (tokens.foldl Scan.next ⟨items, false⟩).items.toList = items.toList ++ Item.scan tokens := by
  induction tokens using Item.scan.induct generalizing items with
  | case1 => simp [Item.scan]
  | case2 token hlabel => simp [Item.scan, Scan.next, hlabel]
  | case3 token hlabel => simp [Item.scan, Scan.next, hlabel]
  | case4 token following rest hlabel ih =>
    have hfirst : Scan.next ⟨items, false⟩ token = ⟨items.push (.definition token), false⟩ := by
      simp [Scan.next, hlabel]
    rw [List.foldl_cons, hfirst, ih]
    simp [Item.scan, hlabel]
  | case5 token following rest hlabel hoperand ih =>
    have hboth : Scan.next (Scan.next ⟨items, false⟩ token) following =
        ⟨(items.push (.word token)).push (.operand following), false⟩ := by
      simp [Scan.next, hlabel, hoperand]
    rw [List.foldl_cons, List.foldl_cons, hboth, ih]
    simp [Item.scan, hlabel, hoperand]
  | case6 token following rest hlabel hoperand ih =>
    have hfirst : Scan.next ⟨items, false⟩ token = ⟨items.push (.word token), false⟩ := by
      simp [Scan.next, hlabel, hoperand]
    rw [List.foldl_cons, hfirst, ih]
    simp [Item.scan, hlabel, hoperand]

/-- The scan with one bit finds the items that the cursor finds. -/
theorem ofTokens_eq_scan (tokens : List String) : Item.ofTokens tokens = Item.scan tokens := by
  simpa [Item.ofTokens, Scan.start] using foldl_next tokens #[]

/-- A token that is taken for a word is no label. -/
theorem isLabel_of_word_mem_scan {tokens : List String} {word : String}
    (hmem : .word word ∈ Item.scan tokens) : isLabel word = false := by
  induction tokens using Item.scan.induct with
  | case1 => simp [Item.scan] at hmem
  | case2 token hlabel => simp [Item.scan, hlabel] at hmem
  | case3 token hlabel =>
    obtain rfl : word = token := by simpa [Item.scan, hlabel] using hmem
    simpa using hlabel
  | case4 token following rest hlabel ih => exact ih (by simpa [Item.scan, hlabel] using hmem)
  | case5 token following rest hlabel hoperand ih =>
    rw [Item.scan, if_neg hlabel, if_pos hoperand] at hmem
    rcases List.mem_cons.mp hmem with hfirst | hmem
    · obtain rfl : word = token := by simpa using hfirst
      simpa using hlabel
    · exact ih (by simpa using hmem)
  | case6 token following rest hlabel hoperand ih =>
    rw [Item.scan, if_neg hlabel, if_neg hoperand] at hmem
    rcases List.mem_cons.mp hmem with hfirst | hmem
    · obtain rfl : word = token := by simpa using hfirst
      simpa using hlabel
    · exact ih hmem

namespace Item

/-! ### The stream and the names of a program -/

/-- Whether an item is the definition of a label. -/
def isDefinition : Item → Bool
  | definition _ => true
  | _ => false

/-- The name that an item defines. -/
def name? : Item → Option String
  | definition name => some name
  | _ => none

/-- The items without the definitions, one for each cell of the program. -/
def stream (items : List Item) : List Item := items.filter fun item ↦ !item.isDefinition

/-- The names defined in a program, in order. -/
def names (items : List Item) : List String := items.filterMap name?

@[simp] theorem stream_append (first second : List Item) :
    stream (first ++ second) = stream first ++ stream second :=
  List.filter_append first second

@[simp] theorem names_append (first second : List Item) :
    names (first ++ second) = names first ++ names second :=
  List.filterMap_append

@[simp] theorem stream_definition (name : String) : stream [definition name] = [] := rfl

@[simp] theorem stream_operand (token : String) : stream [operand token] = [operand token] := rfl

@[simp] theorem stream_word (token : String) : stream [word token] = [word token] := rfl

@[simp] theorem names_definition (name : String) : names [definition name] = [name] := rfl

@[simp] theorem names_operand (token : String) : names [operand token] = [] := rfl

@[simp] theorem names_word (token : String) : names [word token] = [] := rfl

theorem mem_stream_operand {items : List Item} {token : String} :
    operand token ∈ stream items ↔ operand token ∈ items := by
  simp [stream, isDefinition]

theorem mem_stream_word {items : List Item} {token : String} :
    word token ∈ stream items ↔ word token ∈ items := by
  simp [stream, isDefinition]

theorem mem_names {items : List Item} {name : String} :
    name ∈ names items ↔ definition name ∈ items := by
  rw [names, List.mem_filterMap]
  constructor
  · rintro ⟨item, hmem, hname⟩
    cases item with
    | definition other =>
      obtain rfl : other = name := by simpa [name?] using hname
      exact hmem
    | operand token => simp [name?] at hname
    | word token => simp [name?] at hname
  · intro hmem
    exact ⟨definition name, hmem, rfl⟩

/-! ### The address of a name -/

/-- A definition binds its name to the number of items before it that take up a cell. -/
def Binds (items : List Item) (name : String) (address : Nat) : Prop :=
  ∃ before after, items = before ++ definition name :: after ∧ address = (stream before).length

variable {items : List Item} {name : String} {address : Nat}

theorem Binds.mem_names (hbinds : Binds items name address) : name ∈ names items := by
  obtain ⟨before, after, rfl, -⟩ := hbinds
  simp [names, name?]

theorem Binds.address_le (hbinds : Binds items name address) :
    address ≤ (stream items).length := by
  obtain ⟨before, after, rfl, rfl⟩ := hbinds
  simp

/-- Every defined name is bound. -/
theorem exists_binds (hmem : name ∈ names items) : ∃ address, Binds items name address := by
  obtain ⟨before, after, rfl⟩ := List.append_of_mem (Item.mem_names.mp hmem)
  exact ⟨(stream before).length, before, after, rfl, rfl⟩

/-- An item at the end binds a name if it defines it, and leaves the names before it as they are. -/
theorem binds_append_singleton_iff {item : Item} :
    Binds (items ++ [item]) name address ↔
      Binds items name address ∨ item = definition name ∧ address = (stream items).length := by
  constructor
  · rintro ⟨before, after, hsplit, rfl⟩
    rcases List.eq_nil_or_concat after with rfl | ⟨middle, last, rfl⟩
    · obtain ⟨rfl, hlast⟩ := List.append_inj' hsplit rfl
      exact .inr ⟨by simpa using hlast, rfl⟩
    · rw [List.concat_eq_append, ← List.cons_append, ← List.append_assoc] at hsplit
      obtain ⟨rfl, -⟩ := List.append_inj' hsplit rfl
      exact .inl ⟨before, middle, rfl, rfl⟩
  · rintro (⟨before, after, rfl, rfl⟩ | ⟨rfl, rfl⟩)
    · exact ⟨before, after ++ [item], by simp, rfl⟩
    · exact ⟨items, [], rfl, rfl⟩

/-! ### The places of operands -/

/-- Whether an item is an operand. -/
def isOperand : Item → Bool
  | operand _ => true
  | _ => false

/-- Whether the item behind an item is its operand. -/
def expectsOperand : Item → Bool
  | word token => takesOperand token
  | _ => false

/-- Operands stand where they are expected and nowhere else; `expected` says whether the first item
is one. -/
def WellPlaced : Bool → List Item → Prop
  | _, [] => True
  | expected, item :: rest => item.isOperand = expected ∧ WellPlaced item.expectsOperand rest

/-- The scan places operands where they are expected. -/
theorem wellPlaced_scan (tokens : List String) : WellPlaced false (scan tokens) := by
  induction tokens using Item.scan.induct with
  | case1 => trivial
  | case2 token hlabel =>
    rw [scan, if_pos hlabel]
    exact ⟨rfl, trivial⟩
  | case3 token hlabel =>
    rw [scan, if_neg hlabel]
    exact ⟨rfl, trivial⟩
  | case4 token following rest hlabel ih =>
    rw [scan, if_pos hlabel]
    exact ⟨rfl, ih⟩
  | case5 token following rest hlabel hoperand ih =>
    rw [scan, if_neg hlabel, if_pos hoperand]
    exact ⟨rfl, hoperand.symm, ih⟩
  | case6 token following rest hlabel hoperand ih =>
    rw [scan, if_neg hlabel, if_neg hoperand]
    exact ⟨rfl, by simpa [expectsOperand, hoperand] using ih⟩

variable {expected : Bool} {item next : Item} {index : Nat}

theorem WellPlaced.stream (hplaced : WellPlaced expected items) :
    WellPlaced expected (stream items) := by
  induction items generalizing expected with
  | nil => trivial
  | cons first rest ih =>
    obtain ⟨hfirst, hrest⟩ := hplaced
    cases first with
    | definition name =>
      obtain rfl : false = expected := hfirst
      exact ih hrest
    | operand token => exact ⟨hfirst, ih hrest⟩
    | word token => exact ⟨hfirst, ih hrest⟩

theorem WellPlaced.of_append {before after : List Item}
    (hplaced : WellPlaced expected (before ++ item :: after)) :
    WellPlaced item.expectsOperand after := by
  induction before generalizing expected with
  | nil => exact hplaced.2
  | cons first before ih => exact ih hplaced.2

theorem WellPlaced.isOperand_zero (hplaced : WellPlaced expected items)
    (hitem : items[0]? = some item) : item.isOperand = expected := by
  cases items with
  | nil => simp at hitem
  | cons first rest =>
    obtain rfl : first = item := by simpa using hitem
    exact hplaced.1

theorem WellPlaced.isOperand_succ (hplaced : WellPlaced expected items)
    (hitem : items[index]? = some item) (hnext : items[index + 1]? = some next) :
    next.isOperand = item.expectsOperand := by
  induction items generalizing expected index with
  | nil => simp at hitem
  | cons first rest ih =>
    cases index with
    | zero =>
      obtain rfl : first = item := by simpa using hitem
      exact hplaced.2.isOperand_zero (by simpa using hnext)
    | succ index => exact ih hplaced.2 (by simpa using hitem) (by simpa using hnext)

end Item

end DualStack.Assembly
