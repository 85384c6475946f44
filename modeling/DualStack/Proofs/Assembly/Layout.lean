import DualStack.Proofs.Assembly.Encoding
import DualStack.Proofs.Assembly.Scan
import Mathlib.Data.List.Induction
import Mathlib.Data.List.Nodup

/-!
# What laying out a program comes to

A layout covers the items of a program (`Layout.Covers`) when one token is lined up for each item of
the stream and a look-up of a name answers the address that the program binds it to. Taking one more
item in keeps this and succeeds exactly when the item is admissible behind the names defined before
it (`Layout.Covers.place`, `Layout.Covers.admissible_of_place`).

So the programs that can be laid out are the legal ones, whose names differ and whose literal
operands pass the test on their bits (`Layout.exists_ofItems`), and the layout of a program covers
it (`Layout.legal_and_covers_of_ofItems`).
-/

set_option autoImplicit false
set_option relaxedAutoImplicit false

namespace DualStack.Assembly

/-! ### Legal programs -/

namespace Item

/-- A token in operand position is legal if it is a label, or a numeral that passes the test on its
bits. -/
def LegalOperand (token : String) : Prop :=
  isLabel token = true ∨
    ∃ value, Numeral.read token = .ok value ∧ Layout.inOperandRange value = true

/-- Whether an item can be taken in behind definitions of the given names. -/
def Admissible (names : List String) : Item → Prop
  | definition name => name ∉ names
  | operand token => LegalOperand token
  | word _ => True

/-- A program is legal if its names differ and its operands are legal. -/
structure Legal (items : List Item) : Prop where
  names_nodup : (names items).Nodup
  operands : ∀ token, operand token ∈ items → LegalOperand token

theorem legal_nil : Legal [] where
  names_nodup := List.nodup_nil
  operands := by simp

theorem nodup_names_append_definition_iff {items : List Item} {name : String} :
    (names (items ++ [definition name])).Nodup ↔ name ∉ names items ∧ (names items).Nodup := by
  rw [names_append, names_definition, ← List.concat_eq_append, List.nodup_concat]

/-- A program that goes on legally is legal so far. -/
theorem Legal.of_append {first second : List Item} (hlegal : Legal (first ++ second)) :
    Legal first where
  names_nodup := (List.nodup_append.mp (names_append first second ▸ hlegal.names_nodup)).1
  operands token hmem := hlegal.operands token (List.mem_append_left second hmem)

/-- A program with one more item is legal if the item is admissible behind the names before it. -/
theorem legal_append_singleton_iff {items : List Item} {item : Item} :
    Legal (items ++ [item]) ↔ Legal items ∧ item.Admissible (names items) := by
  constructor
  · intro hlegal
    refine ⟨hlegal.of_append, ?_⟩
    cases item with
    | definition name => exact (nodup_names_append_definition_iff.mp hlegal.names_nodup).1
    | operand token => exact hlegal.operands token (by simp)
    | word token => trivial
  · rintro ⟨⟨hnodup, hoperands⟩, hadmissible⟩
    constructor
    · cases item with
      | definition name => exact nodup_names_append_definition_iff.mpr ⟨hadmissible, hnodup⟩
      | operand token => simpa using hnodup
      | word token => simpa using hnodup
    · intro token hmem
      rcases List.mem_append.mp hmem with hmem | hlast
      · exact hoperands token hmem
      · obtain rfl := (List.mem_singleton.mp hlast).symm
        exact hadmissible

/-- The token that is lined up for an item: for a literal operand its decimal numeral, and
otherwise the token as it stands. -/
def lined : Item → String
  | definition name => name
  | operand token =>
    match Numeral.read token with
    | .ok value => Numeral.write value
    | .error _ => token
  | word token => token

theorem lined_of_isLabel {token : String} (hlabel : isLabel token = true) :
    (operand token).lined = token := by
  simp [lined, read_of_isLabel hlabel]

theorem lined_of_read {token : String} {value : Int} (hread : Numeral.read token = .ok value) :
    (operand token).lined = Numeral.write value := by
  simp [lined, hread]

end Item

/-! ### Layouts that cover a program -/

namespace Layout

/-- A layout has one token for each item of the stream, and knows the addresses of the names. -/
structure Covers (layout : Layout) (items : List Item) : Prop where
  stream_eq : layout.stream.toList = (Item.stream items).map Item.lined
  lookup_iff : ∀ name address,
    layout.labels.lookup name = some address ↔ Item.Binds items name address

theorem covers_empty : empty.Covers [] where
  stream_eq := rfl
  lookup_iff := by simp [empty, Item.Binds]

variable {layout next : Layout} {items : List Item} {item : Item}

theorem Covers.address_eq (hcovers : layout.Covers items) :
    layout.address = (Item.stream items).length := by
  rw [address, ← Array.length_toList, hcovers.stream_eq, List.length_map]

/-- A name is unknown to the layout exactly when the program does not define it. -/
theorem Covers.lookup_eq_none_iff (hcovers : layout.Covers items) {name : String} :
    layout.labels.lookup name = none ↔ name ∉ Item.names items := by
  rw [Option.eq_none_iff_forall_ne_some]
  constructor
  · intro hnone hmem
    obtain ⟨address, hbinds⟩ := Item.exists_binds hmem
    exact hnone address ((hcovers.lookup_iff name address).mpr hbinds)
  · intro hnotmem address hlookup
    exact hnotmem ((hcovers.lookup_iff name address).mp hlookup).mem_names

/-- Lining up the token of an item of the stream covers the program with that item. -/
theorem Covers.append (hcovers : layout.Covers items) (hstream : Item.stream [item] = [item]) :
    (layout.append item.lined).Covers (items ++ [item]) where
  stream_eq := by simp [Layout.append, hcovers.stream_eq, hstream]
  lookup_iff name address := by
    rw [Item.binds_append_singleton_iff, Layout.append, hcovers.lookup_iff]
    have hne : item ≠ .definition name := by
      rintro rfl
      simp at hstream
    simp [hne]

theorem Covers.note (hcovers : layout.Covers items) (remark : Note) :
    (layout.note remark).Covers items :=
  ⟨hcovers.stream_eq, hcovers.lookup_iff⟩

/-- Binding a new name covers the program with the definition of that name. -/
theorem Covers.define (hcovers : layout.Covers items) {name : String}
    (hnew : name ∉ Item.names items) :
    ∃ next, layout.define name = .ok next ∧ next.Covers (items ++ [.definition name]) := by
  have hnone := hcovers.lookup_eq_none_iff.mpr hnew
  refine ⟨_, by rw [Layout.define, hnone]; rfl, ⟨by simpa using hcovers.stream_eq, ?_⟩⟩
  intro other address
  rw [Item.binds_append_singleton_iff, List.lookup_cons, hcovers.address_eq]
  by_cases hsame : other = name
  · subst hsame
    have hfree : ¬ Item.Binds items other address := fun hbinds ↦ hnew hbinds.mem_names
    simp [hfree, eq_comm]
  · have hother : Item.definition name ≠ .definition other := by simpa [eq_comm] using hsame
    simp [beq_false_of_ne hsame, hother, hcovers.lookup_iff]

/-- An admissible item is taken in, and the layout covers the program with it. -/
theorem Covers.place (hcovers : layout.Covers items)
    (hadmissible : item.Admissible (Item.names items)) :
    ∃ next, layout.place item = .ok next ∧ next.Covers (items ++ [item]) := by
  cases item with
  | definition name => exact hcovers.define hadmissible
  | operand token =>
    rcases hadmissible with hlabel | ⟨value, hread, hrange⟩
    · refine ⟨layout.append token, by simp [Layout.place, appendOperand, hlabel], ?_⟩
      have happend := hcovers.append (Item.stream_operand token)
      rwa [Item.lined_of_isLabel hlabel] at happend
    · have hlabel := isLabel_of_read hread
      refine ⟨_, by simp [Layout.place, appendOperand, hlabel, hread, hrange]; rfl, ?_⟩
      have happend := (hcovers.note (.operandRead layout.address token value)).append
        (Item.stream_operand token)
      rwa [Item.lined_of_read hread] at happend
  | word token => exact ⟨_, rfl, hcovers.append (Item.stream_word token)⟩

/-- Only an admissible item is taken in. -/
theorem Covers.admissible_of_place (hcovers : layout.Covers items)
    (hplace : layout.place item = .ok next) : item.Admissible (Item.names items) := by
  cases item with
  | definition name =>
    simp only [Layout.place, Layout.define, fail] at hplace
    split at hplace
    · simp at hplace
    · next hlookup =>
      exact hcovers.lookup_eq_none_iff.mp (Option.not_isSome_iff_eq_none.mp hlookup)
  | operand token =>
    simp only [Layout.place, appendOperand, fail] at hplace
    split at hplace
    · next hlabel => exact .inl hlabel
    · split at hplace
      · simp at hplace
      · next value hread =>
        split at hplace
        · next hrange => exact .inr ⟨value, hread, hrange⟩
        · simp at hplace
  | word token => trivial

/-! ### The whole program -/

theorem ofItems_append_singleton (items : List Item) (item : Item) :
    ofItems (items ++ [item]) = (ofItems items).bind fun layout ↦ layout.place item := by
  rw [ofItems, List.foldlM_append]
  simp only [List.foldlM_cons, List.foldlM_nil, bind_pure]
  rfl

/-- A program that can be laid out is legal, and its layout covers it. -/
theorem legal_and_covers_of_ofItems (hlayout : ofItems items = .ok layout) :
    Item.Legal items ∧ layout.Covers items := by
  induction items using List.reverseRecOn generalizing layout with
  | nil =>
    obtain rfl : empty = layout := Except.ok.inj hlayout
    exact ⟨Item.legal_nil, covers_empty⟩
  | append_singleton items item ih =>
    rw [ofItems_append_singleton] at hlayout
    cases hfirst : ofItems items with
    | error failure => simp [hfirst, Except.bind] at hlayout
    | ok first =>
      obtain ⟨hlegal, hcovers⟩ := ih hfirst
      replace hlayout : first.place item = .ok layout := by
        simpa [hfirst, Except.bind] using hlayout
      have hadmissible := hcovers.admissible_of_place hlayout
      obtain ⟨next, hplace, hnext⟩ := hcovers.place hadmissible
      obtain rfl := Except.ok.inj (hplace.symm.trans hlayout)
      exact ⟨Item.legal_append_singleton_iff.mpr ⟨hlegal, hadmissible⟩, hnext⟩

/-- A legal program can be laid out. -/
theorem exists_ofItems (hlegal : Item.Legal items) : ∃ layout, ofItems items = .ok layout := by
  induction items using List.reverseRecOn with
  | nil => exact ⟨empty, rfl⟩
  | append_singleton items item ih =>
    obtain ⟨hlegal, hadmissible⟩ := Item.legal_append_singleton_iff.mp hlegal
    obtain ⟨first, hfirst⟩ := ih hlegal
    obtain ⟨next, hplace, -⟩ := (legal_and_covers_of_ofItems hfirst).2.place hadmissible
    exact ⟨next, by simpa [ofItems_append_singleton, hfirst, Except.bind] using hplace⟩

/-- An item that is not taken in behind a legal program stops the layout at its address. -/
theorem ofItems_eq_error_of_place {before : List Item} (hlegal : Item.Legal before) {item : Item}
    {cause : Error.Cause}
    (hplace : ∀ layout : Layout, layout.Covers before → layout.place item = layout.fail cause)
    (after : List Item) :
    ∃ notes, ofItems (before ++ item :: after) =
      .error ⟨⟨cause, (Item.stream before).length⟩, notes⟩ := by
  obtain ⟨layout, hlayout⟩ := exists_ofItems hlegal
  have hcovers := (legal_and_covers_of_ofItems hlayout).2
  refine ⟨layout.notes, ?_⟩
  rw [ofItems] at hlayout ⊢
  rw [List.foldlM_append, hlayout, ← hcovers.address_eq]
  change List.foldlM place layout (item :: after) = _
  rw [List.foldlM_cons, hplace layout hcovers]
  rfl

/-- A literal operand that does not pass the test on its bits stops the layout at its address. -/
theorem ofItems_eq_error {before : List Item} (hlegal : Item.Legal before) {token : String}
    {value : Int} (hread : Numeral.read token = .ok value) (hrange : inOperandRange value = false)
    (after : List Item) :
    ∃ notes, ofItems (before ++ .operand token :: after) =
      .error ⟨⟨.subrangeBounds token, (Item.stream before).length⟩, notes⟩ := by
  refine ofItems_eq_error_of_place hlegal (fun layout _ ↦ ?_) after
  simp [Layout.place, appendOperand, isLabel_of_read hread, hread, hrange]

end Layout

end DualStack.Assembly
