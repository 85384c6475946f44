import DualStack.Proofs.Assembly.Image
import DualStack.Proofs.Assembly.Tokens
import Mathlib.Data.Set.Function

/-!
# Renaming labels and respelling numbers

A program does not depend on what its labels are called and how its numbers are spelled. Its labels
can be renamed, as long as different labels stay different (`Relabeling`), and each of its numerals
can be replaced by another numeral of the same number (`Relabeling.SameToken`). Token for token, both
programs then have the same items, lay out the same tokens and bind the same labels to the same
addresses, or give up at the same place for the same reason. So their assemblies come to the same
image or to the same error up to the names and spellings in it (`Relabeling.assemble_same`).
-/

set_option autoImplicit false
set_option relaxedAutoImplicit false

namespace DualStack.Assembly

/-! ### Outcomes that match -/

section Matches

variable {ε α β τ : Type} {errors : ε → ε → Prop} {values : α → α → Prop} {others : β → β → Prop}

/-- Two outcomes are both values or both errors, and these are related. -/
inductive Matches (errors : ε → ε → Prop) (values : α → α → Prop) :
    Except ε α → Except ε α → Prop
  | ok {first second : α} (hvalues : values first second) :
      Matches errors values (.ok first) (.ok second)
  | error {first second : ε} (herrors : errors first second) :
      Matches errors values (.error first) (.error second)

theorem Matches.bind {first second : Except ε α} {next next' : α → Except ε β}
    (hmatches : Matches errors values first second)
    (hnext : ∀ value value', values value value' →
      Matches errors others (next value) (next' value')) :
    Matches errors others (first >>= next) (second >>= next') := by
  cases hmatches with
  | ok hvalues => exact hnext _ _ hvalues
  | error herrors => exact .error herrors

/-- Folds match if their steps do. -/
theorem matches_foldlM {tokens : τ → τ → Prop} {step step' : α → τ → Except ε α}
    (hstep : ∀ value value' token token', values value value' → tokens token token' →
      Matches errors values (step value token) (step' value' token'))
    {first second : List τ} (htokens : List.Forall₂ tokens first second) {start start' : α}
    (hstart : values start start') :
    Matches errors values (first.foldlM step start) (second.foldlM step' start') := by
  induction htokens generalizing start start' with
  | nil => exact .ok hstart
  | cons hfirst _ ih =>
    rw [List.foldlM_cons, List.foldlM_cons]
    exact (hstep _ _ _ _ hstart hfirst).bind fun _ _ hvalues ↦ ih hvalues

end Matches

/-! ### Tokens -/

/-- New names for some labels, different ones for different labels. -/
structure Relabeling where
  /-- The labels that get a new name. -/
  labels : Set String
  rename : String → String
  isLabel_of_mem : ∀ name ∈ labels, isLabel name = true
  isLabel_rename : ∀ name ∈ labels, isLabel (rename name) = true
  injOn : Set.InjOn rename labels

namespace Relabeling

variable {relabeling : Relabeling} {first second : String}

/-- Two tokens are the same up to the names of labels and the spelling of numbers. -/
inductive SameToken (relabeling : Relabeling) : String → String → Prop
  /-- A label has its new name. -/
  | label {name : String} (hname : name ∈ relabeling.labels) :
      SameToken relabeling name (relabeling.rename name)
  /-- A numeral is a numeral of the same number. -/
  | numeral {first second : String} {value : Int} (hfirst : Numeral.read first = .ok value)
      (hsecond : Numeral.read second = .ok value) : SameToken relabeling first second
  /-- Any other token stays as it is. -/
  | other {token : String} (hlabel : isLabel token = false)
      (hread : ∀ value, Numeral.read token ≠ .ok value) : SameToken relabeling token token

/-- A token that is no label may stay as it is. -/
theorem sameToken_self {token : String} (hlabel : isLabel token = false) :
    relabeling.SameToken token token := by
  cases hread : Numeral.read token with
  | ok value => exact .numeral hread hread
  | error error => exact .other hlabel fun value hvalue ↦ by simp [hread] at hvalue

theorem SameToken.isLabel_eq (hsame : relabeling.SameToken first second) :
    isLabel first = isLabel second := by
  cases hsame with
  | label hname => rw [relabeling.isLabel_of_mem _ hname, relabeling.isLabel_rename _ hname]
  | numeral hfirst hsecond => rw [isLabel_of_read hfirst, isLabel_of_read hsecond]
  | other => rfl

theorem SameToken.mem_labels (hsame : relabeling.SameToken first second)
    (hlabel : isLabel first = true) :
    first ∈ relabeling.labels ∧ second = relabeling.rename first := by
  cases hsame with
  | label hname => exact ⟨hname, rfl⟩
  | numeral hfirst => simp [isLabel_of_read hfirst] at hlabel
  | other hnot => simp [hnot] at hlabel

theorem SameToken.takesOperand_eq (hsame : relabeling.SameToken first second) :
    takesOperand first = takesOperand second := by
  cases hsame with
  | label hname =>
    rw [takesOperand_of_isLabel (relabeling.isLabel_of_mem _ hname),
      takesOperand_of_isLabel (relabeling.isLabel_rename _ hname)]
  | numeral hfirst hsecond => rw [takesOperand_of_read hfirst, takesOperand_of_read hsecond]
  | other => rfl

/-! ### Items -/

/-- Two items are the same up to the names of labels and the spelling of numbers. -/
inductive SameItem (relabeling : Relabeling) : Item → Item → Prop
  | definition {name : String} (hname : name ∈ relabeling.labels) :
      SameItem relabeling (.definition name) (.definition (relabeling.rename name))
  | operand {first second : String} (hsame : relabeling.SameToken first second) :
      SameItem relabeling (.operand first) (.operand second)
  | word {first second : String} (hsame : relabeling.SameToken first second) :
      SameItem relabeling (.word first) (.word second)

/-- Two scans have found the same items and expect the same next. -/
structure SameScan (relabeling : Relabeling) (first second : Scan) : Prop where
  items : List.Forall₂ relabeling.SameItem first.items.toList second.items.toList
  expectsOperand_eq : first.expectsOperand = second.expectsOperand

theorem SameScan.push {scan scan' : Scan} {item item' : Item} (hscan : relabeling.SameScan scan scan')
    (hitem : relabeling.SameItem item item') (expectsOperand : Bool) :
    relabeling.SameScan ⟨scan.items.push item, expectsOperand⟩
      ⟨scan'.items.push item', expectsOperand⟩ where
  items := by
    rw [Array.toList_push, Array.toList_push]
    exact List.rel_append hscan.items (.cons hitem .nil)
  expectsOperand_eq := rfl

theorem SameScan.next {scan scan' : Scan} (hscan : relabeling.SameScan scan scan')
    (hsame : relabeling.SameToken first second) :
    relabeling.SameScan (scan.next first) (scan'.next second) := by
  unfold Scan.next
  rw [← hscan.expectsOperand_eq, ← hsame.isLabel_eq, ← hsame.takesOperand_eq]
  by_cases hoperand : scan.expectsOperand = true
  · rw [if_pos hoperand, if_pos hoperand]
    exact hscan.push (.operand hsame) false
  · rw [if_neg hoperand, if_neg hoperand]
    by_cases hlabel : isLabel first = true
    · obtain ⟨hname, rfl⟩ := hsame.mem_labels hlabel
      rw [if_pos hlabel, if_pos hlabel]
      exact hscan.push (.definition hname) false
    · rw [if_neg hlabel, if_neg hlabel]
      exact hscan.push (.word hsame) _

/-- Programs that are the same token for token have the same items. -/
theorem sameItem_ofTokens {tokens tokens' : List String}
    (htokens : List.Forall₂ relabeling.SameToken tokens tokens') :
    List.Forall₂ relabeling.SameItem (Item.ofTokens tokens) (Item.ofTokens tokens') := by
  have hstart : relabeling.SameScan .start .start := ⟨.nil, rfl⟩
  have hend : relabeling.SameScan (tokens.foldl Scan.next .start) (tokens'.foldl Scan.next .start) :=
    List.rel_foldl (fun _ _ hscan _ _ hsame ↦ hscan.next hsame) hstart htokens
  exact hend.items

/-! ### Errors -/

/-- Two causes are the same up to the names of labels and the spelling of numbers. -/
inductive SameCause (relabeling : Relabeling) : Error.Cause → Error.Cause → Prop
  | labelRedeclared {name : String} (hname : name ∈ relabeling.labels) :
      SameCause relabeling (.labelRedeclared name) (.labelRedeclared (relabeling.rename name))
  | undeclaredLabel {name : String} (hname : name ∈ relabeling.labels) :
      SameCause relabeling (.undeclaredLabel name) (.undeclaredLabel (relabeling.rename name))
  | invalidInteger (token : String) :
      SameCause relabeling (.invalidInteger token) (.invalidInteger token)
  | subrangeBounds {first second : String} {value : Int} (hfirst : Numeral.read first = .ok value)
      (hsecond : Numeral.read second = .ok value) :
      SameCause relabeling (.subrangeBounds first) (.subrangeBounds second)
  | outOfMemory : SameCause relabeling .outOfMemory .outOfMemory

/-- Two errors are the same, and met at the same address. -/
structure SameError (relabeling : Relabeling) (first second : Error) : Prop where
  cause : relabeling.SameCause first.cause second.cause
  address_eq : second.address = first.address

/-! ### Layouts -/

/-- Two layouts have lined up the same tokens and bound the same labels to the same addresses. -/
structure SameLayout (relabeling : Relabeling) (first second : Layout) : Prop where
  labels_eq : second.labels = first.labels.map (Prod.map relabeling.rename id)
  names : ∀ entry ∈ first.labels, entry.1 ∈ relabeling.labels
  stream : List.Forall₂ relabeling.SameToken first.stream.toList second.stream.toList

/-- A renamed list of labels has the same address under the new name. -/
theorem lookup_map_rename {labels : List (String × Nat)} {name : String}
    (hnames : ∀ entry ∈ labels, entry.1 ∈ relabeling.labels) (hname : name ∈ relabeling.labels) :
    (labels.map (Prod.map relabeling.rename id)).lookup (relabeling.rename name) =
      labels.lookup name := by
  induction labels with
  | nil => rfl
  | cons entry labels ih =>
    rw [List.forall_mem_cons] at hnames
    have hsame : (relabeling.rename name == relabeling.rename entry.1) = (name == entry.1) := by
      by_cases heq : name = entry.1
      · simp [heq]
      · have hne : relabeling.rename name ≠ relabeling.rename entry.1 :=
          fun hrenamed ↦ heq (relabeling.injOn hname hnames.1 hrenamed)
        rw [beq_false_of_ne heq, beq_false_of_ne hne]
    rw [List.map_cons, List.lookup_cons, List.lookup_cons, ih hnames.2, Prod.map_fst, hsame]
    rfl

/-- Two failures give the same error. The notes taken before may differ. -/
def SameFailure (relabeling : Relabeling) (first second : Failure) : Prop :=
  relabeling.SameError first.error second.error

variable {layout layout' : Layout}

theorem SameLayout.address_eq (hlayout : relabeling.SameLayout layout layout') :
    layout'.address = layout.address := by
  unfold Layout.address
  rw [← Array.length_toList, ← Array.length_toList, hlayout.stream.length_eq]

theorem SameLayout.lookup_eq (hlayout : relabeling.SameLayout layout layout') {name : String}
    (hname : name ∈ relabeling.labels) :
    layout'.labels.lookup (relabeling.rename name) = layout.labels.lookup name := by
  rw [hlayout.labels_eq]
  exact lookup_map_rename hlayout.names hname

theorem SameLayout.note (hlayout : relabeling.SameLayout layout layout') (remark remark' : Note) :
    relabeling.SameLayout (layout.note remark) (layout'.note remark') :=
  ⟨hlayout.labels_eq, hlayout.names, hlayout.stream⟩

theorem SameLayout.append (hlayout : relabeling.SameLayout layout layout')
    (hsame : relabeling.SameToken first second) :
    relabeling.SameLayout (layout.append first) (layout'.append second) where
  labels_eq := hlayout.labels_eq
  names := hlayout.names
  stream := by
    show List.Forall₂ relabeling.SameToken (layout.stream.push first).toList
      (layout'.stream.push second).toList
    rw [Array.toList_push, Array.toList_push]
    exact List.rel_append hlayout.stream (.cons hsame .nil)

theorem SameLayout.fail (hlayout : relabeling.SameLayout layout layout') {cause cause' : Error.Cause}
    (hcause : relabeling.SameCause cause cause') :
    Matches relabeling.SameFailure relabeling.SameLayout (layout.fail cause) (layout'.fail cause') :=
  .error ⟨hcause, hlayout.address_eq⟩

theorem SameLayout.define (hlayout : relabeling.SameLayout layout layout') {name : String}
    (hname : name ∈ relabeling.labels) :
    Matches relabeling.SameFailure relabeling.SameLayout (layout.define name)
      (layout'.define (relabeling.rename name)) := by
  unfold Layout.define
  rw [hlayout.lookup_eq hname, hlayout.address_eq]
  by_cases hdefined : (layout.labels.lookup name).isSome = true
  · rw [if_pos hdefined, if_pos hdefined]
    exact hlayout.fail (.labelRedeclared hname)
  · rw [if_neg hdefined, if_neg hdefined]
    apply Matches.ok
    constructor
    · simp [hlayout.labels_eq]
    · exact List.forall_mem_cons.mpr ⟨hname, hlayout.names⟩
    · exact hlayout.stream

theorem SameLayout.appendOperand (hlayout : relabeling.SameLayout layout layout')
    (hsame : relabeling.SameToken first second) :
    Matches relabeling.SameFailure relabeling.SameLayout (layout.appendOperand first)
      (layout'.appendOperand second) := by
  unfold Layout.appendOperand
  rw [← hsame.isLabel_eq]
  by_cases hlabel : isLabel first = true
  · rw [if_pos hlabel, if_pos hlabel]
    exact .ok (hlayout.append hsame)
  · rw [if_neg hlabel, if_neg hlabel]
    cases hsame with
    | label hname => exact absurd (relabeling.isLabel_of_mem _ hname) hlabel
    | @numeral _ value hfirst hsecond =>
      rw [hfirst, hsecond]
      dsimp only
      by_cases hrange : Layout.inOperandRange value = true
      · rw [if_pos hrange, if_pos hrange]
        exact .ok ((hlayout.note _ _).append (sameToken_self (isLabel_write value)))
      · rw [if_neg hrange, if_neg hrange]
        exact hlayout.fail (.subrangeBounds hfirst hsecond)
    | other hlabel hread =>
      cases hresult : Numeral.read first with
      | ok value => exact absurd hresult (hread value)
      | error error => exact hlayout.fail (.invalidInteger first)

theorem SameLayout.place (hlayout : relabeling.SameLayout layout layout') {item item' : Item}
    (hitem : relabeling.SameItem item item') :
    Matches relabeling.SameFailure relabeling.SameLayout (layout.place item) (layout'.place item') := by
  cases hitem with
  | definition hname => exact hlayout.define hname
  | operand hsame => exact hlayout.appendOperand hsame
  | word hsame => exact .ok (hlayout.append hsame)

/-- The same items have the same layout or fail for the same reason. -/
theorem matches_ofItems {items items' : List Item}
    (hitems : List.Forall₂ relabeling.SameItem items items') :
    Matches relabeling.SameFailure relabeling.SameLayout (Layout.ofItems items)
      (Layout.ofItems items') := by
  have hempty : relabeling.SameLayout .empty .empty := ⟨rfl, nofun, .nil⟩
  exact matches_foldlM (fun _ _ _ _ hlayout hitem ↦ hlayout.place hitem) hitems hempty

/-! ### Images -/

/-- The same tokens are the same cell or fail for the same reason. -/
theorem matches_encode (hsame : relabeling.SameToken first second) :
    Matches relabeling.SameCause Eq (encode first) (encode second) := by
  unfold encode
  cases hsame with
  | label hname =>
    have hlabel := relabeling.isLabel_of_mem _ hname
    have hlabel' := relabeling.isLabel_rename _ hname
    rw [ofMnemonic?_of_isLabel hlabel, ofMnemonic?_of_isLabel hlabel', read_of_isLabel hlabel,
      read_of_isLabel hlabel']
    dsimp only
    rw [if_pos hlabel, if_pos hlabel']
    exact .error (.undeclaredLabel hname)
  | @numeral _ value hfirst hsecond =>
    rw [ofMnemonic?_of_read hfirst, ofMnemonic?_of_read hsecond, hfirst, hsecond]
    dsimp only
    by_cases hfits : -0x8000 ≤ value ∧ value ≤ 0xFFFF
    · rw [if_pos hfits, if_pos hfits]
      exact .ok rfl
    · rw [if_neg hfits, if_neg hfits]
      exact .error (.subrangeBounds hfirst hsecond)
  | other hlabel hread =>
    cases Instruction.ofMnemonic? first with
    | some instruction => exact .ok rfl
    | none =>
      cases hresult : Numeral.read first with
      | ok value => exact absurd hresult (hread value)
      | error error =>
        dsimp only
        rw [hlabel]
        exact .error (.invalidInteger first)

/-- Label references are resolved to the same addresses. -/
theorem SameLayout.resolve (hlayout : relabeling.SameLayout layout layout')
    (hsame : relabeling.SameToken first second) :
    relabeling.SameToken (layout.resolve first) (layout'.resolve second) := by
  unfold Layout.resolve
  rw [← hsame.isLabel_eq]
  by_cases hlabel : isLabel first = true
  · obtain ⟨hname, rfl⟩ := hsame.mem_labels hlabel
    rw [if_pos hlabel, if_pos hlabel, hlayout.lookup_eq hname]
    cases layout.labels.lookup first with
    | none => exact hsame
    | some address => exact sameToken_self (isLabel_write address)
  · rw [if_neg hlabel, if_neg hlabel]
    exact hsame

theorem SameLayout.appendCell (hlayout : relabeling.SameLayout layout layout') {cells : Array Word}
    (hsame : relabeling.SameToken first second) :
    Matches relabeling.SameError Eq (layout.appendCell cells first)
      (layout'.appendCell cells second) := by
  have hencode := matches_encode (hlayout.resolve hsame)
  unfold Layout.appendCell
  revert hencode
  generalize encode (layout.resolve first) = outcome, encode (layout'.resolve second) = outcome'
  intro hencode
  cases hencode with
  | ok hcell => exact .ok (congrArg cells.push hcell)
  | error hcause => exact .error ⟨hcause, rfl⟩

theorem SameLayout.cells (hlayout : relabeling.SameLayout layout layout') :
    Matches relabeling.SameError Eq layout.cells layout'.cells := by
  apply matches_foldlM _ hlayout.stream rfl
  rintro cells _ first second rfl hsame
  exact hlayout.appendCell hsame

theorem SameLayout.image (hlayout : relabeling.SameLayout layout layout') (size : Nat) :
    Matches relabeling.SameError Eq (layout.image size) (layout'.image size) := by
  have hcells := hlayout.cells
  unfold Layout.image
  revert hcells
  generalize layout.cells = outcome, layout'.cells = outcome'
  intro hcells
  cases hcells with
  | error herror => exact .error herror
  | @ok cells _ hsame =>
    subst hsame
    dsimp only
    by_cases hless : size < cells.size
    · rw [if_pos hless]
      exact .error ⟨.outOfMemory, rfl⟩
    · rw [if_neg hless]
      exact .ok rfl

/-- Programs that are the same token for token, up to the names of labels and the spelling of
numbers, assemble to the same image or fail at the same address for the same reason. -/
theorem assemble_same (relabeling : Relabeling) {tokens tokens' : List String}
    (htokens : List.Forall₂ relabeling.SameToken tokens tokens') (size : Nat) :
    Matches relabeling.SameError Eq (assemble tokens size).result (assemble tokens' size).result := by
  have hlayouts := matches_ofItems (sameItem_ofTokens htokens)
  unfold assemble
  revert hlayouts
  generalize Layout.ofItems (Item.ofTokens tokens) = outcome,
    Layout.ofItems (Item.ofTokens tokens') = outcome'
  intro hlayouts
  cases hlayouts with
  | error hfailure => exact .error hfailure
  | @ok layout layout' hlayout =>
    have himage := hlayout.image size
    dsimp only
    revert himage
    generalize layout.image size = image, layout'.image size = image'
    intro himage
    cases himage with
    | ok hmemory => exact .ok hmemory
    | error herror => exact .error herror

/-- Two labels change names. -/
def exchanging : Relabeling where
  labels := {":A", ":B"}
  rename name := if name = ":A" then ":B" else ":A"
  isLabel_of_mem := by
    rintro name (rfl | rfl) <;> rfl
  isLabel_rename := by
    rintro name (rfl | rfl) <;> rfl
  injOn := by
    rintro first (rfl | rfl) second (rfl | rfl) hsame <;> simp_all

/-- Two programs that differ in the names of their labels and in the spelling of a number. -/
theorem assemble_same_of_exchanging :
    (assemble [":A", "LIT", "X0F", ":B", "CALL", ":A", "IF", ":B"] 8).result =
        .ok ⟨#[0xFF00, 15, 0xFF0D, 0, 0xFF0C, 2, 0, 0]⟩ ∧
      (assemble [":B", "LIT", "15", ":A", "CALL", ":B", "IF", ":A"] 8).result =
        .ok ⟨#[0xFF00, 15, 0xFF0D, 0, 0xFF0C, 2, 0, 0]⟩ := by
  have hfirst : exchanging.SameToken ":A" ":B" := .label (.inl rfl)
  have hsecond : exchanging.SameToken ":B" ":A" := .label (.inr rfl)
  have hmnemonic (instruction : Instruction) :
      exchanging.SameToken instruction.mnemonic instruction.mnemonic :=
    sameToken_self (isLabel_mnemonic instruction)
  have hnumeral : exchanging.SameToken "X0F" "15" :=
    @SameToken.numeral _ _ _ 15 (by decide) (by decide)
  have htokens : List.Forall₂ exchanging.SameToken
      [":A", "LIT", "X0F", ":B", "CALL", ":A", "IF", ":B"]
      [":B", "LIT", "15", ":A", "CALL", ":B", "IF", ":A"] :=
    .cons hfirst (.cons (hmnemonic .lit) (.cons hnumeral (.cons hsecond
      (.cons (hmnemonic .call) (.cons hfirst (.cons (hmnemonic .jumpIfZero) (.cons hsecond
        .nil)))))))
  have hsame := assemble_same exchanging htokens 8
  have hresult : (assemble [":A", "LIT", "X0F", ":B", "CALL", ":A", "IF", ":B"] 8).result =
      .ok ⟨#[0xFF00, 15, 0xFF0D, 0, 0xFF0C, 2, 0, 0]⟩ := by decide +kernel
  refine ⟨hresult, ?_⟩
  rw [hresult] at hsame
  generalize (assemble [":B", "LIT", "15", ":A", "CALL", ":B", "IF", ":A"] 8).result = outcome at *
  cases hsame with
  | ok hmemory => rw [hmemory]

end Relabeling

end DualStack.Assembly
