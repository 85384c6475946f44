import DualStack.Word

/-!
# Bounded stacks

A stack holds at most `Stack.capacity` words, and it carries the proof of that. Pushing onto a full
stack and popping an empty one are the only operations that can fail; they answer `none`. Within the
library the cells are listed from the top down; a reader is shown them from the bottom up
(`Stack.toList`).
-/

set_option autoImplicit false
set_option relaxedAutoImplicit false

namespace DualStack

/-- The number of words a stack can hold. -/
def Stack.capacity : Nat := 255

/-- A stack of words; the first of `cells` is the top. -/
@[ext] structure Stack where
  cells : List Word
  bounded : cells.length ≤ Stack.capacity
  deriving DecidableEq, Repr

namespace Stack

/-- The stack without a word on it. -/
def empty : Stack := ⟨[], Nat.zero_le _⟩

/-- The stack that shows as a given list, bottom first, as far as there is room. -/
def ofList (cells : List Word) : Stack where
  cells := (cells.take capacity).reverse
  bounded := by
    rw [List.length_reverse, List.length_take]
    exact Nat.min_le_left _ _

/-- The contents of a stack from the bottom to the top. -/
def toList (stack : Stack) : List Word := stack.cells.reverse

/-- The number of words on a stack. -/
def depth (stack : Stack) : Nat := stack.cells.length

/-- Puts a word on top of a stack that is not full. -/
def push? (value : Word) (stack : Stack) : Option Stack :=
  if hroom : stack.depth < capacity then some ⟨value :: stack.cells, hroom⟩ else none

/-- The top of a stack and what lies below it. -/
def pop? : Stack → Option (Word × Stack)
  | ⟨[], _⟩ => none
  | ⟨top :: below, bounded⟩ => some (top, ⟨below, Nat.le_of_succ_le bounded⟩)

/-- What lies below the top of a stack, and nothing if the stack has no top. -/
def below (stack : Stack) : Stack :=
  ⟨stack.cells.tail, Nat.le_trans (by simp) stack.bounded⟩

/-- The top of a stack. -/
def peek? (stack : Stack) : Option Word := stack.cells.head?

/-- The two topmost words, the lower one first. -/
def peekTwo? (stack : Stack) : Option (Word × Word) :=
  match stack.cells with
  | top :: below :: _ => some (below, top)
  | _ => none

@[simp] theorem cells_empty : empty.cells = [] := rfl

@[simp] theorem toList_ofList {cells : List Word} (hfits : cells.length ≤ capacity) :
    (ofList cells).toList = cells := by
  simp [ofList, toList, List.take_of_length_le hfits]

@[simp] theorem ofList_toList (stack : Stack) : ofList stack.toList = stack := by
  have hfits : stack.cells.length ≤ capacity := stack.bounded
  ext1
  simp [ofList, toList, List.take_of_length_le, hfits]

@[simp] theorem length_toList (stack : Stack) : stack.toList.length = stack.depth := by
  simp [toList, depth]

/-- Pushing fails exactly on a stack without room. -/
theorem push?_eq_none_iff {stack : Stack} {value : Word} :
    stack.push? value = none ↔ capacity ≤ stack.depth := by
  simp [push?]

/-- A word that is pushed comes to lie on top of the others. -/
theorem push?_eq_some_iff {stack higher : Stack} {value : Word} :
    stack.push? value = some higher ↔ higher.cells = value :: stack.cells := by
  unfold push?
  split
  case isTrue hroom => simp [Stack.ext_iff, eq_comm]
  case isFalse hfull =>
    simp only [reduceCtorEq, false_iff]
    intro hcells
    have hbounded := higher.bounded
    rw [hcells, List.length_cons] at hbounded
    exact hfull hbounded

/-- Popping takes apart a stack that has a word on it. -/
theorem pop?_eq_some_iff {stack below : Stack} {top : Word} :
    stack.pop? = some (top, below) ↔ stack.cells = top :: below.cells := by
  obtain ⟨cells, _⟩ := stack
  cases cells <;> simp [pop?, Stack.ext_iff]

theorem below_eq_of_cons {stack lower : Stack} {top : Word}
    (hcells : stack.cells = top :: lower.cells) : stack.below = lower := by
  simp [below, hcells]

theorem below_eq_of_nil {stack : Stack} (hcells : stack.cells = []) : stack.below = stack := by
  simp [below, Stack.ext_iff, hcells]

/-- Popping fails exactly on a stack without a word. -/
theorem pop?_eq_none_iff {stack : Stack} : stack.pop? = none ↔ stack.cells = [] := by
  obtain ⟨cells, _⟩ := stack
  cases cells <;> simp [pop?]

/-- A word that is pushed becomes the last of the list a reader sees. -/
theorem toList_of_push? {stack higher : Stack} {value : Word}
    (hpushed : stack.push? value = some higher) : higher.toList = stack.toList ++ [value] := by
  simp [toList, push?_eq_some_iff.mp hpushed]

/-- What is popped is the last word of the list a reader sees. -/
theorem toList_of_pop? {stack below : Stack} {top : Word}
    (hpopped : stack.pop? = some (top, below)) : stack.toList = below.toList ++ [top] := by
  simp [toList, pop?_eq_some_iff.mp hpopped]

end Stack

end DualStack
