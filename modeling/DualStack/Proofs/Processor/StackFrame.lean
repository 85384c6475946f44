import DualStack.Proofs.Processor.OpcodeTable
import DualStack.Proofs.Processor.Runs

/-!
# What lies below the stacks

A program that finds words on its stacks which it never reaches cannot tell that they are there.
`Core.Raised` says that a core has the stacks of another one on top of further words, and is the
same otherwise. As long as there is room for these words (`Core.exists_raised_iff`), an instruction
that takes effect on the one core takes effect on the other, works with the same words and leaves
two such cores again (`Effect.raised`). So does a step that is not refused by the stacks
(`Core.Raised.step`), whether or not it fails for another reason.

`Core.Raised.after_of_hasRoom` is the frame rule for any number of steps. It is what allows a program
to call a subroutine with values of its own on the stacks.
-/

set_option autoImplicit false
set_option relaxedAutoImplicit false

namespace DualStack

/-! ### Stacks on top of words -/

namespace Stack

/-- A stack shows some words, and above them another stack. -/
def Raised (lower : List Word) (stack higher : Stack) : Prop :=
  higher.toList = lower ++ stack.toList

variable {lower : List Word} {stack higher other : Stack}

theorem raised_iff_cells :
    stack.Raised lower higher ↔ higher.cells = stack.cells ++ lower.reverse := by
  rw [Raised, ← List.reverse_inj]
  simp [toList]

theorem Raised.cells_eq {cells : List Word} (hraised : stack.Raised lower higher)
    (hcells : stack.cells = cells) : higher.cells = cells ++ lower.reverse := by
  rw [← hcells, raised_iff_cells.mp hraised]

/-- Of two stacks on top of the same words one has as much above the other as they have without the
words. -/
theorem Raised.cells_eq_append {rest restHigher : Stack} (hraised : stack.Raised lower higher)
    (hrest : rest.Raised lower restHigher) (above : List Word)
    (hcells : stack.cells = above ++ rest.cells) : higher.cells = above ++ restHigher.cells := by
  rw [hraised.cells_eq hcells, hrest.cells_eq rfl, List.append_assoc]

/-- There is only one way to put a stack on top of given words. -/
theorem Raised.unique (hhigher : stack.Raised lower higher) (hother : stack.Raised lower other) :
    higher = other := by
  rw [raised_iff_cells] at hhigher hother
  exact Stack.ext (hhigher.trans hother.symm)

/-- A stack can be put on top of words if there is room for all of them. -/
theorem exists_raised_iff :
    (∃ higher, stack.Raised lower higher) ↔ lower.length + stack.depth ≤ capacity := by
  constructor
  · rintro ⟨higher, hhigher⟩
    have hbounded := higher.bounded
    rw [raised_iff_cells.mp hhigher, List.length_append, List.length_reverse] at hbounded
    rwa [depth, Nat.add_comm]
  · intro hroom
    have hbounded : (stack.cells ++ lower.reverse).length ≤ capacity := by
      rw [List.length_append, List.length_reverse, Nat.add_comm]
      exact hroom
    exact ⟨⟨_, hbounded⟩, raised_iff_cells.mpr rfl⟩

end Stack

/-! ### Cores on top of words -/

/-- The step that executes an instruction comes to the effect that the table gives it. -/
theorem Core.step_of_effect {core after : Core} {event : Event} (hrunning : core.halted = false)
    (hinside : core.inBounds = true) (hcurrent : core.current? = some event.instruction)
    (heffect : Effect core event after) : core.step = ⟨after, some event, after.bounds?⟩ := by
  rw [step_of_current hrunning hinside hcurrent, execute, Exec.perform_of_effect heffect]
  rfl

/-- A core is like another one but that its stacks lie on top of the words `lowerData` and
`lowerReturn`, which are listed from the bottom up. -/
structure Core.Raised (lowerData lowerReturn : List Word) (core higher : Core) : Prop where
  pc_eq : higher.pc = core.pc
  halted_eq : higher.halted = core.halted
  memory_eq : higher.memory = core.memory
  dataStack : core.dataStack.Raised lowerData higher.dataStack
  returnStack : core.returnStack.Raised lowerReturn higher.returnStack

/-- Two steps come to the same but for the words below the stacks. -/
structure Transition.Raised (lowerData lowerReturn : List Word) (step higher : Transition) :
    Prop where
  core : step.core.Raised lowerData lowerReturn higher.core
  event?_eq : higher.event? = step.event?
  fault?_eq : higher.fault? = step.fault?

/-- There is room on the stacks of a core for the words `lowerData` and `lowerReturn`. -/
structure Core.HasRoom (lowerData lowerReturn : List Word) (core : Core) : Prop where
  data : lowerData.length + core.dataStack.depth ≤ Stack.capacity
  returns : lowerReturn.length + core.returnStack.depth ≤ Stack.capacity

instance (lowerData lowerReturn : List Word) (core : Core) :
    Decidable (core.HasRoom lowerData lowerReturn) :=
  decidable_of_iff
    (lowerData.length + core.dataStack.depth ≤ Stack.capacity ∧
      lowerReturn.length + core.returnStack.depth ≤ Stack.capacity)
    ⟨fun hroom ↦ ⟨hroom.1, hroom.2⟩, fun hroom ↦ ⟨hroom.data, hroom.returns⟩⟩

section Raised

variable {lowerData lowerReturn : List Word} {core higher : Core}

/-- The stacks of a core can be put on top of words if there is room for them. -/
theorem Core.exists_raised_iff :
    (∃ higher, core.Raised lowerData lowerReturn higher) ↔
      core.HasRoom lowerData lowerReturn := by
  constructor
  · rintro ⟨higher, hhigher⟩
    exact ⟨Stack.exists_raised_iff.mp ⟨_, hhigher.dataStack⟩,
      Stack.exists_raised_iff.mp ⟨_, hhigher.returnStack⟩⟩
  · rintro ⟨hdata, hreturns⟩
    obtain ⟨data, hdata⟩ := Stack.exists_raised_iff.mpr hdata
    obtain ⟨returns, hreturns⟩ := Stack.exists_raised_iff.mpr hreturns
    exact ⟨{ core with dataStack := data, returnStack := returns }, rfl, rfl, rfl, hdata, hreturns⟩

/-- An instruction does not look at what lies below the words that it works with. -/
theorem Effect.raised {event : Event} {after above : Core} (heffect : Effect core event after)
    (hcore : core.Raised lowerData lowerReturn higher)
    (hafter : after.Raised lowerData lowerReturn above) : Effect higher event above := by
  obtain ⟨⟨pc, halted, data, returns⟩, memory⟩ := higher
  obtain ⟨⟨pc', halted', data', returns'⟩, memory'⟩ := above
  obtain ⟨rfl, rfl, rfl, hdata, hreturns⟩ := hcore
  obtain ⟨rfl, rfl, rfl, hdata', hreturns'⟩ := hafter
  cases heffect
  case toReturn hbefore hafter =>
    exact .toReturn (hdata.cells_eq_append hdata' [_] hbefore)
      (hreturns'.cells_eq_append hreturns [_] hafter)
  case fromReturn hbefore hafter =>
    exact .fromReturn (hreturns.cells_eq_append hreturns' [_] hbefore)
      (hdata'.cells_eq_append hdata [_] hafter)
  case call hafter =>
    obtain rfl := hdata.unique hdata'
    exact .call (hreturns'.cells_eq_append hreturns [_] hafter)
  case exit hbefore =>
    obtain rfl := hdata.unique hdata'
    exact .exit (hreturns.cells_eq_append hreturns' [_] hbefore)
  -- The other instructions leave the return stack alone.
  all_goals obtain rfl := hreturns.unique hreturns'
  case lit hafter => exact .lit (hdata'.cells_eq_append hdata [_] hafter)
  case fetch hbefore hafter => exact .fetch (hdata.cells_eq hbefore) (hdata'.cells_eq hafter)
  case store hbefore => exact .store (hdata.cells_eq_append hdata' [_, _] hbefore)
  case drop hbefore => exact .drop (hdata.cells_eq_append hdata' [_] hbefore)
  case dup hbefore hafter => exact .dup (hdata.cells_eq hbefore) (hdata'.cells_eq hafter)
  case copyBelow hbefore hafter =>
    exact .copyBelow (hdata.cells_eq hbefore) (hdata'.cells_eq hafter)
  case swap hbefore hafter => exact .swap (hdata.cells_eq hbefore) (hdata'.cells_eq hafter)
  case combine hbefore hafter hoperation =>
    exact .combine hoperation (hdata.cells_eq hbefore) (hdata'.cells_eq hafter)
  case jumpIfZero hbefore => exact .jumpIfZero (hdata.cells_eq_append hdata' [_] hbefore)
  case halt =>
    obtain rfl := hdata.unique hdata'
    exact .halt

namespace Core.Raised

theorem inBounds_eq (hraised : core.Raised lowerData lowerReturn higher) :
    higher.inBounds = core.inBounds := by
  rw [inBounds, inBounds, hraised.pc_eq, hraised.memory_eq]

theorem current?_eq (hraised : core.Raised lowerData lowerReturn higher) :
    higher.current? = core.current? := by
  rw [current?, current?, hraised.pc_eq, hraised.memory_eq]

theorem bounds?_eq (hraised : core.Raised lowerData lowerReturn higher) :
    higher.bounds? = core.bounds? := by
  rw [bounds?, bounds?, hraised.inBounds_eq, hraised.pc_eq]

/-- A step that the stacks do not refuse does not depend on what lies below them, if there is room
for what the step leaves there. -/
theorem step (hraised : core.Raised lowerData lowerReturn higher)
    (haccepted : ∀ fault ∈ core.step.fault?, fault.cause ≠ .stack)
    (hroom : core.step.core.HasRoom lowerData lowerReturn) :
    core.step.Raised lowerData lowerReturn higher.step := by
  cases core.stepCases with
  | halted hhalted hstep =>
    rw [hstep, step_of_halted (hraised.halted_eq.trans hhalted)]
    exact ⟨hraised, rfl, rfl⟩
  | outside hrunning houtside hstep =>
    rw [hstep, step_of_outside (hraised.halted_eq.trans hrunning)
      (hraised.inBounds_eq.trans houtside), hraised.pc_eq]
    exact ⟨hraised, rfl, rfl⟩
  | undecodable hrunning hinside hcurrent hstep =>
    rw [hstep, step_of_undecodable (hraised.halted_eq.trans hrunning)
      (hraised.inBounds_eq.trans hinside) (hraised.current?_eq.trans hcurrent), hraised.pc_eq,
      hraised.memory_eq]
    exact ⟨hraised, rfl, rfl⟩
  | refused _ _ _ _ hstep => simp [hstep] at haccepted
  | @moved event after hrunning hinside hcurrent heffect hstep =>
    rw [hstep] at hroom ⊢
    obtain ⟨above, habove⟩ := exists_raised_iff.mpr hroom
    rw [step_of_effect (hraised.halted_eq.trans hrunning) (hraised.inBounds_eq.trans hinside)
      (hraised.current?_eq.trans hcurrent) (heffect.raised hraised habove)]
    exact ⟨habove, rfl, habove.bounds?_eq⟩

/-- The frame rule. Take any number of steps of a core of which none is refused by the stacks, and
words for which there is room in every state on the way. On top of these words the core does the
same: all steps have the same result, the states on the way are the same but for the words, and the
words still lie below the stacks in every one of them. -/
theorem after_of_hasRoom {steps : Nat} (hraised : core.Raised lowerData lowerReturn higher)
    (haccepted : ∀ count < steps, ∀ fault ∈ (core.after count).step.fault?, fault.cause ≠ .stack)
    (hroom : ∀ count ≤ steps, (core.after count).HasRoom lowerData lowerReturn) :
    (∀ count ≤ steps, (core.after count).Raised lowerData lowerReturn (higher.after count)) ∧
      ∀ count < steps,
        (core.after count).step.Raised lowerData lowerReturn (higher.after count).step := by
  have hnext : ∀ count < steps,
      (core.after count).Raised lowerData lowerReturn (higher.after count) →
        (core.after count).step.Raised lowerData lowerReturn (higher.after count).step := by
    intro count hlt hbefore
    have hafter := hroom (count + 1) hlt
    rw [after_succ] at hafter
    exact hbefore.step (haccepted count hlt) hafter
  have hcores : ∀ count ≤ steps,
      (core.after count).Raised lowerData lowerReturn (higher.after count) := by
    intro count hle
    induction count with
    | zero => exact hraised
    | succ count ih =>
      rw [after_succ, after_succ]
      exact (hnext count hle (ih (Nat.le_of_succ_le hle))).core
  exact ⟨hcores, fun count hlt ↦ hnext count hlt (hcores count (Nat.le_of_lt hlt))⟩

/-- A call that doubles a number, with a number of the caller below it on each stack. -/
theorem after_of_hasRoom_calling :
    let memory : Memory := ⟨#[0xFF0D, 3, 0xFF0F, 0xFF04, 0xFF07, 0xFF0E]⟩
    let core : Core := ⟨{ Processor.ready with dataStack := .ofList [4] }, memory⟩
    let higher : Core :=
      ⟨{ Processor.ready with dataStack := .ofList [7, 4], returnStack := .ofList [9] }, memory⟩
    core.Raised [7] [9] higher ∧ (core.after 5).halted = true ∧
      (∀ count ≤ 5, (core.after count).Raised [7] [9] (higher.after count)) ∧
        ∀ count < 5, (core.after count).step.Raised [7] [9] (higher.after count).step := by
  intro memory core higher
  have hraised : core.Raised [7] [9] higher := ⟨rfl, rfl, rfl, rfl, rfl⟩
  exact ⟨hraised, by decide, hraised.after_of_hasRoom (by decide) (by decide)⟩

end Core.Raised

end Raised

end DualStack
