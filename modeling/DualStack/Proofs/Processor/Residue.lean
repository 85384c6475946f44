import DualStack.Proofs.Processor.Step

/-!
# What a step that fails leaves behind

Nothing is undone when a step fails, so what it leaves behind depends on how far it came. A step
that meets no instruction has not begun, and nothing has changed. An instruction that the stacks
refuse has moved neither the program counter nor the memory, but it may have popped a word that it
does not put back: the one operand of an instruction that needs two (`Instruction.LosesData`), or
the word that was to go to a full stack (`Instruction.LosesData`, `Instruction.LosesReturn`). The
instructions that look before they pop, `OVER` and `SWAP` among them, lose nothing. An instruction
that sends control out of the memory has taken effect all the same.

`Residue` says what a refused instruction leaves of the two stacks, and `residue_refused` that
`Core.refused` is no worse. `Core.failed_of_step` goes through the ways in which a step can fail.
-/

set_option autoImplicit false
set_option relaxedAutoImplicit false

namespace DualStack

/-! ### Lost words -/

namespace Stack

/-- A stack shows what lies below its top, and then the top if there is one. -/
theorem toList_below (stack : Stack) :
    stack.toList = stack.below.toList ++ stack.peek?.toList := by
  obtain ⟨cells, _⟩ := stack
  cases cells <;> simp [toList, below, peek?]

theorem toList_peek?_ne_nil {stack : Stack} : stack.peek?.toList ≠ [] ↔ 1 ≤ stack.depth := by
  obtain ⟨cells, _⟩ := stack
  cases cells <;> simp [peek?, depth]

end Stack

namespace Instruction

/-- The depths of data stack and return stack at which a refused instruction has lost the top of the
data stack. -/
def LosesData (data returns : Nat) : Instruction → Prop
  | store | add | sub | and | or | xor => data = 1
  | toReturn => 1 ≤ data ∧ returns = Stack.capacity
  | _ => False

/-- The depths of data stack and return stack at which a refused instruction has lost the top of the
return stack. -/
def LosesReturn (data returns : Nat) : Instruction → Prop
  | fromReturn => 1 ≤ returns ∧ data = Stack.capacity
  | _ => False

end Instruction

/-- What an instruction that is refused may change of a core: it loses the words `lostData` of the
data stack and `lostReturn` of the return stack, from the top, and they are one word at most. -/
structure Residue (before : Core) (instruction : Instruction) (lostData lostReturn : List Word)
    (after : Core) : Prop where
  pc_eq : after.pc = before.pc
  memory_eq : after.memory = before.memory
  dataStack_eq : before.dataStack.toList = after.dataStack.toList ++ lostData
  returnStack_eq : before.returnStack.toList = after.returnStack.toList ++ lostReturn
  length_le : lostData.length + lostReturn.length ≤ 1
  lostData_iff : lostData ≠ [] ↔
    instruction.LosesData before.dataStack.depth before.returnStack.depth
  lostReturn_iff : lostReturn ≠ [] ↔
    instruction.LosesReturn before.dataStack.depth before.returnStack.depth

section Refused

variable {core : Core} {instruction : Instruction}

/-- An instruction that is refused and leaves the core alone loses nothing. -/
theorem residue_self (hdata : ¬ instruction.LosesData core.dataStack.depth core.returnStack.depth)
    (hreturn : ¬ instruction.LosesReturn core.dataStack.depth core.returnStack.depth) :
    Residue core instruction [] [] core := by
  constructor <;> simp [hdata, hreturn]

/-- The top of the data stack is lost if there is one. -/
theorem residue_dataBelow
    (hdata : 1 ≤ core.dataStack.depth ↔
      instruction.LosesData core.dataStack.depth core.returnStack.depth)
    (hreturn : ¬ instruction.LosesReturn core.dataStack.depth core.returnStack.depth) :
    Residue core instruction core.dataStack.peek?.toList []
      { core with dataStack := core.dataStack.below } where
  pc_eq := rfl
  memory_eq := rfl
  dataStack_eq := core.dataStack.toList_below
  returnStack_eq := (List.append_nil _).symm
  length_le := Option.length_toList_le
  lostData_iff := Stack.toList_peek?_ne_nil.trans hdata
  lostReturn_iff := by simp [hreturn]

/-- The top of the return stack is lost if there is one. -/
theorem residue_returnBelow
    (hdata : ¬ instruction.LosesData core.dataStack.depth core.returnStack.depth)
    (hreturn : 1 ≤ core.returnStack.depth ↔
      instruction.LosesReturn core.dataStack.depth core.returnStack.depth) :
    Residue core instruction [] core.returnStack.peek?.toList
      { core with returnStack := core.returnStack.below } where
  pc_eq := rfl
  memory_eq := rfl
  dataStack_eq := (List.append_nil _).symm
  returnStack_eq := core.returnStack.toList_below
  length_le := by simp [Option.length_toList_le]
  lostData_iff := by simp [hdata]
  lostReturn_iff := Stack.toList_peek?_ne_nil.trans hreturn

/-- What a refused instruction leaves behind lacks one word at most, and lacks one only where the
instruction pops it before it is refused. -/
theorem residue_refused
    (hrefused : ¬ instruction.Accepts core.dataStack.depth core.returnStack.depth) :
    ∃ lostData lostReturn,
      Residue core instruction lostData lostReturn (core.refused instruction) := by
  have hdata : core.dataStack.depth ≤ Stack.capacity := core.dataStack.bounded
  have hreturns : core.returnStack.depth ≤ Stack.capacity := core.returnStack.bounded
  cases instruction
  case store | add | sub | and | or | xor | toReturn =>
    refine ⟨_, _, residue_dataBelow ?_ not_false⟩
    simp only [Instruction.Accepts, Instruction.LosesData] at hrefused ⊢
    omega
  case fromReturn =>
    refine ⟨_, _, residue_returnBelow not_false ?_⟩
    simp only [Instruction.Accepts, Instruction.LosesReturn] at hrefused ⊢
    omega
  all_goals exact ⟨_, _, residue_self not_false not_false⟩

end Refused

/-! ### The three kinds of failure -/

/-- What a step that fails with a fault may have made of a core. -/
structure Core.Failed (before : Core) (fault : Fault) (after : Core) : Prop where
  pc_eq : fault.pc = after.pc
  running : after.halted = false
  /-- A step that meets no instruction changes nothing. -/
  of_notAnOpcode : ∀ byte, fault.cause = .notAnOpcode byte → after = before
  /-- An instruction that the stacks refuse changes nothing but the stacks. -/
  of_stack : fault.cause = .stack → ∃ instruction lostData lostReturn,
    before.current? = some instruction ∧ Residue before instruction lostData lostReturn after
  /-- Outside the memory nothing happens, and an instruction that leads there has taken effect. -/
  of_pcOutOfBounds : fault.cause = .pcOutOfBounds →
    before.inBounds = false ∧ after = before ∨
      before.inBounds = true ∧ ∃ event, before.current? = some event.instruction ∧
        Effect before event after ∧ after.inBounds = false

/-- A step that fails leaves no more behind than its kind of failure allows. -/
theorem Core.failed_of_step {core after : Core} {event? : Option Event} {fault : Fault}
    (hstep : core.step = ⟨after, event?, some fault⟩) : Core.Failed core fault after := by
  cases core.stepCases with
  | halted _ hsame => simp [hsame] at hstep
  | outside hrunning houtside hsame =>
    obtain ⟨rfl, -, rfl⟩ : core = after ∧ none = event? ∧ _ = fault := by simpa [hsame] using hstep
    exact ⟨rfl, hrunning, nofun, nofun, fun _ ↦ .inl ⟨houtside, rfl⟩⟩
  | undecodable hrunning _ _ hsame =>
    obtain ⟨rfl, -, rfl⟩ : core = after ∧ none = event? ∧ _ = fault := by simpa [hsame] using hstep
    exact ⟨rfl, hrunning, fun _ _ ↦ rfl, nofun, nofun⟩
  | @refused instruction hrunning _ hcurrent hrefused hsame =>
    obtain ⟨rfl, -, rfl⟩ : core.refused instruction = after ∧ none = event? ∧ _ = fault := by
      simpa [hsame] using hstep
    obtain ⟨lostData, lostReturn, hresidue⟩ := residue_refused hrefused
    exact ⟨hresidue.pc_eq.symm, (halted_refused instruction).trans hrunning, nofun,
      fun _ ↦ ⟨instruction, lostData, lostReturn, hcurrent, hresidue⟩, nofun⟩
  | @moved event moved hrunning hinside hcurrent heffect hsame =>
    obtain ⟨rfl, -, hbounds⟩ : moved = after ∧ some event = event? ∧ moved.bounds? = some fault := by
      simpa [hsame] using hstep
    obtain ⟨houtside, rfl⟩ := bounds?_eq_some_iff.mp hbounds
    exact ⟨rfl, halted_of_leaves hrunning hinside heffect houtside, nofun, nofun,
      fun _ ↦ .inr ⟨hinside, event, hcurrent, heffect, houtside⟩⟩

/-- A sum that finds one operand loses it. -/
theorem Core.failed_of_step_adding :
    let core : Core := ⟨⟨1, false, .ofList [7], .ofList [3]⟩, ⟨#[0xFF0F, 0xFF07]⟩⟩
    let after : Core := { core with dataStack := .empty }
    core.step = ⟨after, none, some ⟨.stack, 1⟩⟩ ∧ core.Failed ⟨.stack, 1⟩ after := by
  intro core after
  have hstep : core.step = ⟨after, none, some ⟨.stack, 1⟩⟩ := by decide
  exact ⟨hstep, failed_of_step hstep⟩

end DualStack
