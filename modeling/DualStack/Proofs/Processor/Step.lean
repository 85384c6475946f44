import DualStack.Processor.Run
import DualStack.Proofs.Processor.Effect

/-!
# What a step can do

A step does one of five things (`Core.StepCases`): nothing, because the core is halted; it fails
before any instruction is read, because the program counter lies outside the memory or because the
cell there is no instruction; the instruction is refused by the stacks; or the instruction takes
effect, and the step fails all the same if control has left the memory.

A step that fails leaves a core behind on which the next step fails in the same way
(`Core.step_fails_again`), because no failure moves the program counter, writes to the memory or
makes a refused instruction acceptable.
-/

set_option autoImplicit false
set_option relaxedAutoImplicit false

namespace DualStack

theorem Event.size_onMemory (event : Event) (memory : Memory) :
    (event.onMemory memory).size = memory.size := by
  cases event <;> simp [Event.onMemory]

namespace Core

variable {core after : Core}

theorem bounds?_eq_none_iff : core.bounds? = none ↔ core.inBounds = true := by
  simp [bounds?]

theorem bounds?_eq_some_iff {fault : Fault} :
    core.bounds? = some fault ↔ core.inBounds = false ∧ fault = ⟨.pcOutOfBounds, core.pc⟩ := by
  by_cases hinside : core.inBounds = true <;> simp [bounds?, hinside, eq_comm]

theorem toNat_pc_lt (hinside : core.inBounds = true) : core.pc.toNat < core.memory.size := by
  simpa [inBounds] using hinside

theorem read_of_not_inBounds (houtside : core.inBounds = false) :
    core.memory.read core.pc = 0 := by
  have hpc : core.memory.size ≤ core.pc.toNat := Nat.not_lt.mp (of_decide_eq_false houtside)
  exact Memory.read_of_size_le hpc

/-- There is no instruction outside the memory. -/
theorem inBounds_of_current {instruction : Instruction}
    (hcurrent : core.current? = some instruction) : core.inBounds = true := by
  by_contra houtside
  rw [current?, read_of_not_inBounds (by simpa using houtside)] at hcurrent
  exact absurd hcurrent (by cases instruction <;> decide)

@[simp] theorem pc_refused (instruction : Instruction) :
    (core.refused instruction).pc = core.pc := by
  cases instruction <;> rfl

@[simp] theorem halted_refused (instruction : Instruction) :
    (core.refused instruction).halted = core.halted := by
  cases instruction <;> rfl

@[simp] theorem memory_refused (instruction : Instruction) :
    (core.refused instruction).memory = core.memory := by
  cases instruction <;> rfl

theorem step_of_outside (hrunning : core.halted = false) (houtside : core.inBounds = false) :
    core.step = ⟨core, none, some ⟨.pcOutOfBounds, core.pc⟩⟩ := by
  simp [step, hrunning, bounds?, houtside]

theorem step_of_undecodable (hrunning : core.halted = false) (hinside : core.inBounds = true)
    (hcurrent : core.current? = none) :
    core.step =
      ⟨core, none, some ⟨.notAnOpcode (Word.lowByte (core.memory.read core.pc)), core.pc⟩⟩ := by
  simp [step, hrunning, bounds?, hinside, hcurrent]

/-- The step that executes an instruction within the memory. -/
theorem step_of_current {instruction : Instruction} (hrunning : core.halted = false)
    (hinside : core.inBounds = true) (hcurrent : core.current? = some instruction) :
    core.step = { core.execute instruction with
      fault? := (core.execute instruction).fault?.or
        (core.execute instruction).core.bounds? } := by
  simp [step, hrunning, bounds?, hinside, hcurrent]

/-- The five things a step can do. -/
inductive StepCases (core : Core) : Prop
  | halted (hhalted : core.halted = true) (hstep : core.step = ⟨core, none, none⟩)
  | outside (hrunning : core.halted = false) (houtside : core.inBounds = false)
      (hstep : core.step = ⟨core, none, some ⟨.pcOutOfBounds, core.pc⟩⟩)
  | undecodable (hrunning : core.halted = false) (hinside : core.inBounds = true)
      (hcurrent : core.current? = none)
      (hstep : core.step =
        ⟨core, none, some ⟨.notAnOpcode (Word.lowByte (core.memory.read core.pc)), core.pc⟩⟩)
  | refused {instruction : Instruction} (hrunning : core.halted = false)
      (hinside : core.inBounds = true) (hcurrent : core.current? = some instruction)
      (hrefused : ¬ instruction.Accepts core.dataStack.depth core.returnStack.depth)
      (hstep : core.step = ⟨core.refused instruction, none, some ⟨.stack, core.pc⟩⟩)
  | moved {event : Event} {after : Core} (hrunning : core.halted = false)
      (hinside : core.inBounds = true) (hcurrent : core.current? = some event.instruction)
      (heffect : Effect core event after) (hstep : core.step = ⟨after, some event, after.bounds?⟩)

/-- A step does one of the five things. -/
theorem stepCases (core : Core) : StepCases core := by
  cases hhalted : core.halted with
  | true => exact .halted hhalted (step_of_halted hhalted)
  | false =>
    cases hinside : core.inBounds with
    | false => exact .outside hhalted hinside (step_of_outside hhalted hinside)
    | true =>
      cases hcurrent : core.current? with
      | none =>
        exact .undecodable hhalted hinside hcurrent (step_of_undecodable hhalted hinside hcurrent)
      | some instruction =>
        have hstep := step_of_current hhalted hinside hcurrent
        cases hperform : Exec.perform instruction core with
        | ok event after =>
          obtain ⟨rfl, heffect⟩ := Exec.effect_of_perform hperform
          exact .moved hhalted hinside hcurrent heffect (by rw [hstep, execute, hperform]; rfl)
        | error fault after =>
          obtain ⟨hrefused, rfl, rfl⟩ := Exec.perform_eq_error hperform
          exact .refused hhalted hinside hcurrent hrefused (by rw [hstep, execute, hperform]; rfl)

/-- The one instruction that halts a core leaves it where it was. -/
theorem eq_halt_of_halted {event : Event} (hrunning : core.halted = false)
    (heffect : Effect core event after) (hhalted : after.halted = true) :
    event = .halt ∧ after.pc = core.pc ∧ after.memory = core.memory := by
  have hinstruction : event.instruction = .halt := by
    simpa [heffect.halted_eq, hrunning] using hhalted
  obtain rfl : event = .halt := by cases event <;> simp_all [Event.instruction]
  exact ⟨rfl, heffect.pc_eq.trans (UInt16.add_zero core.pc), heffect.memory_eq⟩

/-- An instruction that sends control out of the memory does not set the halt flag. -/
theorem halted_of_leaves {event : Event} (hrunning : core.halted = false)
    (hinside : core.inBounds = true) (heffect : Effect core event after)
    (houtside : after.inBounds = false) : after.halted = false := by
  by_contra hhalted
  obtain ⟨-, hpc, hmemory⟩ := eq_halt_of_halted hrunning heffect (by simpa using hhalted)
  have hsame : after.inBounds = core.inBounds := by rw [inBounds, inBounds, hpc, hmemory]
  simp [hsame, hinside] at houtside

/-- A step that fails fails again, with the same fault, and nothing moves but what a stack loses. -/
theorem step_fails_again {event? : Option Event} {fault : Fault}
    (hstep : core.step = ⟨after, event?, some fault⟩) :
    after.halted = false ∧ ∃ again : Core, after.step = ⟨again, none, some fault⟩ ∧
      again.pc = after.pc ∧ again.halted = after.halted ∧ again.memory = after.memory := by
  cases core.stepCases with
  | halted hhalted hsame => simp [hsame] at hstep
  | outside hrunning _ hsame =>
    obtain ⟨rfl, rfl, rfl⟩ : core = after ∧ none = event? ∧ _ = fault := by
      simpa [hsame] using hstep
    exact ⟨hrunning, core, hsame, rfl, rfl, rfl⟩
  | undecodable hrunning _ _ hsame =>
    obtain ⟨rfl, rfl, rfl⟩ : core = after ∧ none = event? ∧ _ = fault := by
      simpa [hsame] using hstep
    exact ⟨hrunning, core, hsame, rfl, rfl, rfl⟩
  | @refused instruction hrunning hinside hcurrent hrefused hsame =>
    obtain ⟨rfl, rfl, rfl⟩ : core.refused instruction = after ∧ none = event? ∧ _ = fault := by
      simpa [hsame] using hstep
    refine ⟨by simpa using hrunning, (core.refused instruction).refused instruction, ?_, by simp⟩
    have hcurrent' : (core.refused instruction).current? = some instruction := by
      simpa [current?] using hcurrent
    have hagain := Exec.not_accepts_refused hrefused
    cases (core.refused instruction).stepCases with
    | halted hhalted => simp [hrunning] at hhalted
    | outside _ houtside => simp_all [inBounds]
    | undecodable _ _ hnone => simp [hcurrent'] at hnone
    | refused _ _ hsome _ hsame' =>
      obtain rfl : instruction = _ := by simpa [hcurrent'] using hsome
      simpa using hsame'
    | moved _ _ hsome heffect =>
      obtain rfl : instruction = _ := by simpa [hcurrent'] using hsome
      exact absurd (Exec.accepts_of_effect heffect) hagain
  | @moved event moved hrunning hinside hcurrent heffect hsame =>
    obtain ⟨rfl, rfl, hbounds⟩ :
        moved = after ∧ some event = event? ∧ moved.bounds? = some fault := by
      simpa [hsame] using hstep
    obtain ⟨houtside, rfl⟩ := bounds?_eq_some_iff.mp hbounds
    have hrunning' := halted_of_leaves hrunning hinside heffect houtside
    refine ⟨hrunning', moved, ?_, rfl, rfl, rfl⟩
    simp [step, hrunning', hbounds]

/-- A step without a fault on a core that is not halted executes an instruction and stays within
the memory. -/
theorem moved_of_step {event? : Option Event} (hrunning : core.halted = false)
    (hstep : core.step = ⟨after, event?, none⟩) :
    ∃ event, event? = some event ∧ core.current? = some event.instruction ∧
      Effect core event after ∧ after.inBounds = true := by
  cases core.stepCases with
  | halted hhalted => simp [hrunning] at hhalted
  | outside _ _ hsame => simp [hsame] at hstep
  | undecodable _ _ _ hsame => simp [hsame] at hstep
  | refused _ _ _ _ hsame => simp [hsame] at hstep
  | @moved event moved _ _ hcurrent heffect hsame =>
    obtain ⟨rfl, rfl, hbounds⟩ : moved = after ∧ some event = event? ∧ moved.bounds? = none := by
      simpa [hsame] using hstep
    exact ⟨event, rfl, hcurrent, heffect, bounds?_eq_none_iff.mp hbounds⟩

end Core

end DualStack
