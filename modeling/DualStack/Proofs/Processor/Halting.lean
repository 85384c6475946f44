import DualStack.Proofs.Processor.StepCount

/-!
# Where executions come to rest

The halt instruction leaves the program counter where it is and nothing moves afterwards, so a
halted core stands at the instruction that halted it (`Core.HaltsInPlace`).

Executing a program, in whatever way, takes the core some steps further (`Core.Executed`). Unless
the last of them fails, the core has halted or its program counter lies within the memory: every
step that does not fail has looked where it went.
-/

set_option autoImplicit false
set_option relaxedAutoImplicit false

namespace DualStack

namespace Core

variable {core after : Core} {run : Run}

/-- A step finds an instruction to execute, whether or not the stacks accept it. -/
def Dispatches (core : Core) (instruction : Instruction) : Prop :=
  core.halted = false ∧ core.inBounds = true ∧ core.current? = some instruction

/-- If the core has halted, its program counter is at a halt instruction within the memory. -/
def HaltsInPlace (core : Core) : Prop :=
  core.halted = true → core.inBounds = true ∧ core.current? = some .halt

theorem haltsInPlace_of_running (hrunning : core.halted = false) : core.HaltsInPlace := by
  intro hhalted
  simp [hrunning] at hhalted

/-- The halt instruction stays in view when it takes effect. -/
theorem HaltsInPlace.of_effect {event : Event} (hrunning : core.halted = false)
    (hinside : core.inBounds = true) (hcurrent : core.current? = some event.instruction)
    (heffect : Effect core event after) : after.HaltsInPlace := by
  intro hhalted
  obtain ⟨rfl, hpc, hmemory⟩ := eq_halt_of_halted hrunning heffect hhalted
  exact ⟨by simpa [inBounds, hpc, hmemory] using hinside,
    by rwa [current?, hpc, hmemory]⟩

/-- A core that halts in place still does so after a step. -/
theorem HaltsInPlace.step (hplace : core.HaltsInPlace) : core.step.core.HaltsInPlace := by
  cases core.stepCases with
  | halted _ hstep => rwa [hstep]
  | outside hrunning _ hstep | undecodable hrunning _ _ hstep =>
    rw [hstep]
    exact haltsInPlace_of_running hrunning
  | refused hrunning _ _ _ hstep =>
    rw [hstep]
    exact haltsInPlace_of_running (by simpa using hrunning)
  | moved hrunning hinside hcurrent heffect hstep =>
    rw [hstep]
    exact .of_effect hrunning hinside hcurrent heffect

theorem size_step (core : Core) : core.step.core.memory.size = core.memory.size := by
  cases core.stepCases with
  | halted _ hstep | outside _ _ hstep | undecodable _ _ _ hstep => rw [hstep]
  | refused _ _ _ _ hstep => simp [hstep]
  | moved _ _ _ heffect hstep => rw [hstep, heffect.memory_eq, Event.size_onMemory]

/-! ### Executions -/

/-- What an execution of any kind has done to a core. -/
structure Executed (core : Core) (run : Run) : Prop where
  /-- It has taken the core some steps further. -/
  steps : ∃ count, run.core = core.after count
  /-- It has come to rest within the memory, unless it failed or the core has halted. -/
  rests : run.fault? = none → run.core.halted = true ∨ run.core.inBounds = true

/-- A step that does not fail comes to rest within the memory, unless the core has halted. -/
theorem rests_of_step (hclean : core.step.fault? = none) :
    core.step.core.halted = true ∨ core.step.core.inBounds = true := by
  cases hhalted : core.halted with
  | true =>
    rw [step_of_halted hhalted]
    exact .inl hhalted
  | false =>
    have hstep : core.step = ⟨core.step.core, core.step.event?, none⟩ := by
      rw [← hclean]
    obtain ⟨_, _, _, _, hinside⟩ := moved_of_step hhalted hstep
    exact .inr hinside

/-- An execution has come to rest within the memory if it could have done so where it starts. -/
theorem Took.executed {goesOn : Nat → Prop} {count : Nat} (htook : core.Took goesOn count run)
    (hstart : ¬ goesOn 0 → core.halted = true ∨ core.inBounds = true) : core.Executed run where
  steps := ⟨count, htook.traced.core_eq⟩
  rests := by
    intro hclean
    rw [htook.fault?_eq] at hclean
    rw [htook.traced.core_eq]
    cases count with
    | zero => exact hstart fun hon ↦ htook.takes.ended hon rfl
    | succ index =>
      rw [after_succ]
      exact rests_of_step hclean

end Core

end DualStack
