import DualStack.Proofs.Processor.Debugging

/-!
# Failing for good

A program is executed piece by piece or all at once (`Execution`). Nothing is undone when it fails,
so a second attempt may find a stack shorter than the first one did. It fails all the same: a core
left by a failure fails at every further step with the same fault (`Execution.fails_of_perform`),
and such a step moves neither the program counter nor the halt flag nor the memory
(`Core.unmoved_of_fails`).

`Execution.failure_permanent` carries this on through any number of attempts of any kind.
-/

set_option autoImplicit false
set_option relaxedAutoImplicit false

namespace DualStack

/-- One way to execute a program. -/
inductive Execution
  /-- Execute one piece of the program. -/
  | piece (call : Call)
  /-- Execute the program to its end. -/
  | toEnd
  deriving DecidableEq, Repr

/-- What an attempt comes to that changes nothing but the stacks of a core: it fails with a given
fault before any instruction takes effect. -/
structure Run.Unmoved (fault : Fault) (core : Core) (attempt : Run) : Prop where
  fault?_eq : attempt.fault? = some fault
  events_eq : attempt.events = #[]
  pc_eq : attempt.core.pc = core.pc
  halted_eq : attempt.core.halted = core.halted
  memory_eq : attempt.core.memory = core.memory

namespace Core

variable {core : Core} {fault : Fault} {fuel : Nat} {run : Run}

theorem running_of_fails (hfails : Fails fault core) : core.halted = false := by
  obtain ⟨again, hstep⟩ := hfails
  by_contra hhalted
  simp [step_of_halted (by simpa using hhalted)] at hstep

/-- A step of a core that fails for good moves nothing. -/
theorem unmoved_of_fails (hfails : Fails fault core) : core.step.toRun.Unmoved fault core := by
  obtain ⟨again, hfailed⟩ := hfails
  have hfault : core.step.fault? = some fault := by rw [hfailed]
  have hevent : core.step.event? = none := by rw [hfailed]
  have hsame : core.step.core.pc = core.pc ∧ core.step.core.halted = core.halted ∧
      core.step.core.memory = core.memory := by
    cases core.stepCases with
    | halted _ hstep => simp [hstep] at hfault
    | outside _ _ hstep => simp [hstep]
    | undecodable _ _ _ hstep => simp [hstep]
    | refused _ _ _ _ hstep => simp [hstep]
    | moved _ _ _ _ hstep => simp [hstep] at hevent
  exact ⟨hfault, by simp [Transition.toRun, hevent], hsame.1, hsame.2.1, hsame.2.2⟩

/-- A step over that fails leaves a core that fails for good. -/
theorem fails_of_stepOver (hrun : core.stepOver fuel = some run)
    (hfault : run.fault? = some fault) : Fails fault run.core := by
  cases stepOverCases hrun with
  | @failed after event? met hstep =>
    obtain rfl : met = fault := by simpa [hstep, Transition.toRun] using hfault
    rw [hstep]
    exact fails_of_step hstep
  | followed _ hrest =>
    have hfails := fails_of_advance hrest hfault
    exact hfails

end Core

namespace Execution

/-- Executes a program in one of the ways. -/
def perform (fuel : Nat) (core : Core) : Execution → Option Run
  | piece call => call.perform fuel core
  | toEnd => core.run fuel

/-- Makes one attempt after the other, each on the core that the one before left. -/
def performAll (fuel : Nat) (core : Core) : List Execution → Option (List Run)
  | [] => some []
  | execution :: executions =>
    (execution.perform fuel core).bind fun run ↦
      (performAll fuel run.core executions).map (run :: ·)

variable {core : Core} {fault : Fault} {fuel : Nat} {run : Run}

/-- A core left by a failure fails for good. -/
theorem fails_of_perform {execution : Execution} (hrun : execution.perform fuel core = some run)
    (hfault : run.fault? = some fault) : Core.Fails fault run.core := by
  cases execution with
  | toEnd => exact Core.fails_of_advance hrun hfault
  | piece call =>
    cases call with
    | stepOver => exact Core.fails_of_stepOver hrun hfault
    | stepInto =>
      obtain rfl : core.step.toRun = run := Option.some.inj hrun
      have hstep : core.step = ⟨core.step.core, core.step.event?, some fault⟩ := by
        rw [← hfault]
        rfl
      exact Core.fails_of_step hstep

/-- On a core that fails for good every attempt is a step that fails, however much fuel there is. -/
theorem perform_of_fails (execution : Execution) (fuel : Nat) (hfails : Core.Fails fault core) :
    execution.perform (fuel + 1) core = some core.step.toRun := by
  have hrunning := Core.running_of_fails hfails
  obtain ⟨again, hstep⟩ := hfails
  cases execution with
  | toEnd =>
    exact Core.advance_of_fault (Core.untilHalted_of_running hrunning) hstep
  | piece call =>
    cases call with
    | stepInto => rfl
    | stepOver => exact Core.stepOver_of_fault hstep

/-- On a core that fails for good all attempts fail alike. -/
theorem performAll_unmoved (executions : List Execution) (fuel : Nat)
    (hfails : Core.Fails fault core) :
    ∃ attempts, performAll (fuel + 1) core executions = some attempts ∧
      attempts.length = executions.length ∧
        ∀ attempt ∈ attempts, attempt.Unmoved fault core := by
  induction executions generalizing core with
  | nil => exact ⟨[], rfl, rfl, by simp⟩
  | cons execution executions ih =>
    have hfirst := perform_of_fails execution fuel hfails
    have hunmoved := Core.unmoved_of_fails hfails
    have hagain := fails_of_perform hfirst hunmoved.fault?_eq
    obtain ⟨attempts, hattempts, hlength, hall⟩ := ih hagain
    refine ⟨core.step.toRun :: attempts, by simp [performAll, hfirst, hattempts],
      by simpa using hlength, List.forall_mem_cons.mpr ⟨hunmoved, ?_⟩⟩
    intro attempt hmem
    have hlater := hall attempt hmem
    exact ⟨hlater.fault?_eq, hlater.events_eq, hlater.pc_eq.trans hunmoved.pc_eq,
      hlater.halted_eq.trans hunmoved.halted_eq, hlater.memory_eq.trans hunmoved.memory_eq⟩

/-- Once the execution of a program has failed, every further attempt fails. Whatever the first
attempt was and whatever attempts follow, each of them comes to an end, has the fault of the first
one, and leaves the program counter, the halt flag and the memory as the first one left them. -/
theorem failure_permanent {execution : Execution} (hrun : execution.perform fuel core = some run)
    (hfault : run.fault? = some fault) (further : List Execution) (more : Nat) :
    ∃ attempts, performAll (more + 1) run.core further = some attempts ∧
      attempts.length = further.length ∧
        ∀ attempt ∈ attempts, attempt.Unmoved fault run.core :=
  performAll_unmoved further more (fails_of_perform hrun hfault)

/-- A sum that lacks an operand loses the other one, and fails again in every way. -/
theorem failure_permanent_of_sum :
    let core : Core := ⟨.ready, ⟨#[0xFF00, 7, 0xFF07, 0xFF0F]⟩⟩
    let run : Run := ⟨{ core with pc := 2 }, #[.lit 7], some ⟨.stack, 2⟩⟩
    let further : List Execution := [.piece .stepOver, .toEnd, .piece .stepInto]
    toEnd.perform 2 core = some run ∧ run.fault? = some ⟨.stack, 2⟩ ∧
      ∃ attempts, performAll 1 run.core further = some attempts ∧
        attempts.length = further.length ∧
          ∀ attempt ∈ attempts, attempt.Unmoved ⟨.stack, 2⟩ run.core := by
  intro core run further
  have hrun : toEnd.perform 2 core = some run := by decide
  exact ⟨hrun, rfl, failure_permanent hrun rfl further 0⟩

end Execution

end DualStack
