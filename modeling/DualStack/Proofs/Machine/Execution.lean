import DualStack.Machine
import DualStack.Proofs.Processor.Halting

/-!
# Commands that execute the program

Three of the commands execute steps of the program (`Machine.Command.steps`). They differ in how long
they go on (`Machine.Command.GoesOn`) and in the entry that a run to the end makes behind those for
its events (`Machine.Command.logOf`). Each of them takes a number of steps and concludes with what
these came to (`Machine.exists_took_of_perform`), so that whatever holds of all executions need not
be said of each command again.
-/

set_option autoImplicit false
set_option relaxedAutoImplicit false

namespace DualStack.Machine

/-- The commands that execute steps of the program. -/
def Command.steps : Command → Bool
  | .run | .stepInto | .stepOver => true
  | _ => false

theorem Command.ne_compile_of_steps {command : Command} (hsteps : command.steps = true) :
    command ≠ .compile := by
  rintro rfl
  simp [steps] at hsteps

/-- Whether a command goes on behind so many steps, if none of them has failed. -/
def Command.GoesOn (core : Core) : Command → Nat → Prop
  | .run, count => (core.after count).halted = false
  | .stepInto, count => count = 0
  | .stepOver, count => count = 0 ∨ (core.after count).halted = false ∧ 0 < core.openAfter count
  | _, _ => False

/-- What a command that executes the program has for the log when that is over. -/
def Command.logOf (run : Run) : Command → List Log.Entry
  | .run => Log.ofRun run
  | _ => Log.ofEvents run.events

variable {fuel : Nat} {machine : Machine} {command : Command} {reply : Reply}

/-! ### Conclusions -/

@[simp] theorem config_conclude (run : Run) (log : List Log.Entry) :
    (machine.conclude run log).machine.config = machine.config := by
  unfold conclude
  cases run.fault? <;> rfl

@[simp] theorem template?_conclude (run : Run) (log : List Log.Entry) :
    (machine.conclude run log).machine.template? = machine.template? := by
  unfold conclude
  cases run.fault? <;> rfl

@[simp] theorem core_conclude (run : Run) (log : List Log.Entry) :
    (machine.conclude run log).machine.core = run.core := by
  unfold conclude
  cases run.fault? <;> rfl

theorem failure?_conclude (run : Run) (log : List Log.Entry) :
    (machine.conclude run log).failure? = run.fault?.map fun fault ↦ .error (.execution fault) := by
  unfold conclude
  cases run.fault? <;> rfl

@[simp] theorem failure?_conclude_eq_none_iff (run : Run) (log : List Log.Entry) :
    (machine.conclude run log).failure? = none ↔ run.fault? = none := by
  unfold conclude
  cases run.fault? <;> simp

/-! ### Steps taken -/

/-- A command that executes the program takes a number of steps and concludes with what they came
to. -/
theorem exists_took_of_perform (hsteps : command.steps = true)
    (hreply : machine.perform fuel command = some reply) :
    ∃ count run, machine.core.Took (command.GoesOn machine.core) count run ∧
      reply = machine.conclude run (command.logOf run) := by
  cases command with
  | run =>
    obtain ⟨run, hrun, rfl⟩ := Option.map_eq_some_iff.mp hreply
    obtain ⟨count, htook⟩ := Core.took_of_run hrun
    exact ⟨count, run, htook, rfl⟩
  | stepInto =>
    have htook : machine.core.Took (Command.GoesOn machine.core .stepInto) 1
        machine.core.step.toRun := Core.took_one rfl fun hon ↦ absurd hon Nat.one_ne_zero
    exact ⟨1, _, htook, (Option.some.inj hreply).symm⟩
  | stepOver =>
    obtain ⟨run, hrun, rfl⟩ := Option.map_eq_some_iff.mp hreply
    obtain ⟨count, htook⟩ := Core.took_of_stepOver hrun
    exact ⟨count, run, htook, rfl⟩
  | setMemorySize _ | setLines _ | loadSource _ | compile | reset => simp [Command.steps] at hsteps

/-- What such a command comes to is an execution, since the command goes on at least until the core
has halted or a step has been taken. -/
theorem Command.executed_of_took {count : Nat} {core : Core} {run : Run}
    (hsteps : command.steps = true) (htook : core.Took (command.GoesOn core) count run) :
    core.Executed run := by
  refine htook.executed fun hstart ↦ ?_
  cases command with
  | run =>
    have hhalted : core.halted = true := by simpa [Command.GoesOn, Core.after] using hstart
    exact .inl hhalted
  | stepInto => exact absurd rfl hstart
  | stepOver => exact absurd (.inl rfl) hstart
  | setMemorySize _ | setLines _ | loadSource _ | compile | reset => simp [Command.steps] at hsteps

/-- A command that executes the program concludes with an execution. -/
theorem exists_conclude_of_perform (hsteps : command.steps = true)
    (hreply : machine.perform fuel command = some reply) :
    ∃ run log, machine.core.Executed run ∧ reply = machine.conclude run log := by
  obtain ⟨count, run, htook, rfl⟩ := exists_took_of_perform hsteps hreply
  exact ⟨run, _, Command.executed_of_took hsteps htook, rfl⟩

end DualStack.Machine
