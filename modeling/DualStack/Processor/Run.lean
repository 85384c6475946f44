import DualStack.Processor.Perform

/-!
# Running programs

A step executes the instruction at the program counter (`Core.step`). A halted core does not move.
The program counter must lie within the memory before the step and again after it; a program that
leaves the memory with its last instruction has still executed it, and so the step reports the event
as well as the fault.

A run is a row of steps up to the first fault (`Run`). How far it goes is decided before each step
by a rule that may carry a count along (`Core.advance`). Running to the end (`Core.run`) stops at
the halt flag. Stepping over (`Core.stepOver`) takes one step and, if that was a call, goes on until
as many exits as calls were met. Runs need not end, so both are given an amount of fuel, one unit
for each look at the rule; the answer `none` says that it was used up.
-/

set_option autoImplicit false
set_option relaxedAutoImplicit false

namespace DualStack

/-- What one step comes to: the core after it, the event if an instruction took effect, and the
fault if there was one. -/
structure Transition where
  core : Core
  event? : Option Event
  fault? : Option Fault
  deriving DecidableEq, Repr

/-- What a row of steps comes to: the core after it, the events in order, and the fault that ended
it if there was one. -/
structure Run where
  core : Core
  events : Array Event
  fault? : Option Fault
  deriving DecidableEq, Repr

/-- A row of one step. -/
def Transition.toRun (transition : Transition) : Run :=
  ⟨transition.core, transition.event?.toList.toArray, transition.fault?⟩

namespace Core

/-- The fault of a program counter outside the memory. -/
def bounds? (core : Core) : Option Fault :=
  if core.inBounds then none else some ⟨.pcOutOfBounds, core.pc⟩

/-- Executes a given instruction, whatever the memory holds at the program counter. -/
def execute (core : Core) (instruction : Instruction) : Transition :=
  match Exec.perform instruction core with
  | .ok event after => ⟨after, some event, none⟩
  | .error fault after => ⟨after, none, some fault⟩

/-- Executes the instruction at the program counter of a core that is not halted. -/
def step (core : Core) : Transition :=
  if core.halted then ⟨core, none, none⟩
  else
    match core.bounds?, core.current? with
    | some fault, _ => ⟨core, none, some fault⟩
    | none, none =>
      ⟨core, none, some ⟨.notAnOpcode (Word.lowByte (core.memory.read core.pc)), core.pc⟩⟩
    | none, some instruction =>
      let done := core.execute instruction
      { done with fault? := done.fault?.or done.core.bounds? }

/-- A halted core does not move. -/
theorem step_of_halted {core : Core} (hhalted : core.halted = true) :
    core.step = ⟨core, none, none⟩ := by
  simp [step, hhalted]

/-- The events of a row of steps with those of one step more. -/
def record (events : Array Event) (event? : Option Event) : Array Event :=
  event?.elim events events.push

/-- Steps as long as the rule answers, from a core with the events so far behind it. The rule sees
the core and what it answered last. -/
def advance {α : Type} (rule : α → Core → Option α) :
    Nat → α → Array Event → Core → Option Run
  | 0, _, _, _ => none
  | fuel + 1, watch, events, core =>
    match rule watch core with
    | none => some ⟨core, events, none⟩
    | some following =>
      match core.step with
      | ⟨after, event?, some fault⟩ => some ⟨after, record events event?, some fault⟩
      | ⟨after, event?, none⟩ => advance rule fuel following (record events event?) after

/-- A row of steps that came to its end comes to the same end with more fuel. -/
theorem advance_of_le {α : Type} {rule : α → Core → Option α} {fuel more : Nat} {watch : α}
    {events : Array Event} {core : Core} {run : Run} (hle : fuel ≤ more)
    (hrun : core.advance rule fuel watch events = some run) :
    core.advance rule more watch events = some run := by
  induction fuel generalizing more watch events core with
  | zero => simp [advance] at hrun
  | succ fuel ih =>
    obtain ⟨more, rfl⟩ : ∃ lower, more = lower + 1 := ⟨more - 1, by omega⟩
    unfold advance at hrun ⊢
    split at hrun
    · exact hrun
    · split at hrun
      · exact hrun
      · exact ih (by omega) hrun

/-- The rule of a run to the end: go on until the halt flag is set. -/
def untilHalted (_ : Unit) (core : Core) : Option Unit := if core.halted then none else some ()

/-- Runs to the end of the program or to the first fault. -/
def run (fuel : Nat) (core : Core) : Option Run := advance untilHalted fuel () #[] core

/-- How many calls are open once the instruction at the program counter is executed, if `depth`
calls are open before. -/
def openCalls (depth : Nat) (core : Core) : Nat :=
  match core.current? with
  | some .call => depth + 1
  | some .exit => depth - 1
  | _ => depth

/-- The rule of stepping over: go on while a call is open and the halt flag is not set. -/
def untilReturned (depth : Nat) (core : Core) : Option Nat :=
  if core.halted || depth == 0 then none else some (core.openCalls depth)

/-- Takes one step or, at a call, all the steps up to the return from it. -/
def stepOver (fuel : Nat) (core : Core) : Option Run :=
  let depth := if core.current? = some .call then 1 else 0
  let first := core.step.toRun
  if first.fault?.isSome then some first
  else advance untilReturned fuel depth first.events first.core

/-- A step over that comes to its end comes to the same end with more fuel. -/
theorem stepOver_of_le {fuel more : Nat} {core : Core} {run : Run} (hle : fuel ≤ more)
    (hrun : core.stepOver fuel = some run) : core.stepOver more = some run := by
  unfold stepOver at hrun ⊢
  dsimp only at hrun ⊢
  split at hrun
  · next hfailed => rwa [if_pos hfailed]
  · next hclean =>
    rw [if_neg hclean]
    exact advance_of_le hle hrun

end Core

end DualStack
