import DualStack.Machine

/-!
# Traces

A trace watches a program step by step: after every step it takes down where the program stands and
how deep the stacks are (`Sample`). It ends with the first step that fails, at the halt flag, or
after a given number of steps.
-/

set_option autoImplicit false
set_option relaxedAutoImplicit false

namespace DualStack.Machine

/-- What is taken down after a step. -/
structure Sample where
  pc : Word
  dataDepth : Nat
  dataTop? : Option Word
  returnDepth : Nat
  deriving DecidableEq, Repr

/-- The sample of a machine. -/
def sample (machine : Machine) : Sample where
  pc := machine.core.pc
  dataDepth := machine.core.dataStack.depth
  dataTop? := machine.core.dataStack.peek?
  returnDepth := machine.core.returnStack.depth

/-- The steps of a trace: a sample for each of them, the failure that ended it if there was one, the
log of them all, and the machine afterwards. -/
structure Trace where
  machine : Machine
  samples : Array Sample
  failure? : Option Failure
  log : Array Log.Entry

namespace Trace

/-- The trace before the first step. -/
def start (machine : Machine) : Trace := ⟨machine, #[], none, #[]⟩

/-- Whether no step can follow. -/
def ended (trace : Trace) : Bool := trace.machine.core.halted || trace.failure?.isSome

/-- The trace with one step more. -/
def record (trace : Trace) (reply : Reply) : Trace where
  machine := reply.machine
  samples := trace.samples.push reply.machine.sample
  failure? := reply.failure?
  log := trace.log ++ reply.log

/-- Continues a trace by at most so many steps. -/
def extend (step : Machine → Option Reply) : Nat → Trace → Option Trace
  | 0, trace => some trace
  | count + 1, trace =>
    if trace.ended then some trace
    else
      match step trace.machine with
      | none => none
      | some reply => extend step count (trace.record reply)

end Trace

/-- Traces a machine that carries out the same command at most so many times. -/
def trace (fuel : Nat) (command : Command) (count : Nat) (machine : Machine) : Option Trace :=
  (Trace.start machine).extend (fun before ↦ before.perform fuel command) count

end DualStack.Machine
