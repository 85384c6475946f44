import DualStack.Assembly.Image
import DualStack.Config
import DualStack.Log
import DualStack.Memory.Cell
import DualStack.Text.Lines

/-!
# The machine

A machine holds everything that somebody writing and running a program works with: the
configuration, the source lines, the image of the last program that assembled (the template), the
core that executes it and the last error. `Machine.perform` carries out a command. Its reply is the
machine afterwards, what went wrong if anything did, and the log of what happened.

Assembling replaces the template and starts over from it; if the source does not assemble, nothing
changes but the last error. Starting over restores the memory from the template and empties the
processor. Commands that execute the program keep what it did, also when it failed. A run need not
end, so those commands take an amount of fuel, and a machine has no reply when it is used up.
-/

set_option autoImplicit false
set_option relaxedAutoImplicit false

namespace DualStack

/-- A machine with its source and its program. -/
structure Machine where
  config : Config
  /-- The source that the next assembly reads. -/
  lines : List String
  /-- The image of the last program that assembled. -/
  template? : Option Memory
  core : Core
  lastError? : Option Machine.Error
  deriving DecidableEq, Repr

namespace Machine

/-- A machine without source or program, whose memory is all zero. -/
def ofConfig (config : Config) : Machine :=
  ⟨config, [], none, ⟨.idle, .zeros config.memorySize⟩, none⟩

/-! ### What can be seen of a machine -/

/-- The program counter, once there is a program. -/
def pc? (machine : Machine) : Option Word := machine.template?.map fun _ ↦ machine.core.pc

/-- The memory the program works on. -/
def memory (machine : Machine) : Memory := machine.core.memory

/-- The cells of the memory that differ from the template, or from zero if there is no program, with
their addresses in ascending order. -/
def changes (machine : Machine) : List (Nat × Word) :=
  let start := machine.template?.getD ⟨#[]⟩
  (machine.memory.cells.toList.zipIdx.filter fun (cell, address) ↦
    cell != start.cells[address]?.getD 0).map fun (cell, address) ↦ (address, cell)

/-! ### Commands -/

/-- Something a machine is told to do. -/
inductive Command
  /-- Configure the size of the memory that the next assembly fills. -/
  | setMemorySize (memorySize : Nat)
  /-- Replace the source. -/
  | setLines (lines : List String)
  /-- Replace the source by the lines of a text, without the empty ones. -/
  | loadSource (source : String)
  /-- Assemble the source and start over with the new program. -/
  | compile
  /-- Start over with the same program. -/
  | reset
  /-- Execute the program to its end. -/
  | run
  /-- Execute one instruction. -/
  | stepInto
  /-- Execute one instruction, and at a call all that is called. -/
  | stepOver
  deriving DecidableEq, Repr

/-- Why a command was not carried out in full. -/
inductive Failure
  /-- The memory size is out of range. -/
  | config (refusal : Config.Error)
  /-- There is no program to start over with. -/
  | notCompiled
  /-- Assembly or execution met an error. -/
  | error (met : Machine.Error)
  deriving DecidableEq, Repr

/-- The wording of a failure. -/
def Failure.message : Failure → String
  | config refusal => refusal.message
  | notCompiled => "no program has been compiled"
  | error met => met.message

/-- What a command comes to: the machine afterwards, the failure if there was one, and the log of
what happened. -/
structure Reply where
  machine : Machine
  failure? : Option Failure
  log : List Log.Entry
  deriving DecidableEq, Repr

/-- The reply to a command that was carried out without anything to report. -/
def Reply.done (machine : Machine) : Reply := ⟨machine, none, []⟩

/-- Sets the memory size for the next assembly. -/
def setMemorySize (machine : Machine) (memorySize : Nat) : Reply :=
  match Config.ofSize? memorySize with
  | .ok config => .done { machine with config }
  | .error error => ⟨machine, some (.config error), []⟩

/-- Replaces the source by lines. -/
def setLines (machine : Machine) (lines : List String) : Machine := { machine with lines }

/-- Replaces the source by the lines of a text, without the empty ones. -/
def loadSource (machine : Machine) (source : String) : Machine :=
  machine.setLines ((Text.lines source).filter fun line ↦ !line.isEmpty)

/-- Makes a memory the template and starts over from it. -/
def install (machine : Machine) (template : Memory) : Machine :=
  { machine with template? := some template, core := ⟨.ready, template⟩ }

/-- Assembles the source and starts over with the new program. -/
def compile (machine : Machine) : Reply :=
  let outcome := Assembly.assemble (Assembly.tokenize machine.lines) machine.config.memorySize
  let notes := outcome.notes.toList.map Log.Entry.noted
  match outcome.result with
  | .ok template =>
    ⟨machine.install template, none, notes ++ [.compiled machine.lines.length template.size]⟩
  | .error error =>
    ⟨{ machine with lastError? := some (.assembly error) }, some (.error (.assembly error)),
      notes ++ [.failed (.assembly error)]⟩

/-- Starts over with the same program. -/
def reset (machine : Machine) : Reply :=
  match machine.template? with
  | some template => .done (machine.install template)
  | none => ⟨machine, some .notCompiled, []⟩

/-- Takes over what an execution came to, given its log. -/
def conclude (machine : Machine) (run : Run) (log : List Log.Entry) : Reply :=
  match run.fault? with
  | none => ⟨{ machine with core := run.core }, none, log⟩
  | some fault =>
    ⟨{ machine with core := run.core, lastError? := some (.execution fault) },
      some (.error (.execution fault)), log ++ [.failed (.execution fault)]⟩

/-- Executes the program to its end. -/
def run (fuel : Nat) (machine : Machine) : Option Reply :=
  (machine.core.run fuel).map fun run ↦ machine.conclude run (Log.ofRun run)

/-- Executes one instruction. -/
def stepInto (machine : Machine) : Reply :=
  let run := machine.core.step.toRun
  machine.conclude run (Log.ofEvents run.events)

/-- Executes one instruction, and at a call all that is called. -/
def stepOver (fuel : Nat) (machine : Machine) : Option Reply :=
  (machine.core.stepOver fuel).map fun run ↦ machine.conclude run (Log.ofEvents run.events)

/-- Carries out a command. -/
def perform (fuel : Nat) (machine : Machine) : Command → Option Reply
  | .setMemorySize memorySize => some (machine.setMemorySize memorySize)
  | .setLines lines => some (.done (machine.setLines lines))
  | .loadSource source => some (.done (machine.loadSource source))
  | .compile => some machine.compile
  | .reset => some machine.reset
  | .run => machine.run fuel
  | .stepInto => some machine.stepInto
  | .stepOver => machine.stepOver fuel

end Machine

end DualStack
