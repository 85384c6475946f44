import DualStack.Assembly.Note
import DualStack.Machine.Error
import DualStack.Processor.Run

/-!
# The log

Everything of note that happens is an entry of the log, in order. An entry has a level, by its kind,
and a text; a line of the log is both (`Log.Entry.line`).
-/

set_option autoImplicit false
set_option relaxedAutoImplicit false

namespace DualStack.Log

/-- How much attention an entry deserves. -/
inductive Level
  | debug
  | info
  | warn
  deriving DecidableEq, Repr

/-- The name of a level. -/
def Level.name : Level → String
  | debug => "DEBUG"
  | info => "INFO"
  | warn => "WARN"

/-- Something that happened. -/
inductive Entry
  /-- An assembly took a note. -/
  | noted (note : Assembly.Note)
  /-- Source of so many lines was assembled into a memory of so many cells. -/
  | compiled (lines cells : Nat)
  /-- An instruction took effect. -/
  | performed (event : Event)
  /-- A run came to the end of the program. -/
  | halted (pc : Word) (data : List Word)
  /-- A machine met an error. -/
  | failed (error : Machine.Error)
  /-- A line of a memory listing was asked for. -/
  | listed (line : String)
  deriving DecidableEq, Repr

namespace Entry

/-- The level of an entry. -/
def level : Entry → Level
  | noted _ | performed _ => .debug
  | compiled _ _ | halted _ _ | listed _ => .info
  | failed _ => .warn

/-- The text of an entry. -/
def text : Entry → String
  | noted note => note.text
  | compiled lines cells =>
    "Compiled " ++ toString lines ++ " lines into " ++ toString cells ++ " cells"
  | performed event => event.text
  | halted pc data =>
    "Program halted at " ++ Text.hexadecimal pc.toNat ++ ". Data stack: [" ++
      ", ".intercalate (data.map fun word ↦ toString word.toNat) ++ "]"
  | failed error => error.message
  | listed line => line

/-- The line of the log for an entry. -/
def line (entry : Entry) : String := entry.level.name ++ " " ++ entry.text

end Entry

/-- The entries for events. -/
def ofEvents (events : Array Event) : List Entry := events.toList.map Entry.performed

/-- The entries for a run that was to go on to the end of the program. The end is worth an entry of
its own; it is missing if a fault came first. -/
def ofRun (run : Run) : List Entry :=
  ofEvents run.events ++
    if run.fault?.isSome then [] else [.halted run.core.pc run.core.dataStack.toList]

end DualStack.Log
