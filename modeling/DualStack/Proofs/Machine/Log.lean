import DualStack.Proofs.Machine.Execution
import DualStack.Proofs.Processor.Applied
import Mathlib.Data.List.Forall2

/-!
# The log as a trace

A command that executes the program goes on for a number of steps, which depends on the command
(`Command.GoesOn`). Its log has two parts. The first one has an entry for each instruction that one
of these steps applied, in order, and none for anything else; the text of the entry begins with the
mnemonic (`Log.Entry.Reports`). The second one says how the command ended (`Reply.closing`): with a
warning if it failed, and otherwise with an entry for the end of the program if the command was to
run to it. `Machine.logsFaithfully_of_perform` states this of every such command that has a reply.
-/

set_option autoImplicit false
set_option relaxedAutoImplicit false

namespace DualStack

/-! ### Entries -/

namespace Log

/-- What a reader of the log sees of an entry. -/
def Entry.shown (entry : Entry) : Level × String := (entry.level, entry.text)

/-- An entry for an instruction that took effect: it has the lowest level, and its text begins with
the mnemonic as a word of its own. -/
structure Entry.Reports (entry : Entry) (instruction : Instruction) : Prop where
  level_eq : entry.level = .debug
  begins : ∃ details, entry.text = instruction.mnemonic ++ details ∧
    ∀ next ∈ details.toList.head?, next = ' '

/-- A blank parts the mnemonic from what follows it. -/
theorem head_details (event : Event) : ∀ next ∈ event.details.toList.head?, next = ' ' := by
  cases event <;> simp [Event.details]

/-- The entries for events report their instructions. -/
theorem reports_ofEvents (events : Array Event) :
    List.Forall₂ Entry.Reports (ofEvents events) (events.toList.map Event.instruction) := by
  rw [ofEvents, List.forall₂_map_left_iff, List.forall₂_map_right_iff, List.forall₂_same]
  exact fun event _ ↦ ⟨rfl, event.details, rfl, head_details event⟩

end Log

namespace Machine

variable {machine : Machine} {fuel : Nat} {command : Command} {reply : Reply}

/-- How the log of a command that executes the program ends. -/
def Reply.closing (reply : Reply) (command : Command) : List (Log.Level × String) :=
  match reply.failure? with
  | some failure => [(.warn, failure.message)]
  | none =>
    if command = .run then
      [(.info, "Program halted at " ++ Text.hexadecimal reply.machine.core.pc.toNat ++
        ". Data stack: [" ++ ", ".intercalate (reply.machine.core.dataStack.toList.map fun word ↦
          toString word.toNat) ++ "]")]
    else []

/-- How the log of a command that executes the program reflects what it did: it took `count` steps,
which applied `instructions`, and `performed` is the part of the log about them. -/
structure LogsFaithfully (machine : Machine) (command : Command) (reply : Reply) (count : Nat)
    (instructions : List Instruction) (performed : List Log.Entry) : Prop where
  takes : machine.core.Takes (command.GoesOn machine.core) count
  core_eq : reply.machine.core = machine.core.after count
  failure?_eq : reply.failure? =
    (machine.core.lastFault? count).map fun fault ↦ .error (.execution fault)
  applied : machine.core.AppliesAll count instructions
  reports : List.Forall₂ Log.Entry.Reports performed instructions
  log_eq : ∃ closing, reply.log = performed ++ closing ∧
    closing.map Log.Entry.shown = reply.closing command
  /-- An instruction that the last step found but did not apply is not reported. -/
  refused : ∀ index instruction, count = index + 1 →
    (machine.core.after index).Dispatches instruction →
    ¬ (machine.core.after index).Applies instruction →
    machine.core.AppliesAll index instructions ∧
      reply.failure? = some (.error (.execution ⟨.stack, reply.machine.core.pc⟩))
  /-- An instruction that was applied but led out of the memory is reported before the warning. -/
  left : ∀ index instruction, count = index + 1 →
    (machine.core.after index).Applies instruction → reply.machine.core.inBounds = false →
    (∃ earlier entry, performed = earlier ++ [entry] ∧ entry.Reports instruction) ∧
      reply.failure? = some (.error (.execution ⟨.pcOutOfBounds, reply.machine.core.pc⟩))

/-- What the log of a command has behind the entries for events is its closing. -/
theorem exists_closing (command : Command) (run : Run) :
    ∃ closing, (machine.conclude run (command.logOf run)).log =
        Log.ofEvents run.events ++ closing ∧
      closing.map Log.Entry.shown =
        (machine.conclude run (command.logOf run)).closing command := by
  unfold conclude
  cases command with
  | run =>
    simp only [Command.logOf, Log.ofRun]
    cases run.fault? with
    | none => exact ⟨_, rfl, rfl⟩
    | some fault => exact ⟨[.failed (.execution fault)], by simp, rfl⟩
  | _ =>
    simp only [Command.logOf]
    cases run.fault? with
    | none => exact ⟨[], by simp, by simp [Reply.closing]⟩
    | some fault => exact ⟨_, rfl, rfl⟩

/-- Every command that executes the program, from whatever state, logs faithfully what it did. -/
theorem logsFaithfully_of_perform (hsteps : command.steps = true)
    (hreply : machine.perform fuel command = some reply) :
    ∃ count instructions performed,
      LogsFaithfully machine command reply count instructions performed := by
  obtain ⟨count, run, htook, rfl⟩ := exists_took_of_perform hsteps hreply
  have hevents := htook.traced.events_eq
  have hafter : (machine.conclude run (command.logOf run)).machine.core =
      machine.core.after count := by
    rw [core_conclude, htook.traced.core_eq]
  have hfault : (machine.conclude run (command.logOf run)).failure? =
      (machine.core.lastFault? count).map fun fault ↦ .error (.execution fault) := by
    rw [failure?_conclude, htook.fault?_eq]
  refine ⟨count, run.events.toList.map Event.instruction, Log.ofEvents run.events, ?_⟩
  constructor
  case takes => exact htook.takes
  case core_eq => exact hafter
  case failure?_eq => exact hfault
  case applied => exact hevents ▸ Core.appliesAll_eventsOf count machine.core
  case reports => exact Log.reports_ofEvents run.events
  case log_eq => exact exists_closing command run
  case refused =>
    rintro index instruction rfl hdispatches hnot
    have hstep := Core.step_of_not_applies hdispatches hnot
    constructor
    · rw [hevents, Core.eventsOf_succ, hstep]
      simpa using Core.appliesAll_eventsOf index machine.core
    · rw [hfault, hafter, Core.lastFault?, Core.after_succ, hstep]
      simp
  case left =>
    rintro index instruction rfl happlies houtside
    obtain ⟨event, rfl, hstep⟩ := happlies.exists_step
    constructor
    · refine ⟨(machine.core.eventsOf index).map .performed, .performed event, ?_,
        rfl, event.details, rfl, Log.head_details event⟩
      rw [Log.ofEvents, hevents, Core.eventsOf_succ, hstep]
      simp
    · rw [hafter, Core.after_succ] at houtside ⊢
      rw [hfault, Core.lastFault?, hstep, Core.bounds?_eq_some_iff.mpr ⟨houtside, rfl⟩]
      rfl

/-- A machine whose memory has room for one instruction with its operand and for nothing that could
follow. -/
def cramped : Machine := (ofConfig ⟨2⟩).install ⟨#[0xFF00, 7]⟩

/-- Running it applies the instruction and fails behind it, and both can be read in the log. -/
theorem logsFaithfully_of_perform_cramped :
    ∃ reply, Command.run.steps = true ∧ cramped.perform 1 .run = some reply ∧
      reply.log.map Log.Entry.line =
        ["DEBUG LIT 7", "WARN runtime error at address x02: PC out of bounds"] ∧
      ∃ count instructions performed,
        LogsFaithfully cramped .run reply count instructions performed := by
  have hreply : ∃ reply, cramped.perform 1 .run = some reply ∧ reply.log.map Log.Entry.line =
      ["DEBUG LIT 7", "WARN runtime error at address x02: PC out of bounds"] := by
    exact ⟨_, rfl, by decide +kernel⟩
  obtain ⟨reply, hreply, hlines⟩ := hreply
  exact ⟨reply, rfl, hreply, hlines, logsFaithfully_of_perform rfl hreply⟩

end Machine

end DualStack
