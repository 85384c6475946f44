import DualStack.Proofs.Assembly.LabelDiscipline
import DualStack.Proofs.Machine.Replies
import DualStack.Proofs.Machine.Session

/-!
# Control flow of label-disciplined programs

A machine that holds a program of closed code and is confined to it stays so, whatever it is told
that executes the program or starts over with it, and fails on the stacks if it fails
(`Machine.Guarded.perform`).

A machine that has assembled a label-disciplined program is therefore always at the start of an
instruction, with starts of instructions to return to, and with the program unchanged in its memory
(`Machine.controlFlow_safe`).
-/

set_option autoImplicit false
set_option relaxedAutoImplicit false

namespace DualStack.Machine

open Assembly

/-- The commands that execute the program or start over with it. -/
def Command.Executes (command : Command) : Prop :=
  command = .run ∨ command = .stepInto ∨ command = .stepOver ∨ command = .reset

/-- A stack was empty or full. -/
def Failure.IsStackFault (failure : Failure) : Prop :=
  ∃ pc, failure = .error (.execution ⟨.stack, pc⟩)

/-- A machine with a program, whose core is confined to the program. -/
structure Guarded (template : Memory) (Start : Word → Prop) (machine : Machine) : Prop where
  template?_eq : machine.template? = some template
  confined : Confined template Start machine.core

namespace Guarded

variable {template : Memory} {Start : Word → Prop} {machine : Machine}

/-- A machine that takes over what a confined core came to is guarded. -/
theorem conclude {run : Run} {log : List Log.Entry} (hguarded : Guarded template Start machine)
    (hrun : Confined template Start run.core ∧ ∀ fault ∈ run.fault?, fault.cause = .stack) :
    Guarded template Start (machine.conclude run log).machine ∧
      ∀ failure ∈ (machine.conclude run log).failure?, failure.IsStackFault := by
  unfold Machine.conclude
  cases hfault : run.fault? with
  | none => exact ⟨⟨hguarded.template?_eq, hrun.1⟩, by simp⟩
  | some fault =>
    have hcause : fault.cause = .stack := hrun.2 fault (by simp [hfault])
    refine ⟨⟨hguarded.template?_eq, hrun.1⟩, ?_⟩
    rintro failure hfailure
    obtain rfl : .error (.execution fault) = failure := by simpa using hfailure
    exact ⟨fault.pc, by rw [← hcause]⟩

/-- A guarded machine that executes closed code, or starts over with it, stays guarded. -/
theorem perform (hclosed : Closed template Start) (hguarded : Guarded template Start machine)
    {fuel : Nat} {command : Command} {reply : Reply}
    (hcommand : command.Executes) (hreply : machine.perform fuel command = some reply) :
    Guarded template Start reply.machine ∧
      ∀ failure ∈ reply.failure?, failure.IsStackFault := by
  have hstep : ∀ core, Confined template Start core →
      Confined template Start core.step.core ∧
        ∀ fault ∈ core.step.fault?, fault.cause = .stack :=
    fun core hcore ↦ hcore.step hclosed
  rcases hcommand with rfl | rfl | rfl | rfl
  · obtain ⟨run, hrun, rfl⟩ := Option.map_eq_some_iff.mp hreply
    exact hguarded.conclude (Core.run_invariant hstep hguarded.confined hrun)
  · obtain rfl := Option.some.inj hreply
    exact hguarded.conclude (hstep machine.core hguarded.confined)
  · obtain ⟨run, hrun, rfl⟩ := Option.map_eq_some_iff.mp hreply
    exact hguarded.conclude (Core.stepOver_invariant hstep hguarded.confined hrun)
  · obtain rfl := Option.some.inj hreply
    rw [reset, hguarded.template?_eq]
    exact ⟨⟨rfl, hclosed.confined_ready⟩, by simp [Reply.done]⟩

/-- A guarded machine stays guarded for a whole session of such commands. -/
theorem session (hclosed : Closed template Start) (hguarded : Guarded template Start machine)
    {last : Machine} {exchanges : List (Command × Reply)}
    (hsession : Session machine exchanges last)
    (hcommands : ∀ exchange ∈ exchanges, exchange.1.Executes) :
    Guarded template Start last ∧
      ∀ exchange ∈ exchanges, ∀ failure ∈ exchange.2.failure?, failure.IsStackFault :=
  Session.invariant (Guarded template Start) Command.Executes
    (fun _ reply ↦ ∀ failure ∈ reply.failure?, failure.IsStackFault)
    (fun hbefore hcommand hreply ↦ hbefore.perform hclosed hcommand hreply)
    hsession hguarded hcommands

end Guarded

/-- A machine that has assembled a label-disciplined program keeps the program in its memory while
it executes it and starts over with it. The program counter and the addresses on the return stack
are those of instructions of the program, and what fails fails on the stacks. -/
theorem controlFlow_safe {machine last : Machine} {exchanges : List (Command × Reply)}
    (hsize : machine.config.memorySize ≤ Config.largest)
    (hcompiled : machine.compile.failure? = none)
    (hdiscipline : LabelDisciplined (Item.scan (tokenize machine.lines)))
    (hsession : Session machine.compile.machine exchanges last)
    (hcommands : ∀ exchange ∈ exchanges, exchange.1.Executes) :
    (∃ template,
      (assemble (tokenize machine.lines) machine.config.memorySize).result = .ok template ∧
        last.template? = some template ∧ last.memory = template) ∧
    Item.Starts (Item.scan (tokenize machine.lines)) last.core.pc.toNat ∧
    (∀ address ∈ last.core.returnStack.toList,
      Item.Starts (Item.scan (tokenize machine.lines)) address.toNat) ∧
    ∀ exchange ∈ exchanges, ∀ failure ∈ exchange.2.failure?, failure.IsStackFault := by
  obtain ⟨template, hresult, hinstall⟩ := compile_eq_ok hcompiled
  have hwords : machine.config.memorySize ≤ 0xFFFF := Nat.le_trans hsize (by decide)
  have hclosed := hdiscipline.closed (Item.wellPlaced_scan _) (image_of_assemble hwords hresult)
    hsize
  rw [hinstall] at hsession
  have hguarded : Guarded template _ (machine.install template) :=
    ⟨rfl, hclosed.confined_ready⟩
  obtain ⟨hlast, hfailures⟩ := hguarded.session hclosed hsession hcommands
  refine ⟨⟨template, hresult, hlast.template?_eq, hlast.confined.memory_eq⟩, hlast.confined.pc, ?_,
    hfailures⟩
  intro address hmem
  exact hlast.confined.returns address (by simpa [Stack.toList] using hmem)

/-- A machine with a program that calls a routine defined behind the call. -/
def calling : Machine := (ofConfig ⟨8⟩).setLines ["CALL :INC", "HALT", ":INC LIT 1 EXIT"]

theorem tokenize_calling :
    tokenize calling.lines = ["CALL", ":INC", "HALT", ":INC", "LIT", "1", "EXIT"] := by
  decide

theorem scan_calling : Item.scan (tokenize calling.lines) =
    [.word "CALL", .operand ":INC", .word "HALT", .definition ":INC", .word "LIT", .operand "1",
      .word "EXIT"] := by
  rw [tokenize_calling]
  decide

theorem labelDisciplined_calling : LabelDisciplined (Item.scan (tokenize calling.lines)) := by
  rw [scan_calling]
  refine ⟨?_, ?_, .exit, .inr rfl, rfl⟩
  · intro token hmem
    obtain rfl | rfl | rfl | rfl :
        token = "CALL" ∨ token = "HALT" ∨ token = "LIT" ∨ token = "EXIT" := by simpa using hmem
    · exact ⟨.call, rfl, by decide, by decide⟩
    · exact ⟨.halt, rfl, by decide, by decide⟩
    · exact ⟨.lit, rfl, by decide, by decide⟩
    · exact ⟨.exit, rfl, by decide, by decide⟩
  · intro index instruction token hword hjump htoken
    rcases index with _ | _ | _ | _ | _ | index
    · obtain rfl : ":INC" = token := by simpa [Item.stream, Item.isDefinition] using htoken
      decide
    · simp [Item.stream, Item.isDefinition] at htoken
    · simp [Item.stream, Item.isDefinition] at htoken
    · rcases hjump with rfl | rfl <;>
        simp [Item.stream, Item.isDefinition, Instruction.mnemonic] at hword
    · simp [Item.stream, Item.isDefinition] at htoken
    · simp [Item.stream, Item.isDefinition] at htoken

/-- A step into the program and a run to its end leave that machine at an instruction. -/
theorem controlFlow_safe_of_calling :
    ∃ (exchanges : List (Command × Reply)) (last : Machine),
      exchanges.map Prod.fst = [.stepInto, .run] ∧
      Session calling.compile.machine exchanges last ∧ last.template? = some last.memory ∧
      Item.Starts (Item.scan (tokenize calling.lines)) last.core.pc.toNat := by
  have hcompiled : calling.compile.failure? = none := by decide +kernel
  have hreturns : (calling.compile.machine.performAll 10 [.stepInto, .run]).isSome = true := by
    decide +kernel
  obtain ⟨result, hresult⟩ := Option.isSome_iff_exists.mp hreturns
  obtain ⟨hsession, hcommands⟩ := session_of_performAll hresult
  have hexecutes : ∀ command ∈ result.1.map Prod.fst, command.Executes := by
    rw [hcommands]
    simp [Command.Executes]
  have hsafe := controlFlow_safe (by decide) hcompiled labelDisciplined_calling hsession
    (List.forall_mem_map.mp hexecutes)
  obtain ⟨template, -, htemplate, hmemory⟩ := hsafe.1
  exact ⟨_, _, hcommands, hsession, by rw [htemplate, hmemory], hsafe.2.1⟩

end DualStack.Machine
