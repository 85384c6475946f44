import DualStack.Proofs.Assembly.Correctness
import DualStack.Proofs.Machine.Replies
import DualStack.Proofs.Machine.Session

/-!
# What holds of a machine at all times

A machine is in order (`Machine.Ordered`) when its configuration and its template have sizes in
range and its core suits the template (`Core.Suits`): without a template the core is idle, as it was
in the beginning, and with one its memory is as large as the template and its processor has halted,
if it has, at a halt instruction. Every command keeps a machine in order, whether it succeeds or
fails (`Machine.Ordered.perform`).

`Machine.session_consistent` says what follows for whoever works with a machine, from its first
configuration through any session.
-/

set_option autoImplicit false
set_option relaxedAutoImplicit false

namespace DualStack

/-! ### Cores and templates -/

/-- The cores of a machine with a given template, or with none. The machine began with a memory of
`size` cells. -/
inductive Core.Suits (size : Nat) : Option Memory → Core → Prop
  /-- Without a template nothing has changed since the beginning. -/
  | idle {core : Core} (hcore : core = ⟨.idle, .zeros size⟩) : Suits size none core
  /-- The memory is as large as the template, and the processor halts at halt instructions. -/
  | loaded {template : Memory} {core : Core} (hsize : core.memory.size = template.size)
      (hplace : core.HaltsInPlace) : Suits size (some template) core

namespace Core.Suits

variable {size : Nat} {template? : Option Memory} {core : Core}

theorem step (hsuits : core.Suits size template?) : core.step.core.Suits size template? := by
  cases hsuits with
  | idle hcore =>
    subst hcore
    exact .idle (congrArg Transition.core (step_of_halted rfl))
  | loaded hsize hplace => exact .loaded ((size_step core).trans hsize) hplace.step

/-- A core that suits a template still does so any number of steps later. -/
theorem after (hsuits : core.Suits size template?) (count : Nat) :
    (core.after count).Suits size template? := by
  induction count generalizing core with
  | zero => exact hsuits
  | succ count ih => exact ih hsuits.step

theorem inBounds_of_halted (hsuits : core.Suits size template?) (hsize : 1 ≤ size)
    (hhalted : core.halted = true) : core.inBounds = true := by
  cases hsuits with
  | idle hcore =>
    have hpositive : 0 < size := hsize
    simpa [hcore, inBounds, Processor.idle] using hpositive
  | loaded _ hplace => exact (hplace hhalted).1

theorem memory_size_le (hsuits : core.Suits size template?) (hsize : size ≤ Config.largest)
    (htemplate : ∀ template ∈ template?, template.size ≤ Config.largest) :
    core.memory.size ≤ Config.largest := by
  cases hsuits with
  | idle hcore => simpa [hcore] using hsize
  | loaded hsame _ =>
    rw [hsame]
    exact htemplate _ rfl

/-- What an execution leaves suits the template, and lies within the memory unless it failed. -/
theorem executed {run : Run} (hsuits : core.Suits size template?) (hsize : 1 ≤ size)
    (hexecuted : core.Executed run) :
    run.core.Suits size template? ∧ (run.fault? = none → run.core.inBounds = true) := by
  obtain ⟨count, hcount⟩ := hexecuted.steps
  have hafter : run.core.Suits size template? := hcount ▸ hsuits.after count
  refine ⟨hafter, fun hclean ↦ ?_⟩
  rcases hexecuted.rests hclean with hhalted | hinside
  · exact hafter.inBounds_of_halted hsize hhalted
  · exact hinside

end Core.Suits

/-- In a memory of configurable size, an instruction can be followed by its operand and by a next
instruction without leaving the range of a word. -/
theorem Core.Dispatches.toNat_pc_add {core : Core} {instruction : Instruction}
    (hdispatches : core.Dispatches instruction) (hsize : core.memory.size ≤ Config.largest)
    (distance : Word) (hdistance : distance.toNat ≤ 2) :
    (core.pc + distance).toNat = core.pc.toNat + distance.toNat := by
  have hinside : core.pc.toNat < core.memory.size := by
    simpa [inBounds] using hdispatches.2.1
  exact Config.toNat_add_of_lt (Nat.lt_of_lt_of_le hinside hsize) hdistance

namespace Machine

/-! ### Commands -/

/-- The commands that only prepare an assembly. -/
def Command.prepares : Command → Bool
  | .setMemorySize _ | .setLines _ | .loadSource _ => true
  | _ => false

variable {size fuel : Nat} {machine : Machine} {command : Command} {reply : Reply}

/-- A template comes about by a successful assembly and stays. -/
theorem template?_perform_eq_none_iff (hreply : machine.perform fuel command = some reply) :
    reply.machine.template? = none ↔
      machine.template? = none ∧ (command = .compile → reply.failure? ≠ none) := by
  cases replies_of_perform hreply with
  | resized _ | notResized _ | typed _ | loaded _ => simp [Reply.done, setLines, loadSource]
  | assembled _ | notAssembled _ => simp [install]
  | restored htemplate | notCompiled htemplate => simp [Reply.done, install, htemplate]
  | executed hsteps _ => simp [Command.ne_compile_of_steps hsteps]

/-- Only a successful assembly changes the template. -/
theorem template?_perform_of_not_assembled
    (hnot : command = .compile → reply.failure? ≠ none)
    (hreply : machine.perform fuel command = some reply) :
    reply.machine.template? = machine.template? := by
  cases replies_of_perform hreply with
  | assembled _ => exact absurd rfl (hnot rfl)
  | restored htemplate => exact htemplate.symm
  | executed _ _ => exact template?_conclude _ _
  | resized _ | notResized _ | typed _ | loaded _ | notAssembled _ | notCompiled _ => rfl

/-- A machine has no template exactly as long as no assembly has succeeded. -/
theorem template?_session_eq_none_iff {first last : Machine} {exchanges : List (Command × Reply)}
    (hsession : Session first exchanges last) :
    last.template? = none ↔
      first.template? = none ∧
        ∀ exchange ∈ exchanges, exchange.1 = .compile → exchange.2.failure? ≠ none := by
  induction hsession with
  | nil => simp
  | cons hreply _ ih =>
    rw [ih, template?_perform_eq_none_iff hreply, List.forall_mem_cons, and_assoc]

/-! ### Machines in order -/

/-- A machine whose parts fit together. It began with a memory of `size` cells. -/
structure Ordered (size : Nat) (machine : Machine) : Prop where
  config : 1 ≤ machine.config.memorySize ∧ machine.config.memorySize ≤ Config.largest
  template : ∀ template ∈ machine.template?, 1 ≤ template.size ∧ template.size ≤ Config.largest
  core : machine.core.Suits size machine.template?

namespace Ordered

/-- A machine is in order to begin with. -/
theorem ofConfig {config : Config} (hconfig : Config.ofSize? size = .ok config) :
    (ofConfig config).Ordered size := by
  obtain ⟨hrange, rfl⟩ := Config.ofSize?_eq_ok_iff.mp hconfig
  exact ⟨hrange, by simp [Machine.ofConfig], .idle rfl⟩

/-- A machine starts a program in order, within the memory. -/
theorem install {template : Memory} (hordered : machine.Ordered size)
    (htemplate : 1 ≤ template.size ∧ template.size ≤ Config.largest) :
    (machine.install template).Ordered size ∧
      (machine.install template).core.inBounds = true := by
  refine ⟨⟨hordered.config, ?_, .loaded rfl (Core.haltsInPlace_of_running rfl)⟩, ?_⟩
  · intro other hother
    obtain rfl : template = other := by simpa [Machine.install] using hother
    exact htemplate
  · have hpositive : 0 < template.size := htemplate.1
    simpa [Machine.install, Core.inBounds, Processor.ready] using hpositive

theorem conclude {run : Run} (hordered : machine.Ordered size) (hsize : 1 ≤ size)
    (hexecuted : machine.core.Executed run) (log : List Log.Entry) :
    (machine.conclude run log).machine.Ordered size ∧
      ((machine.conclude run log).failure? = none →
        (machine.conclude run log).machine.core.inBounds = true) := by
  obtain ⟨hsuits, hinside⟩ := hordered.core.executed hsize hexecuted
  refine ⟨⟨by simpa using hordered.config, by simpa using hordered.template,
    by simpa using hsuits⟩, fun hclean ↦ ?_⟩
  rw [core_conclude]
  exact hinside ((failure?_conclude_eq_none_iff run log).mp hclean)

/-- Every command keeps a machine in order. If it does more than prepare and does not fail, the
program counter lies within the memory afterwards. -/
theorem perform (hordered : machine.Ordered size) (hsize : 1 ≤ size)
    (hreply : machine.perform fuel command = some reply) :
    reply.machine.Ordered size ∧
      (command.prepares = false → reply.failure? = none →
        reply.machine.core.inBounds = true) := by
  have hedited (lines : List String) (lastError? : Option Error) :
      ({ machine with lines, lastError? } : Machine).Ordered size :=
    ⟨hordered.config, hordered.template, hordered.core⟩
  cases replies_of_perform hreply with
  | resized hconfig =>
    obtain ⟨hrange, rfl⟩ := Config.ofSize?_eq_ok_iff.mp hconfig
    exact ⟨⟨hrange, hordered.template, hordered.core⟩, by simp [Command.prepares]⟩
  | notResized _ => exact ⟨hordered, by simp⟩
  | typed lines => exact ⟨hedited _ _, by simp [Command.prepares]⟩
  | loaded source => exact ⟨hedited _ _, by simp [Command.prepares]⟩
  | assembled houtcome =>
    have hwords : machine.config.memorySize ≤ 0xFFFF :=
      Nat.le_trans hordered.config.2 (by decide)
    have himage := Assembly.image_of_assemble hwords (congrArg Assembly.Outcome.result houtcome)
    have hinstalled := hordered.install (himage.size_eq.symm ▸ hordered.config)
    exact ⟨hinstalled.1, fun _ _ ↦ hinstalled.2⟩
  | notAssembled _ => exact ⟨hedited _ _, by simp⟩
  | restored htemplate =>
    have hinstalled := hordered.install (hordered.template _ htemplate)
    exact ⟨hinstalled.1, fun _ _ ↦ hinstalled.2⟩
  | notCompiled _ => exact ⟨hordered, by simp⟩
  | @executed _ _ run hsteps htook =>
    have hconcluded := hordered.conclude hsize (Command.executed_of_took hsteps htook)
      (command.logOf run)
    exact ⟨hconcluded.1, fun _ ↦ hconcluded.2⟩

/-- A machine stays in order for a whole session. -/
theorem session (hordered : machine.Ordered size) (hsize : 1 ≤ size) {last : Machine}
    {exchanges : List (Command × Reply)} (hsession : Session machine exchanges last) :
    last.Ordered size ∧ ∀ exchange ∈ exchanges, exchange.1.prepares = false →
      exchange.2.failure? = none → exchange.2.machine.core.inBounds = true :=
  Session.invariant (Ordered size) (fun _ ↦ True)
    (fun command reply ↦ command.prepares = false → reply.failure? = none →
      reply.machine.core.inBounds = true)
    (fun hbefore _ hreply ↦ hbefore.perform hsize hreply) hsession hordered (by simp)

end Ordered

/-! ### Sessions from the beginning -/

/-- What holds of a machine after a session that it began with a memory of `size` cells and without
source or program. -/
structure Consistent (size : Nat) (exchanges : List (Command × Reply)) (last : Machine) : Prop where
  /-- No stack holds more words than its capacity of 255. -/
  depths : last.core.dataStack.toList.length ≤ Stack.capacity ∧
    last.core.returnStack.toList.length ≤ Stack.capacity
  /-- There is no template exactly as long as no assembly has succeeded. -/
  unassembled : last.template? = none ↔
    ∀ exchange ∈ exchanges, exchange.1 = .compile → exchange.2.failure? ≠ none
  /-- As long as there is none, the processor is halted at address zero with empty stacks, over the
  memory of zeros that was there in the beginning. -/
  idle : last.template? = none → last.core = ⟨.idle, .zeros size⟩
  /-- Memory and template have the same size, between one and the largest. -/
  sizes : ∀ template, last.template? = some template →
    last.memory.size = template.size ∧ 1 ≤ template.size ∧ template.size ≤ Config.largest
  /-- A program halts within the memory and at the code of the halt instruction. -/
  halts : last.template? ≠ none → last.core.halted = true →
    last.core.inBounds = true ∧ last.memory.read last.core.pc = 0xFF0F
  /-- A command that did more than prepare and did not fail left the program counter within the
  memory. -/
  inside : ∀ exchange ∈ exchanges, exchange.1.prepares = false → exchange.2.failure? = none →
    exchange.2.machine.core.inBounds = true
  /-- A command that executes the program takes the core some steps further. -/
  steps : ∀ fuel command reply, command.steps = true → last.perform fuel command = some reply →
    ∃ count, reply.machine.core = last.core.after count
  /-- Wherever such a step finds an instruction to execute, no sum with the program counter that the
  instruction asks for wraps. -/
  unwrapped : ∀ count instruction, (last.core.after count).Dispatches instruction →
    (last.core.after count).pc.toNat + 2 < 0x10000 ∧
      ((last.core.after count).pc + 1).toNat = (last.core.after count).pc.toNat + 1 ∧
      ((last.core.after count).pc + 2).toNat = (last.core.after count).pc.toNat + 2 ∧
      ((last.core.after count).pc + instruction.width).toNat =
        (last.core.after count).pc.toNat + instruction.width.toNat

/-- A machine is consistent after every session that it began with a validated configuration,
whatever the commands were and whether they succeeded or failed. -/
theorem session_consistent {config : Config} {last : Machine} {exchanges : List (Command × Reply)}
    (hconfig : Config.ofSize? size = .ok config)
    (hsession : Session (ofConfig config) exchanges last) : Consistent size exchanges last := by
  obtain ⟨hlower, hupper⟩ := (Config.ofSize?_eq_ok_iff.mp hconfig).1
  obtain ⟨hlast, hinside⟩ := (Ordered.ofConfig hconfig).session hlower hsession
  have hsuits := hlast.core
  constructor
  case depths =>
    simpa using ⟨last.core.dataStack.bounded, last.core.returnStack.bounded⟩
  case unassembled => simpa [ofConfig] using template?_session_eq_none_iff hsession
  case idle =>
    intro hnone
    rw [hnone] at hsuits
    cases hsuits with
    | idle hcore => exact hcore
  case sizes =>
    intro template htemplate
    rw [htemplate] at hsuits
    cases hsuits with
    | loaded hsame _ => exact ⟨hsame, hlast.template template htemplate⟩
  case halts =>
    intro hsome hhalted
    obtain ⟨template, htemplate⟩ := Option.ne_none_iff_exists'.mp hsome
    rw [htemplate] at hsuits
    cases hsuits with
    | loaded _ hplace =>
      obtain ⟨hbounds, hcurrent⟩ := hplace hhalted
      exact ⟨hbounds, (Instruction.decode?_eq_some_iff.mp hcurrent).symm⟩
  case inside => exact hinside
  case steps =>
    intro fuel command reply hsteps hreply
    obtain ⟨run, log, hexecuted, rfl⟩ := exists_conclude_of_perform hsteps hreply
    simpa using hexecuted.steps
  case unwrapped =>
    intro count instruction hdispatches
    have hwords : (last.core.after count).memory.size ≤ Config.largest :=
      (hsuits.after count).memory_size_le hupper fun template htemplate ↦
        (hlast.template template htemplate).2
    have hone := hdispatches.toNat_pc_add hwords 1 (by decide)
    have htwo := hdispatches.toNat_pc_add hwords 2 (by decide)
    have hwidth := hdispatches.toNat_pc_add hwords instruction.width instruction.toNat_width_le
    have hbound := ((last.core.after count).pc + 2).toNat_lt
    rw [htwo] at hbound
    exact ⟨hbound, hone, htwo, hwidth⟩

/-- A session that assembles a program and takes the two steps to its end. -/
theorem session_consistent_of_steps :
    ∃ (exchanges : List (Command × Reply)) (last : Machine),
      exchanges.map Prod.fst = [.setLines ["LIT 7 HALT"], .compile, .stepInto, .stepInto] ∧
      Config.ofSize? 8 = .ok ⟨8⟩ ∧ Session (ofConfig ⟨8⟩) exchanges last ∧
      last.template? ≠ none ∧ last.core.halted = true ∧ Consistent 8 exchanges last := by
  have hconfig : Config.ofSize? 8 = .ok ⟨8⟩ := rfl
  obtain ⟨result, hresult, htemplate, hhalted⟩ : ∃ result,
      (ofConfig ⟨8⟩).performAll 0 [.setLines ["LIT 7 HALT"], .compile, .stepInto, .stepInto] =
        some result ∧ result.2.template? ≠ none ∧ result.2.core.halted = true :=
    ⟨_, rfl, by decide +kernel⟩
  obtain ⟨hsession, hcommands⟩ := session_of_performAll hresult
  exact ⟨_, _, hcommands, hconfig, hsession, htemplate, hhalted,
    session_consistent hconfig hsession⟩

end Machine

end DualStack
