import DualStack.Proofs.Processor.Runs

/-!
# Code that control cannot leave

A set of addresses is closed in a memory when an instruction starts at each of them and control that
is at one of them goes on to another (`Closed`): it falls through to one, its operand names one
wherever control can go there, and no instruction writes to the memory or puts a value of its own on
the return stack.

A core is confined to such a set when its program counter and all its return addresses belong to the
set and its memory is the given one (`Confined`). Confined cores stay confined (`Confined.step`),
whatever lies on their data stack, and the only fault they can meet is a stack fault.
-/

set_option autoImplicit false
set_option relaxedAutoImplicit false

namespace DualStack

/-! ### Addresses on the return stack -/

/-- An address on the return stack was there before, or is the return address of a call. -/
theorem Event.mem_of_onReturns {event : Event} {back address : Word} {before after : List Word}
    (hreturns : event.OnReturns back before after) (hsaved : event.instruction ≠ .toReturn)
    (hmem : address ∈ after) :
    address ∈ before ∨ event.instruction = .call ∧ address = back := by
  cases event with
  | toReturn value => exact absurd rfl hsaved
  | call target =>
    obtain rfl : after = back :: before := hreturns
    rcases List.mem_cons.mp hmem with rfl | hmem
    · exact .inr ⟨rfl, rfl⟩
    · exact .inl hmem
  | exit value | fromReturn value =>
    obtain rfl : before = value :: after := hreturns
    exact .inl (List.mem_cons_of_mem _ hmem)
  | _ =>
    obtain rfl : after = before := hreturns
    exact .inl hmem

theorem Core.mem_of_refused {core : Core} {instruction : Instruction} {address : Word}
    (hmem : address ∈ (core.refused instruction).returnStack.cells) :
    address ∈ core.returnStack.cells := by
  cases instruction with
  | fromReturn => exact List.mem_of_mem_tail hmem
  | _ => exact hmem

/-! ### Closed code -/

/-- A set of addresses where instructions start and from which control does not escape. -/
structure Closed (memory : Memory) (Start : Word → Prop) : Prop where
  zero : Start 0
  inside : ∀ {address}, Start address → address.toNat < memory.size
  decodes : ∀ {address}, Start address →
    ∃ instruction, Instruction.decode? (memory.read address) = some instruction
  harmless : ∀ {address instruction}, Start address →
    Instruction.decode? (memory.read address) = some instruction →
    instruction ≠ .store ∧ instruction ≠ .toReturn
  falls : ∀ {address instruction}, Start address →
    Instruction.decode? (memory.read address) = some instruction →
    instruction ≠ .exit → instruction ≠ .halt → Start (address + instruction.width)
  jumps : ∀ {address instruction}, Start address →
    Instruction.decode? (memory.read address) = some instruction →
    instruction = .jumpIfZero ∨ instruction = .call → Start (memory.read (address + 1))

/-- A core that executes closed code, with return addresses in it. -/
structure Confined (memory : Memory) (Start : Word → Prop) (core : Core) : Prop where
  memory_eq : core.memory = memory
  pc : Start core.pc
  returns : ∀ address ∈ core.returnStack.cells, Start address

variable {memory : Memory} {Start : Word → Prop} {core after : Core}

/-- A core about to start closed code is confined to it. -/
theorem Closed.confined_ready (hclosed : Closed memory Start) :
    Confined memory Start ⟨.ready, memory⟩ where
  memory_eq := rfl
  pc := hclosed.zero
  returns := by simp [Processor.ready]

namespace Confined

variable {event : Event}

theorem decode?_eq (hcore : Confined memory Start core) :
    Instruction.decode? (memory.read core.pc) = core.current? := by
  rw [Core.current?, hcore.memory_eq]

/-- Control goes on within closed code. -/
theorem pc_of_effect (hclosed : Closed memory Start) (hcore : Confined memory Start core)
    (hcurrent : core.current? = some event.instruction) (heffect : Effect core event after) :
    Start after.pc := by
  have hdecode := hcore.decode?_eq.trans hcurrent
  rw [heffect.pc_eq]
  cases htarget : event.target? with
  | none =>
    have hexit : event.instruction ≠ .exit := by
      intro hexit
      cases event <;> simp_all [Event.instruction, Event.target?]
    by_cases hhalt : event.instruction = .halt
    · rw [hhalt]
      simpa [Instruction.width] using hcore.pc
    · exact hclosed.falls hcore.pc hdecode hexit hhalt
  | some target =>
    rcases heffect.target_eq htarget with rfl | ⟨hjump, rfl⟩
    · have hcells : core.returnStack.cells = target :: after.returnStack.cells := heffect.onReturns
      exact hcore.returns target (by simp [hcells])
    · rw [hcore.memory_eq]
      exact hclosed.jumps hcore.pc hdecode hjump

/-- An instruction of closed code that takes effect keeps the core confined. -/
theorem effect (hclosed : Closed memory Start) (hcore : Confined memory Start core)
    (hcurrent : core.current? = some event.instruction) (heffect : Effect core event after) :
    Confined memory Start after := by
  have hdecode := hcore.decode?_eq.trans hcurrent
  obtain ⟨hstore, hsaved⟩ := hclosed.harmless hcore.pc hdecode
  refine ⟨?_, pc_of_effect hclosed hcore hcurrent heffect, ?_⟩
  · rw [heffect.memory_eq, Event.onMemory_of_ne_store hstore, hcore.memory_eq]
  · intro address hmem
    rcases Event.mem_of_onReturns heffect.onReturns hsaved hmem with hmem | ⟨hcall, rfl⟩
    · exact hcore.returns address hmem
    · have hfalls := hclosed.falls hcore.pc hdecode (by simp [hcall]) (by simp [hcall])
      rwa [hcall] at hfalls

theorem inBounds (hclosed : Closed memory Start) (hcore : Confined memory Start core) :
    core.inBounds = true := by
  have hinside := hclosed.inside hcore.pc
  simpa [Core.inBounds, hcore.memory_eq] using hinside

/-- A step of a confined core leaves it confined, and fails on the stacks if it fails. -/
theorem step (hclosed : Closed memory Start) (hcore : Confined memory Start core) :
    Confined memory Start core.step.core ∧ ∀ fault ∈ core.step.fault?, fault.cause = .stack := by
  cases core.stepCases with
  | halted _ hstep =>
    rw [hstep]
    exact ⟨hcore, by simp⟩
  | outside _ houtside => simp [hcore.inBounds hclosed] at houtside
  | undecodable _ _ hcurrent =>
    obtain ⟨instruction, hdecode⟩ := hclosed.decodes hcore.pc
    simp [hcore.decode?_eq, hcurrent] at hdecode
  | @refused instruction _ _ _ _ hstep =>
    rw [hstep]
    refine ⟨⟨by simpa using hcore.memory_eq, by simpa using hcore.pc, ?_⟩, by simp⟩
    exact fun address hmem ↦ hcore.returns address (Core.mem_of_refused hmem)
  | @moved event after _ _ hcurrent heffect hstep =>
    have hafter := hcore.effect hclosed hcurrent heffect
    rw [hstep, Core.bounds?_eq_none_iff.mpr (hafter.inBounds hclosed)]
    exact ⟨hafter, by simp⟩

end Confined

end DualStack
