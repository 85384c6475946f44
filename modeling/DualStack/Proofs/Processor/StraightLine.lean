import DualStack.Proofs.Assembly.Encoding
import DualStack.Proofs.Memory.Reading
import DualStack.Proofs.Processor.Termination

/-!
# Programs that follow their disassembly

The walk over the cells of a memory knows nothing of the processor: it goes from an instruction to
the cell behind its operand, and from any other cell to the next one (`Walk.position`). The program
counter goes the same way from the first cell on, as long as no instruction sends control elsewhere
or stores into the memory (`Event.straight`). Both walks find the same instructions then, although
one of them shows the cells of the memory and the other executes them.

`Core.follows_disassembly` says what this means for the tokens of the memory: where an instruction
is executed stands its mnemonic, with its operand behind it; at a number the program fails; and a
program that does not end before runs off the end of the memory, by one cell more if the operand of
its last instruction is missing.
-/

set_option autoImplicit false
set_option relaxedAutoImplicit false

namespace DualStack

/-! ### Control that goes straight on -/

namespace Event

/-- Control goes on to the next instruction, and nothing is stored into the memory. -/
def straight : Event → Bool
  | store _ _ | call _ | exit _ => false
  | jumpIfZero _ condition => condition != 0
  | _ => true

variable {event : Event}

theorem target?_eq_none_of_straight (hstraight : event.straight = true) :
    event.target? = none := by
  cases event <;> simp_all [straight, target?]

theorem store_ne_of_straight (hstraight : event.straight = true) :
    event.instruction ≠ .store := by
  cases event <;> simp_all [straight, instruction]

end Event

namespace Core

variable {core after : Core} {event : Event} {events : List Event} {memory : Memory}
  {count index : Nat}

theorem getElem?_pc (hinside : core.inBounds = true) :
    core.memory.cells.toList[core.pc.toNat]? = some (core.memory.read core.pc) := by
  have hless : core.pc.toNat < core.memory.cells.size := toNat_pc_lt hinside
  simp [Memory.read, hless]

/-- The program counter of a core is where the walk over a given memory has got to. -/
structure OnWalk (core : Core) (memory : Memory) (count : Nat) : Prop where
  memory_eq : core.memory = memory
  pc_eq : core.pc.toNat = Walk.position memory.cells.toList count

namespace OnWalk

theorem stands (hwalk : core.OnWalk memory count) :
    Walk.Stands core.memory.cells.toList core.pc.toNat :=
  Walk.stands_iff.mpr ⟨count, by rw [hwalk.pc_eq, hwalk.memory_eq]⟩

/-- An instruction that goes straight on takes the program counter one step of the walk further. -/
theorem next (hwalk : core.OnWalk memory count) (hsize : memory.size ≤ Config.largest)
    (hcurrent : core.current? = some event.instruction) (heffect : Effect core event after)
    (hstraight : event.straight = true) (hrunning : after.halted = false) :
    after.OnWalk memory (count + 1) := by
  obtain ⟨rfl, hpc⟩ := hwalk
  have hinside := inBounds_of_current hcurrent
  have htarget := Event.target?_eq_none_of_straight hstraight
  have hwidth := one_le_width_of_effect heffect htarget hrunning
  have hcell := getElem?_pc hinside
  rw [hpc] at hcell
  refine ⟨?_, ?_⟩
  · rw [heffect.memory_eq, Event.onMemory_of_ne_store (Event.store_ne_of_straight hstraight)]
  · rw [toNat_pc_of_effect hsize hinside heffect htarget, Walk.position_succ hcell,
      Walk.stride_of_decode? hcurrent hwidth, hpc]

/-- An instruction after which control is still within the memory lies there with its operand. -/
theorem width_lt (hwalk : core.OnWalk memory count) (hsize : memory.size ≤ Config.largest)
    (hcurrent : core.current? = some event.instruction) (heffect : Effect core event after)
    (hstraight : event.straight = true) (hinside : after.inBounds = true) :
    core.pc.toNat + event.instruction.width.toNat < memory.size := by
  obtain ⟨rfl, -⟩ := hwalk
  have hless := toNat_pc_lt hinside
  rwa [heffect.memory_eq, Event.size_onMemory, toNat_pc_of_effect hsize
    (inBounds_of_current hcurrent) heffect (Event.target?_eq_none_of_straight hstraight)] at hless

/-- The disassembly shows the instruction at the program counter. -/
theorem getElem?_tokens (hwalk : core.OnWalk memory count) {instruction : Instruction}
    (hcurrent : core.current? = some instruction) :
    memory.tokens[core.pc.toNat]? = some instruction.mnemonic := by
  have hcell := getElem?_pc (inBounds_of_current hcurrent)
  have htoken : Reading.token ⟨core.memory.read core.pc, false⟩ = instruction.mnemonic :=
    Reading.token_of_decode?_eq_some rfl hcurrent
  rw [← hwalk.memory_eq, Memory.getElem?_tokens_of_stands hwalk.stands hcell, htoken]

/-- The disassembly shows the operand behind the program counter as a number. -/
theorem getElem?_tokens_succ (hwalk : core.OnWalk memory count) {instruction : Instruction}
    (hcurrent : core.current? = some instruction) (hoperand : instruction.hasOperand = true)
    {operand : Word} (hcell : memory.cells[core.pc.toNat + 1]? = some operand) :
    memory.tokens[core.pc.toNat + 1]? = some (Numeral.write (Word.signed operand)) := by
  have hfirst := getElem?_pc (inBounds_of_current hcurrent)
  have hslot : Walk.OperandSlot memory.cells.toList (core.pc.toNat + 1) :=
    hwalk.memory_eq ▸ ⟨_, _, instruction, hwalk.stands, hfirst, hcurrent, hoperand, rfl⟩
  exact Memory.getElem?_tokens_of_operandSlot hslot (by simpa using hcell)

/-- The disassembly shows a cell at the program counter that is no instruction as a number. -/
theorem getElem?_tokens_of_undecodable (hwalk : core.OnWalk memory count)
    (hinside : core.inBounds = true) (hcurrent : core.current? = none) :
    memory.tokens[core.pc.toNat]? =
      some (Numeral.write (Word.signed (core.memory.read core.pc))) := by
  have htoken : Reading.token ⟨core.memory.read core.pc, false⟩ =
      Numeral.write (Word.signed (core.memory.read core.pc)) :=
    Reading.token_of_decode?_eq_none hcurrent
  rw [← hwalk.memory_eq, Memory.getElem?_tokens_of_stands hwalk.stands (getElem?_pc hinside),
    htoken]

/-- At a number, a program fails. -/
theorem step_of_number (hwalk : core.OnWalk memory count) (hrunning : core.halted = false)
    {number : Word}
    (htoken : memory.tokens[core.pc.toNat]? = some (Numeral.write (Word.signed number))) :
    core.step = ⟨core, none, some ⟨.notAnOpcode (Word.lowByte number), core.pc⟩⟩ := by
  have hinside : core.inBounds = true := by
    have hless := (List.getElem?_eq_some_iff.mp htoken).1
    simpa [inBounds, hwalk.memory_eq] using hless
  have hcurrent : core.current? = none := by
    -- No mnemonic is a numeral, and so the token does not come from an instruction.
    by_contra hsome
    obtain ⟨instruction, hcurrent⟩ := Option.ne_none_iff_exists'.mp hsome
    have hmnemonic := Option.some.inj ((hwalk.getElem?_tokens hcurrent).symm.trans htoken)
    exact Assembly.write_ne_mnemonic _ instruction hmnemonic.symm
  have hshown := hwalk.getElem?_tokens_of_undecodable hinside hcurrent
  have hnumber : core.memory.read core.pc = number :=
    Numeral.write_signed_injective (Option.some.inj (hshown.symm.trans htoken))
  rw [step_of_undecodable hrunning hinside hcurrent, hnumber]

/-- Control leaves the memory by two cells at most. -/
theorem pc_eq_of_outside (hwalk : core.OnWalk memory count) (houtside : core.inBounds = false) :
    core.pc.toNat = memory.size ∨ core.pc.toNat = memory.size + 1 := by
  have hle : core.pc.toNat ≤ memory.size + 1 := by
    rw [hwalk.pc_eq]
    simpa [Memory.size] using Walk.position_le memory.cells.toList count
  have hge : memory.size ≤ core.pc.toNat := by simpa [inBounds, hwalk.memory_eq] using houtside
  omega

end OnWalk

/-! ### Rows of steps along the walk -/

theorem running_of_step {fault? : Option Fault} (hstep : core.step = ⟨after, some event, fault?⟩) :
    core.halted = false := by
  by_contra hhalted
  simp [step_of_halted (by simpa using hhalted)] at hstep

/-- As long as the instructions go straight on, a core that starts at the first cell keeps to the
walk. -/
theorem onWalk_after (hsize : core.memory.size ≤ Config.largest) (hpc : core.pc = 0)
    (hpath : Path core events after) (hstraight : ∀ event ∈ events, event.straight = true)
    (hindex : index ≤ events.length) (hrunning : (core.after index).halted = false) :
    (core.after index).OnWalk core.memory index := by
  induction index with
  | zero => exact ⟨rfl, by rw [Core.after, hpc]; rfl⟩
  | succ index ih =>
    have hstep := hpath.step_after (List.getElem?_eq_getElem hindex)
    have hbefore := running_of_step hstep
    obtain ⟨event, hsame, hcurrent, heffect, -⟩ := moved_of_step hbefore hstep
    obtain rfl := Option.some.inj hsame
    have hmem : events[index] ∈ events := List.getElem_mem hindex
    exact (ih (Nat.le_of_succ_le hindex) hbefore).next hsize hcurrent heffect
      (hstraight _ hmem) hrunning

theorem onWalk_of_path (hsize : core.memory.size ≤ Config.largest) (hpc : core.pc = 0)
    (hpath : Path core events after) (hstraight : ∀ event ∈ events, event.straight = true)
    (hrunning : after.halted = false) : after.OnWalk core.memory events.length := by
  rw [hpath.eq_after] at hrunning ⊢
  exact onWalk_after hsize hpc hpath hstraight (Nat.le_refl _) hrunning

/-- What the disassembly says about a row of steps from the first cell on. -/
structure FollowsWalk (core : Core) (events : List Event) (after : Core) : Prop where
  /-- Instructions are executed wherever the walk stands, one after the other. -/
  pc_eq : ∀ index < events.length,
    (core.after index).pc.toNat = Walk.position core.memory.cells.toList index
  instruction_shown : ∀ index event, events[index]? = some event →
    core.memory.tokens[(core.after index).pc.toNat]? = some event.instruction.mnemonic
  operand_shown : ∀ index event, events[index]? = some event →
    event.instruction.hasOperand = true →
      ∃ operand, core.memory.cells[(core.after index).pc.toNat + 1]? = some operand ∧
        core.memory.tokens[(core.after index).pc.toNat + 1]? =
          some (Numeral.write (Word.signed operand))
  /-- A program that goes on does so where the walk goes on. -/
  next_pc_eq : after.halted = false →
    after.pc.toNat = Walk.position core.memory.cells.toList events.length
  /-- A number cannot be executed. -/
  fails_at_number : after.halted = false → ∀ number,
    core.memory.tokens[after.pc.toNat]? = some (Numeral.write (Word.signed number)) →
      after.step = ⟨after, none, some ⟨.notAnOpcode (Word.lowByte number), after.pc⟩⟩

/-- How a program ends that goes straight on. -/
inductive StraightEnd (core : Core) (run : Run) : Prop
  | halted (hhalted : run.core.halted = true) (hfault : run.fault? = none)
  | refused {pc : Word} (hfault : run.fault? = some ⟨.stack, pc⟩)
  /-- The walk meets a number. -/
  | number {pc number : Word} (hstands : Walk.Stands core.memory.cells.toList pc.toNat)
      (htoken : core.memory.tokens[pc.toNat]? = some (Numeral.write (Word.signed number)))
      (hfault : run.fault? = some ⟨.notAnOpcode (Word.lowByte number), pc⟩)
  /-- The walk leaves the memory. -/
  | outside {pc : Word} (hpc : pc.toNat = core.memory.size ∨ pc.toNat = core.memory.size + 1)
      (hfault : run.fault? = some ⟨.pcOutOfBounds, pc⟩)

/-- What the disassembly says about the execution from the first cell on. -/
structure FollowsDisassembly (core : Core) : Prop where
  follows_walk : ∀ events after, Path core events after →
    (∀ event ∈ events, event.straight = true) → core.FollowsWalk events after
  ends : core.halted = false → core.ExecutesOnly Event.straight →
    ∃ count ≤ core.memory.size + 1, ∃ run, core.RunsIn count run ∧
      core.run (count + 1) = some run ∧ core.StraightEnd run

theorem followsWalk_of_path (hsize : core.memory.size ≤ Config.largest) (hpc : core.pc = 0)
    (hpath : Path core events after) (hstraight : ∀ event ∈ events, event.straight = true) :
    core.FollowsWalk events after := by
  have hwalk : ∀ index event, events[index]? = some event →
      (core.after index).OnWalk core.memory index ∧
        (core.after index).current? = some event.instruction ∧
          (core.after index).pc.toNat + event.instruction.width.toNat < core.memory.size := by
    intro index event hevent
    have hindex : index < events.length := (List.getElem?_eq_some_iff.mp hevent).1
    have hstep := hpath.step_after hevent
    have hrunning := running_of_step hstep
    obtain ⟨_, hsame, hcurrent, heffect, hinside⟩ := moved_of_step hrunning hstep
    obtain rfl := Option.some.inj hsame
    have honwalk := onWalk_after hsize hpc hpath hstraight (Nat.le_of_lt hindex) hrunning
    exact ⟨honwalk, hcurrent, honwalk.width_lt hsize hcurrent heffect
      (hstraight event (List.mem_of_getElem? hevent)) hinside⟩
  have hlast := onWalk_of_path hsize hpc hpath hstraight
  refine ⟨?_, ?_, ?_, fun hrunning ↦ (hlast hrunning).pc_eq,
    fun hrunning number htoken ↦ (hlast hrunning).step_of_number hrunning htoken⟩
  · intro index hindex
    exact (hwalk index _ (List.getElem?_eq_getElem hindex)).1.pc_eq
  · intro index event hevent
    obtain ⟨honwalk, hcurrent, -⟩ := hwalk index event hevent
    exact honwalk.getElem?_tokens hcurrent
  · intro index event hevent hoperand
    obtain ⟨honwalk, hcurrent, hless⟩ := hwalk index event hevent
    have hwidth : event.instruction.width = 2 := by simpa [Instruction.hasOperand] using hoperand
    rw [hwidth] at hless
    have hcell : core.memory.cells[(core.after index).pc.toNat + 1]? = some _ :=
      Array.getElem?_eq_getElem (Nat.lt_of_succ_lt hless)
    exact ⟨_, hcell, honwalk.getElem?_tokens_succ hcurrent hoperand hcell⟩

/-- The step that ends a program fails at the stacks, at a number or at the end of the memory. -/
theorem OnWalk.straightEnd {event? : Option Event} {fault : Fault} {run : Run}
    (hwalk : after.OnWalk core.memory count) (hsize : core.memory.size ≤ Config.largest)
    (hrunning : after.halted = false) {last : Core}
    (hstep : after.step = ⟨last, event?, some fault⟩)
    (hstraight : ∀ event ∈ event?, event.straight = true) (hfault : run.fault? = some fault) :
    core.StraightEnd run := by
  cases after.stepCases with
  | halted hhalted => simp [hrunning] at hhalted
  | outside _ houtside hsame =>
    obtain ⟨-, -, rfl⟩ : after = last ∧ none = event? ∧ _ = fault := by simpa [hsame] using hstep
    exact .outside (hwalk.pc_eq_of_outside houtside) hfault
  | undecodable _ hinside hcurrent hsame =>
    obtain ⟨-, -, rfl⟩ : after = last ∧ none = event? ∧ _ = fault := by simpa [hsame] using hstep
    exact .number (hwalk.memory_eq ▸ hwalk.stands)
      (hwalk.getElem?_tokens_of_undecodable hinside hcurrent) hfault
  | refused _ _ _ _ hsame =>
    obtain ⟨-, -, rfl⟩ : _ = last ∧ none = event? ∧ _ = fault := by simpa [hsame] using hstep
    exact .refused hfault
  | @moved event moved _ hinside hcurrent heffect hsame =>
    obtain ⟨rfl, rfl, hbounds⟩ :
        moved = last ∧ some event = event? ∧ moved.bounds? = some fault := by
      simpa [hsame] using hstep
    obtain ⟨houtside, rfl⟩ := bounds?_eq_some_iff.mp hbounds
    have hrunning' := halted_of_leaves hrunning hinside heffect houtside
    have hnext := hwalk.next hsize hcurrent heffect (hstraight event rfl) hrunning'
    exact .outside (hnext.pc_eq_of_outside houtside) hfault

/-- A core in a memory of configurable size whose program goes straight on. The program counter may
have come to the end of the memory. -/
structure GoesStraight (core : Core) : Prop where
  size_le : core.memory.size ≤ Config.largest
  pc_le : core.pc.toNat ≤ core.memory.size
  straight : core.ExecutesOnly Event.straight

/-- The number of steps that are left if control goes straight on: one for each cell up to the end
of the memory, and one behind it. -/
def straightLeft (core : Core) : Nat := core.memory.size + 1 - core.pc.toNat

theorem GoesStraight.straightLeft_pos (hcore : core.GoesStraight) : 0 < core.straightLeft :=
  Nat.sub_pos_of_lt (Nat.lt_succ_of_le hcore.pc_le)

/-- A program that goes straight on keeps doing so, and has fewer steps left after each of them. -/
theorem GoesStraight.step (hcore : core.GoesStraight) (hrunning : core.halted = false)
    (hstep : core.step = ⟨after, some event, none⟩) (hrunning' : after.halted = false) :
    after.GoesStraight ∧ after.straightLeft < core.straightLeft := by
  obtain ⟨hsize, hpc, hstraight⟩ := hcore
  obtain ⟨_, hsame, hcurrent, heffect, hinside'⟩ := moved_of_step hrunning hstep
  obtain rfl := Option.some.inj hsame
  rw [executesOnly_iff, hstep] at hstraight
  have htarget := Event.target?_eq_none_of_straight (hstraight.1 _ rfl)
  have hsize' : after.memory.size = core.memory.size := by
    rw [heffect.memory_eq, Event.size_onMemory]
  have hwidth := one_le_width_of_effect heffect htarget hrunning'
  have hpc' := toNat_pc_of_effect hsize (inBounds_of_current hcurrent) heffect htarget
  have hless := toNat_pc_lt hinside'
  unfold straightLeft
  exact ⟨⟨by omega, by omega, hstraight.2⟩, by omega⟩

theorem descends_goesStraight : Descends GoesStraight straightLeft where
  positive hcore := hcore.straightLeft_pos
  lower hcore := hcore.step

/-- Steps that go straight on come to an end at the end of the memory at the latest. -/
theorem exists_runsIn_of_straight (hsize : core.memory.size ≤ Config.largest)
    (hpc : core.pc.toNat ≤ core.memory.size) (hrunning : core.halted = false)
    (hstraight : core.ExecutesOnly Event.straight) :
    ∃ count ≤ core.memory.size + 1 - core.pc.toNat, ∃ run, core.RunsIn count run :=
  descends_goesStraight.exists_runsIn ⟨hsize, hpc, hstraight⟩ hrunning

/-- Execution follows the disassembly. From the first cell on, whatever lies on the stacks, a
program that neither stores into the memory nor sends control elsewhere executes the instructions
that the disassembly of its memory shows, one after the other, and ends where the disassembly
says. -/
theorem follows_disassembly (hsize : core.memory.size ≤ Config.largest) (hpc : core.pc = 0) :
    core.FollowsDisassembly := by
  refine ⟨fun events after hpath hstraight ↦ followsWalk_of_path hsize hpc hpath hstraight, ?_⟩
  intro hrunning hstraight
  obtain ⟨count, hle, run, hruns⟩ :=
    exists_runsIn_of_straight hsize (by simp [hpc]) hrunning hstraight
  refine ⟨count, by omega, run, hruns, hruns.run_eq, ?_⟩
  have hevents := hruns.executesOnly_iff.mp hstraight
  obtain ⟨events, last, hpath, ⟨hhalted, rfl⟩ | ⟨hlast, after, event?, fault, hstep, rfl⟩⟩ :=
    hruns.exists_path
  · exact .halted hhalted rfl
  · have hbefore : ∀ event ∈ events, event.straight = true := by
      intro event hevent
      exact hevents event (by simp [hevent])
    have hfails : ∀ event ∈ event?, event.straight = true := by
      intro event hevent
      exact hevents event (by simp [Option.mem_def.mp hevent])
    have hwalk := onWalk_of_path hsize hpc hpath hbefore hlast
    exact hwalk.straightEnd hsize hlast hstep hfails rfl

/-- A program with operands that look like instructions, and without the last of them. -/
theorem follows_disassembly_off_the_end :
    let core : Core := ⟨.ready, ⟨#[0xFF00, 0xFF0F, 0xFF04, 0xFF0C, 0xFF00, 0xFF00]⟩⟩
    let before : Core := { core with pc := 5, dataStack := .ofList [0xFF0F] }
    core.memory.tokens = ["LIT", "-241", "DUP", "IF", "-256", "LIT"] ∧
      core.run 4 = some ⟨{ core with pc := 7, dataStack := .ofList [0xFF0F, 0] },
        #[.lit 0xFF0F, .dup 0xFF0F, .jumpIfZero 0xFF00 0xFF0F, .lit 0],
        some ⟨.pcOutOfBounds, 7⟩⟩ ∧
      core.FollowsWalk [.lit 0xFF0F, .dup 0xFF0F, .jumpIfZero 0xFF00 0xFF0F] before ∧
      ∃ count ≤ 6 + 1, ∃ run, core.RunsIn count run ∧ core.run (count + 1) = some run ∧
        core.StraightEnd run := by
  intro core before
  have hrun : core.run 4 = some ⟨{ core with pc := 7, dataStack := .ofList [0xFF0F, 0] },
      #[.lit 0xFF0F, .dup 0xFF0F, .jumpIfZero 0xFF00 0xFF0F, .lit 0],
      some ⟨.pcOutOfBounds, 7⟩⟩ := by decide
  have hfollows : core.FollowsDisassembly := follows_disassembly (by decide) rfl
  have hpath : Path core [.lit 0xFF0F, .dup 0xFF0F, .jumpIfZero 0xFF00 0xFF0F] before :=
    .cons rfl (.cons rfl (.cons rfl .nil))
  have hstraight : core.ExecutesOnly Event.straight :=
    (executesOnly_iff_of_run hrun).mpr (by decide)
  exact ⟨by decide +kernel, hrun, hfollows.follows_walk _ before hpath (by decide),
    hfollows.ends rfl hstraight⟩

end Core

end DualStack
