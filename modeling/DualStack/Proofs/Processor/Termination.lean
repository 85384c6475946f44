import DualStack.Config
import DualStack.Proofs.Processor.Runs

/-!
# Programs that come to an end

`Core.RunsIn core count run` says that running a core to its end takes `count` steps and comes to
`run`, and `Core.ExecutesOnly` that all instructions it executes, now or later, are of one kind. A
program comes to an end if each of its steps lowers a bound (`Core.Descends.exists_runsIn`), which
then bounds the number of its steps.

A loop needs something that leads back: a jump, or an address taken off the return stack. Without
either (`Event.forward`) control goes on through the memory or down into a call. There is room for
so many calls on the return stack, and between two of them control passes through the memory at
most once. `Core.runsIn_of_forward` turns this into a number of steps, whatever the program stores
into the memory on the way.
-/

set_option autoImplicit false
set_option relaxedAutoImplicit false

namespace DualStack

namespace Core

/-! ### Runs of a number of steps -/

/-- Running a core to its end takes so many steps, the one that fails included, and comes to a
given run. -/
inductive RunsIn : Core → Nat → Run → Prop
  | halted {core : Core} (hhalted : core.halted = true) : RunsIn core 0 ⟨core, #[], none⟩
  | failed {core after : Core} {event? : Option Event} {fault : Fault}
      (hrunning : core.halted = false) (hstep : core.step = ⟨after, event?, some fault⟩) :
      RunsIn core 1 core.step.toRun
  | followed {core after : Core} {event? : Option Event} {count : Nat} {rest : Run}
      (hrunning : core.halted = false) (hstep : core.step = ⟨after, event?, none⟩)
      (hrest : RunsIn after count rest) :
      RunsIn core (count + 1) (rest.behind core.step.toRun.events)

variable {core : Core} {count fuel : Nat} {run : Run}

/-- One unit of fuel more than there are steps is enough. -/
theorem RunsIn.run_eq (hruns : core.RunsIn count run) : core.run (count + 1) = some run := by
  induction hruns with
  | halted hhalted => exact advance_of_stop (by simp [untilHalted, hhalted])
  | failed hrunning hstep => exact advance_of_fault (untilHalted_of_running hrunning) hstep
  | followed hrunning hstep _ ih =>
    rw [Core.run, advance_of_step (untilHalted_of_running hrunning) hstep]
    exact congrArg (Option.map _) ih

/-- A run to the end is a number of steps. -/
theorem exists_runsIn_of_run (hrun : core.run fuel = some run) :
    ∃ count ≤ fuel, core.RunsIn count run := by
  unfold Core.run at hrun
  induction fuel generalizing core run with
  | zero => simp [advance] at hrun
  | succ fuel ih =>
    have hrunning : ∀ following, untilHalted () core = some following → core.halted = false := by
      intro following hrule
      by_contra hhalted
      simp [untilHalted, hhalted] at hrule
    cases advanceCases hrun with
    | stopped hrule => exact ⟨0, Nat.zero_le _, .halted (by simpa [untilHalted] using hrule)⟩
    | failed hrule hstep =>
      exact ⟨1, Nat.le_add_left 1 fuel, .failed (hrunning _ hrule) hstep⟩
    | followed hrule hstep hrest =>
      obtain ⟨count, hle, hruns⟩ := ih hrest
      exact ⟨count + 1, Nat.succ_le_succ hle, .followed (hrunning _ hrule) hstep hruns⟩

/-- A run ends with a fault or with the halt flag set. -/
theorem RunsIn.halted_or_fault (hruns : core.RunsIn count run) :
    run.core.halted = true ∨ ∃ fault, run.fault? = some fault := by
  induction hruns with
  | halted hhalted => exact .inl hhalted
  | failed _ hstep => exact .inr ⟨_, by rw [hstep]; rfl⟩
  | followed _ _ _ ih => exact ih

/-- A run is a row of steps that do not fail, up to a core that is halted or whose step fails. -/
theorem RunsIn.exists_path (hruns : core.RunsIn count run) :
    ∃ events last, Path core events last ∧
      (last.halted = true ∧ run = ⟨last, events.toArray, none⟩ ∨
        last.halted = false ∧ ∃ after event? fault, last.step = ⟨after, event?, some fault⟩ ∧
          run = ⟨after, (events ++ event?.toList).toArray, some fault⟩) := by
  induction hruns with
  | @halted core hhalted => exact ⟨[], core, .nil, .inl ⟨hhalted, rfl⟩⟩
  | @failed core after event? fault hrunning hstep =>
    exact ⟨[], core, .nil, .inr ⟨hrunning, after, event?, fault, hstep, by rw [hstep]; rfl⟩⟩
  | followed hrunning hstep _ ih =>
    obtain ⟨event, rfl, -⟩ := moved_of_step hrunning hstep
    obtain ⟨events, last, hpath, hend⟩ := ih
    refine ⟨event :: events, last, .cons hstep hpath, ?_⟩
    rw [hstep]
    obtain ⟨hhalted, rfl⟩ | ⟨hlast, after, event?, fault, hfails, rfl⟩ := hend
    · exact .inl ⟨hhalted, by simp [Run.behind, Transition.toRun]⟩
    · exact .inr ⟨hlast, after, event?, fault, hfails, by simp [Run.behind, Transition.toRun]⟩

/-! ### Kinds of events -/

/-- All instructions that a core executes in any number of steps are of one kind. -/
def ExecutesOnly (kind : Event → Bool) (core : Core) : Prop :=
  ∀ count, ∀ event ∈ core.eventsOf count, kind event = true

variable {kind : Event → Bool}

/-- What a core executes is what it executes in its first step, and afterwards. -/
theorem executesOnly_iff :
    core.ExecutesOnly kind ↔
      (∀ event ∈ core.step.event?, kind event = true) ∧ core.step.core.ExecutesOnly kind := by
  constructor
  · intro honly
    refine ⟨fun event hevent ↦ honly 1 event ?_,
      fun count event hevent ↦ honly (count + 1) event ?_⟩
    · simpa [eventsOf] using hevent
    · exact List.mem_append_right _ hevent
  · rintro ⟨hfirst, hrest⟩ (_ | count) event hevent
    · simp [eventsOf] at hevent
    · rcases List.mem_append.mp hevent with hevent | hevent
      · exact hfirst event (by simpa using hevent)
      · exact hrest count event hevent

theorem executesOnly_of_halted (hhalted : core.halted = true) : core.ExecutesOnly kind := by
  intro count event hevent
  induction count with
  | zero => simp [eventsOf] at hevent
  | succ count ih => exact ih (by simpa [eventsOf, step_of_halted hhalted] using hevent)

theorem executesOnly_of_fails {fault : Fault} (hfails : Fails fault core) :
    core.ExecutesOnly kind := by
  intro count event hevent
  induction count generalizing core with
  | zero => simp [eventsOf] at hevent
  | succ count ih =>
    obtain ⟨again, hstep⟩ := hfails
    exact ih (fails_of_step hstep) (by simpa [eventsOf, hstep] using hevent)

/-- A core with a run that comes to an end executes the instructions of the run. -/
theorem RunsIn.executesOnly_iff (hruns : core.RunsIn count run) :
    core.ExecutesOnly kind ↔ ∀ event ∈ run.events, kind event = true := by
  induction hruns with
  | halted hhalted => simp [executesOnly_of_halted hhalted]
  | failed hrunning hstep =>
    have hafter : ExecutesOnly kind _ := executesOnly_of_fails (fails_of_step hstep)
    rw [Core.executesOnly_iff, hstep]
    simp [Transition.toRun, hafter]
  | followed hrunning hstep hrest ih =>
    rw [Core.executesOnly_iff, hstep, ih]
    simp [Transition.toRun, or_imp, forall_and]

theorem executesOnly_iff_of_run (hrun : core.run fuel = some run) :
    core.ExecutesOnly kind ↔ ∀ event ∈ run.events, kind event = true := by
  obtain ⟨count, -, hruns⟩ := exists_runsIn_of_run hrun
  exact hruns.executesOnly_iff

/-! ### Bounds that every step lowers -/

/-- Every step that keeps a core running keeps an invariant and lowers a bound, which is not used up
as long as there is a step to take. -/
structure Descends (Invariant : Core → Prop) (bound : Core → Nat) : Prop where
  positive : ∀ {core : Core}, Invariant core → 0 < bound core
  lower : ∀ {core after : Core} {event : Event}, Invariant core → core.halted = false →
    core.step = ⟨after, some event, none⟩ → after.halted = false →
      Invariant after ∧ bound after < bound core

/-- A core with such an invariant comes to an end, and the bound limits the number of its steps. -/
theorem Descends.exists_runsIn {Invariant : Core → Prop} {bound : Core → Nat}
    (hdescends : Descends Invariant bound) (hcore : Invariant core)
    (hrunning : core.halted = false) :
    ∃ count ≤ bound core, ∃ run, core.RunsIn count run := by
  induction hbound : bound core using Nat.strongRecOn generalizing core with
  | ind steps ih =>
    have hone : 1 ≤ steps := hbound ▸ hdescends.positive hcore
    cases hstep : core.step with
    | mk after event? fault? =>
      cases fault? with
      | some fault => exact ⟨1, hone, _, .failed hrunning hstep⟩
      | none =>
        obtain ⟨event, rfl, -⟩ := moved_of_step hrunning hstep
        cases hhalted : after.halted with
        | true => exact ⟨1, hone, _, .followed hrunning hstep (.halted hhalted)⟩
        | false =>
          obtain ⟨hafter, hless⟩ := hdescends.lower hcore hrunning hstep hhalted
          obtain ⟨count, hle, run, hruns⟩ := ih (bound after) (hbound ▸ hless) hafter hhalted rfl
          exact ⟨count + 1, by omega, _, .followed hrunning hstep hruns⟩

end Core

/-! ### Control that never goes back -/

theorem Instruction.one_le_toNat_width {instruction : Instruction} (hexit : instruction ≠ .exit)
    (hhalt : instruction ≠ .halt) : 1 ≤ instruction.width.toNat := by
  cases instruction <;> simp_all [width]

namespace Event

/-- Nothing is taken off the return stack and no condition sends control away, so that control goes
on to the next instruction or into a call. -/
def forward : Event → Bool
  | exit _ | fromReturn _ => false
  | jumpIfZero _ condition => condition != 0
  | _ => true

variable {event : Event}

theorem call_or_target?_eq_none (hforward : event.forward = true) :
    (∃ target, event = call target) ∨ event.target? = none := by
  cases event <;> simp_all [forward, target?]

/-- The return stack does not become shorter. -/
theorem length_le_of_forward (hforward : event.forward = true) {back : Word}
    {before after : List Word} (hreturns : event.OnReturns back before after) :
    before.length ≤ after.length := by
  cases event <;> simp_all [forward, OnReturns]

end Event

namespace Core

variable {core after : Core} {event : Event}

/-- Control that goes on moves the program counter by the width of the instruction. -/
theorem toNat_pc_of_effect (hsize : core.memory.size ≤ Config.largest)
    (hinside : core.inBounds = true) (heffect : Effect core event after)
    (htarget : event.target? = none) :
    after.pc.toNat = core.pc.toNat + event.instruction.width.toNat := by
  rw [heffect.pc_eq, htarget]
  exact Config.toNat_add_of_lt (Nat.lt_of_lt_of_le (toNat_pc_lt hinside) hsize)
    event.instruction.toNat_width_le

/-- Control that goes on without a halt does not stay where it is. -/
theorem one_le_width_of_effect (heffect : Effect core event after) (htarget : event.target? = none)
    (hrunning : after.halted = false) : 1 ≤ event.instruction.width.toNat := by
  have hexit : event.instruction ≠ .exit := by
    cases event <;> simp_all [Event.target?, Event.instruction]
  have hhalt : event.instruction ≠ .halt := by
    intro hhalt
    simp [heffect.halted_eq, hhalt] at hrunning
  exact Instruction.one_le_toNat_width hexit hhalt

/-- The number of steps that are left if control never goes back: one for each cell up to the end of
the memory, and one for every cell for each call that the return stack has room for. -/
def stepsLeft (core : Core) : Nat :=
  (Stack.capacity - core.returnStack.depth) * core.memory.size +
    (core.memory.size - core.pc.toNat)

/-- A step with which control does not go back leaves fewer steps, unless it is the last one. -/
theorem stepsLeft_lt (hsize : core.memory.size ≤ Config.largest) (hinside : core.inBounds = true)
    (heffect : Effect core event after) (hforward : event.forward = true)
    (hrunning : after.halted = false) (hinside' : after.inBounds = true) :
    after.stepsLeft < core.stepsLeft := by
  have hsame : after.memory.size = core.memory.size := by
    rw [heffect.memory_eq, Event.size_onMemory]
  have hpc := toNat_pc_lt hinside
  have hpc' := toNat_pc_lt hinside'
  have hbounded : after.returnStack.depth ≤ Stack.capacity := after.returnStack.bounded
  unfold stepsLeft
  rcases Event.call_or_target?_eq_none hforward with ⟨target, rfl⟩ | htarget
  · -- A call may go anywhere in the memory, but it takes up room on the return stack.
    have hcells : after.returnStack.cells = (core.pc + 2) :: core.returnStack.cells :=
      heffect.onReturns
    have hdepth : after.returnStack.depth = core.returnStack.depth + 1 := by
      simp [Stack.depth, hcells]
    have hroom : Stack.capacity - core.returnStack.depth =
        (Stack.capacity - after.returnStack.depth) + 1 := by omega
    rw [hroom, Nat.succ_mul, hsame]
    omega
  · have hwidth := one_le_width_of_effect heffect htarget hrunning
    have hmoved := toNat_pc_of_effect hsize hinside heffect htarget
    have hdepth : core.returnStack.depth ≤ after.returnStack.depth :=
      Event.length_le_of_forward hforward heffect.onReturns
    have hrooms : (Stack.capacity - after.returnStack.depth) * core.memory.size ≤
        (Stack.capacity - core.returnStack.depth) * core.memory.size :=
      Nat.mul_le_mul_right _ (Nat.sub_le_sub_left hdepth _)
    rw [hsame]
    omega

/-- A core in a memory of configurable size whose program is within the memory and never goes
back. -/
structure GoesForward (core : Core) : Prop where
  size_le : core.memory.size ≤ Config.largest
  inside : core.inBounds = true
  forward : core.ExecutesOnly Event.forward

theorem GoesForward.stepsLeft_pos (hcore : core.GoesForward) : 0 < core.stepsLeft := by
  have hpc := toNat_pc_lt hcore.inside
  unfold stepsLeft
  omega

/-- A program that never goes back keeps doing so, and has fewer steps left after each of them. -/
theorem GoesForward.step (hcore : core.GoesForward) (hrunning : core.halted = false)
    (hstep : core.step = ⟨after, some event, none⟩) (hrunning' : after.halted = false) :
    after.GoesForward ∧ after.stepsLeft < core.stepsLeft := by
  obtain ⟨hsize, hinside, hforward⟩ := hcore
  obtain ⟨_, hsame, -, heffect, hinside'⟩ := moved_of_step hrunning hstep
  obtain rfl := Option.some.inj hsame
  rw [executesOnly_iff, hstep] at hforward
  have hsize' : after.memory.size ≤ Config.largest := by
    rwa [heffect.memory_eq, Event.size_onMemory]
  exact ⟨⟨hsize', hinside', hforward.2⟩,
    stepsLeft_lt hsize hinside heffect (hforward.1 _ rfl) hrunning' hinside'⟩

theorem descends_goesForward : Descends GoesForward stepsLeft where
  positive hcore := hcore.stepsLeft_pos
  lower hcore := hcore.step

/-- A program that never goes back comes to an end. From a core that is not halted, within a memory
of configurable size, a run that executes no exit, takes nothing off the return stack and jumps on
no condition ends after a limited number of steps, with a fault or with the halt flag set. What the
program stores, how it calls itself and what lies on the stacks does not matter. -/
theorem runsIn_of_forward (hsize : core.memory.size ≤ Config.largest)
    (hrunning : core.halted = false) (hinside : core.inBounds = true)
    (hforward : core.ExecutesOnly Event.forward) :
    ∃ count ≤ (Stack.capacity - core.returnStack.depth) * core.memory.size +
        (core.memory.size - core.pc.toNat),
      ∃ run, core.RunsIn count run ∧ core.run (count + 1) = some run ∧
        (run.core.halted = true ∨ ∃ fault, run.fault? = some fault) := by
  obtain ⟨count, hle, run, hruns⟩ :=
    descends_goesForward.exists_runsIn ⟨hsize, hinside, hforward⟩ hrunning
  exact ⟨count, hle, run, hruns, hruns.run_eq, hruns.halted_or_fault⟩

/-- A program that calls itself once it has put a halt instruction in the place of its first one. -/
theorem runsIn_of_forward_overwriting :
    let core : Core :=
      ⟨.ready, ⟨#[0xFF0D, 2, 0xFF00, 0xFF0F, 0xFF00, 0, 0xFF02, 0xFF0D, 0]⟩⟩
    let last : Core := ⟨{ Processor.ready with halted := true, returnStack := .ofList [2, 9] },
      ⟨#[0xFF0F, 2, 0xFF00, 0xFF0F, 0xFF00, 0, 0xFF02, 0xFF0D, 0]⟩⟩
    core.run 7 = some ⟨last,
        #[.call 2, .lit 0xFF0F, .lit 0, .store 0xFF0F 0, .call 0, .halt], none⟩ ∧
      ∃ count ≤ 255 * 9 + (9 - 0), ∃ run, core.RunsIn count run ∧
        core.run (count + 1) = some run ∧
          (run.core.halted = true ∨ ∃ fault, run.fault? = some fault) := by
  intro core last
  have hrun : core.run 7 = some ⟨last,
      #[.call 2, .lit 0xFF0F, .lit 0, .store 0xFF0F 0, .call 0, .halt], none⟩ := by decide
  have hforward : core.ExecutesOnly Event.forward :=
    (executesOnly_iff_of_run hrun).mpr (by decide)
  exact ⟨hrun, runsIn_of_forward (by decide) rfl (by decide) hforward⟩

end Core

end DualStack
