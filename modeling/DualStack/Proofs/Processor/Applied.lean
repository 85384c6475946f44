import DualStack.Proofs.Processor.Halting

/-!
# What the steps of an execution apply

A step applies an instruction (`Core.Applies`) if it finds the instruction and the core afterwards is
what the opcode table makes of the core before. This is visible in the event of the step
(`Core.applies_iff`), so that the events of a number of steps are those of the instructions applied
(`Core.appliesAll_eventsOf`). An instruction that a step finds without applying it is refused by the
stacks (`Core.step_of_not_applies`).
-/

set_option autoImplicit false
set_option relaxedAutoImplicit false

namespace DualStack.Core

variable {core : Core}

/-- The next step finds an instruction, and does what the opcode table says. -/
def Applies (core : Core) (instruction : Instruction) : Prop :=
  core.Dispatches instruction ∧
    ∃ event : Event, event.instruction = instruction ∧ Effect core event core.step.core

/-- `core.AppliesAll count instructions`: these are the instructions that so many steps apply, in
order. -/
inductive AppliesAll : Core → Nat → List Instruction → Prop
  | nil {core : Core} : AppliesAll core 0 []
  | applied {core : Core} {count : Nat} {instruction : Instruction}
      {instructions : List Instruction} (happlies : core.Applies instruction)
      (hrest : AppliesAll core.step.core count instructions) :
      AppliesAll core (count + 1) (instruction :: instructions)
  | skipped {core : Core} {count : Nat} {instructions : List Instruction}
      (hnone : ∀ instruction, ¬ core.Applies instruction)
      (hrest : AppliesAll core.step.core count instructions) :
      AppliesAll core (count + 1) instructions

/-- What a step applies is the instruction of its event. -/
theorem applies_iff {instruction : Instruction} :
    core.Applies instruction ↔ core.step.event?.map Event.instruction = some instruction := by
  cases core.stepCases with
  | halted hhalted hstep =>
    simp [Applies, Dispatches, hhalted, hstep]
  | outside _ houtside hstep =>
    simp [Applies, Dispatches, houtside, hstep]
  | undecodable _ _ hcurrent hstep =>
    simp [Applies, Dispatches, hcurrent, hstep]
  | @refused refused _ _ hcurrent hrefused hstep =>
    rw [hstep]
    refine ⟨?_, by simp⟩
    rintro ⟨hdispatches, event, rfl, heffect⟩
    obtain rfl := Option.some.inj (hcurrent.symm.trans hdispatches.2.2)
    exact absurd (Exec.accepts_of_effect heffect) hrefused
  | @moved event after hrunning hinside hcurrent heffect hstep =>
    constructor
    · rintro ⟨hdispatches, -⟩
      rw [hstep, Option.map_some, ← hcurrent, hdispatches.2.2]
    · intro hevent
      obtain rfl : event.instruction = instruction := by simpa [hstep] using hevent
      exact ⟨⟨hrunning, hinside, hcurrent⟩, event, rfl, by rwa [hstep]⟩

/-- An instruction that is found but not applied is refused by the stacks. -/
theorem step_of_not_applies {instruction : Instruction} (hdispatches : core.Dispatches instruction)
    (hnot : ¬ core.Applies instruction) :
    core.step = ⟨core.refused instruction, none, some ⟨.stack, core.pc⟩⟩ := by
  obtain ⟨hrunning, hinside, hcurrent⟩ := hdispatches
  cases core.stepCases with
  | halted hhalted => simp [hrunning] at hhalted
  | outside _ houtside => simp [hinside] at houtside
  | undecodable _ _ hnone => simp [hcurrent] at hnone
  | refused _ _ hfound _ hstep =>
    obtain rfl := Option.some.inj (hfound.symm.trans hcurrent)
    exact hstep
  | moved _ _ hfound heffect hstep =>
    obtain rfl := Option.some.inj (hfound.symm.trans hcurrent)
    exact absurd (applies_iff.mpr (by rw [hstep]; rfl)) hnot

/-- A step that applies an instruction has its event, and fails if control has left the memory. -/
theorem Applies.exists_step {instruction : Instruction} (happlies : core.Applies instruction) :
    ∃ event : Event, event.instruction = instruction ∧
      core.step = ⟨core.step.core, some event, core.step.core.bounds?⟩ := by
  have hevent := applies_iff.mp happlies
  cases core.stepCases with
  | halted _ hstep | outside _ _ hstep | undecodable _ _ _ hstep | refused _ _ _ _ hstep =>
    simp [hstep] at hevent
  | @moved event after _ _ _ _ hstep => exact ⟨event, by simpa [hstep] using hevent, by rw [hstep]⟩

/-- The instructions that a number of steps apply are those of their events. -/
theorem appliesAll_eventsOf (count : Nat) (core : Core) :
    core.AppliesAll count ((core.eventsOf count).map Event.instruction) := by
  induction count generalizing core with
  | zero => exact .nil
  | succ count ih =>
    rw [eventsOf, List.map_append]
    cases hevent : core.step.event? with
    | none =>
      refine .skipped (fun instruction happlies ↦ ?_) (ih core.step.core)
      simpa [hevent] using applies_iff.mp happlies
    | some event =>
      exact .applied (applies_iff.mpr (by rw [hevent]; rfl)) (ih core.step.core)

end DualStack.Core
