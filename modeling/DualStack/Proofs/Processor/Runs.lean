import DualStack.Proofs.Processor.Step

/-!
# Rows of steps

A row of steps that a rule cuts off (`Core.advance`) carries the events behind it along without
looking at them (`Core.advance_append`). It comes to nothing, to one step that fails, or to a step
and a row of steps behind it (`Core.AdvanceCases`), and stepping over to one of the latter two
(`Core.StepOverCases`). What every step keeps, every row of steps keeps (`Core.advance_invariant`,
`Core.run_invariant`, `Core.stepOver_invariant`).

`Path core events after` is a row of steps from `core` to `after` in which every step executes an
instruction and none fails. `Core.after` counts its steps instead, and `Core.eventsOf` lists what
they amount to.

A core on which every further step fails with one and the same fault `Fails`. A row of steps that
ends in a fault leaves such a core (`Core.fails_of_advance`).
-/

set_option autoImplicit false
set_option relaxedAutoImplicit false

namespace DualStack

/-- A row of steps with the events of an earlier row in front of its own. -/
def Run.behind (first : Array Event) (run : Run) : Run := { run with events := first ++ run.events }

@[simp] theorem Run.core_behind (first : Array Event) (run : Run) :
    (run.behind first).core = run.core := rfl

@[simp] theorem Run.fault?_behind (first : Array Event) (run : Run) :
    (run.behind first).fault? = run.fault? := rfl

@[simp] theorem Run.events_behind (first : Array Event) (run : Run) :
    (run.behind first).events = first ++ run.events := rfl

@[simp] theorem Run.behind_behind (first second : Array Event) (run : Run) :
    (run.behind second).behind first = run.behind (first ++ second) := by
  simp [Run.behind]

@[simp] theorem Run.behind_empty (run : Run) : run.behind #[] = run := by
  simp [Run.behind]

namespace Core

variable {α : Type} {rule : α → Core → Option α} {fuel : Nat} {watch : α} {core : Core} {run : Run}

theorem record_append (first events : Array Event) (event? : Option Event) :
    record (first ++ events) event? = first ++ record events event? := by
  cases event? <;> simp [record]

/-- The events behind a row of steps stay in front of its own and have no other influence. -/
theorem advance_append (first events : Array Event) :
    core.advance rule fuel watch (first ++ events) =
      (core.advance rule fuel watch events).map (Run.behind first) := by
  induction fuel generalizing watch events core with
  | zero => rfl
  | succ fuel ih =>
    unfold advance
    cases rule watch core with
    | none => rfl
    | some following =>
      obtain ⟨after, event?, _ | fault⟩ := core.step
      · simpa only [record_append] using ih (record events event?)
      · simp [record_append, Run.behind]

/-- The events behind a row of steps can be put in front of it afterwards. -/
theorem advance_eq_behind (events : Array Event) :
    core.advance rule fuel watch events =
      (core.advance rule fuel watch #[]).map (Run.behind events) := by
  simpa using advance_append events #[]

variable {following : α} {after : Core} {event? : Option Event}

theorem record_empty (event? : Option Event) : record #[] event? = event?.toList.toArray := by
  cases event? <;> rfl

theorem untilHalted_of_running (hrunning : core.halted = false) :
    untilHalted () core = some () := by
  simp [untilHalted, hrunning]

/-- A row of steps ends where the rule does not answer. -/
theorem advance_of_stop (hrule : rule watch core = none) :
    core.advance rule (fuel + 1) watch #[] = some ⟨core, #[], none⟩ := by
  simp [advance, hrule]

/-- A row of steps ends with a step that fails. -/
theorem advance_of_fault {fault : Fault} (hrule : rule watch core = some following)
    (hstep : core.step = ⟨after, event?, some fault⟩) :
    core.advance rule (fuel + 1) watch #[] = some core.step.toRun := by
  simp [advance, hrule, hstep, record_empty, Transition.toRun]

/-- A row of steps goes on behind a step that does not fail. -/
theorem advance_of_step (hrule : rule watch core = some following)
    (hstep : core.step = ⟨after, event?, none⟩) :
    core.advance rule (fuel + 1) watch #[] =
      (after.advance rule fuel following #[]).map (Run.behind core.step.toRun.events) := by
  rw [← advance_eq_behind]
  simp [advance, hrule, hstep, record_empty, Transition.toRun]

/-- The three things that a row of steps can come to: nothing, its first step alone, or that step
and a row of steps behind it. -/
inductive AdvanceCases (rule : α → Core → Option α) (fuel : Nat) (watch : α) (core : Core) :
    Run → Prop
  | stopped (hrule : rule watch core = none) : AdvanceCases rule fuel watch core ⟨core, #[], none⟩
  | failed {following : α} {after : Core} {event? : Option Event} {fault : Fault}
      (hrule : rule watch core = some following) (hstep : core.step = ⟨after, event?, some fault⟩) :
      AdvanceCases rule fuel watch core core.step.toRun
  | followed {following : α} {after : Core} {event? : Option Event} {rest : Run}
      (hrule : rule watch core = some following) (hstep : core.step = ⟨after, event?, none⟩)
      (hrest : after.advance rule fuel following #[] = some rest) :
      AdvanceCases rule fuel watch core (rest.behind core.step.toRun.events)

/-- A row of steps comes to one of the three things. -/
theorem advanceCases (hrun : core.advance rule (fuel + 1) watch #[] = some run) :
    AdvanceCases rule fuel watch core run := by
  cases hrule : rule watch core with
  | none =>
    obtain rfl := Option.some.inj ((advance_of_stop hrule).symm.trans hrun)
    exact .stopped hrule
  | some following =>
    cases hstep : core.step with
    | mk after event? fault? =>
      cases fault? with
      | some fault =>
        obtain rfl := Option.some.inj ((advance_of_fault hrule hstep).symm.trans hrun)
        exact .failed hrule hstep
      | none =>
        obtain ⟨rest, hrest, rfl⟩ := Option.map_eq_some_iff.mp
          ((advance_of_step hrule hstep).symm.trans hrun)
        exact .followed hrule hstep hrest

/-- Stepping over a step that fails is that step. -/
theorem stepOver_of_fault {fault : Fault} (hstep : core.step = ⟨after, event?, some fault⟩) :
    core.stepOver fuel = some core.step.toRun := by
  simp [stepOver, hstep, Transition.toRun]

/-- Stepping over goes on behind the first step, with one call open if that was a call. -/
theorem stepOver_of_step (hstep : core.step = ⟨after, event?, none⟩) :
    core.stepOver fuel =
      (after.advance untilReturned fuel (if core.current? = some .call then 1 else 0) #[]).map
        (Run.behind core.step.toRun.events) := by
  rw [← advance_eq_behind]
  simp [stepOver, hstep, Transition.toRun]

/-- The two things that stepping over a core can come to: its first step alone, if that fails, and
otherwise a row of steps behind it, with one call open if that was a call. -/
inductive StepOverCases (core : Core) (fuel : Nat) : Run → Prop
  | failed {after : Core} {event? : Option Event} {fault : Fault}
      (hstep : core.step = ⟨after, event?, some fault⟩) : StepOverCases core fuel core.step.toRun
  | followed {after : Core} {event? : Option Event} {rest : Run}
      (hstep : core.step = ⟨after, event?, none⟩)
      (hrest : after.advance untilReturned fuel (if core.current? = some .call then 1 else 0) #[] =
        some rest) :
      StepOverCases core fuel (rest.behind core.step.toRun.events)

/-- Stepping over comes to one of the two things. -/
theorem stepOverCases (hrun : core.stepOver fuel = some run) : StepOverCases core fuel run := by
  cases hstep : core.step with
  | mk after event? fault? =>
    cases fault? with
    | some fault =>
      obtain rfl := Option.some.inj ((stepOver_of_fault hstep).symm.trans hrun)
      exact .failed hstep
    | none =>
      obtain ⟨rest, hrest, rfl⟩ := Option.map_eq_some_iff.mp
        ((stepOver_of_step hstep).symm.trans hrun)
      exact .followed hstep hrest

/-! ### Invariants -/

section Invariants

variable {Invariant : Core → Prop} {Allowed : Fault → Prop}

/-- What every step keeps, every row of steps keeps, and its fault is one a step can have. -/
theorem advance_invariant
    (hstep : ∀ core, Invariant core →
      Invariant core.step.core ∧ ∀ fault ∈ core.step.fault?, Allowed fault)
    {events : Array Event} (hcore : Invariant core)
    (hrun : core.advance rule fuel watch events = some run) :
    Invariant run.core ∧ ∀ fault ∈ run.fault?, Allowed fault := by
  induction fuel generalizing watch events core with
  | zero => simp [advance] at hrun
  | succ fuel ih =>
    have hnext := hstep core hcore
    unfold advance at hrun
    split at hrun
    · obtain rfl := Option.some.inj hrun
      exact ⟨hcore, by simp⟩
    · split at hrun
      case h_1 after event? fault hequation =>
        obtain rfl := Option.some.inj hrun
        simpa [hequation] using hnext
      case h_2 after event? hequation =>
        rw [hequation] at hnext
        exact ih hnext.1 hrun

theorem run_invariant
    (hstep : ∀ core, Invariant core →
      Invariant core.step.core ∧ ∀ fault ∈ core.step.fault?, Allowed fault)
    (hcore : Invariant core) (hrun : core.run fuel = some run) :
    Invariant run.core ∧ ∀ fault ∈ run.fault?, Allowed fault :=
  advance_invariant hstep hcore hrun

theorem stepOver_invariant
    (hstep : ∀ core, Invariant core →
      Invariant core.step.core ∧ ∀ fault ∈ core.step.fault?, Allowed fault)
    (hcore : Invariant core) (hrun : core.stepOver fuel = some run) :
    Invariant run.core ∧ ∀ fault ∈ run.fault?, Allowed fault := by
  have hnext := hstep core hcore
  cases stepOverCases hrun with
  | failed => exact hnext
  | followed hfirst hrest =>
    rw [hfirst] at hnext
    have hkept := advance_invariant hstep hnext.1 hrest
    exact hkept

end Invariants

/-! ### Failing for good -/

/-- Every further step fails with this fault. -/
def Fails (fault : Fault) (core : Core) : Prop := ∃ again, core.step = ⟨again, none, some fault⟩

theorem fails_of_step {after : Core} {event? : Option Event} {fault : Fault}
    (hstep : core.step = ⟨after, event?, some fault⟩) : Fails fault after := by
  obtain ⟨_, again, hagain, _⟩ := step_fails_again hstep
  exact ⟨again, hagain⟩

/-- A row of steps that ends in a fault leaves a core that fails for good. -/
theorem fails_of_advance {events : Array Event} {fault : Fault}
    (hrun : core.advance rule fuel watch events = some run) (hfault : run.fault? = some fault) :
    Fails fault run.core := by
  induction fuel generalizing watch events core with
  | zero => simp [advance] at hrun
  | succ fuel ih =>
    unfold advance at hrun
    split at hrun
    · obtain rfl := Option.some.inj hrun
      simp at hfault
    · split at hrun
      case h_1 after event? met hstep =>
        obtain rfl := Option.some.inj hrun
        obtain rfl : met = fault := by simpa using hfault
        exact fails_of_step hstep
      case h_2 => exact ih hrun

end Core

/-! ### Paths -/

/-- A row of steps, with their events, each of which executes an instruction and does not fail. -/
inductive Path : Core → List Event → Core → Prop
  | nil {core : Core} : Path core [] core
  | cons {core between after : Core} {event : Event} {events : List Event}
      (hstep : core.step = ⟨between, some event, none⟩) (hrest : Path between events after) :
      Path core (event :: events) after

/-- The core after so many steps. -/
def Core.after : Nat → Core → Core
  | 0, core => core
  | count + 1, core => after count core.step.core

/-- One step more is one step behind the others. -/
theorem Core.after_succ (count : Nat) (core : Core) :
    core.after (count + 1) = (core.after count).step.core := by
  induction count generalizing core with
  | zero => rfl
  | succ count ih => exact ih core.step.core

/-- The events of so many steps. -/
def Core.eventsOf : Nat → Core → List Event
  | 0, _ => []
  | count + 1, core => core.step.event?.toList ++ eventsOf count core.step.core

/-- One step more adds its event behind the others. -/
theorem Core.eventsOf_succ (count : Nat) (core : Core) :
    core.eventsOf (count + 1) = core.eventsOf count ++ (core.after count).step.event?.toList := by
  induction count generalizing core with
  | zero => simp [eventsOf, after]
  | succ count ih =>
    rw [eventsOf, ih, ← List.append_assoc]
    rfl

/-- A path has one event for each of its steps. -/
theorem Path.eq_after {core after : Core} {events : List Event} (hpath : Path core events after) :
    after = core.after events.length := by
  induction hpath with
  | nil => rfl
  | cons hstep _ ih => simpa [Core.after, hstep] using ih

/-- The step of a path that amounts to one of its events. -/
theorem Path.step_after {core after : Core} {events : List Event} {event : Event} {index : Nat}
    (hpath : Path core events after) (hevent : events[index]? = some event) :
    (core.after index).step = ⟨core.after (index + 1), some event, none⟩ := by
  induction hpath generalizing index with
  | nil => simp at hevent
  | @cons core between _ first _ hstep _ ih =>
    have hbetween : core.step.core = between := by rw [hstep]
    cases index with
    | zero =>
      obtain rfl : first = event := by simpa using hevent
      rw [Core.after, Core.after, Core.after, hbetween, hstep]
    | succ index =>
      rw [Core.after, Core.after, hbetween]
      exact ih (by simpa using hevent)

end DualStack
