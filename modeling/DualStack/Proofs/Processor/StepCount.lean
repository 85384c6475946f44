import DualStack.Proofs.Processor.Runs

/-!
# How many steps an execution takes

An execution of any kind is a number of steps with their events (`Core.Traced`). The number can be
told without executing anything twice: `Core.Takes goesOn core count` says that it was to go on
before each of `count` steps, that none of them failed before the last one, and that the last one
failed or it was not to go on behind it. A row of steps that a rule cuts off takes a number of steps
in this sense (`Core.took_of_advance`), and so do runs to the end, single steps and steps over
(`Core.took_of_run`, `Core.took_one`, `Core.took_of_stepOver`).
-/

set_option autoImplicit false
set_option relaxedAutoImplicit false

namespace DualStack.Core

variable {core : Core} {count fuel : Nat} {run : Run}

/-- A run is so many steps of a core, with their events. -/
structure Traced (core : Core) (count : Nat) (run : Run) : Prop where
  core_eq : run.core = core.after count
  events_eq : run.events.toList = core.eventsOf count

theorem traced_step (core : Core) : core.Traced 1 core.step.toRun where
  core_eq := rfl
  events_eq := by simp [eventsOf, Transition.toRun]

/-- Steps behind a first one are one step more. -/
theorem Traced.behind {count : Nat} (htraced : core.step.core.Traced count run) :
    core.Traced (count + 1) (run.behind core.step.toRun.events) where
  core_eq := htraced.core_eq
  events_eq := by simp [eventsOf, Transition.toRun, htraced.events_eq]

/-- The fault of the last one of so many steps. -/
def lastFault? : Nat → Core → Option Fault
  | 0, _ => none
  | index + 1, core => (core.after index).step.fault?

/-- `core.Takes goesOn count`: an execution that goes on behind so many steps if `goesOn` says so,
and not behind a step that failed, takes `count` steps. -/
structure Takes (goesOn : Nat → Prop) (core : Core) (count : Nat) : Prop where
  /-- It was to go on before each of the steps. -/
  onward : ∀ index < count, goesOn index
  /-- No step has failed but the last one. -/
  clean : ∀ index < count, core.lastFault? index = none
  /-- If it was to go on, the last step has failed. -/
  ended : goesOn count → core.lastFault? count ≠ none

/-- An execution that takes a number of steps and has come to a run. -/
structure Took (goesOn : Nat → Prop) (core : Core) (count : Nat) (run : Run) : Prop where
  takes : core.Takes goesOn count
  traced : core.Traced count run
  fault?_eq : run.fault? = core.lastFault? count

/-- Behind a step that did not fail, the last fault is that of the steps behind it. -/
theorem lastFault?_succ (hclean : core.step.fault? = none) (count : Nat) :
    core.lastFault? (count + 1) = core.step.core.lastFault? count := by
  cases count with
  | zero => exact hclean
  | succ index => rfl

/-- An execution that was not to go on takes no step. -/
theorem took_nothing {goesOn : Nat → Prop} (hstop : ¬ goesOn 0) :
    core.Took goesOn 0 ⟨core, #[], none⟩ where
  takes := ⟨by simp, by simp, fun hon ↦ absurd hon hstop⟩
  traced := ⟨rfl, rfl⟩
  fault?_eq := rfl

/-- An execution that goes on, but not behind its first step, takes one step. -/
theorem took_one {goesOn : Nat → Prop} (hon : goesOn 0)
    (hended : goesOn 1 → core.step.fault? ≠ none) : core.Took goesOn 1 core.step.toRun where
  takes :=
    ⟨fun _ hindex ↦ Nat.lt_one_iff.mp hindex ▸ hon, fun _ hindex ↦ Nat.lt_one_iff.mp hindex ▸ rfl,
      hended⟩
  traced := traced_step core
  fault?_eq := rfl

/-- Steps behind a first one that did not fail are one step more. -/
theorem Took.behind {goesOn : Nat → Prop} (hon : goesOn 0) (hclean : core.step.fault? = none)
    (htook : core.step.core.Took (fun index ↦ goesOn (index + 1)) count run) :
    core.Took goesOn (count + 1) (run.behind core.step.toRun.events) where
  takes := by
    refine ⟨?_, ?_, ?_⟩
    · rintro (_ | index) hindex
      · exact hon
      · exact htook.takes.onward index (Nat.lt_of_succ_lt_succ hindex)
    · rintro (_ | index) hindex
      · rfl
      · rw [lastFault?_succ hclean]
        exact htook.takes.clean index (Nat.lt_of_succ_lt_succ hindex)
    · rw [lastFault?_succ hclean]
      exact htook.takes.ended
  traced := htook.traced.behind
  fault?_eq := htook.fault?_eq.trans (lastFault?_succ hclean count).symm

/-- A row of steps that a rule cuts off takes the steps for which the rule answers. What the rule
answers before each step is `watches`. -/
theorem took_of_advance {α : Type} {rule : α → Core → Option α} {watches : Nat → α}
    {goesOn : Nat → Prop}
    (hon : ∀ index following, rule (watches index) (core.after index) = some following →
      goesOn index ∧ following = watches (index + 1))
    (hstop : ∀ index, rule (watches index) (core.after index) = none → ¬ goesOn index)
    (hrun : core.advance rule fuel (watches 0) #[] = some run) :
    ∃ count, core.Took goesOn count run := by
  induction fuel generalizing core watches goesOn run with
  | zero => simp [advance] at hrun
  | succ fuel ih =>
    cases advanceCases hrun with
    | stopped hrule => exact ⟨0, took_nothing (hstop 0 hrule)⟩
    | failed hrule hstep => exact ⟨1, took_one (hon 0 _ hrule).1 fun _ ↦ by simp [hstep]⟩
    | @followed following after event? rest hrule hstep hrest =>
      obtain ⟨hfirst, rfl⟩ := hon 0 following hrule
      obtain rfl : core.step.core = after := by rw [hstep]
      have honRest (index : Nat) (following : α)
          (hrule : rule (watches (index + 1)) (core.step.core.after index) = some following) :
          goesOn (index + 1) ∧ following = watches (index + 2) := hon (index + 1) following hrule
      have hstopRest (index : Nat)
          (hrule : rule (watches (index + 1)) (core.step.core.after index) = none) :
          ¬ goesOn (index + 1) := hstop (index + 1) hrule
      obtain ⟨count, htook⟩ := ih honRest hstopRest hrest
      exact ⟨count + 1, htook.behind hfirst (by rw [hstep])⟩

/-- How many calls are open behind so many steps of a step over. -/
def openAfter : Nat → Core → Nat
  | 0, _ => 0
  | index + 1, core => (core.after index).openCalls (core.openAfter index)

/-- The first step of a step over opens a call if it is one. -/
theorem openAfter_one : core.openAfter 1 = if core.current? = some .call then 1 else 0 := by
  show core.openCalls 0 = _
  unfold openCalls
  split <;> simp_all

/-- A run to the end goes on until the core has halted. -/
theorem took_of_run (hrun : core.run fuel = some run) :
    ∃ count, core.Took (fun index ↦ (core.after index).halted = false) count run := by
  refine @took_of_advance _ _ _ Unit untilHalted (fun _ ↦ ()) _ ?_ ?_ hrun
  · intro index following hrule
    exact ⟨by simpa [untilHalted] using hrule, rfl⟩
  · intro index hrule
    simpa [untilHalted] using hrule

/-- A step over goes on behind its first step as long as a call is open and the core has not
halted. -/
theorem took_of_stepOver (hrun : core.stepOver fuel = some run) :
    ∃ count, core.Took
      (fun index ↦ index = 0 ∨ (core.after index).halted = false ∧ 0 < core.openAfter index)
      count run := by
  cases stepOverCases hrun with
  | failed hstep => exact ⟨1, took_one (.inl rfl) fun _ ↦ by simp [hstep]⟩
  | @followed after _ _ hstep hrest =>
    obtain rfl : core.step.core = after := by rw [hstep]
    rw [← openAfter_one] at hrest
    have hon (index following : Nat)
        (hrule : untilReturned (core.openAfter (index + 1)) (core.after (index + 1)) =
          some following) :
        ((core.after (index + 1)).halted = false ∧ 0 < core.openAfter (index + 1)) ∧
          following = core.openAfter (index + 2) := by
      obtain ⟨hgoes, hfollowing⟩ :
          ((core.after (index + 1)).halted = false ∧ 0 < core.openAfter (index + 1)) ∧
            (core.after (index + 1)).openCalls (core.openAfter (index + 1)) = following := by
        simpa [untilReturned, Nat.pos_iff_ne_zero] using hrule
      exact ⟨hgoes, hfollowing.symm⟩
    have hstop (index : Nat)
        (hrule : untilReturned (core.openAfter (index + 1)) (core.after (index + 1)) = none) :
        ¬ ((core.after (index + 1)).halted = false ∧ 0 < core.openAfter (index + 1)) := by
      simpa [untilReturned, Nat.pos_iff_ne_zero] using hrule
    obtain ⟨count, htook⟩ := @took_of_advance _ _ _ Nat untilReturned
      (fun index ↦ core.openAfter (index + 1)) _ hon hstop hrest
    refine ⟨count + 1, Took.behind (.inl rfl) (by rw [hstep]) ?_⟩
    simpa using htook

end DualStack.Core
