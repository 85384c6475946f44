import DualStack.Proofs.Processor.Runs

/-!
# Stepping through a program and running it

Whoever watches a program executes it piece by piece (`Call`): one instruction at a time, or a whole
call at once. Such a piece begins the run of the program to its end (`Run.Begins`): a piece without
a fault stops where the run comes past, and a piece with a fault is the whole run. The amount of
fuel that is enough for the run is enough for every piece.

`performAll_transparent` puts the pieces together. Stepping through a program in any way and then
running it comes to the end that running it at once comes to. Behind a fault every further piece
is defined as well, since the core fails for good.
-/

set_option autoImplicit false
set_option relaxedAutoImplicit false

namespace DualStack

/-! ### The beginnings of a run -/

/-- A row of steps begins a run: it is the run if it ends in a fault, and otherwise the run is what
follows when its last core runs to the end. -/
def Run.Begins (part : Run) (fuel : Nat) (direct : Run) : Prop :=
  match part.fault? with
  | some _ => direct = part
  | none => ∃ rest, part.core.run fuel = some rest ∧ direct = rest.behind part.events

theorem Run.Begins.behind {fuel : Nat} {direct part : Run} (events : Array Event)
    (hbegins : part.Begins fuel direct) :
    (part.behind events).Begins fuel (direct.behind events) := by
  unfold Run.Begins at hbegins ⊢
  cases hfault : part.fault? with
  | some fault => simp_all
  | none =>
    obtain ⟨rest, hrest, rfl⟩ : ∃ rest, part.core.run fuel = some rest ∧ _ := by
      simpa [hfault] using hbegins
    simpa [hfault] using ⟨rest, hrest, rfl⟩

theorem Run.Begins.of_le {fuel more : Nat} {direct part : Run} (hle : fuel ≤ more)
    (hbegins : part.Begins fuel direct) : part.Begins more direct := by
  unfold Run.Begins at hbegins ⊢
  cases hfault : part.fault? with
  | some fault => simpa [hfault] using hbegins
  | none =>
    obtain ⟨rest, hrest, hdirect⟩ : ∃ rest, part.core.run fuel = some rest ∧ _ := by
      simpa [hfault] using hbegins
    exact ⟨rest, Core.advance_of_le hle hrest, hdirect⟩

namespace Core

variable {fuel : Nat} {core : Core} {direct : Run}

/-- The first step of a core that is not halted begins the run, and what follows needs one unit of
fuel less. -/
theorem step_begins_of_running (hrunning : core.halted = false)
    (hdirect : core.run (fuel + 1) = some direct) : core.step.toRun.Begins fuel direct := by
  have huntil := untilHalted_of_running hrunning
  cases hstep : core.step with
  | mk after event? fault? =>
    cases fault? with
    | some fault =>
      have hsame : some core.step.toRun = some direct :=
        (advance_of_fault huntil hstep).symm.trans hdirect
      rw [hstep] at hsame
      exact (Option.some.inj hsame).symm
    | none =>
      obtain ⟨rest, hrest, rfl⟩ := Option.map_eq_some_iff.mp
        ((advance_of_step huntil hstep).symm.trans hdirect)
      rw [hstep]
      exact ⟨rest, hrest, rfl⟩

/-- A single step begins the run. -/
theorem step_begins (hdirect : core.run fuel = some direct) :
    core.step.toRun.Begins fuel direct := by
  cases hhalted : core.halted with
  | true =>
    rw [step_of_halted hhalted]
    exact ⟨direct, hdirect, (Run.behind_empty direct).symm⟩
  | false =>
    cases fuel with
    | zero => simp [run, advance] at hdirect
    | succ fuel => exact (step_begins_of_running hhalted hdirect).of_le (Nat.le_succ fuel)

/-- A row of steps that a rule cuts off begins the run, if the rule lets a halted core alone. -/
theorem advance_begins {α : Type} {rule : α → Core → Option α}
    (hhalts : ∀ watch core, core.halted = true → rule watch core = none)
    (hdirect : core.run fuel = some direct) (watch : α) :
    ∃ part, core.advance rule fuel watch #[] = some part ∧ part.Begins fuel direct := by
  induction fuel generalizing watch core direct with
  | zero => simp [run, advance] at hdirect
  | succ fuel ih =>
    cases hrule : rule watch core with
    | none => exact ⟨_, advance_of_stop hrule, direct, hdirect, by simp⟩
    | some following =>
      have hrunning : core.halted = false := by
        by_contra hhalted
        simp [hhalts watch core (by simpa using hhalted)] at hrule
      have hfirst := step_begins_of_running hrunning hdirect
      cases hstep : core.step with
      | mk after event? fault? =>
        cases fault? with
        | some fault => exact ⟨_, advance_of_fault hrule hstep, hfirst.of_le (Nat.le_succ fuel)⟩
        | none =>
          rw [hstep] at hfirst
          obtain ⟨rest, hrest, rfl⟩ : ∃ rest, after.run fuel = some rest ∧ direct = _ := hfirst
          obtain ⟨part, hpart, hbegins⟩ := ih hrest following
          refine ⟨part.behind core.step.toRun.events, ?_, ?_⟩
          · rw [advance_of_step hrule hstep, hpart, Option.map_some]
          · rw [hstep]
            exact (hbegins.behind _).of_le (Nat.le_succ fuel)

/-- A step over begins the run, and the fuel of the run is enough for it. -/
theorem stepOver_begins (hdirect : core.run fuel = some direct) :
    ∃ part, core.stepOver fuel = some part ∧ part.Begins fuel direct := by
  have hfirst := step_begins hdirect
  cases hstep : core.step with
  | mk after event? fault? =>
    cases fault? with
    | some fault => exact ⟨_, stepOver_of_fault hstep, hfirst⟩
    | none =>
      rw [hstep] at hfirst
      obtain ⟨rest, hrest, rfl⟩ : ∃ rest, after.run fuel = some rest ∧ direct = _ := hfirst
      have hhalts : ∀ depth core, core.halted = true → untilReturned depth core = none := by
        intro depth core hhalted
        simp [untilReturned, hhalted]
      obtain ⟨part, hpart, hbegins⟩ :=
        advance_begins hhalts hrest (if core.current? = some .call then 1 else 0)
      refine ⟨part.behind core.step.toRun.events, ?_, ?_⟩
      · rw [stepOver_of_step hstep, hpart, Option.map_some]
      · rw [hstep]
        exact hbegins.behind _

end Core

/-! ### Execution piece by piece -/

/-- One piece of the execution of a program. -/
inductive Call
  /-- Execute one instruction. -/
  | stepInto
  /-- Execute one instruction, and at a call all that is called. -/
  | stepOver
  deriving DecidableEq, Repr

namespace Call

/-- Executes one piece. -/
def perform (fuel : Nat) (core : Core) : Call → Option Run
  | stepInto => some core.step.toRun
  | stepOver => core.stepOver fuel

/-- Executes pieces one after the other, each from the core that the one before left. -/
def performAll (fuel : Nat) (core : Core) : List Call → Option (List Run)
  | [] => some []
  | call :: calls =>
    (call.perform fuel core).bind fun run ↦ (performAll fuel run.core calls).map (run :: ·)

/-- The core that pieces executed one after the other leave. -/
def lastCore (core : Core) (runs : List Run) : Core := runs.foldl (fun _ run ↦ run.core) core

variable {fuel : Nat} {core : Core} {direct : Run}

theorem perform_begins (call : Call) (hdirect : core.run fuel = some direct) :
    ∃ part, call.perform fuel core = some part ∧ part.Begins fuel direct := by
  cases call with
  | stepInto => exact ⟨_, rfl, Core.step_begins hdirect⟩
  | stepOver => exact Core.stepOver_begins hdirect

/-- On a core that fails for good every piece is a step that fails. -/
theorem perform_of_fails {fault : Fault} (fuel : Nat) (call : Call)
    (hfails : Core.Fails fault core) :
    ∃ run, call.perform fuel core = some run ∧ Core.Fails fault run.core := by
  obtain ⟨again, hstep⟩ := hfails
  refine ⟨core.step.toRun, ?_, ?_⟩
  · cases call with
    | stepInto => rfl
    | stepOver => exact Core.stepOver_of_fault hstep
  · rw [hstep]
    exact Core.fails_of_step hstep

theorem performAll_of_fails {fault : Fault} (fuel : Nat) (calls : List Call)
    (hfails : Core.Fails fault core) :
    ∃ runs, performAll fuel core calls = some runs := by
  induction calls generalizing core with
  | nil => exact ⟨[], rfl⟩
  | cons call calls ih =>
    obtain ⟨run, hrun, hagain⟩ := perform_of_fails fuel call hfails
    obtain ⟨runs, hruns⟩ := ih hagain
    exact ⟨run :: runs, by simp [performAll, hrun, hruns]⟩

/-- What pieces executed one after the other have to do with running the core at once, which comes
to `direct`. -/
structure Transparent (fuel : Nat) (core : Core) (direct : Run) (runs : List Run) : Prop where
  /-- If no piece fails, running the core that they leave ends like running the core at once. -/
  run_behind : (∀ run ∈ runs, run.fault? = none) →
    ∃ rest, (lastCore core runs).run fuel = some rest ∧
      rest.fault? = direct.fault? ∧ rest.core = direct.core
  /-- The first piece that fails ends like running the core at once. -/
  first_fault : ∀ before run behind, runs = before ++ run :: behind →
    (∀ earlier ∈ before, earlier.fault? = none) → ∀ fault, run.fault? = some fault →
      direct.fault? = some fault ∧ run.core = direct.core

/-- A piece with a fault is the whole run, whatever pieces follow. -/
theorem Transparent.of_fault {fault : Fault} (hfault : direct.fault? = some fault)
    (runs : List Run) : Transparent fuel core direct (direct :: runs) where
  run_behind := by
    intro hnone
    simp [hnone direct List.mem_cons_self] at hfault
  first_fault := by
    intro before run behind hsplit hearlier met hmet
    cases before with
    | nil =>
      obtain ⟨rfl, rfl⟩ := List.cons.inj hsplit
      exact ⟨hmet, rfl⟩
    | cons first before =>
      obtain ⟨rfl, _⟩ := List.cons.inj hsplit
      simp [hearlier direct List.mem_cons_self] at hfault

/-- Behind a piece without a fault, the pieces have to do with the rest of the run. -/
theorem Transparent.cons {part rest : Run} {runs : List Run} (hclean : part.fault? = none)
    (hruns : Transparent fuel part.core rest runs) :
    Transparent fuel core (rest.behind part.events) (part :: runs) where
  run_behind := by
    intro hnone
    exact hruns.run_behind fun run hrun ↦ hnone run (List.mem_cons_of_mem part hrun)
  first_fault := by
    intro before run behind hsplit hearlier met hmet
    cases before with
    | nil =>
      obtain ⟨rfl, rfl⟩ := List.cons.inj hsplit
      simp [hmet] at hclean
    | cons first before =>
      obtain ⟨rfl, hrest⟩ := List.cons.inj hsplit
      exact hruns.first_fault before run behind hrest
        (fun earlier hmem ↦ hearlier earlier (List.mem_cons_of_mem part hmem)) met hmet

/-- Executing a program piece by piece does not change what it comes to. If running a core comes to
an end, then so does every piece of any row of them, behind a fault as well. -/
theorem performAll_transparent (hdirect : core.run fuel = some direct) (calls : List Call) :
    ∃ runs, performAll fuel core calls = some runs ∧ Transparent fuel core direct runs := by
  induction calls generalizing core direct with
  | nil => exact ⟨[], rfl, fun _ ↦ ⟨direct, hdirect, rfl, rfl⟩, by simp⟩
  | cons call calls ih =>
    obtain ⟨part, hpart, hbegins⟩ := perform_begins call hdirect
    cases hfault : part.fault? with
    | some fault =>
      obtain rfl : direct = part := by simpa [Run.Begins, hfault] using hbegins
      obtain ⟨runs, hruns⟩ := performAll_of_fails fuel calls (Core.fails_of_advance hdirect hfault)
      exact ⟨direct :: runs, by simp [performAll, hpart, hruns], .of_fault hfault runs⟩
    | none =>
      obtain ⟨rest, hrest, rfl⟩ : ∃ rest, part.core.run fuel = some rest ∧ direct = _ := by
        simpa [Run.Begins, hfault] using hbegins
      obtain ⟨runs, hruns, htransparent⟩ := ih hrest
      exact ⟨part :: runs, by simp [performAll, hpart, hruns], .cons hfault htransparent⟩

/-- Pieces over a call that returns, into an instruction that fails, and on behind the fault. -/
theorem performAll_transparent_of_fault :
    let core : Core := ⟨.ready, ⟨#[0xFF0D, 3, 0xFF03, 0xFF0E]⟩⟩
    let direct : Run := ⟨{ core with pc := 2 }, #[.call 3, .exit 2], some ⟨.stack, 2⟩⟩
    core.run 4 = some direct ∧
      ∃ runs, performAll 4 core [.stepOver, .stepInto, .stepOver] = some runs ∧
        Transparent 4 core direct runs :=
  ⟨by decide, performAll_transparent (by decide) _⟩

end Call

end DualStack
