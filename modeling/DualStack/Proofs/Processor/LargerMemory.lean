import DualStack.Proofs.Processor.Stores

/-!
# Programs in a larger memory

A core can be given a larger memory that starts with its own cells and is zero behind them
(`Core.enlarge`). An address outside the smaller memory reads as zero there, and so does the same
address in the larger one. No instruction can therefore tell the two apart, unless it stores a value
between the ends of the two memories (`Exec.oblivious_perform`).

What differs is when a program is found to have left the memory: a program counter behind the end of
the smaller memory may lie within the larger one, where it meets a zero, which is no instruction
(`Fault.inLarger`). A step that has just led out of the smaller memory fails there, but may be
followed in the larger one by the step that meets the zero (`Core.step_enlarge`). Runs to the end
come to the same core in the end (`Core.run_enlarge`).
-/

set_option autoImplicit false
set_option relaxedAutoImplicit false

namespace DualStack

/-! ### Memories -/

namespace Memory

@[simp] theorem size_ofCells (cells : Array Word) (size : Nat) :
    (ofCells cells size).size = max cells.size size := by
  simp only [ofCells, Memory.size, Array.size_append, Array.size_replicate]
  omega

/-- Cells behind the end read as zero whether or not they are there. -/
theorem read_ofCells (memory : Memory) (size : Nat) (address : Word) :
    (ofCells memory.cells size).read address = memory.read address := by
  unfold read ofCells
  rw [Array.getElem?_append]
  by_cases hinside : address.toNat < memory.cells.size
  · rw [if_pos hinside]
  · rw [if_neg hinside, Array.getElem?_replicate, Array.getElem?_eq_none (by omega)]
    split <;> rfl

/-- A write that falls into both memories or into neither can be made before or after. -/
theorem write_ofCells {memory : Memory} {size : Nat} {address : Word} (value : Word)
    (hfree : address.toNat < memory.size ∨ size ≤ address.toNat) :
    (ofCells memory.cells size).write address value =
      ofCells (memory.write address value).cells size := by
  unfold write ofCells
  unfold Memory.size at hfree
  rw [Array.size_setIfInBounds, Array.setIfInBounds_append]
  by_cases hinside : address.toNat < memory.cells.size
  · rw [if_pos hinside]
  · have hbehind : (Array.replicate (size - memory.cells.size) (0 : Word)).size ≤
        address.toNat - memory.cells.size := by
      rw [Array.size_replicate]
      omega
    rw [if_neg hinside, Array.setIfInBounds_eq_of_size_le hbehind,
      Array.setIfInBounds_eq_of_size_le (Nat.not_lt.mp hinside)]

/-- Cells that are followed by zeros twice are followed by zeros. -/
theorem ofCells_ofCells (cells : Array Word) {size larger : Nat} (hle : size ≤ larger) :
    ofCells (ofCells cells size).cells larger = ofCells cells larger := by
  simp only [ofCells, Array.size_append, Array.size_replicate, Array.append_assoc,
    Array.replicate_append_replicate]
  congr 3
  omega

end Memory

/-! ### Cores -/

/-- The core with a memory of at least a given size. -/
def Core.enlarge (size : Nat) (core : Core) : Core :=
  { core with memory := .ofCells core.memory.cells size }

theorem Core.dataStack_enlarge (size : Nat) (core : Core) :
    (core.enlarge size).dataStack = core.dataStack := rfl

theorem Core.returnStack_enlarge (size : Nat) (core : Core) :
    (core.enlarge size).returnStack = core.returnStack := rfl

namespace Exec

/-- An outcome with the core in it enlarged. -/
def enlargeOutcome {α : Type} (size : Nat) :
    EStateM.Result Fault Core α → EStateM.Result Fault Core α
  | .ok value core => .ok value (core.enlarge size)
  | .error fault core => .error fault (core.enlarge size)

/-- An action cannot tell a core from the enlarged one. -/
def Oblivious {α : Type} (size : Nat) (action : Exec α) (core : Core) : Prop :=
  action (core.enlarge size) = enlargeOutcome size (action core)

variable {α β : Type} {size : Nat} {core : Core}

theorem oblivious_pure (value : α) : Oblivious size (pure value) core := rfl

/-- An action behind another one has to be oblivious only where the first one leaves the core. -/
theorem Oblivious.bind {first : Exec α} {second : α → Exec β} (hfirst : Oblivious size first core)
    (hsecond : ∀ value between, first core = .ok value between →
      Oblivious size (second value) between) :
    Oblivious size (first >>= second) core := by
  show EStateM.bind first second (core.enlarge size) = enlargeOutcome size
    (EStateM.bind first second core)
  unfold EStateM.bind
  rw [hfirst]
  cases houtcome : first core with
  | error fault after => rfl
  | ok value between => exact hsecond value between houtcome

theorem Oblivious.discard {action : Exec α} (haction : Oblivious size action core) :
    Oblivious size (discard action) core := by
  show EStateM.map _ action (core.enlarge size) = enlargeOutcome size (EStateM.map _ action core)
  unfold EStateM.map
  rw [haction]
  cases action core <;> rfl

theorem oblivious_popData : Oblivious size popData core := by
  unfold Oblivious popData
  rw [Core.dataStack_enlarge]
  cases core.dataStack.pop? <;> rfl

theorem oblivious_pushData (value : Word) : Oblivious size (pushData value) core := by
  unfold Oblivious pushData
  rw [Core.dataStack_enlarge]
  cases core.dataStack.push? value <;> rfl

theorem oblivious_popReturn : Oblivious size popReturn core := by
  unfold Oblivious popReturn
  rw [Core.returnStack_enlarge]
  cases core.returnStack.pop? <;> rfl

theorem oblivious_pushReturn (value : Word) : Oblivious size (pushReturn value) core := by
  unfold Oblivious pushReturn
  rw [Core.returnStack_enlarge]
  cases core.returnStack.push? value <;> rfl

theorem oblivious_peekData : Oblivious size peekData core := by
  unfold Oblivious peekData
  rw [Core.dataStack_enlarge]
  cases core.dataStack.peek? <;> rfl

theorem oblivious_peekTwo : Oblivious size peekTwo core := by
  unfold Oblivious peekTwo
  rw [Core.dataStack_enlarge]
  cases core.dataStack.peekTwo? <;> rfl

theorem oblivious_load (address : Word) : Oblivious size (load address) core :=
  congrArg (EStateM.Result.ok · (core.enlarge size)) (core.memory.read_ofCells size address)

theorem oblivious_operand : Oblivious size operand core := oblivious_load (core.pc + 1)

theorem oblivious_returnAddress : Oblivious size returnAddress core := rfl

theorem oblivious_stop : Oblivious size stop core := rfl

theorem oblivious_save {address : Word} (value : Word)
    (hfree : address.toNat < core.memory.size ∨ size ≤ address.toNat) :
    Oblivious size (save address value) core := by
  have hwrite := Memory.write_ofCells value hfree
  show EStateM.Result.ok () { core with memory := (core.enlarge size).memory.write address value } =
    EStateM.Result.ok () { core with
      memory := .ofCells (core.memory.write address value).cells size }
  exact congrArg _ (congrArg (Core.mk core.toProcessor) hwrite)

theorem oblivious_proceed (event : Event) : Oblivious size (proceed event) core := rfl

theorem oblivious_combine (operation : Word → Word → Word) :
    Oblivious size (combine operation) core :=
  oblivious_popData.bind fun _ _ _ ↦ oblivious_popData.bind fun _ _ _ ↦ oblivious_pushData _

/-- No instruction can tell a core from the enlarged one, unless it stores a value between the ends
of the two memories. -/
theorem oblivious_act {instruction : Instruction}
    (hfree : instruction = .store → ∀ address value rest,
      core.dataStack.cells = address :: value :: rest →
      address.toNat < core.memory.size ∨ size ≤ address.toNat) :
    Oblivious size (act instruction) core := by
  cases instruction with
  | lit =>
    exact oblivious_operand.bind fun _ _ _ ↦ (oblivious_pushData _).bind fun _ _ _ ↦
      oblivious_pure _
  | fetch =>
    exact oblivious_popData.bind fun _ _ _ ↦ (oblivious_load _).bind fun _ _ _ ↦
      (oblivious_pushData _).bind fun _ _ _ ↦ oblivious_pure _
  | store =>
    refine oblivious_popData.bind fun address first hfirst ↦
      oblivious_popData.bind fun value second hsecond ↦
        Oblivious.bind (oblivious_save value ?_) fun _ _ _ ↦ oblivious_pure _
    obtain ⟨below, hcells, rfl⟩ := popData_eq_ok_iff.mp hfirst
    obtain ⟨rest, hbelow, rfl⟩ := popData_eq_ok_iff.mp hsecond
    exact hfree rfl address value rest.cells (by rw [hcells]; exact congrArg _ hbelow)
  | drop => exact oblivious_popData.bind fun _ _ _ ↦ oblivious_pure _
  | dup =>
    exact oblivious_peekData.bind fun _ _ _ ↦ (oblivious_pushData _).bind fun _ _ _ ↦
      oblivious_pure _
  | copyBelow =>
    exact oblivious_peekTwo.bind fun _ _ _ ↦ (oblivious_pushData _).bind fun _ _ _ ↦
      oblivious_pure _
  | swap =>
    exact oblivious_peekTwo.bind fun _ _ _ ↦ oblivious_popData.discard.bind fun _ _ _ ↦
      oblivious_popData.discard.bind fun _ _ _ ↦ (oblivious_pushData _).bind fun _ _ _ ↦
        (oblivious_pushData _).bind fun _ _ _ ↦ oblivious_pure _
  | add | sub | and | or | xor =>
    exact (oblivious_combine _).bind fun _ _ _ ↦ oblivious_pure _
  | jumpIfZero =>
    exact oblivious_popData.bind fun _ _ _ ↦ oblivious_operand.bind fun _ _ _ ↦ oblivious_pure _
  | call =>
    exact oblivious_operand.bind fun _ _ _ ↦ oblivious_returnAddress.bind fun _ _ _ ↦
      (oblivious_pushReturn _).bind fun _ _ _ ↦ oblivious_pure _
  | exit => exact oblivious_popReturn.bind fun _ _ _ ↦ oblivious_pure _
  | halt => exact oblivious_stop.bind fun _ _ _ ↦ oblivious_pure _
  | toReturn =>
    exact oblivious_popData.bind fun _ _ _ ↦ (oblivious_pushReturn _).bind fun _ _ _ ↦
      oblivious_pure _
  | fromReturn =>
    exact oblivious_popReturn.bind fun _ _ _ ↦ (oblivious_pushData _).bind fun _ _ _ ↦
      oblivious_pure _

theorem oblivious_perform {instruction : Instruction}
    (hfree : instruction = .store → ∀ address value rest,
      core.dataStack.cells = address :: value :: rest →
      address.toNat < core.memory.size ∨ size ≤ address.toNat) :
    Oblivious size (perform instruction) core :=
  (oblivious_act hfree).bind fun event _ _ ↦ (oblivious_proceed event).bind fun _ _ _ ↦
    oblivious_pure event

end Exec

/-! ### Steps -/

/-- The fault that is met in a memory of a given size in the place of one that is met in a smaller
memory. Behind the end of the smaller one are zeros. -/
def Fault.inLarger (size : Nat) (fault : Fault) : Fault :=
  if fault.cause = .pcOutOfBounds ∧ fault.pc.toNat < size then ⟨.notAnOpcode 0, fault.pc⟩
  else fault

/-- What a step comes to, with the core in it enlarged. -/
def Transition.enlarge (size : Nat) (transition : Transition) : Transition :=
  ⟨transition.core.enlarge size, transition.event?, transition.fault?.map (Fault.inLarger size)⟩

/-- What a row of steps comes to, with the core in it enlarged. -/
def Run.enlarge (size : Nat) (run : Run) : Run :=
  ⟨run.core.enlarge size, run.events, run.fault?.map (Fault.inLarger size)⟩

theorem Fault.inLarger_of_cause_ne {fault : Fault} (hcause : fault.cause ≠ .pcOutOfBounds)
    (size : Nat) : fault.inLarger size = fault :=
  if_neg fun hboth ↦ hcause hboth.1

theorem Fault.inLarger_of_le {fault : Fault} {size : Nat} (hbehind : size ≤ fault.pc.toNat) :
    fault.inLarger size = fault :=
  if_neg fun hboth ↦ Nat.not_lt.mpr hbehind hboth.2

theorem Fault.inLarger_of_lt {pc : Word} {size : Nat} (hbefore : pc.toNat < size) :
    Fault.inLarger size ⟨.pcOutOfBounds, pc⟩ = ⟨.notAnOpcode 0, pc⟩ :=
  if_pos ⟨rfl, hbefore⟩

namespace Core

variable {core : Core} {size : Nat}

@[simp] theorem size_enlarge (hle : core.memory.size ≤ size) :
    (core.enlarge size).memory.size = size :=
  (Memory.size_ofCells _ _).trans (Nat.max_eq_right hle)

@[simp] theorem current?_enlarge : (core.enlarge size).current? = core.current? :=
  congrArg Instruction.decode? (core.memory.read_ofCells size core.pc)

theorem inBounds_enlarge (hle : core.memory.size ≤ size) :
    (core.enlarge size).inBounds = decide (core.pc.toNat < size) := by
  show decide (core.pc.toNat < (core.enlarge size).memory.size) = _
  rw [size_enlarge hle]

theorem inBounds_enlarge_of_inBounds (hle : core.memory.size ≤ size)
    (hinside : core.inBounds = true) : (core.enlarge size).inBounds = true := by
  have hpc : core.pc.toNat < core.memory.size := of_decide_eq_true hinside
  rw [inBounds_enlarge hle]
  exact decide_eq_true (Nat.lt_of_lt_of_le hpc hle)

/-- A fault of the program counter is the one that is met in the larger memory. -/
theorem bounds?_enlarge_of_le (hle : core.memory.size ≤ size) (hbehind : size ≤ core.pc.toNat) :
    (core.enlarge size).bounds? = some ⟨.pcOutOfBounds, core.pc⟩ := by
  apply bounds?_eq_some_iff.mpr
  rw [inBounds_enlarge hle]
  exact ⟨decide_eq_false (Nat.not_lt.mpr hbehind), rfl⟩

/-- Outside the smaller memory the enlarged core fails as well, where it meets a zero or leaves the
larger memory. -/
theorem step_enlarge_of_outside (hle : core.memory.size ≤ size) (hrunning : core.halted = false)
    (houtside : core.inBounds = false) :
    (core.enlarge size).step =
      ⟨core.enlarge size, none, some (Fault.inLarger size ⟨.pcOutOfBounds, core.pc⟩)⟩ := by
  have hrunning' : (core.enlarge size).halted = false := hrunning
  by_cases hbefore : core.pc.toNat < size
  · have hbounds : (core.enlarge size).bounds? = none := by
      rw [bounds?_eq_none_iff, inBounds_enlarge hle]
      exact decide_eq_true hbefore
    have hzero : (core.enlarge size).memory.read (core.enlarge size).pc = 0 :=
      (core.memory.read_ofCells size core.pc).trans (read_of_not_inBounds houtside)
    have hcurrent : (core.enlarge size).current? = none := by
      rw [current?, hzero]
      decide
    rw [Fault.inLarger_of_lt hbefore]
    simp only [step, hrunning', hbounds, hcurrent, hzero]
    rfl
  · have hbehind : size ≤ core.pc.toNat := Nat.not_lt.mp hbefore
    rw [Fault.inLarger_of_le hbehind]
    simp only [step, hrunning', bounds?_enlarge_of_le hle hbehind]
    rfl

/-- The two ways in which a step of a core and of the enlarged one can go together. -/
inductive EnlargedStep (size : Nat) (core : Core) : Prop
  | alike (hstep : (core.enlarge size).step = core.step.enlarge size)
  /-- Control leaves the smaller memory but not the larger one, and so only the smaller core
  fails. -/
  | later {event : Event} {after : Core} (hrunning : after.halted = false)
      (houtside : after.inBounds = false) (hsize : after.memory.size ≤ size)
      (hleft : core.step = ⟨after, some event, some ⟨.pcOutOfBounds, after.pc⟩⟩)
      (hstep : (core.enlarge size).step = ⟨after.enlarge size, some event, none⟩)

/-- An instruction that takes effect leaves the smaller memory, or it leaves neither or both. -/
theorem step_enlarge_of_ok {instruction : Instruction} {event : Event} {after : Core}
    (hle : core.memory.size ≤ size) (hrunning : core.halted = false)
    (hinside : core.inBounds = true) (hcurrent : core.current? = some instruction)
    (hperform : Exec.perform instruction core = .ok event after)
    (hlarger : Exec.perform instruction (core.enlarge size) = .ok event (after.enlarge size)) :
    EnlargedStep size core := by
  obtain ⟨rfl, heffect⟩ := Exec.effect_of_perform hperform
  have hsize : after.memory.size ≤ size := by
    rw [heffect.memory_eq, Event.size_onMemory]
    exact hle
  have hstep : core.step = ⟨after, some event, after.bounds?⟩ := by
    rw [step_of_current hrunning hinside hcurrent, execute, hperform]
    rfl
  have hstep' : (core.enlarge size).step =
      ⟨after.enlarge size, some event, (after.enlarge size).bounds?⟩ := by
    rw [@step_of_current (core.enlarge size) event.instruction hrunning
      (inBounds_enlarge_of_inBounds hle hinside) (current?_enlarge.trans hcurrent), execute, hlarger]
    rfl
  by_cases hstays : after.inBounds = true
  · apply EnlargedStep.alike
    rw [hstep', hstep, bounds?_eq_none_iff.mpr hstays,
      bounds?_eq_none_iff.mpr (inBounds_enlarge_of_inBounds hsize hstays)]
    rfl
  · have houtside : after.inBounds = false := by simpa using hstays
    rw [bounds?_eq_some_iff.mpr ⟨houtside, rfl⟩] at hstep
    by_cases hbefore : after.pc.toNat < size
    · have hinside' : (after.enlarge size).inBounds = true :=
        (inBounds_enlarge hsize).trans (decide_eq_true hbefore)
      rw [bounds?_eq_none_iff.mpr hinside'] at hstep'
      exact .later (halted_of_leaves hrunning hinside heffect houtside) houtside hsize hstep hstep'
    · have hbehind : size ≤ after.pc.toNat := Nat.not_lt.mp hbefore
      apply EnlargedStep.alike
      rw [hstep', hstep, bounds?_enlarge_of_le hsize hbehind, Transition.enlarge,
        Option.map_some, Fault.inLarger_of_le hbehind]

/-- An instruction that is refused is refused all the same. -/
theorem step_enlarge_of_error {instruction : Instruction} {fault : Fault} {after : Core}
    (hle : core.memory.size ≤ size) (hrunning : core.halted = false)
    (hinside : core.inBounds = true) (hcurrent : core.current? = some instruction)
    (hperform : Exec.perform instruction core = .error fault after)
    (hlarger : Exec.perform instruction (core.enlarge size) = .error fault (after.enlarge size)) :
    EnlargedStep size core := by
  obtain ⟨-, hfault, -⟩ := Exec.perform_eq_error hperform
  have hcause : fault.cause ≠ .pcOutOfBounds := by
    rw [hfault]
    exact nofun
  apply EnlargedStep.alike
  rw [@step_of_current (core.enlarge size) instruction hrunning
    (inBounds_enlarge_of_inBounds hle hinside) (current?_enlarge.trans hcurrent),
    step_of_current hrunning hinside hcurrent, execute, execute, hperform, hlarger]
  show _ = Transition.mk (after.enlarge size) none (some (fault.inLarger size))
  rw [Fault.inLarger_of_cause_ne hcause]
  rfl

theorem step_enlarge_of_current {instruction : Instruction} (hle : core.memory.size ≤ size)
    (hdispatches : core.Dispatches instruction)
    (hfree : ∀ store ∈ core.pendingStore?, store.1 < core.memory.size ∨ size ≤ store.1) :
    EnlargedStep size core := by
  obtain ⟨hrunning, hinside, hcurrent⟩ := hdispatches
  have hblind : Exec.Oblivious size (Exec.perform instruction) core := by
    apply Exec.oblivious_perform
    rintro rfl address value rest hcells
    apply hfree (address.toNat, value)
    simp [pendingStore?, Dispatches, hrunning, hinside, hcurrent, hcells]
  unfold Exec.Oblivious at hblind
  cases hperform : Exec.perform instruction core with
  | ok event after =>
    rw [hperform] at hblind
    exact step_enlarge_of_ok hle hrunning hinside hcurrent hperform hblind
  | error fault after =>
    rw [hperform] at hblind
    exact step_enlarge_of_error hle hrunning hinside hcurrent hperform hblind

/-- A step goes one of the two ways, unless it stores a value between the ends of the two
memories. -/
theorem step_enlarge (hle : core.memory.size ≤ size)
    (hfree : ∀ store ∈ core.pendingStore?, store.1 < core.memory.size ∨ size ≤ store.1) :
    EnlargedStep size core := by
  cases core.stepCases with
  | halted hhalted hstep =>
    apply EnlargedStep.alike
    rw [hstep]
    exact step_of_halted hhalted
  | outside hrunning houtside hstep =>
    apply EnlargedStep.alike
    rw [hstep]
    exact step_enlarge_of_outside hle hrunning houtside
  | undecodable hrunning hinside hcurrent hstep =>
    have hrunning' : (core.enlarge size).halted = false := hrunning
    have hbounds := bounds?_eq_none_iff.mpr (inBounds_enlarge_of_inBounds hle hinside)
    have hcell : (core.enlarge size).memory.read (core.enlarge size).pc =
        core.memory.read core.pc := core.memory.read_ofCells size core.pc
    apply EnlargedStep.alike
    rw [hstep]
    simp only [step, hrunning', hbounds, current?_enlarge, hcurrent, hcell]
    rfl
  | refused hrunning hinside hcurrent _ _ | moved hrunning hinside hcurrent _ _ =>
    exact step_enlarge_of_current hle ⟨hrunning, hinside, hcurrent⟩ hfree

end Core

/-! ### Runs -/

/-- What a run stores, in order. -/
def Run.stores (run : Run) : List (Nat × Word) := run.events.toList.filterMap Event.stored?

theorem Run.stores_behind (first run : Run) :
    (run.behind first.events).stores = first.stores ++ run.stores := by
  unfold Run.stores
  rw [Run.events_behind, Array.toList_append, List.filterMap_append]

namespace Core

variable {core : Core} {size : Nat}

/-- What a step stores is stored by the row of this step. -/
theorem mem_stores_of_pending {store : Nat × Word} (hstore : store ∈ core.pendingStore?) :
    store ∈ core.step.toRun.stores := by
  rw [← stored?_of_step] at hstore
  obtain ⟨event, hevent, hstored⟩ := Option.bind_eq_some_iff.mp hstore
  simp [Run.stores, Transition.toRun, hevent, hstored]

/-- A step that leaves the smaller memory is the last but one in the larger memory. -/
theorem advance_enlarge_of_later {fuel : Nat} {event : Event} {after : Core}
    (hrule : untilHalted () core = some ()) (hafter : after.halted = false)
    (houtside : after.inBounds = false) (hsize : after.memory.size ≤ size)
    (hleft : core.step = ⟨after, some event, some ⟨.pcOutOfBounds, after.pc⟩⟩)
    (hstep : (core.enlarge size).step = ⟨after.enlarge size, some event, none⟩) :
    (core.enlarge size).advance untilHalted (fuel + 2) () #[] =
      some (core.step.toRun.enlarge size) := by
  have hfirst : untilHalted () (core.enlarge size) = some () := hrule
  have hsecond : untilHalted () (after.enlarge size) = some () := untilHalted_of_running hafter
  have hlast := step_enlarge_of_outside hsize hafter houtside
  rw [advance_of_step hfirst hstep, advance_of_fault hsecond hlast, hstep, hlast, hleft]
  rfl

/-- A run to the end that stores no value between the ends of the two memories ends in the larger
memory as well, at most one step later. -/
theorem run_enlarge {fuel : Nat} {run : Run} (hle : core.memory.size ≤ size)
    (hrun : core.run fuel = some run)
    (hfree : ∀ store ∈ run.stores, store.1 < core.memory.size ∨ size ≤ store.1) :
    (core.enlarge size).run (fuel + 1) = some (run.enlarge size) := by
  unfold Core.run at hrun ⊢
  induction fuel generalizing core run with
  | zero => simp [advance] at hrun
  | succ fuel ih =>
    cases advanceCases hrun with
    | stopped hrule => exact advance_of_stop hrule
    | @failed following after event? fault hrule hstep =>
      have hlarger : untilHalted () (core.enlarge size) = some following := hrule
      have hcases : EnlargedStep size core :=
        step_enlarge hle fun store hstore ↦ hfree store (mem_stores_of_pending hstore)
      cases hcases with
      | alike hsame =>
        have hfault : (core.enlarge size).step =
            ⟨after.enlarge size, event?, some (fault.inLarger size)⟩ := by
          rw [hsame, hstep]
          rfl
        rw [advance_of_fault hlarger hfault, hfault, hstep]
        rfl
      | later hafter houtside hsize hleft hstep' =>
        exact advance_enlarge_of_later hrule hafter houtside hsize hleft hstep'
    | @followed following after event? rest hrule hstep hrest =>
      have hlarger : untilHalted () (core.enlarge size) = some following := hrule
      rw [Run.stores_behind] at hfree
      have hcases : EnlargedStep size core := by
        apply step_enlarge hle
        intro store hstore
        exact hfree store (List.mem_append_left _ (mem_stores_of_pending hstore))
      cases hcases with
      | alike hsame =>
        have hclean : (core.enlarge size).step = ⟨after.enlarge size, event?, none⟩ := by
          rw [hsame, hstep]
          rfl
        have hsize : after.memory.size = core.memory.size := by
          have hkept := size_step core
          rwa [hstep] at hkept
        have hrest' : (after.enlarge size).advance untilHalted (fuel + 1) () #[] =
            some (rest.enlarge size) := by
          apply ih (hsize ▸ hle) hrest
          intro store hstore
          rw [hsize]
          exact hfree store (List.mem_append_right _ hstore)
        rw [advance_of_step hlarger hclean, hrest', hclean, hstep]
        rfl
      | later _ _ _ hleft _ => simp [hstep] at hleft

end Core

end DualStack
