import DualStack.Proofs.Processor.Halting
import Mathlib.Data.List.Induction

/-!
# Memory as the sum of stores

One instruction writes to the memory, and only if it finds an address and a value on the data stack
(`Core.pendingStore?`). This is visible in the events of a program: an event stores something
(`Event.stored?`) exactly when such an instruction was about to be executed
(`Core.stored?_of_step`).

A memory after any number of steps is therefore the memory before them with the stores of these
steps made one after the other (`Core.memory_after`), and a cell of it is what was stored there last
(`Memory.getElem?_storeAll`).
-/

set_option autoImplicit false
set_option relaxedAutoImplicit false

namespace DualStack

namespace Memory

/-- The memory with values stored at addresses, one after the other. A store outside the memory is
dropped. -/
def storeAll (memory : Memory) (stores : List (Nat × Word)) : Memory :=
  ⟨stores.foldl (fun cells store ↦ cells.setIfInBounds store.1 store.2) memory.cells⟩

/-- The value that was stored last at an address, if any was. -/
def lastStored? (stores : List (Nat × Word)) (address : Nat) : Option Word :=
  stores.reverse.lookup address

variable {memory : Memory} {index : Nat}

theorem storeAll_append (memory : Memory) (first second : List (Nat × Word)) :
    memory.storeAll (first ++ second) = (memory.storeAll first).storeAll second := by
  simp [storeAll]

@[simp] theorem size_storeAll (memory : Memory) (stores : List (Nat × Word)) :
    (memory.storeAll stores).size = memory.size := by
  induction stores generalizing memory with
  | nil => rfl
  | cons store stores ih =>
    have hfirst := ih ⟨memory.cells.setIfInBounds store.1 store.2⟩
    simpa [storeAll, size] using hfirst

theorem lastStored?_append_singleton (stores : List (Nat × Word)) (address : Nat) (value : Word) :
    lastStored? (stores ++ [(address, value)]) index =
      if index = address then some value else lastStored? stores index := by
  unfold lastStored?
  rw [List.reverse_append, List.reverse_singleton, List.singleton_append, List.lookup_cons]
  by_cases hsame : index = address
  · simp [hsame]
  · simp [hsame, beq_false_of_ne hsame]

/-- A cell of the memory is what was stored there last, and what it was if nothing was. -/
theorem getElem?_storeAll (hindex : index < memory.size) (stores : List (Nat × Word)) :
    (memory.storeAll stores).cells[index]? =
      (lastStored? stores index).or memory.cells[index]? := by
  induction stores using List.reverseRecOn with
  | nil => rfl
  | append_singleton stores store ih =>
    obtain ⟨address, value⟩ := store
    have hinside : index < (memory.storeAll stores).cells.size := by
      have hsize := size_storeAll memory stores
      unfold size at hsize
      rw [hsize]
      exact hindex
    rw [storeAll_append, lastStored?_append_singleton]
    show ((memory.storeAll stores).cells.setIfInBounds address value)[index]? = _
    rw [Array.getElem?_setIfInBounds]
    by_cases hsame : address = index
    · subst hsame
      simp [hinside]
    · simp [hsame, Ne.symm hsame, ih]

end Memory

/-- The address and the value that an event stores. -/
def Event.stored? : Event → Option (Nat × Word)
  | .store value address => some (address.toNat, value)
  | _ => none

theorem Event.onMemory_eq_storeAll (event : Event) (memory : Memory) :
    event.onMemory memory = memory.storeAll event.stored?.toList := by
  cases event <;> rfl

namespace Core

variable {core : Core}

instance (core : Core) (instruction : Instruction) : Decidable (core.Dispatches instruction) :=
  inferInstanceAs (Decidable (_ ∧ _ ∧ _))

/-- What the next step of a core stores, and at which address: it finds a store instruction to
execute, and both operands of it. -/
def pendingStore? (core : Core) : Option (Nat × Word) :=
  if core.Dispatches .store then
    match core.dataStack.cells with
    | address :: value :: _ => some (address.toNat, value)
    | _ => none
  else none

/-- The stores of so many steps. -/
def stores : Nat → Core → List (Nat × Word)
  | 0, _ => []
  | count + 1, core => core.pendingStore?.toList ++ stores count core.step.core

theorem pendingStore?_of_not_dispatches (hnot : ¬ core.Dispatches .store) :
    core.pendingStore? = none := if_neg hnot

/-- A store that lacks an operand stores nothing. -/
theorem pendingStore?_of_short (hshort : core.dataStack.depth < 2) : core.pendingStore? = none := by
  unfold pendingStore? Stack.depth at *
  rcases hcells : core.dataStack.cells with _ | ⟨address, _ | ⟨value, rest⟩⟩
  · simp
  · simp
  · rw [hcells, List.length_cons, List.length_cons] at hshort
    omega

/-- A step stores what was pending, and its event says so. -/
theorem stored?_of_step (core : Core) :
    core.step.event?.bind Event.stored? = core.pendingStore? := by
  cases core.stepCases with
  | halted hhalted hstep =>
    rw [hstep, pendingStore?_of_not_dispatches fun hstore ↦ by simp [hstore.1] at hhalted]
    rfl
  | outside _ houtside hstep =>
    rw [hstep, pendingStore?_of_not_dispatches fun hstore ↦ by simp [hstore.2.1] at houtside]
    rfl
  | undecodable _ _ hcurrent hstep =>
    rw [hstep, pendingStore?_of_not_dispatches fun hstore ↦ by simp [hstore.2.2] at hcurrent]
    rfl
  | @refused instruction _ _ hcurrent hrefused hstep =>
    rw [hstep]
    by_cases hstore : core.Dispatches .store
    · obtain rfl : .store = instruction := Option.some.inj (hstore.2.2.symm.trans hcurrent)
      exact (pendingStore?_of_short (Nat.not_le.mp hrefused)).symm
    · exact (pendingStore?_of_not_dispatches hstore).symm
  | @moved event after hrunning hinside hcurrent heffect hstep =>
    rw [hstep, Option.bind_some]
    by_cases hstore : core.Dispatches .store
    · have hevent : event.instruction = .store := Option.some.inj (hcurrent.symm.trans hstore.2.2)
      cases heffect with
      | store hbefore => simp [pendingStore?, hstore, hbefore, Event.stored?]
      | combine hoperation =>
        rcases Event.of_operation? hoperation with rfl | rfl | rfl | rfl | rfl <;>
          simp [Event.instruction] at hevent
      | _ => simp [Event.instruction] at hevent
    · have hevent : event.instruction ≠ .store := by
        intro hsame
        exact hstore ⟨hrunning, hinside, hsame ▸ hcurrent⟩
      rw [pendingStore?_of_not_dispatches hstore]
      cases event
      case store => exact absurd rfl hevent
      all_goals rfl

/-- The memory after a step is the memory before it with the pending store made. -/
theorem memory_step (core : Core) :
    core.step.core.memory = core.memory.storeAll core.pendingStore?.toList := by
  rw [← stored?_of_step]
  cases core.stepCases with
  | halted _ hstep | outside _ _ hstep | undecodable _ _ _ hstep =>
    rw [hstep]
    rfl
  | refused _ _ _ _ hstep =>
    rw [hstep]
    exact memory_refused _
  | moved _ _ _ heffect hstep =>
    rw [hstep]
    exact heffect.memory_eq.trans (Event.onMemory_eq_storeAll _ _)

/-- The memory after any number of steps is the memory before them with their stores made. -/
theorem memory_after (count : Nat) (core : Core) :
    (core.after count).memory = core.memory.storeAll (core.stores count) := by
  induction count generalizing core with
  | zero => rfl
  | succ count ih => rw [after, ih, memory_step, stores, Memory.storeAll_append]

/-- The stores of a number of steps are those that their events report. -/
theorem filterMap_stored?_eventsOf (count : Nat) (core : Core) :
    (core.eventsOf count).filterMap Event.stored? = core.stores count := by
  induction count generalizing core with
  | zero => rfl
  | succ count ih =>
    have hfirst : core.step.event?.toList.filterMap Event.stored? = core.pendingStore?.toList := by
      rw [← stored?_of_step]
      cases core.step.event? with
      | none => rfl
      | some event => cases hstored : event.stored? <;> simp [hstored]
    rw [eventsOf, stores, List.filterMap_append, hfirst, ih]

/-- A store outside the memory changes nothing. -/
theorem memory_step_of_outside {address value : Word} {rest : List Word}
    (hstore : core.Dispatches .store) (hcells : core.dataStack.cells = address :: value :: rest)
    (houtside : core.memory.size ≤ address.toNat) : core.step.core.memory = core.memory := by
  have hpending : core.pendingStore? = some (address.toNat, value) := by
    simp [pendingStore?, hstore, hcells]
  rw [memory_step, hpending]
  exact Memory.write_of_size_le value houtside

/-- A store that lacks an operand fails and changes nothing. -/
theorem memory_step_of_short (hstore : core.Dispatches .store)
    (hshort : core.dataStack.depth < 2) :
    core.step.fault? = some ⟨.stack, core.pc⟩ ∧ core.step.core.memory = core.memory := by
  constructor
  · cases core.stepCases with
    | halted hhalted => simp [hstore.1] at hhalted
    | outside _ houtside => simp [hstore.2.1] at houtside
    | undecodable _ _ hcurrent => simp [hstore.2.2] at hcurrent
    | refused _ _ _ _ hstep => rw [hstep]
    | moved _ _ hcurrent heffect =>
      have hinstruction := Option.some.inj (hcurrent.symm.trans hstore.2.2)
      have haccepts := Exec.accepts_of_effect heffect
      rw [hinstruction] at haccepts
      exact absurd haccepts (Nat.not_le.mpr hshort)
  · rw [memory_step, pendingStore?_of_short hshort]
    rfl

end Core

end DualStack
