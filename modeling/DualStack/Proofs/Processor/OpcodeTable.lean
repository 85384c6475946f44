import DualStack.Proofs.Processor.Effect

/-!
# What every instruction does, and when

The opcode table (`Effect`) is complete: what it allows is what an instruction does.
`Exec.perform_of_effect` is the converse of `Exec.effect_of_perform`; it follows a rule through the
actions of the instruction, each of which finds on the stacks what the rule says is there.

`Exec.perform_followsTable` puts together what holds of every instruction on every core: the depths
of the stacks at which it takes effect, the fault at all others, and the effect. The five
combinations of two elements are told in integers as well (`Event.result?`): what they leave is the
residue of the exact result, so that a difference below zero wraps (`Effect.combines`).
-/

set_option autoImplicit false
set_option relaxedAutoImplicit false

namespace DualStack

/-! ### Combinations in integers -/

namespace Event

/-- The exact result that an event has for two unsigned numbers, before it is written into a word. -/
def result? : Event → Option (Nat → Nat → Int)
  | add => some fun left right ↦ (left : Int) + right
  | sub => some fun left right ↦ (left : Int) - right
  | and => some fun left right ↦ ((left &&& right : Nat) : Int)
  | or => some fun left right ↦ ((left ||| right : Nat) : Int)
  | xor => some fun left right ↦ ((left ^^^ right : Nat) : Int)
  | _ => none

/-- The combination of two words is the residue of the exact result. -/
theorem operation_eq_ofInt {event : Event} {operation : Word → Word → Word}
    {result : Nat → Nat → Int} (hoperation : event.operation? = some operation)
    (hresult : event.result? = some result) (left right : Word) :
    operation left right = Word.ofInt (result left.toNat right.toNat) := by
  have hleft := left.toNat_lt
  have hright := right.toNat_lt
  rcases of_operation? hoperation with rfl | rfl | rfl | rfl | rfl <;>
    obtain rfl := Option.some.inj hoperation <;> obtain rfl := Option.some.inj hresult <;>
    apply Word.eq_ofInt
  · simp only [UInt16.toNat_add]
    omega
  · simp only [UInt16.toNat_sub]
    omega
  · have hbound := Nat.and_lt_two_pow left.toNat hright
    simp only [UInt16.toNat_and]
    omega
  · have hbound := Nat.or_lt_two_pow hleft hright
    simp only [UInt16.toNat_or]
    omega
  · have hbound := Nat.xor_lt_two_pow hleft hright
    simp only [UInt16.toNat_xor]
    omega

end Event

/-- With one element below another on top, a combination leaves the residue of the exact result. -/
theorem Effect.combines {core after : Core} {event : Event} {result : Nat → Nat → Int}
    (heffect : Effect core event after) (hresult : event.result? = some result) :
    ∃ (right left : Word) (rest : List Word), core.dataStack.cells = right :: left :: rest ∧
      after.dataStack.cells = Word.ofInt (result left.toNat right.toNat) :: rest := by
  cases heffect
  case combine operation right left rest data hbefore hafter hoperation =>
    rw [Event.operation_eq_ofInt hoperation hresult] at hafter
    exact ⟨right, left, rest, hbefore, hafter⟩
  all_goals simp [Event.result?] at hresult

/-! ### The table is complete -/

/-- What lies below the top of a stack is a stack. -/
theorem Stack.exists_lower {stack : Stack} {top : Word} {rest : List Word}
    (hcells : stack.cells = top :: rest) : ∃ lower : Stack, lower.cells = rest :=
  ⟨stack.below, by simp [Stack.below, hcells]⟩

namespace Exec

variable {core after : Core}

theorem bind_of_ok {α β : Type} {first : Exec α} {second : α → Exec β} {value : α} {result : β}
    {between : Core} (hfirst : first core = .ok value between)
    (hsecond : second value between = .ok result after) :
    (first >>= second) core = .ok result after :=
  bind_eq_ok_iff.mpr ⟨value, between, hfirst, hsecond⟩

theorem popData_of_cells {top : Word} {data : Stack}
    (hcells : core.dataStack.cells = top :: data.cells) :
    popData core = .ok top { core with dataStack := data } :=
  popData_eq_ok_iff.mpr ⟨data, hcells, rfl⟩

theorem discard_popData_of_cells {top : Word} {data : Stack}
    (hcells : core.dataStack.cells = top :: data.cells) :
    (discard popData : Exec Unit) core = .ok () { core with dataStack := data } :=
  discard_popData_eq_ok_iff.mpr ⟨top, popData_of_cells hcells⟩

theorem pushData_of_cells {value : Word} {data : Stack}
    (hcells : data.cells = value :: core.dataStack.cells) :
    pushData value core = .ok () { core with dataStack := data } :=
  pushData_eq_ok_iff.mpr ⟨data, hcells, rfl⟩

theorem peekData_of_cells {top : Word} {rest : List Word}
    (hcells : core.dataStack.cells = top :: rest) : peekData core = .ok top core :=
  peekData_eq_ok_iff.mpr ⟨⟨rest, hcells⟩, rfl⟩

theorem peekTwo_of_cells {top below : Word} {rest : List Word}
    (hcells : core.dataStack.cells = top :: below :: rest) :
    peekTwo core = .ok (below, top) core :=
  peekTwo_eq_ok_iff.mpr ⟨⟨rest, hcells⟩, rfl⟩

theorem popReturn_of_cells {top : Word} {returns : Stack}
    (hcells : core.returnStack.cells = top :: returns.cells) :
    popReturn core = .ok top { core with returnStack := returns } :=
  popReturn_eq_ok_iff.mpr ⟨returns, hcells, rfl⟩

theorem pushReturn_of_cells {value : Word} {returns : Stack}
    (hcells : returns.cells = value :: core.returnStack.cells) :
    pushReturn value core = .ok () { core with returnStack := returns } :=
  pushReturn_eq_ok_iff.mpr ⟨returns, hcells, rfl⟩

/-- What the table allows is what an instruction does. -/
theorem perform_of_effect {event : Event} (heffect : Effect core event after) :
    perform event.instruction core = .ok event after := by
  apply perform_eq_ok_iff_act.mpr
  cases heffect with
  | lit hafter => exact ⟨_, bind_of_ok rfl <| bind_of_ok (pushData_of_cells hafter) rfl, rfl⟩
  | fetch hbefore hafter =>
    obtain ⟨lower, rfl⟩ := Stack.exists_lower hbefore
    exact ⟨_, bind_of_ok (popData_of_cells hbefore) <| bind_of_ok rfl <|
      bind_of_ok (pushData_of_cells hafter) rfl, rfl⟩
  | store hbefore =>
    obtain ⟨lower, hlower⟩ := Stack.exists_lower hbefore
    rw [← hlower] at hbefore
    exact ⟨_, bind_of_ok (popData_of_cells hbefore) <| bind_of_ok (popData_of_cells hlower) <|
      bind_of_ok rfl rfl, rfl⟩
  | drop hbefore => exact ⟨_, bind_of_ok (popData_of_cells hbefore) rfl, rfl⟩
  | dup hbefore hafter =>
    rw [← hbefore] at hafter
    exact ⟨_, bind_of_ok (peekData_of_cells hbefore) <|
      bind_of_ok (pushData_of_cells hafter) rfl, rfl⟩
  | copyBelow hbefore hafter =>
    rw [← hbefore] at hafter
    exact ⟨_, bind_of_ok (peekTwo_of_cells hbefore) <|
      bind_of_ok (pushData_of_cells hafter) rfl, rfl⟩
  | @swap top below rest data hbefore hafter =>
    obtain ⟨middle, hmiddle⟩ := Stack.exists_lower hbefore
    obtain ⟨lower, rfl⟩ := Stack.exists_lower hmiddle
    obtain ⟨upper, hupper⟩ := Stack.exists_lower hafter
    refine ⟨{ core with dataStack := data }, bind_of_ok (peekTwo_of_cells hbefore) ?_, rfl⟩
    rw [← hmiddle] at hbefore
    rw [← hupper] at hafter
    exact bind_of_ok (discard_popData_of_cells hbefore) <|
      bind_of_ok (discard_popData_of_cells hmiddle) <|
      bind_of_ok (pushData_of_cells hupper) <| bind_of_ok (pushData_of_cells hafter) rfl
  | @combine event operation right left rest data hoperation hbefore hafter =>
    have hcombine : combine operation core = .ok () { core with dataStack := data } :=
      combine_eq_ok_iff.mpr ⟨right, left, rest, data, hbefore, hafter, rfl⟩
    rcases Event.of_operation? hoperation with rfl | rfl | rfl | rfl | rfl <;>
      obtain rfl := Option.some.inj hoperation <;>
      exact ⟨_, bind_of_ok hcombine rfl, rfl⟩
  | @jumpIfZero condition data hbefore =>
    refine ⟨_, bind_of_ok (popData_of_cells hbefore) <| bind_of_ok rfl rfl, ?_⟩
    by_cases hzero : condition = 0 <;>
      simp [Event.target?, Event.instruction, Instruction.width, hzero]
  | call hafter =>
    exact ⟨_, bind_of_ok rfl <| bind_of_ok rfl <| bind_of_ok (pushReturn_of_cells hafter) rfl, rfl⟩
  | exit hbefore => exact ⟨_, bind_of_ok (popReturn_of_cells hbefore) rfl, rfl⟩
  | halt =>
    have hstays : core.pc + Instruction.halt.width = core.pc := UInt16.add_zero core.pc
    refine ⟨_, bind_of_ok rfl rfl, ?_⟩
    simp [Event.target?, Event.instruction, hstays]
  | toReturn hbefore hafter =>
    exact ⟨_, bind_of_ok (popData_of_cells hbefore) <|
      bind_of_ok (pushReturn_of_cells hafter) rfl, rfl⟩
  | fromReturn hbefore hafter =>
    exact ⟨_, bind_of_ok (popReturn_of_cells hbefore) <|
      bind_of_ok (pushData_of_cells hafter) rfl, rfl⟩

/-- The table is what an instruction does. -/
theorem perform_eq_ok_iff {instruction : Instruction} {event : Event} :
    perform instruction core = .ok event after ↔
      event.instruction = instruction ∧ Effect core event after := by
  constructor
  · exact effect_of_perform
  · rintro ⟨rfl, heffect⟩
    exact perform_of_effect heffect

theorem perform_of_not_accepts {instruction : Instruction}
    (hrefused : ¬ instruction.Accepts core.dataStack.depth core.returnStack.depth) :
    perform instruction core = .error ⟨.stack, core.pc⟩ (core.refused instruction) := by
  cases hperform : perform instruction core with
  | ok event after => exact absurd (perform_isOk_iff.mp ⟨event, after, hperform⟩) hrefused
  | error fault after =>
    obtain ⟨-, rfl, rfl⟩ := perform_eq_error hperform
    rfl

end Exec

/-- What there is to say about an instruction on a core, whatever the memory and the depths of the
stacks. -/
structure FollowsTable (core : Core) (instruction : Instruction) : Prop where
  /-- It takes effect exactly at the depths that it accepts. -/
  isOk_iff : (∃ event after, Exec.perform instruction core = .ok event after) ↔
    instruction.Accepts core.dataStack.depth core.returnStack.depth
  /-- At all other depths it ends with a stack fault at the program counter. -/
  of_not_accepts : ¬ instruction.Accepts core.dataStack.depth core.returnStack.depth →
    ∃ after, Exec.perform instruction core = .error ⟨.stack, core.pc⟩ after
  /-- The effect is what the table says, and nothing else. -/
  eq_ok_iff : ∀ event after, Exec.perform instruction core = .ok event after ↔
    event.instruction = instruction ∧ Effect core event after
  /-- A combination leaves the residue of the exact result. -/
  combines : ∀ event after result, Exec.perform instruction core = .ok event after →
    event.result? = some result →
      ∃ (right left : Word) (rest : List Word), core.dataStack.cells = right :: left :: rest ∧
        after.dataStack.cells = Word.ofInt (result left.toNat right.toNat) :: rest
  /-- What the table reads within the memory is the cell with that address, -/
  read_inside : ∀ (address cell : Word), core.memory.cells[address.toNat]? = some cell →
    core.memory.read address = cell
  /-- and what it reads beyond the memory is zero. -/
  read_outside : ∀ address : Word, core.memory.size ≤ address.toNat →
    core.memory.read address = 0
  /-- What it writes within the memory is read back, and no other cell changes, -/
  read_write : ∀ address value other : Word, (core.memory.write address value).read other =
    if address = other ∧ address.toNat < core.memory.size then value else core.memory.read other
  /-- nor does the number of cells, -/
  size_write : ∀ address value : Word, (core.memory.write address value).size = core.memory.size
  /-- and what it writes beyond the memory is dropped. -/
  write_outside : ∀ address value : Word, core.memory.size ≤ address.toNat →
    core.memory.write address value = core.memory

/-- Every instruction follows the opcode table on every core. -/
theorem Exec.perform_followsTable (core : Core) (instruction : Instruction) :
    FollowsTable core instruction where
  isOk_iff := perform_isOk_iff
  of_not_accepts hrefused := ⟨_, perform_of_not_accepts hrefused⟩
  eq_ok_iff _ _ := perform_eq_ok_iff
  combines _ _ _ hperform hresult := (effect_of_perform hperform).2.combines hresult
  read_inside _ _ := Memory.read_of_getElem?
  read_outside _ := Memory.read_of_size_le
  read_write := core.memory.read_write
  size_write := core.memory.size_write
  write_outside _ value := Memory.write_of_size_le value

/-- A difference below zero wraps. -/
example (memory : Memory) :
    ∃ after, Exec.perform .sub
      ⟨{ Processor.ready with dataStack := .ofList [9, 2, 5] }, memory⟩ = .ok .sub after ∧
        after.dataStack.cells = [0xFFFD, 9] :=
  ⟨_, rfl, rfl⟩

end DualStack
