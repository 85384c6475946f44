import DualStack.Processor.Perform
import Mathlib.Tactic.Common

/-!
# The opcode table

`Effect core event after` is the opcode table as a relation: an instruction that amounts to `event`
takes `core` to `after`. Each rule names the cells that an instruction consumes and those it leaves
behind, so that a rule without a stack to leave them on does not apply. The five instructions that
combine the two topmost elements share one rule.

`effect_of_perform` shows that an instruction that takes effect does what the table says. Most
arguments need one component of the table only: `Effect.pc_eq`, `Effect.halted_eq`,
`Effect.memory_eq` and `Effect.onReturns` say what becomes of each.

An instruction that does not take effect is refused by the stacks. `Instruction.Accepts` is the
condition on their depths, `perform_isOk_iff` shows that nothing else is asked, and
`perform_eq_error` that the fault is always a stack fault at the program counter and that the core
is left as `Core.refused` has it. What is lost then never helps a second attempt
(`not_accepts_refused`).
-/

set_option autoImplicit false
set_option relaxedAutoImplicit false

namespace DualStack

namespace Event

/-- The combination of the two topmost elements that an event stands for. -/
def operation? : Event → Option (Word → Word → Word)
  | add => some (· + ·)
  | sub => some (· - ·)
  | and => some (· &&& ·)
  | or => some (· ||| ·)
  | xor => some (· ^^^ ·)
  | _ => none

/-- What an event makes of the memory. -/
def onMemory : Event → Memory → Memory
  | store value address, memory => memory.write address value
  | _, memory => memory

/-- What an event makes of the cells of the return stack, listed from the top down, if a call would
leave the address `back` there. -/
def OnReturns (back : Word) : Event → List Word → List Word → Prop
  | call _, before, after => after = back :: before
  | toReturn value, before, after => after = value :: before
  | exit value, before, after | fromReturn value, before, after => before = value :: after
  | _, before, after => after = before

theorem onMemory_of_ne_store {event : Event} (hstore : event.instruction ≠ .store)
    (memory : Memory) : event.onMemory memory = memory := by
  cases event with
  | store value address => exact absurd rfl hstore
  | _ => rfl

/-- Five events combine the two topmost elements. -/
theorem of_operation? {event : Event} {operation : Word → Word → Word}
    (hoperation : event.operation? = some operation) :
    event = add ∨ event = sub ∨ event = and ∨ event = or ∨ event = xor := by
  cases event <;> simp_all [operation?]

end Event

/-- The opcode table. The words `cells` of a stack are listed from the top down. -/
inductive Effect (core : Core) : Event → Core → Prop
  /-- The operand comes to lie on the data stack. -/
  | lit {data : Stack}
      (hafter : data.cells = core.memory.read (core.pc + 1) :: core.dataStack.cells) :
      Effect core (.lit (core.memory.read (core.pc + 1)))
        { core with dataStack := data, pc := core.pc + 2 }
  /-- An address is replaced by the cell there. -/
  | fetch {address : Word} {rest : List Word} {data : Stack}
      (hbefore : core.dataStack.cells = address :: rest)
      (hafter : data.cells = core.memory.read address :: rest) :
      Effect core (.fetch address (core.memory.read address))
        { core with dataStack := data, pc := core.pc + 1 }
  /-- The value below an address is stored there. -/
  | store {address value : Word} {data : Stack}
      (hbefore : core.dataStack.cells = address :: value :: data.cells) :
      Effect core (.store value address)
        { core with
          dataStack := data, memory := core.memory.write address value, pc := core.pc + 1 }
  /-- The top is discarded. -/
  | drop {value : Word} {data : Stack} (hbefore : core.dataStack.cells = value :: data.cells) :
      Effect core (.drop value) { core with dataStack := data, pc := core.pc + 1 }
  /-- The top is there twice. -/
  | dup {value : Word} {rest : List Word} {data : Stack}
      (hbefore : core.dataStack.cells = value :: rest)
      (hafter : data.cells = value :: value :: rest) :
      Effect core (.dup value) { core with dataStack := data, pc := core.pc + 1 }
  /-- A copy of the second element lies on top. -/
  | copyBelow {top below : Word} {rest : List Word} {data : Stack}
      (hbefore : core.dataStack.cells = top :: below :: rest)
      (hafter : data.cells = below :: top :: below :: rest) :
      Effect core (.copyBelow below top) { core with dataStack := data, pc := core.pc + 1 }
  /-- The two topmost elements change places. -/
  | swap {top below : Word} {rest : List Word} {data : Stack}
      (hbefore : core.dataStack.cells = top :: below :: rest)
      (hafter : data.cells = below :: top :: rest) :
      Effect core (.swap below top) { core with dataStack := data, pc := core.pc + 1 }
  /-- The two topmost elements are combined, the topmost one on the right. -/
  | combine {event : Event} {operation : Word → Word → Word} {right left : Word}
      {rest : List Word} {data : Stack} (hoperation : event.operation? = some operation)
      (hbefore : core.dataStack.cells = right :: left :: rest)
      (hafter : data.cells = operation left right :: rest) :
      Effect core event { core with dataStack := data, pc := core.pc + 1 }
  /-- A condition is consumed; the operand is the next address if it is zero. -/
  | jumpIfZero {condition : Word} {data : Stack}
      (hbefore : core.dataStack.cells = condition :: data.cells) :
      Effect core (.jumpIfZero (core.memory.read (core.pc + 1)) condition)
        { core with
          dataStack := data
          pc := if condition = 0 then core.memory.read (core.pc + 1) else core.pc + 2 }
  /-- The address behind the operand goes to the return stack, the operand is the next address. -/
  | call {returns : Stack} (hafter : returns.cells = (core.pc + 2) :: core.returnStack.cells) :
      Effect core (.call (core.memory.read (core.pc + 1)))
        { core with returnStack := returns, pc := core.memory.read (core.pc + 1) }
  /-- The top of the return stack is the next address. -/
  | exit {target : Word} {returns : Stack}
      (hbefore : core.returnStack.cells = target :: returns.cells) :
      Effect core (.exit target) { core with returnStack := returns, pc := target }
  /-- The halt flag is set where the program stands. -/
  | halt : Effect core .halt { core with halted := true }
  /-- The top of the data stack goes to the return stack. -/
  | toReturn {value : Word} {data returns : Stack}
      (hbefore : core.dataStack.cells = value :: data.cells)
      (hafter : returns.cells = value :: core.returnStack.cells) :
      Effect core (.toReturn value)
        { core with dataStack := data, returnStack := returns, pc := core.pc + 1 }
  /-- The top of the return stack goes to the data stack. -/
  | fromReturn {value : Word} {data returns : Stack}
      (hbefore : core.returnStack.cells = value :: returns.cells)
      (hafter : data.cells = value :: core.dataStack.cells) :
      Effect core (.fromReturn value)
        { core with dataStack := data, returnStack := returns, pc := core.pc + 1 }

namespace Exec

/-! ### Actions one at a time -/

variable {α β : Type} {core after : Core} {fault : Fault}

/-- An action followed by another succeeds when both do. -/
theorem bind_eq_ok_iff {first : Exec α} {second : α → Exec β} {result : β} :
    (first >>= second) core = .ok result after ↔
      ∃ value between,
        first core = .ok value between ∧ second value between = .ok result after := by
  change EStateM.bind first second core = _ ↔ _
  unfold EStateM.bind
  cases first core <;> simp

/-- An action followed by another fails when the first one fails, or the second one behind it. -/
theorem bind_eq_error_iff {first : Exec α} {second : α → Exec β} :
    (first >>= second) core = .error fault after ↔
      first core = .error fault after ∨
        ∃ value between, first core = .ok value between ∧
          second value between = .error fault after := by
  change EStateM.bind first second core = _ ↔ _
  unfold EStateM.bind
  cases first core <;> simp

theorem pure_eq_ok_iff {value result : α} :
    (pure value : Exec α) core = .ok result after ↔ value = result ∧ core = after := by
  change EStateM.Result.ok value core = _ ↔ _
  simp

theorem pure_ne_error {value : α} : (pure value : Exec α) core ≠ .error fault after := by
  change EStateM.Result.ok value core ≠ _
  simp

theorem popData_eq_ok_iff {top : Word} :
    popData core = .ok top after ↔
      ∃ below : Stack, core.dataStack.cells = top :: below.cells ∧
        after = { core with dataStack := below } := by
  simp only [popData, ← Stack.pop?_eq_some_iff]
  cases hpop : core.dataStack.pop? <;> simp [stackFault]
  grind

theorem popData_eq_error_iff :
    popData core = .error fault after ↔
      core.dataStack.cells = [] ∧ fault = ⟨.stack, core.pc⟩ ∧ after = core := by
  simp only [popData, ← Stack.pop?_eq_none_iff]
  cases hpop : core.dataStack.pop? <;> simp [stackFault, eq_comm]

theorem pushData_eq_ok_iff {value : Word} {result : Unit} :
    pushData value core = .ok result after ↔
      ∃ higher : Stack, higher.cells = value :: core.dataStack.cells ∧
        after = { core with dataStack := higher } := by
  simp only [pushData, ← Stack.push?_eq_some_iff]
  cases hpush : core.dataStack.push? value <;> simp [stackFault, eq_comm]

theorem pushData_eq_error_iff {value : Word} :
    pushData value core = .error fault after ↔
      Stack.capacity ≤ core.dataStack.depth ∧ fault = ⟨.stack, core.pc⟩ ∧ after = core := by
  simp only [pushData, ← @Stack.push?_eq_none_iff _ value]
  cases hpush : core.dataStack.push? value <;> simp [stackFault, eq_comm]

theorem popReturn_eq_ok_iff {top : Word} :
    popReturn core = .ok top after ↔
      ∃ below : Stack, core.returnStack.cells = top :: below.cells ∧
        after = { core with returnStack := below } := by
  simp only [popReturn, ← Stack.pop?_eq_some_iff]
  cases hpop : core.returnStack.pop? <;> simp [stackFault]
  grind

theorem popReturn_eq_error_iff :
    popReturn core = .error fault after ↔
      core.returnStack.cells = [] ∧ fault = ⟨.stack, core.pc⟩ ∧ after = core := by
  simp only [popReturn, ← Stack.pop?_eq_none_iff]
  cases hpop : core.returnStack.pop? <;> simp [stackFault, eq_comm]

theorem pushReturn_eq_ok_iff {value : Word} {result : Unit} :
    pushReturn value core = .ok result after ↔
      ∃ higher : Stack, higher.cells = value :: core.returnStack.cells ∧
        after = { core with returnStack := higher } := by
  simp only [pushReturn, ← Stack.push?_eq_some_iff]
  cases hpush : core.returnStack.push? value <;> simp [stackFault, eq_comm]

theorem pushReturn_eq_error_iff {value : Word} :
    pushReturn value core = .error fault after ↔
      Stack.capacity ≤ core.returnStack.depth ∧ fault = ⟨.stack, core.pc⟩ ∧ after = core := by
  simp only [pushReturn, ← @Stack.push?_eq_none_iff _ value]
  cases hpush : core.returnStack.push? value <;> simp [stackFault, eq_comm]

theorem peekData_eq_ok_iff {top : Word} :
    peekData core = .ok top after ↔
      (∃ rest, core.dataStack.cells = top :: rest) ∧ core = after := by
  unfold peekData Stack.peek?
  cases core.dataStack.cells <;> simp [stackFault]

theorem peekData_eq_error_iff :
    peekData core = .error fault after ↔
      core.dataStack.cells = [] ∧ fault = ⟨.stack, core.pc⟩ ∧ after = core := by
  unfold peekData Stack.peek?
  cases core.dataStack.cells <;> simp [stackFault, eq_comm]

theorem peekTwo_eq_ok_iff {pair : Word × Word} :
    peekTwo core = .ok pair after ↔
      (∃ rest, core.dataStack.cells = pair.2 :: pair.1 :: rest) ∧ core = after := by
  unfold peekTwo Stack.peekTwo?
  rcases core.dataStack.cells with _ | ⟨first, _ | ⟨second, rest⟩⟩ <;>
    simp [stackFault, Prod.ext_iff, and_comm, eq_comm]

theorem peekTwo_eq_error_iff :
    peekTwo core = .error fault after ↔
      core.dataStack.cells.length < 2 ∧ fault = ⟨.stack, core.pc⟩ ∧ after = core := by
  unfold peekTwo Stack.peekTwo?
  rcases core.dataStack.cells with _ | ⟨first, _ | ⟨second, rest⟩⟩
  · simp [stackFault, eq_comm]
  · simp [stackFault, eq_comm]
  · have hlong : ¬ (first :: second :: rest).length < 2 := by
      rw [List.length_cons, List.length_cons]
      omega
    simp only [hlong, false_and, reduceCtorEq]

/-! ### The table -/

/-- The five instructions that combine the two topmost elements follow one rule. -/
theorem combine_eq_ok_iff {operation : Word → Word → Word} {result : Unit} :
    combine operation core = .ok result after ↔
      ∃ (right left : Word) (rest : List Word) (data : Stack),
        core.dataStack.cells = right :: left :: rest ∧
          data.cells = operation left right :: rest ∧ after = { core with dataStack := data } := by
  simp only [combine, bind_eq_ok_iff, popData_eq_ok_iff, pushData_eq_ok_iff]
  constructor
  · rintro ⟨right, _, ⟨first, hfirst, rfl⟩, left, _, ⟨second, hsecond, rfl⟩, data, hdata, rfl⟩
    exact ⟨right, left, second.cells, data, hsecond ▸ hfirst, hdata, rfl⟩
  · rintro ⟨right, left, rest, data, hbefore, hdata, rfl⟩
    have hbounded := core.dataStack.bounded
    rw [hbefore] at hbounded
    exact ⟨right, _, ⟨⟨left :: rest, Nat.le_of_succ_le hbounded⟩, hbefore, rfl⟩, left, _,
      ⟨⟨rest, Nat.le_of_succ_le (Nat.le_of_succ_le hbounded)⟩, rfl, rfl⟩, data, hdata, rfl⟩

theorem discard_popData_eq_ok_iff {result : Unit} :
    discard popData core = .ok result after ↔ ∃ top, popData core = .ok top after := by
  change EStateM.map (fun _ ↦ ()) popData core = _ ↔ _
  unfold EStateM.map
  cases popData core <;> simp

theorem discard_popData_eq_error_iff :
    (discard popData : Exec Unit) core = .error fault after ↔
      popData core = .error fault after := by
  change EStateM.map (fun _ ↦ ()) popData core = _ ↔ _
  unfold EStateM.map
  cases popData core <;> simp

/-- An instruction acts first, and then control goes where the event sends it. -/
theorem perform_eq_ok_iff_act {instruction : Instruction} {event : Event} :
    perform instruction core = .ok event after ↔
      ∃ between, act instruction core = .ok event between ∧
        { between with
          pc := event.target?.getD (between.pc + event.instruction.width) } = after := by
  simp only [perform, bind_eq_ok_iff, proceed, pure_eq_ok_iff, EStateM.Result.ok.injEq]
  constructor
  · rintro ⟨_, between, hact, _, _, ⟨-, rfl⟩, rfl, rfl⟩
    exact ⟨between, hact, rfl⟩
  · rintro ⟨between, hact, rfl⟩
    exact ⟨event, between, hact, (), _, ⟨trivial, rfl⟩, rfl, rfl⟩

/-- An instruction that takes effect does what the opcode table says. -/
theorem effect_of_perform {instruction : Instruction} {event : Event}
    (hperform : perform instruction core = .ok event after) :
    event.instruction = instruction ∧ Effect core event after := by
  obtain ⟨between, hact, rfl⟩ := perform_eq_ok_iff_act.mp hperform
  cases instruction <;>
    simp only [act, bind_eq_ok_iff, popData_eq_ok_iff, pushData_eq_ok_iff, popReturn_eq_ok_iff,
      pushReturn_eq_ok_iff, peekData_eq_ok_iff, peekTwo_eq_ok_iff, discard_popData_eq_ok_iff,
      combine_eq_ok_iff, pure_eq_ok_iff, load, save, operand, returnAddress, stop,
      EStateM.Result.ok.injEq] at hact
  case lit =>
    obtain ⟨_, _, ⟨rfl, rfl⟩, _, _, ⟨data, hdata, rfl⟩, rfl, rfl⟩ := hact
    exact ⟨rfl, .lit hdata⟩
  case fetch =>
    obtain ⟨_, _, ⟨rest, hrest, rfl⟩, _, _, ⟨rfl, rfl⟩, _, _, ⟨data, hdata, rfl⟩, rfl, rfl⟩ := hact
    exact ⟨rfl, .fetch hrest hdata⟩
  case store =>
    obtain ⟨_, _, ⟨first, hfirst, rfl⟩, _, _, ⟨second, hsecond, rfl⟩, _, _, ⟨-, rfl⟩, rfl, rfl⟩ :=
      hact
    exact ⟨rfl, .store (hsecond ▸ hfirst)⟩
  case drop =>
    obtain ⟨_, _, ⟨data, hdata, rfl⟩, rfl, rfl⟩ := hact
    exact ⟨rfl, .drop hdata⟩
  case dup =>
    obtain ⟨_, _, ⟨⟨rest, hrest⟩, rfl⟩, _, _, ⟨data, hdata, rfl⟩, rfl, rfl⟩ := hact
    exact ⟨rfl, .dup hrest (hrest ▸ hdata)⟩
  case copyBelow =>
    obtain ⟨_, _, ⟨⟨rest, hrest⟩, rfl⟩, _, _, ⟨data, hdata, rfl⟩, rfl, rfl⟩ := hact
    exact ⟨rfl, .copyBelow hrest (hrest ▸ hdata)⟩
  case swap =>
    obtain ⟨_, _, ⟨⟨rest, hrest⟩, rfl⟩, _, _, ⟨_, first, hfirst, rfl⟩, _, _,
      ⟨_, second, hsecond, rfl⟩, _, _, ⟨third, hthird, rfl⟩, _, _, ⟨data, hdata, rfl⟩, rfl, rfl⟩ :=
      hact
    have hsecond' : second.cells = rest := by simp_all
    exact ⟨rfl, .swap hrest (by rw [hdata, hthird, hsecond'])⟩
  case add | sub | and | or | xor =>
    obtain ⟨_, _, ⟨_, _, _, data, hbefore, hafter, rfl⟩, rfl, rfl⟩ := hact
    exact ⟨rfl, .combine rfl hbefore hafter⟩
  case jumpIfZero =>
    obtain ⟨condition, _, ⟨data, hdata, rfl⟩, _, _, ⟨rfl, rfl⟩, rfl, rfl⟩ := hact
    have hrule := Effect.jumpIfZero hdata
    by_cases hzero : condition = 0 <;>
      simpa [Event.instruction, Event.target?, Instruction.width, hzero] using hrule
  case call =>
    obtain ⟨_, _, ⟨rfl, rfl⟩, _, _, ⟨rfl, rfl⟩, _, _, ⟨returns, hreturns, rfl⟩, rfl, rfl⟩ := hact
    exact ⟨rfl, .call hreturns⟩
  case exit =>
    obtain ⟨_, _, ⟨returns, hreturns, rfl⟩, rfl, rfl⟩ := hact
    exact ⟨rfl, .exit hreturns⟩
  case halt =>
    obtain ⟨_, _, ⟨-, rfl⟩, rfl, rfl⟩ := hact
    have hstays : core.pc + Instruction.halt.width = core.pc := UInt16.add_zero core.pc
    refine ⟨rfl, ?_⟩
    simpa [Event.instruction, Event.target?, hstays] using Effect.halt
  case toReturn =>
    obtain ⟨_, _, ⟨data, hdata, rfl⟩, _, _, ⟨returns, hreturns, rfl⟩, rfl, rfl⟩ := hact
    exact ⟨rfl, .toReturn hdata hreturns⟩
  case fromReturn =>
    obtain ⟨_, _, ⟨returns, hreturns, rfl⟩, _, _, ⟨data, hdata, rfl⟩, rfl, rfl⟩ := hact
    exact ⟨rfl, .fromReturn hreturns hdata⟩

/-! ### Refusals -/

theorem perform_eq_error_iff_act {instruction : Instruction} :
    perform instruction core = .error fault after ↔ act instruction core = .error fault after := by
  simp only [perform, bind_eq_error_iff, proceed, pure_ne_error, reduceCtorEq, and_false,
    exists_false, or_false]

end Exec

namespace Instruction

/-- The depths of data stack and return stack at which an instruction takes effect. -/
def Accepts (data returns : Nat) : Instruction → Prop
  | lit => data < Stack.capacity
  | fetch | drop | jumpIfZero => 1 ≤ data
  | store | swap | add | sub | and | or | xor => 2 ≤ data
  | dup => 1 ≤ data ∧ data < Stack.capacity
  | copyBelow => 2 ≤ data ∧ data < Stack.capacity
  | call => returns < Stack.capacity
  | exit => 1 ≤ returns
  | halt => True
  | toReturn => 1 ≤ data ∧ returns < Stack.capacity
  | fromReturn => 1 ≤ returns ∧ data < Stack.capacity

end Instruction

/-- What an instruction that is refused leaves behind. Instructions that pop more than once, or pop
and then push, have lost the top if there was one. -/
def Core.refused (core : Core) : Instruction → Core
  | .store | .add | .sub | .and | .or | .xor | .toReturn =>
    { core with dataStack := core.dataStack.below }
  | .fromReturn => { core with returnStack := core.returnStack.below }
  | _ => core

theorem Core.dataBelow_of_nil {core : Core} (hnil : core.dataStack.cells = []) :
    { core with dataStack := core.dataStack.below } = core := by
  rw [Stack.below_eq_of_nil hnil]

theorem Core.returnBelow_of_nil {core : Core} (hnil : core.returnStack.cells = []) :
    { core with returnStack := core.returnStack.below } = core := by
  rw [Stack.below_eq_of_nil hnil]

namespace Exec

variable {core after : Core} {fault : Fault}

/-- The opcode table has room on the stacks for what it puts there. -/
theorem accepts_of_effect {event : Event} (heffect : Effect core event after) :
    event.instruction.Accepts core.dataStack.depth core.returnStack.depth := by
  have hdata := after.dataStack.bounded
  have hreturns := after.returnStack.bounded
  cases heffect
  case combine hbefore _ hoperation =>
    have hdepth : 2 ≤ core.dataStack.depth := by simp [Stack.depth, hbefore]
    rcases Event.of_operation? hoperation with rfl | rfl | rfl | rfl | rfl <;> exact hdepth
  all_goals grind [Event.instruction, Instruction.Accepts, Stack.depth]

/-- An instruction that fails is refused by the stacks: the fault is a stack fault at the program
counter, and nothing is lost but what had been popped. -/
theorem perform_eq_error {instruction : Instruction}
    (hperform : perform instruction core = .error fault after) :
    ¬ instruction.Accepts core.dataStack.depth core.returnStack.depth ∧
      fault = ⟨.stack, core.pc⟩ ∧ after = core.refused instruction := by
  have hact := perform_eq_error_iff_act.mp hperform
  have hdata := core.dataStack.bounded
  have hreturns := core.returnStack.bounded
  cases instruction <;>
    simp only [act, combine, bind_eq_ok_iff, bind_eq_error_iff, popData_eq_ok_iff,
      popData_eq_error_iff, pushData_eq_ok_iff, pushData_eq_error_iff, popReturn_eq_ok_iff,
      popReturn_eq_error_iff, pushReturn_eq_ok_iff, pushReturn_eq_error_iff, peekData_eq_ok_iff,
      peekData_eq_error_iff, peekTwo_eq_ok_iff, peekTwo_eq_error_iff, discard_popData_eq_ok_iff,
      discard_popData_eq_error_iff, load, save, operand, returnAddress, stop, pure_ne_error,
      reduceCtorEq, EStateM.Result.ok.injEq, and_false, exists_false, or_false, false_or] at hact
  all_goals
    grind [Instruction.Accepts, Core.refused, Stack.depth, Stack.below_eq_of_cons,
      Core.dataBelow_of_nil, Core.returnBelow_of_nil]

/-- An instruction takes effect exactly at the depths that it accepts. -/
theorem perform_isOk_iff {instruction : Instruction} :
    (∃ event after, perform instruction core = .ok event after) ↔
      instruction.Accepts core.dataStack.depth core.returnStack.depth := by
  constructor
  · rintro ⟨event, after, hperform⟩
    obtain ⟨rfl, heffect⟩ := effect_of_perform hperform
    exact accepts_of_effect heffect
  · intro haccepts
    cases hperform : perform instruction core with
    | ok event after => exact ⟨event, after, rfl⟩
    | error fault after => exact absurd haccepts (perform_eq_error hperform).1

/-- What a refused instruction has lost does not make it accepted: it is refused again. -/
theorem not_accepts_refused {instruction : Instruction}
    (hrefused : ¬ instruction.Accepts core.dataStack.depth core.returnStack.depth) :
    ¬ instruction.Accepts (core.refused instruction).dataStack.depth
      (core.refused instruction).returnStack.depth := by
  cases instruction <;>
    simp_all [Instruction.Accepts, Core.refused, Stack.below, Stack.depth] <;> omega

end Exec

/-! ### The components of an effect -/

namespace Effect

variable {core after : Core} {event : Event}

/-- Control goes to the target of the event, or on by the width of the instruction. -/
theorem pc_eq (heffect : Effect core event after) :
    after.pc = event.target?.getD (core.pc + event.instruction.width) := by
  cases heffect
  case combine hoperation =>
    rcases Event.of_operation? hoperation with rfl | rfl | rfl | rfl | rfl <;> rfl
  case jumpIfZero condition data hbefore =>
    by_cases hzero : condition = 0 <;>
      simp [Event.target?, Event.instruction, Instruction.width, hzero]
  case halt => exact (UInt16.add_zero core.pc).symm
  all_goals rfl

/-- Only one instruction touches the halt flag. -/
theorem halted_eq (heffect : Effect core event after) :
    after.halted = (core.halted || event.instruction == .halt) := by
  cases heffect
  case combine hoperation =>
    rcases Event.of_operation? hoperation with rfl | rfl | rfl | rfl | rfl <;>
      simp [Event.instruction]
  all_goals simp [Event.instruction]

/-- Only one instruction touches the memory. -/
theorem memory_eq (heffect : Effect core event after) :
    after.memory = event.onMemory core.memory := by
  cases heffect
  case combine hoperation =>
    rcases Event.of_operation? hoperation with rfl | rfl | rfl | rfl | rfl <;> rfl
  all_goals rfl

/-- Two instructions push onto the return stack, and two pop from it. -/
theorem onReturns (heffect : Effect core event after) :
    event.OnReturns (core.pc + 2) core.returnStack.cells after.returnStack.cells := by
  cases heffect
  case combine hoperation =>
    rcases Event.of_operation? hoperation with rfl | rfl | rfl | rfl | rfl <;> rfl
  all_goals first | assumption | rfl

/-- Control leaves the ordinary course for the cell after the instruction or for the top of the
return stack. -/
theorem target_eq {target : Word} (heffect : Effect core event after)
    (htarget : event.target? = some target) :
    event = .exit target ∨
      (event.instruction = .jumpIfZero ∨ event.instruction = .call) ∧
        target = core.memory.read (core.pc + 1) := by
  cases heffect
  case combine hoperation =>
    rcases Event.of_operation? hoperation with rfl | rfl | rfl | rfl | rfl <;>
      simp [Event.target?] at htarget
  all_goals simp_all [Event.target?, Event.instruction]

end Effect

end DualStack
