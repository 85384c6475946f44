import DualStack.Proofs.Machine.Consistency
import DualStack.Proofs.Processor.Stores
import Mathlib.Data.List.DropRight

/-!
# The working memory of a machine

The log of a machine tells which instructions took effect (`Log.events`), and so also what was
stored where (`Machine.Reply.stores`). A command that executes the program reports the stores of the
steps it took, and no other command reports any (`Machine.exists_stores_of_perform`,
`Machine.stores_of_not_steps`).

Every command but a restart leaves the memory that was there with the reported stores made
(`Machine.memory_perform`), and a restart leaves the template. `Machine.session_memory` says what
follows for every cell at the end of a session: it holds what was stored there last since the last
restart, or else what the template has there.
-/

set_option autoImplicit false
set_option relaxedAutoImplicit false

namespace DualStack

/-! ### The log as a trace -/

namespace Log

/-- The event that an entry reports, if it reports one. -/
def Entry.event? : Entry → Option Event
  | .performed event => some event
  | _ => none

/-- The events that a log reports, in order. -/
def events (log : List Entry) : List Event := log.filterMap Entry.event?

@[simp] theorem events_append (first second : List Entry) :
    events (first ++ second) = events first ++ events second :=
  List.filterMap_append

@[simp] theorem events_ofEvents (performed : Array Event) :
    events (ofEvents performed) = performed.toList := by
  unfold events ofEvents
  rw [List.filterMap_map]
  exact List.filterMap_some

@[simp] theorem events_ofRun (run : Run) : events (ofRun run) = run.events.toList := by
  unfold ofRun
  rw [events_append, events_ofEvents]
  split <;> simp [events, Entry.event?]

/-- Notes of an assembly are no events. -/
@[simp] theorem events_map_noted (notes : List Assembly.Note) :
    events (notes.map Entry.noted) = [] := by
  rw [events, List.filterMap_map]
  exact List.filterMap_eq_nil_iff.mpr fun note _ ↦ rfl

end Log

namespace Machine

/-- The addresses and values that were stored while a command was carried out, in order. -/
def Reply.stores (reply : Reply) : List (Nat × Word) :=
  (Log.events reply.log).filterMap Event.stored?

variable {machine : Machine} {fuel : Nat} {command : Command} {reply : Reply}

/-- The entry for a fault is no event. -/
@[simp] theorem events_log_conclude (run : Run) (log : List Log.Entry) :
    Log.events (machine.conclude run log).log = Log.events log := by
  unfold conclude
  cases run.fault? <;> simp [Log.events, Log.Entry.event?]

/-- The entry for the end of the program is no event. -/
@[simp] theorem events_logOf (run : Run) (command : Command) :
    Log.events (command.logOf run) = run.events.toList := by
  cases command <;> simp [Command.logOf]

/-- A command that executes the program reports the stores of the steps it took. -/
theorem exists_stores_of_perform (hsteps : command.steps = true)
    (hreply : machine.perform fuel command = some reply) :
    ∃ count, reply.machine.core = machine.core.after count ∧
      reply.stores = machine.core.stores count := by
  obtain ⟨count, run, htook, rfl⟩ := exists_took_of_perform hsteps hreply
  refine ⟨count, ?_, ?_⟩
  · rw [core_conclude, htook.traced.core_eq]
  · rw [Reply.stores, events_log_conclude, events_logOf, htook.traced.events_eq,
      Core.filterMap_stored?_eventsOf]

/-- No other command reports a store. -/
theorem stores_of_not_steps (hsteps : command.steps = false)
    (hreply : machine.perform fuel command = some reply) : reply.stores = [] := by
  have hevents : Log.events reply.log = [] := by
    cases replies_of_perform hreply with
    | resized _ | notResized _ | typed _ | loaded _ | restored _ | notCompiled _ => rfl
    | assembled _ | notAssembled _ =>
      rw [Log.events_append, Log.events_map_noted]
      rfl
    | executed hother _ => exact absurd hother (by simp [hsteps])
  rw [Reply.stores, hevents]
  rfl

/-! ### Commands -/

/-- An assembly that succeeded, or a restart that was not refused. -/
def restarted : Command × Reply → Bool
  | (.compile, reply) | (.reset, reply) => reply.failure?.isNone
  | _ => false

/-- Executing the program is no restart. -/
theorem restarted_of_steps (hsteps : command.steps = true) : restarted (command, reply) = false := by
  cases command with
  | run | stepInto | stepOver => rfl
  | setMemorySize _ | setLines _ | loadSource _ | compile | reset => simp [Command.steps] at hsteps

/-- A machine that has restarted works on its template. -/
theorem memory_of_restarted (hrestarted : restarted (command, reply) = true)
    (hreply : machine.perform fuel command = some reply) :
    reply.machine.template? = some reply.machine.memory := by
  cases replies_of_perform hreply with
  | assembled _ | restored _ => rfl
  | resized _ | notResized _ | typed _ | loaded _ | notAssembled _ | notCompiled _ =>
    simp [restarted] at hrestarted
  | executed hsteps _ => simp [restarted_of_steps hsteps] at hrestarted

/-- A command that does not restart the program makes the stores it reports. -/
theorem memory_perform (hrestarted : restarted (command, reply) = false)
    (hreply : machine.perform fuel command = some reply) :
    reply.machine.memory = machine.memory.storeAll reply.stores := by
  cases hsteps : command.steps with
  | true =>
    obtain ⟨count, hcore, hstores⟩ := exists_stores_of_perform hsteps hreply
    rw [memory, memory, hcore, hstores, Core.memory_after]
  | false =>
    rw [stores_of_not_steps hsteps hreply]
    cases replies_of_perform hreply with
    | resized _ | notResized _ | typed _ | loaded _ | notAssembled _ | notCompiled _ => rfl
    | assembled _ | restored _ => simp [restarted, Reply.done] at hrestarted
    | executed hother _ => exact absurd hother (by simp [hsteps])

/-! ### Sessions -/

/-- What was stored since the last restart of a session. -/
def storesSince (exchanges : List (Command × Reply)) : List (Nat × Word) :=
  (exchanges.rtakeWhile fun exchange ↦ !restarted exchange).flatMap fun exchange ↦ exchange.2.stores

theorem storesSince_of_restarted {exchange : Command × Reply} (hrestarted : restarted exchange = true)
    (exchanges : List (Command × Reply)) : storesSince (exchanges ++ [exchange]) = [] := by
  rw [storesSince, List.rtakeWhile_concat_neg _ _ _ (by simp [hrestarted])]
  rfl

theorem storesSince_of_not_restarted {exchange : Command × Reply}
    (hrestarted : restarted exchange = false) (exchanges : List (Command × Reply)) :
    storesSince (exchanges ++ [exchange]) = storesSince exchanges ++ exchange.2.stores := by
  rw [storesSince, List.rtakeWhile_concat_pos _ _ _ (by simp [hrestarted]), List.flatMap_append]
  simp [storesSince]

/-- The memory at the end of a session is the template with the stores since the last restart. -/
theorem memory_session {config : Config} {exchanges : List (Command × Reply)} {last : Machine}
    {template : Memory} (hsession : Session (ofConfig config) exchanges last)
    (htemplate : last.template? = some template) :
    last.memory = template.storeAll (storesSince exchanges) := by
  induction exchanges using List.reverseRecOn generalizing last with
  | nil =>
    cases hsession
    simp [ofConfig] at htemplate
  | append_singleton exchanges exchange ih =>
    obtain ⟨command, reply⟩ := exchange
    obtain ⟨middle, hbefore, hlast⟩ := session_append_iff.mp hsession
    obtain ⟨fuel, hreply, hend⟩ := session_cons_iff.mp hlast
    cases hend
    by_cases hrestarted : restarted (command, reply) = true
    · rw [storesSince_of_restarted hrestarted]
      rw [memory_of_restarted hrestarted hreply] at htemplate
      exact Option.some.inj htemplate
    · have hnot : restarted (command, reply) = false := by simpa using hrestarted
      have hkept : reply.machine.template? = middle.template? := by
        apply template?_perform_of_not_assembled _ hreply
        rintro rfl hclean
        simp [restarted, hclean] at hnot
      rw [storesSince_of_not_restarted hnot, Memory.storeAll_append, memory_perform hnot hreply,
        ih hbefore (hkept ▸ htemplate)]

/-- What holds of the working memory of a machine after a session that it began without source and
program. -/
structure MemoryTraced (config : Config) (exchanges : List (Command × Reply)) (last : Machine) :
    Prop where
  /-- The memory has the size of the template. -/
  size_eq : ∀ template, last.template? = some template → last.memory.size = template.size
  /-- A cell holds what was stored there last since the last restart, or else what the template has
  there. -/
  cells_eq : ∀ template, last.template? = some template → ∀ index < last.memory.size,
    last.memory.cells[index]? =
      (Memory.lastStored? (storesSince exchanges) index).or template.cells[index]?
  /-- What an exchange reports to have stored are the stores of the steps that were taken, if its
  command executes the program, and otherwise there are none. A step stores if there is a store
  instruction to execute and both operands of it are there. -/
  stores_eq : ∀ before command reply after, exchanges = before ++ (command, reply) :: after →
    ∃ machine, Session (ofConfig config) before machine ∧
      (command.steps = true → ∃ count, reply.machine.core = machine.core.after count ∧
        reply.stores = machine.core.stores count) ∧
      (command.steps = false → reply.stores = [])
  /-- A store outside the memory changes no cell. -/
  outside : ∀ count address value rest, (last.core.after count).Dispatches .store →
    (last.core.after count).dataStack.cells = address :: value :: rest →
    last.memory.size ≤ address.toNat →
    (last.core.after (count + 1)).memory = (last.core.after count).memory
  /-- A store that lacks an operand fails and changes no cell. -/
  lacking : ∀ count, (last.core.after count).Dispatches .store →
    (last.core.after count).dataStack.depth < 2 →
    (last.core.after count).step.fault? = some ⟨.stack, (last.core.after count).pc⟩ ∧
      (last.core.after (count + 1)).memory = (last.core.after count).memory
  /-- The template changes in a successful assembly only. -/
  template?_eq : ∀ fuel command reply, last.perform fuel command = some reply →
    (command = .compile → reply.failure? ≠ none) → reply.machine.template? = last.template?

/-- The working memory of a machine is its template with the stores since the last restart, whatever
else it was told and whether that succeeded or failed. -/
theorem session_memory {config : Config} {exchanges : List (Command × Reply)} {last : Machine}
    (hsession : Session (ofConfig config) exchanges last) : MemoryTraced config exchanges last := by
  constructor
  case size_eq =>
    intro template htemplate
    rw [memory_session hsession htemplate, Memory.size_storeAll]
  case cells_eq =>
    intro template htemplate index hindex
    rw [memory_session hsession htemplate] at hindex ⊢
    rw [Memory.size_storeAll] at hindex
    exact Memory.getElem?_storeAll hindex _
  case stores_eq =>
    rintro before command reply after rfl
    obtain ⟨machine, hbefore, hrest⟩ := session_append_iff.mp hsession
    obtain ⟨fuel, hreply, -⟩ := session_cons_iff.mp hrest
    exact ⟨machine, hbefore, fun hsteps ↦ exists_stores_of_perform hsteps hreply,
      fun hsteps ↦ stores_of_not_steps hsteps hreply⟩
  case outside =>
    intro count address value rest hstore hcells houtside
    have hsize : (last.core.after count).memory.size = last.memory.size := by
      rw [Core.memory_after, Memory.size_storeAll, memory]
    rw [Core.after_succ]
    exact Core.memory_step_of_outside hstore hcells (hsize ▸ houtside)
  case lacking =>
    intro count hstore hshort
    rw [Core.after_succ]
    exact Core.memory_step_of_short hstore hshort
  case template?_eq =>
    intro fuel command reply hreply hnot
    exact template?_perform_of_not_assembled hnot hreply

/-- A session that assembles a program and takes three steps, the last of which stores a number over
the store instruction itself. -/
theorem session_memory_of_overwriting :
    ∃ (exchanges : List (Command × Reply)) (last : Machine),
      exchanges.map Prod.fst =
        [.setLines ["LIT 7 LIT 4 ! HALT"], .compile, .stepInto, .stepInto, .stepInto] ∧
      Session (ofConfig ⟨8⟩) exchanges last ∧
      last.template? = some ⟨#[0xFF00, 7, 0xFF00, 4, 0xFF02, 0xFF0F, 0, 0]⟩ ∧
      last.memory.cells[4]? = some 7 ∧ MemoryTraced ⟨8⟩ exchanges last := by
  obtain ⟨result, hresult, htemplate, hcell⟩ : ∃ result,
      (ofConfig ⟨8⟩).performAll 0
          [.setLines ["LIT 7 LIT 4 ! HALT"], .compile, .stepInto, .stepInto, .stepInto] =
        some result ∧
      result.2.template? = some ⟨#[0xFF00, 7, 0xFF00, 4, 0xFF02, 0xFF0F, 0, 0]⟩ ∧
      result.2.memory.cells[4]? = some 7 := ⟨_, rfl, by decide +kernel⟩
  obtain ⟨hsession, hcommands⟩ := session_of_performAll hresult
  exact ⟨_, _, hcommands, hsession, htemplate, hcell, session_memory hsession⟩

end Machine

end DualStack
