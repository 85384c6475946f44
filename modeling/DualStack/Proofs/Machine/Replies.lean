import DualStack.Proofs.Machine.Execution

/-!
# What the commands come to

A command can go one way or several: a memory size is in range or not, a source assembles or not,
and there is a program to start over with or not. `Machine.Replies` has a case for each of these
ways, with what decides that a command goes it, and one for all executions. Every reply is one of
these cases (`Machine.replies_of_perform`). What a command does is thereby said once, and what every
command keeps is proved by cases on its reply.

An assembly without a failure has made the image of the source the program
(`Machine.compile_eq_ok`), and a source with an image is assembled without a failure
(`Machine.compile_of_result_ok`).
-/

set_option autoImplicit false
set_option relaxedAutoImplicit false

namespace DualStack.Machine

/-- `machine.Replies command reply`: the machine can give this reply to the command. -/
inductive Replies (machine : Machine) : Command → Reply → Prop
  /-- The memory size is in range, and the next assembly will go by it. -/
  | resized {memorySize : Nat} {config : Config}
      (hconfig : Config.ofSize? memorySize = .ok config) :
      Replies machine (.setMemorySize memorySize) (.done { machine with config })
  /-- The memory size is out of range. -/
  | notResized {memorySize : Nat} {refusal : Config.Error}
      (hrefusal : Config.ofSize? memorySize = .error refusal) :
      Replies machine (.setMemorySize memorySize) ⟨machine, some (.config refusal), []⟩
  | typed (lines : List String) :
      Replies machine (.setLines lines) (.done (machine.setLines lines))
  | loaded (source : String) :
      Replies machine (.loadSource source) (.done (machine.loadSource source))
  /-- The source assembles, and the machine starts over with its image. -/
  | assembled {notes : Array Assembly.Note} {template : Memory}
      (houtcome : Assembly.assemble (Assembly.tokenize machine.lines) machine.config.memorySize =
        ⟨notes, .ok template⟩) :
      Replies machine .compile ⟨machine.install template, none,
        notes.toList.map .noted ++ [.compiled machine.lines.length template.size]⟩
  /-- The source does not assemble. -/
  | notAssembled {notes : Array Assembly.Note} {error : Assembly.Error}
      (houtcome : Assembly.assemble (Assembly.tokenize machine.lines) machine.config.memorySize =
        ⟨notes, .error error⟩) :
      Replies machine .compile ⟨{ machine with lastError? := some (.assembly error) },
        some (.error (.assembly error)), notes.toList.map .noted ++ [.failed (.assembly error)]⟩
  /-- There is a program, and the machine starts over with it. -/
  | restored {template : Memory} (htemplate : machine.template? = some template) :
      Replies machine .reset (.done (machine.install template))
  /-- There is no program to start over with. -/
  | notCompiled (htemplate : machine.template? = none) :
      Replies machine .reset ⟨machine, some .notCompiled, []⟩
  /-- The machine concludes with what the steps came to. -/
  | executed {command : Command} {count : Nat} {run : Run} (hsteps : command.steps = true)
      (htook : machine.core.Took (command.GoesOn machine.core) count run) :
      Replies machine command (machine.conclude run (command.logOf run))

variable {fuel : Nat} {machine : Machine} {command : Command} {reply : Reply}

/-- A machine gives no other replies than these. -/
theorem replies_of_perform (hreply : machine.perform fuel command = some reply) :
    machine.Replies command reply := by
  cases command with
  | setMemorySize memorySize =>
    obtain rfl := Option.some.inj hreply
    unfold setMemorySize
    cases hconfig : Config.ofSize? memorySize with
    | ok config => exact .resized hconfig
    | error refusal => exact .notResized hconfig
  | setLines lines =>
    obtain rfl := Option.some.inj hreply
    exact .typed lines
  | loadSource source =>
    obtain rfl := Option.some.inj hreply
    exact .loaded source
  | compile =>
    obtain rfl := Option.some.inj hreply
    unfold compile
    cases houtcome :
      Assembly.assemble (Assembly.tokenize machine.lines) machine.config.memorySize with
    | mk notes result =>
      cases result with
      | ok template => exact .assembled houtcome
      | error error => exact .notAssembled houtcome
  | reset =>
    obtain rfl := Option.some.inj hreply
    unfold reset
    cases htemplate : machine.template? with
    | some template => exact .restored htemplate
    | none => exact .notCompiled htemplate
  | run | stepInto | stepOver =>
    obtain ⟨count, run, htook, rfl⟩ := exists_took_of_perform rfl hreply
    exact .executed rfl htook

/-! ### Assemblies -/

/-- A machine that assembles its source has the image as its program and is about to start it. -/
theorem compile_eq_ok (hcompiled : machine.compile.failure? = none) :
    ∃ template,
      (Assembly.assemble (Assembly.tokenize machine.lines) machine.config.memorySize).result =
        .ok template ∧
      machine.compile.machine = machine.install template := by
  unfold compile at hcompiled ⊢
  cases hresult :
    (Assembly.assemble (Assembly.tokenize machine.lines) machine.config.memorySize).result with
  | error error => simp [hresult] at hcompiled
  | ok template => exact ⟨template, rfl, by simp [hresult]⟩

/-- A machine whose source has an image assembles it, and is about to start the image. -/
theorem compile_of_result_ok {tokens : List String} {template : Memory}
    (htokens : Assembly.tokenize machine.lines = tokens)
    (hresult : (Assembly.assemble tokens machine.config.memorySize).result = .ok template) :
    machine.compile.failure? = none ∧ machine.compile.machine = machine.install template := by
  simp [compile, htokens, hresult]

end DualStack.Machine
