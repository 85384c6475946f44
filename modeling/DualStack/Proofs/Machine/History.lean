import DualStack.Proofs.Machine.Consistency
import DualStack.Proofs.Machine.ControlFlow

/-!
# What a machine remembers of its history

Of what happened to it a machine keeps the last error, and nothing reads that. Machines that agree
in all other components (`Machine.Agrees`) therefore reply to every command alike
(`Machine.Agrees.perform`). A command that was refused, or an assembly that failed, changes no other
component (`Machine.agrees_of_refused`), so that such exchanges can be struck from a session without
a trace (`Machine.Session.strike`).

Assembling depends on the source and the configuration alone, and starting over on the template
alone. `Machine.session_forgets` puts this together for all sessions of a machine that begins
without source and program.
-/

set_option autoImplicit false
set_option relaxedAutoImplicit false

namespace DualStack.Machine

/-! ### Machines that agree -/

/-- Two machines that differ in the last error at most. -/
structure Agrees (first second : Machine) : Prop where
  config_eq : second.config = first.config
  lines_eq : second.lines = first.lines
  template?_eq : second.template? = first.template?
  core_eq : second.core = first.core

/-- Two replies that differ in the last error of the machine at most. -/
structure Reply.Agrees (first second : Reply) : Prop where
  machine : first.machine.Agrees second.machine
  failure?_eq : second.failure? = first.failure?
  log_eq : second.log = first.log

variable {first second third machine : Machine} {fuel : Nat} {command : Command} {reply : Reply}

theorem Agrees.refl (machine : Machine) : machine.Agrees machine := ⟨rfl, rfl, rfl, rfl⟩

theorem Agrees.symm (hagrees : first.Agrees second) : second.Agrees first :=
  ⟨hagrees.config_eq.symm, hagrees.lines_eq.symm, hagrees.template?_eq.symm, hagrees.core_eq.symm⟩

theorem Agrees.trans (hfirst : first.Agrees second) (hsecond : second.Agrees third) :
    first.Agrees third where
  config_eq := hsecond.config_eq.trans hfirst.config_eq
  lines_eq := hsecond.lines_eq.trans hfirst.lines_eq
  template?_eq := hsecond.template?_eq.trans hfirst.template?_eq
  core_eq := hsecond.core_eq.trans hfirst.core_eq

/-- A machine that agrees with another one is that machine with another last error. -/
theorem Agrees.exists_eq (hagrees : first.Agrees second) :
    ∃ lastError?, second = { first with lastError? } := by
  obtain ⟨config, lines, template?, core, lastError?⟩ := second
  obtain ⟨rfl, rfl, rfl, rfl⟩ := hagrees
  exact ⟨lastError?, rfl⟩

/-- Taking over the same execution keeps machines in agreement. -/
theorem Agrees.conclude (hagrees : first.Agrees second) (run : Run) (log : List Log.Entry) :
    (first.conclude run log).Agrees (second.conclude run log) := by
  obtain ⟨lastError?, rfl⟩ := hagrees.exists_eq
  unfold Machine.conclude
  cases run.fault? with
  | none => exact ⟨⟨rfl, rfl, rfl, rfl⟩, rfl, rfl⟩
  | some fault => exact ⟨⟨rfl, rfl, rfl, rfl⟩, rfl, rfl⟩

/-- Machines that agree assemble to the same end. -/
theorem Agrees.compile (hagrees : first.Agrees second) : first.compile.Agrees second.compile := by
  obtain ⟨lastError?, rfl⟩ := hagrees.exists_eq
  unfold Machine.compile
  dsimp only
  split <;> exact ⟨⟨rfl, rfl, rfl, rfl⟩, rfl, rfl⟩

/-- Machines that agree reply to every command alike, and agree afterwards. -/
theorem Agrees.perform (hagrees : first.Agrees second)
    (hreply : first.perform fuel command = some reply) :
    ∃ other, second.perform fuel command = some other ∧ reply.Agrees other := by
  cases command with
  | compile =>
    obtain rfl := Option.some.inj hreply
    exact ⟨_, rfl, hagrees.compile⟩
  | run =>
    obtain ⟨run, hrun, rfl⟩ := Option.map_eq_some_iff.mp hreply
    rw [← hagrees.core_eq] at hrun
    exact ⟨_, Option.map_eq_some_iff.mpr ⟨run, hrun, rfl⟩, hagrees.conclude run _⟩
  | stepOver =>
    obtain ⟨run, hrun, rfl⟩ := Option.map_eq_some_iff.mp hreply
    rw [← hagrees.core_eq] at hrun
    exact ⟨_, Option.map_eq_some_iff.mpr ⟨run, hrun, rfl⟩, hagrees.conclude run _⟩
  | stepInto =>
    obtain rfl := Option.some.inj hreply
    refine ⟨_, rfl, ?_⟩
    unfold Machine.stepInto
    rw [hagrees.core_eq]
    exact hagrees.conclude _ _
  | setMemorySize memorySize =>
    obtain rfl := Option.some.inj hreply
    obtain ⟨lastError?, rfl⟩ := hagrees.exists_eq
    refine ⟨_, rfl, ?_⟩
    unfold Machine.setMemorySize
    cases Config.ofSize? memorySize <;> exact ⟨⟨rfl, rfl, rfl, rfl⟩, rfl, rfl⟩
  | setLines lines | loadSource source =>
    obtain rfl := Option.some.inj hreply
    obtain ⟨lastError?, rfl⟩ := hagrees.exists_eq
    exact ⟨_, rfl, ⟨rfl, rfl, rfl, rfl⟩, rfl, rfl⟩
  | reset =>
    obtain rfl := Option.some.inj hreply
    obtain ⟨lastError?, rfl⟩ := hagrees.exists_eq
    refine ⟨_, rfl, ?_⟩
    unfold Machine.reset
    dsimp only
    split <;> exact ⟨⟨rfl, rfl, rfl, rfl⟩, rfl, rfl⟩

/-! ### Refused commands -/

/-- A configuration or a restart that was refused, or an assembly that failed. -/
def refused : Command × Reply → Bool
  | (.setMemorySize _, reply) | (.compile, reply) | (.reset, reply) => reply.failure?.isSome
  | _ => false

/-- A command that executes the program is not refused, even if it fails. -/
theorem refused_of_steps (hsteps : command.steps = true) : refused (command, reply) = false := by
  cases command with
  | run | stepInto | stepOver => rfl
  | setMemorySize _ | setLines _ | loadSource _ | compile | reset => simp [Command.steps] at hsteps

/-- A refused command leaves a machine as it was, but for the last error. -/
theorem agrees_of_refused (hreply : machine.perform fuel command = some reply)
    (hrefused : refused (command, reply) = true) : machine.Agrees reply.machine := by
  cases replies_of_perform hreply with
  | notResized _ | notCompiled _ => exact .refl machine
  | notAssembled _ => exact ⟨rfl, rfl, rfl, rfl⟩
  | resized _ | typed _ | loaded _ | assembled _ | restored _ =>
    simp [refused, Reply.done] at hrefused
  | executed hsteps _ => simp [refused_of_steps hsteps] at hrefused

/-- The exchanges of a session that were not refused. -/
def accepted (exchanges : List (Command × Reply)) : List (Command × Reply) :=
  exchanges.filter fun exchange ↦ !refused exchange

/-- Exchanges with the same command and replies that agree. -/
def SameExchange (first second : Command × Reply) : Prop :=
  second.1 = first.1 ∧ first.2.Agrees second.2

/-- A session can be held again without the exchanges that were refused. -/
theorem Session.strike {last other : Machine} {exchanges : List (Command × Reply)}
    (hsession : Session first exchanges last) (hagrees : first.Agrees other) :
    ∃ others final, Session other others final ∧
      List.Forall₂ SameExchange (accepted exchanges) others ∧ last.Agrees final := by
  induction hsession generalizing other with
  | nil => exact ⟨[], other, .nil, .nil, hagrees⟩
  | @cons machine last fuel command reply exchanges hreply _ ih =>
    cases hrefused : refused (command, reply) with
    | true =>
      have hback := (agrees_of_refused hreply hrefused).symm.trans hagrees
      obtain ⟨others, final, hothers, hsame, hfinal⟩ := ih hback
      exact ⟨others, final, hothers, by simpa [accepted, hrefused] using hsame, hfinal⟩
    | false =>
      obtain ⟨answer, hanswer, hsameReply⟩ := hagrees.perform hreply
      obtain ⟨others, final, hothers, hsame, hfinal⟩ := ih hsameReply.machine
      refine ⟨(command, answer) :: others, final, .cons hanswer hothers, ?_, hfinal⟩
      have hexchange : SameExchange (command, reply) (command, answer) := ⟨rfl, hsameReply⟩
      simpa [accepted, hrefused] using ⟨hexchange, hsame⟩

theorem map_fst_of_sameExchange {exchanges others : List (Command × Reply)}
    (hsame : List.Forall₂ SameExchange exchanges others) :
    others.map Prod.fst = exchanges.map Prod.fst := by
  induction hsame with
  | nil => rfl
  | cons hfirst _ ih => rw [List.map_cons, List.map_cons, ih, hfirst.1]

/-! ### Assembling and starting over -/

/-- Assembling reads the source and the configuration and nothing else. -/
theorem compile_of_source_eq (hlines : second.lines = first.lines)
    (hconfig : second.config = first.config) :
    second.compile.failure? = first.compile.failure? ∧ second.compile.log = first.compile.log ∧
      (first.compile.failure? = none →
        second.compile.machine.template? = first.compile.machine.template? ∧
          second.compile.machine.core = first.compile.machine.core) := by
  unfold compile
  rw [hlines, hconfig]
  dsimp only
  split <;> simp [install]

/-- Starting over brings the machine back to where the last successful assembly left it, if no other
assembly has succeeded since. -/
theorem reset_after_compile {last : Machine} {after : List (Command × Reply)}
    (hcompiled : machine.compile.failure? = none)
    (hafter : Session machine.compile.machine after last)
    (hnone : ∀ exchange ∈ after, exchange.1 = .compile → exchange.2.failure? ≠ none) :
    last.reset.failure? = none ∧
      last.reset.machine.template? = machine.compile.machine.template? ∧
      last.reset.machine.core = machine.compile.machine.core := by
  obtain ⟨template, -, hinstall⟩ := compile_eq_ok hcompiled
  have htemplate : last.template? = some template := by
    refine Session.keeps (fun machine ↦ machine.template? = some template)
      (fun exchange ↦ exchange.1 = .compile → exchange.2.failure? ≠ none) ?_ hafter ?_ hnone
    · intro machine fuel command reply hbefore hnot hreply
      rw [template?_perform_of_not_assembled hnot hreply, hbefore]
    · rw [hinstall]
      rfl
  unfold reset
  rw [htemplate, hinstall]
  exact ⟨rfl, rfl, rfl⟩

/-! ### The last error -/

/-- The commands whose errors a machine remembers. -/
def Command.reports (command : Command) : Bool := command == .compile || command.steps

/-- The last error stays as long as no such command fails. -/
theorem lastError?_of_clean (hclean : command.reports = true → reply.failure? = none)
    (hreply : machine.perform fuel command = some reply) :
    reply.machine.lastError? = machine.lastError? := by
  cases replies_of_perform hreply with
  | @executed _ _ run hsteps _ =>
    have hreports : command.reports = true := by simp [Command.reports, hsteps]
    have hfault := (failure?_conclude_eq_none_iff run _).mp (hclean hreports)
    simp [conclude, hfault]
  | notAssembled _ => exact absurd (hclean rfl) (by simp)
  | resized _ | notResized _ | typed _ | loaded _ | assembled _ | restored _ | notCompiled _ => rfl

/-- When such a command fails, the last error is what it met. -/
theorem lastError?_of_failed (hreports : command.reports = true) (hfailed : reply.failure? ≠ none)
    (hreply : machine.perform fuel command = some reply) :
    ∃ met, reply.failure? = some (.error met) ∧ reply.machine.lastError? = some met := by
  cases replies_of_perform hreply with
  | @executed _ _ run _ _ =>
    unfold conclude at hfailed ⊢
    cases hfault : run.fault? with
    | none => simp [hfault] at hfailed
    | some fault => exact ⟨_, rfl, rfl⟩
  | assembled _ => exact absurd rfl hfailed
  | notAssembled _ => exact ⟨_, rfl, rfl⟩
  | resized _ | notResized _ | typed _ | loaded _ | restored _ | notCompiled _ =>
    simp [Command.reports, Command.steps] at hreports

/-- The last error is still there at the end of a session in which no such command failed. -/
theorem lastError?_session {last : Machine} {exchanges : List (Command × Reply)}
    (hsession : Session first exchanges last)
    (hclean : ∀ exchange ∈ exchanges, exchange.1.reports = true → exchange.2.failure? = none) :
    last.lastError? = first.lastError? := by
  refine Session.keeps (fun machine ↦ machine.lastError? = first.lastError?)
    (fun exchange ↦ exchange.1.reports = true → exchange.2.failure? = none) ?_ hsession rfl hclean
  intro machine fuel command reply hbefore hquiet hreply
  rw [lastError?_of_clean hquiet hreply, hbefore]

/-! ### Sessions from the beginning -/

/-- How a machine that began without source and program stands to the session it went through. -/
structure Forgets (config : Config) (exchanges : List (Command × Reply)) (last : Machine) :
    Prop where
  /-- The session can be held without the exchanges that were refused. -/
  struck : ∃ others final, Session (ofConfig config) others final ∧
    others.map Prod.fst = (accepted exchanges).map Prod.fst
  /-- Held without them, it has the other replies and the same end, but for the last error. -/
  undisturbed : ∀ others final, Session (ofConfig config) others final →
    others.map Prod.fst = (accepted exchanges).map Prod.fst →
    List.Forall₂ SameExchange (accepted exchanges) others ∧ last.Agrees final
  /-- The machine assembles like every other one with the same source and configuration, and has
  the same program and core afterwards. -/
  assembles : ∀ other : Machine, other.lines = last.lines → other.config = last.config →
    other.compile.failure? = last.compile.failure? ∧ other.compile.log = last.compile.log ∧
      (last.compile.failure? = none →
        other.compile.machine.template? = last.compile.machine.template? ∧
          other.compile.machine.core = last.compile.machine.core)
  /-- Starting over brings back the template and the core that the last successful assembly left,
  whatever has happened since. -/
  restarts : ∀ before reply after, exchanges = before ++ (.compile, reply) :: after →
    reply.failure? = none →
    (∀ exchange ∈ after, exchange.1 = .compile → exchange.2.failure? ≠ none) →
    last.reset.failure? = none ∧ last.reset.machine.template? = reply.machine.template? ∧
      last.reset.machine.core = reply.machine.core
  /-- The last error is the one that the last assembly or execution that failed has met, whatever
  has happened since. -/
  remembers : ∀ before command reply after, exchanges = before ++ (command, reply) :: after →
    command.reports = true → reply.failure? ≠ none →
    (∀ exchange ∈ after, exchange.1.reports = true → exchange.2.failure? = none) →
    ∃ met, reply.failure? = some (.error met) ∧ last.lastError? = some met
  /-- There is no last error as long as no assembly and no execution has failed. -/
  untroubled : (∀ exchange ∈ exchanges, exchange.1.reports = true → exchange.2.failure? = none) →
    last.lastError? = none

/-- Refused commands do not disturb what a machine does, and it forgets what went on before it
assembles or starts over: this holds of every session of a machine that begins without source and
program, whatever its commands come to. -/
theorem session_forgets {config : Config} {exchanges : List (Command × Reply)} {last : Machine}
    (hsession : Session (ofConfig config) exchanges last) : Forgets config exchanges last := by
  obtain ⟨others, final, hothers, hsame, hfinal⟩ := hsession.strike (.refl _)
  have hcommands := map_fst_of_sameExchange hsame
  constructor
  case struck => exact ⟨others, final, hothers, hcommands⟩
  case undisturbed =>
    intro others' final' hothers' hcommands'
    obtain ⟨rfl, rfl⟩ := hothers.eq_of_commands_eq hothers' (hcommands'.trans hcommands.symm)
    exact ⟨hsame, hfinal⟩
  case assembles =>
    intro other hlines hconfig
    exact compile_of_source_eq hlines hconfig
  case restarts =>
    rintro before reply after rfl hclean hafter
    obtain ⟨middle, -, hrest⟩ := session_append_iff.mp hsession
    obtain ⟨fuel, hreply, hend⟩ := session_cons_iff.mp hrest
    obtain rfl : middle.compile = reply := Option.some.inj hreply
    exact reset_after_compile hclean hend hafter
  case remembers =>
    rintro before command reply after rfl hreports hfailed hafter
    obtain ⟨middle, -, hrest⟩ := session_append_iff.mp hsession
    obtain ⟨fuel, hreply, hend⟩ := session_cons_iff.mp hrest
    obtain ⟨met, hmet, hlast⟩ := lastError?_of_failed hreports hfailed hreply
    exact ⟨met, hmet, (lastError?_session hend hafter).trans hlast⟩
  case untroubled =>
    intro hclean
    exact lastError?_session hsession hclean

/-- A refused memory size and a failed assembly in the middle of a program. -/
theorem session_forgets_of_failures :
    ∃ (exchanges : List (Command × Reply)) (last : Machine),
      exchanges.map Prod.fst = [.setLines ["LIT 7 HALT"], .compile, .stepInto, .setMemorySize 0,
        .setLines ["LIT 999"], .compile] ∧
      Session (ofConfig ⟨8⟩) exchanges last ∧ exchanges.map refused =
        [false, false, false, true, false, true] ∧
      last.lastError? = some (.assembly ⟨.subrangeBounds "999", 1⟩) ∧
      Forgets ⟨8⟩ exchanges last := by
  obtain ⟨result, hresult, hrefused, hlast⟩ : ∃ result,
      (ofConfig ⟨8⟩).performAll 0 [.setLines ["LIT 7 HALT"], .compile, .stepInto,
          .setMemorySize 0, .setLines ["LIT 999"], .compile] = some result ∧
      result.1.map refused = [false, false, false, true, false, true] ∧
      result.2.lastError? = some (.assembly ⟨.subrangeBounds "999", 1⟩) :=
    ⟨_, rfl, by decide +kernel⟩
  obtain ⟨hsession, hcommands⟩ := session_of_performAll hresult
  exact ⟨_, _, hcommands, hsession, hrefused, hlast, session_forgets hsession⟩

end DualStack.Machine
