import DualStack.Machine

/-!
# Sessions

A session is what somebody does with a machine: a row of commands, each of which the machine replies
to (`Machine.Session`). The machine carries out a command whatever the reply to the one before it
was. What every command keeps, every session keeps (`Machine.Session.invariant`), and what is kept
by the exchanges of one kind, a session of such exchanges keeps (`Machine.Session.keeps`).

Commands carried out one after the other (`Machine.performAll`) make a session, and every session
is made that way, given enough fuel (`Machine.session_of_performAll`,
`Machine.Session.exists_performAll`). The fuel decides whether there is a reply, but not which, so
that two sessions with the same commands are the same (`Machine.Session.eq_of_commands_eq`).
-/

set_option autoImplicit false
set_option relaxedAutoImplicit false

namespace DualStack.Machine

/-- `Session first exchanges last`: the machine `first` is told the commands of `exchanges`, one
after the other, gives the replies of `exchanges`, and has become `last` afterwards. -/
inductive Session : Machine → List (Command × Reply) → Machine → Prop
  | nil {machine : Machine} : Session machine [] machine
  | cons {machine last : Machine} {fuel : Nat} {command : Command} {reply : Reply}
      {exchanges : List (Command × Reply)}
      (hreply : machine.perform fuel command = some reply)
      (hrest : Session reply.machine exchanges last) :
      Session machine ((command, reply) :: exchanges) last

/-- Carries out commands one after the other, whatever the replies, with so much fuel for each of
them. -/
def performAll (fuel : Nat) (machine : Machine) :
    List Command → Option (List (Command × Reply) × Machine)
  | [] => some ([], machine)
  | command :: commands =>
    (machine.perform fuel command).bind fun reply ↦
      (performAll fuel reply.machine commands).map fun (exchanges, last) ↦
        ((command, reply) :: exchanges, last)

/-- What the permitted commands keep, a session of such commands keeps, and its replies are those
that the commands allow. -/
theorem Session.invariant (Invariant : Machine → Prop) (Permitted : Command → Prop)
    (Allowed : Command → Reply → Prop)
    (hperform : ∀ {machine fuel command reply}, Invariant machine → Permitted command →
      machine.perform fuel command = some reply →
      Invariant reply.machine ∧ Allowed command reply)
    {first last : Machine} {exchanges : List (Command × Reply)}
    (hsession : Session first exchanges last) (hfirst : Invariant first)
    (hpermitted : ∀ exchange ∈ exchanges, Permitted exchange.1) :
    Invariant last ∧ ∀ exchange ∈ exchanges, Allowed exchange.1 exchange.2 := by
  induction hsession with
  | nil => exact ⟨hfirst, by simp⟩
  | cons hreply _ ih =>
    obtain ⟨hcommand, hcommands⟩ := List.forall_mem_cons.mp hpermitted
    obtain ⟨hnext, hallowed⟩ := hperform hfirst hcommand hreply
    obtain ⟨hlast, hrest⟩ := ih hnext hcommands
    exact ⟨hlast, List.forall_mem_cons.mpr ⟨hallowed, hrest⟩⟩

/-- What every exchange of one kind keeps, a session of exchanges of this kind keeps. The kind of an
exchange may depend on the reply. -/
theorem Session.keeps (Invariant : Machine → Prop) (Kind : Command × Reply → Prop)
    (hperform : ∀ {machine fuel command reply}, Invariant machine → Kind (command, reply) →
      machine.perform fuel command = some reply → Invariant reply.machine)
    {first last : Machine} {exchanges : List (Command × Reply)}
    (hsession : Session first exchanges last) (hfirst : Invariant first)
    (hkind : ∀ exchange ∈ exchanges, Kind exchange) : Invariant last := by
  induction hsession with
  | nil => exact hfirst
  | cons hreply _ ih =>
    obtain ⟨hexchange, hexchanges⟩ := List.forall_mem_cons.mp hkind
    exact ih (hperform hfirst hexchange hreply) hexchanges

section Parts

variable {first middle last machine : Machine} {command : Command} {reply : Reply}
  {exchanges before after : List (Command × Reply)}

theorem session_cons_iff :
    Session machine ((command, reply) :: exchanges) last ↔
      ∃ fuel, machine.perform fuel command = some reply ∧ Session reply.machine exchanges last := by
  constructor
  · rintro (_ | ⟨hreply, hrest⟩)
    exact ⟨_, hreply, hrest⟩
  · rintro ⟨fuel, hreply, hrest⟩
    exact .cons hreply hrest

/-- A session in two parts is one session behind another. -/
theorem session_append_iff :
    Session first (before ++ after) last ↔
      ∃ middle, Session first before middle ∧ Session middle after last := by
  induction before generalizing first with
  | nil =>
    constructor
    · exact fun hafter ↦ ⟨first, .nil, hafter⟩
    · rintro ⟨middle, ⟨⟩, hafter⟩
      exact hafter
  | cons exchange before ih =>
    obtain ⟨command, reply⟩ := exchange
    simp only [List.cons_append, session_cons_iff, ih]
    constructor
    · rintro ⟨fuel, hreply, middle, hbefore, hafter⟩
      exact ⟨middle, ⟨fuel, hreply, hbefore⟩, hafter⟩
    · rintro ⟨middle, ⟨fuel, hreply, hbefore⟩, hafter⟩
      exact ⟨fuel, hreply, middle, hbefore, hafter⟩

end Parts

/-! ### Sessions and fuel -/

section Fuel

variable {machine : Machine} {fuel more : Nat} {command : Command} {reply : Reply}

/-- A command that has a reply has the same reply with more fuel. -/
theorem perform_of_le (hle : fuel ≤ more) (hreply : machine.perform fuel command = some reply) :
    machine.perform more command = some reply := by
  cases command with
  | run =>
    obtain ⟨run, hrun, rfl⟩ := Option.map_eq_some_iff.mp hreply
    exact Option.map_eq_some_iff.mpr ⟨run, Core.advance_of_le hle hrun, rfl⟩
  | stepOver =>
    obtain ⟨run, hrun, rfl⟩ := Option.map_eq_some_iff.mp hreply
    exact Option.map_eq_some_iff.mpr ⟨run, Core.stepOver_of_le hle hrun, rfl⟩
  | setMemorySize _ | setLines _ | loadSource _ | compile | reset | stepInto => exact hreply

variable {commands : List Command} {result : List (Command × Reply) × Machine}

theorem performAll_cons_eq_some_iff :
    machine.performAll fuel (command :: commands) = some result ↔
      ∃ reply rest, machine.perform fuel command = some reply ∧
        reply.machine.performAll fuel commands = some rest ∧
        ((command, reply) :: rest.1, rest.2) = result := by
  simp only [performAll, Option.bind_eq_some_iff, Option.map_eq_some_iff, exists_and_left]

/-- Commands that all have replies have the same replies with more fuel. -/
theorem performAll_of_le (hle : fuel ≤ more) (hresult : machine.performAll fuel commands = some result) :
    machine.performAll more commands = some result := by
  induction commands generalizing machine result with
  | nil => exact hresult
  | cons command commands ih =>
    obtain ⟨reply, rest, hreply, hrest, rfl⟩ := performAll_cons_eq_some_iff.mp hresult
    exact performAll_cons_eq_some_iff.mpr ⟨reply, rest, perform_of_le hle hreply, ih hrest, rfl⟩

/-- The replies to commands carried out one after the other are those of a session. -/
theorem session_of_performAll (hresult : machine.performAll fuel commands = some result) :
    Session machine result.1 result.2 ∧ result.1.map Prod.fst = commands := by
  induction commands generalizing machine result with
  | nil =>
    obtain rfl := Option.some.inj hresult
    exact ⟨.nil, rfl⟩
  | cons command commands ih =>
    obtain ⟨reply, rest, hreply, hrest, rfl⟩ := performAll_cons_eq_some_iff.mp hresult
    obtain ⟨hsession, hsame⟩ := ih hrest
    exact ⟨.cons hreply hsession, congrArg (command :: ·) hsame⟩

/-- Every session is what its commands come to, given enough fuel for each of them. -/
theorem Session.exists_performAll {first last : Machine} {exchanges : List (Command × Reply)}
    (hsession : Session first exchanges last) :
    ∃ fuel, first.performAll fuel (exchanges.map Prod.fst) = some (exchanges, last) := by
  induction hsession with
  | nil => exact ⟨0, rfl⟩
  | @cons _ _ fuel command reply exchanges hreply _ ih =>
    obtain ⟨more, hall⟩ := ih
    have hfirst := perform_of_le (Nat.le_max_left fuel more) hreply
    have hrest := performAll_of_le (Nat.le_max_right fuel more) hall
    exact ⟨max fuel more, performAll_cons_eq_some_iff.mpr ⟨reply, _, hfirst, hrest, rfl⟩⟩

/-- Sessions of one machine with the same commands have the same replies and the same end. -/
theorem Session.eq_of_commands_eq {first last final : Machine}
    {exchanges others : List (Command × Reply)} (hsession : Session first exchanges last)
    (hothers : Session first others final)
    (hcommands : others.map Prod.fst = exchanges.map Prod.fst) :
    others = exchanges ∧ final = last := by
  obtain ⟨fuel, hall⟩ := hsession.exists_performAll
  obtain ⟨more, hother⟩ := hothers.exists_performAll
  have hfirst := performAll_of_le (Nat.le_max_left fuel more) hall
  have hsecond := performAll_of_le (Nat.le_max_right fuel more) hother
  rw [hcommands] at hsecond
  exact Prod.mk.inj (Option.some.inj (hsecond.symm.trans hfirst))

end Fuel

end DualStack.Machine
