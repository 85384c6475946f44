import DualStack.Proofs.Processor.Runs

/-!
# Returning from a call

Stepping over a call never looks at the return stack. It counts the calls that are open and goes on
until none is. That this is the return from the call depends on how the program uses its return
stack, and this is what the tags say (`Tag`): a word on the return stack is a return address if a
call put it there, and a saved value if it came from the data stack. `Tag.follow` keeps the tags of
the words pushed since the start, and gives up when an exit takes a saved value, when a saved value
is asked for and a return address is there, and when the words pushed are used up.

`stepOver_returns` shows that a step over that keeps to the tags returns: it ends with the exit that
takes the return address of the call it stepped over, and until then this address lies on the return
stack right above what was there before. The invariant is `Within`: the number of calls that are
open is the number of return addresses among the tags, the lowest of which belongs to that call.
-/

set_option autoImplicit false
set_option relaxedAutoImplicit false

namespace DualStack

/-! ### Tags -/

/-- How a word came onto the return stack. -/
inductive Tag
  /-- It was pushed by a call. -/
  | returnAddress
  /-- It was moved from the data stack. -/
  | saved
  deriving DecidableEq, Repr

namespace Tag

/-- The tags of the words pushed so far, topmost first, after one event more. There are none if the
event pops a word with another tag than its own, or a word that was there from the start. -/
def follow (tags : List Tag) (event : Event) : Option (List Tag) :=
  match event.instruction, tags with
  | .call, tags => some (returnAddress :: tags)
  | .toReturn, tags => some (saved :: tags)
  | .exit, returnAddress :: lower => some lower
  | .exit, _ => none
  | .fromReturn, saved :: lower => some lower
  | .fromReturn, _ => none
  | _, tags => some tags

/-- Every exit of a row of events takes a return address pushed in it, and every value taken back
was saved in it. -/
def Kept (events : List Event) : Prop := (events.foldlM follow []).isSome

instance (events : List Event) : Decidable (Kept events) :=
  inferInstanceAs (Decidable (_ = true))

end Tag

/-! ### Counting open calls -/

/-- How many calls are open after an event, if `depth` calls were open before. -/
def Event.openCalls (depth : Nat) (event : Event) : Nat :=
  match event.instruction with
  | .call => depth + 1
  | .exit => depth - 1
  | _ => depth

/-- A row of events closes the calls that are open with its last event, and not before. -/
def Event.Close : Nat → List Event → Prop
  | depth, [] => depth = 0
  | depth, event :: events => 0 < depth ∧ Event.Close (event.openCalls depth) events

namespace Core

variable {fuel depth : Nat} {core : Core} {run : Run}

theorem openCalls_eq {event : Event} (hcurrent : core.current? = some event.instruction) :
    core.openCalls depth = Event.openCalls depth event := by
  cases hinstruction : event.instruction <;>
    simp [openCalls, Event.openCalls, hcurrent, hinstruction]

/-- A row of steps up to the return executes an instruction in every step, and closes the calls that
are open unless the program ends. -/
theorem path_of_advance (hrun : core.advance untilReturned fuel depth #[] = some run)
    (hclean : run.fault? = none) :
    Path core run.events.toList run.core ∧
      (run.core.halted = true ∨ Event.Close depth run.events.toList) := by
  induction fuel generalizing depth core run with
  | zero => simp [advance] at hrun
  | succ fuel ih =>
    cases advanceCases hrun with
    | stopped hrule =>
      refine ⟨.nil, ?_⟩
      cases hhalted : core.halted with
      | true => exact Or.inl rfl
      | false => exact Or.inr (by simpa [untilReturned, hhalted, Event.Close] using hrule)
    | failed _ hstep => simp [hstep, Transition.toRun] at hclean
    | @followed following _ _ rest hrule hstep hrest =>
      obtain ⟨⟨hrunning, hopen⟩, rfl⟩ :
          (core.halted = false ∧ 0 < depth) ∧ core.openCalls depth = following := by
        simpa [untilReturned, Nat.pos_iff_ne_zero] using hrule
      obtain ⟨event, rfl, hcurrent, -, -⟩ := moved_of_step hrunning hstep
      obtain ⟨hpath, hends⟩ := ih hrest hclean
      rw [openCalls_eq hcurrent] at hends
      have hevents : (rest.behind core.step.toRun.events).events.toList =
          event :: rest.events.toList := by
        simp [hstep, Transition.toRun]
      rw [hevents]
      exact ⟨.cons hstep hpath, hends.imp_right fun hclose ↦ ⟨hopen, hclose⟩⟩

end Core

/-! ### The frame of a call -/

/-- Within a call that is to return to `back`: the return stack holds one word for each of the tags
`upper`, below them the return address of the call, and below that what was there before. -/
def Within (base : List Word) (back : Word) (upper : List Tag) (core : Core) : Prop :=
  ∃ words, words.length = upper.length ∧ core.returnStack.cells = words ++ back :: base

/-- The number of return addresses among tags. -/
def Tag.openCalls (tags : List Tag) : Nat := tags.count .returnAddress

/-- As long as a program keeps to the tags, the calls that are open are the return addresses. -/
theorem Tag.openCalls_of_follow {tags next : List Tag} {event : Event}
    (htags : Tag.follow tags event = some next) :
    Event.openCalls (Tag.openCalls tags) event = Tag.openCalls next := by
  unfold Tag.follow at htags
  split at htags
  all_goals
    simp only [Option.some.injEq, reduceCtorEq] at htags
  all_goals
    subst htags
    simp_all [Event.openCalls, Tag.openCalls]

/-- A word that is popped takes its tag along, whichever it is. -/
theorem Tag.eq_of_follow_cons {tag : Tag} {lower tags : List Tag} {event : Event}
    (hpops : event.instruction = .exit ∨ event.instruction = .fromReturn)
    (htags : Tag.follow (tag :: lower) event = some tags) : tags = lower := by
  rcases hpops with hpops | hpops <;> cases tag <;> simp_all [Tag.follow]

section Frame

variable {base : List Word} {back : Word} {upper : List Tag} {core after : Core}

/-- A word that is pushed within a call has a tag of its own. -/
theorem Within.push (hwithin : Within base back upper core) (tag : Tag) {word : Word}
    (hpushed : after.returnStack.cells = word :: core.returnStack.cells) :
    Within base back (tag :: upper) after := by
  obtain ⟨words, hlength, hcells⟩ := hwithin
  refine ⟨word :: words, by simpa using hlength, ?_⟩
  rw [hpushed, hcells, List.cons_append]

/-- A word that has a tag is popped within the call. -/
theorem Within.pop {tag : Tag} {word : Word} (hwithin : Within base back (tag :: upper) core)
    (hpopped : core.returnStack.cells = word :: after.returnStack.cells) :
    Within base back upper after := by
  obtain ⟨words, hlength, hcells⟩ := hwithin
  obtain ⟨top, words, rfl⟩ := List.exists_cons_of_length_eq_add_one hlength
  exact ⟨words, by simpa using hlength, (List.cons.inj (hpopped.symm.trans hcells)).2⟩

/-- Once the words pushed within the call are used up, the next one is its return address. -/
theorem Within.pop_back {word : Word} (hwithin : Within base back [] core)
    (hpopped : core.returnStack.cells = word :: after.returnStack.cells) :
    word = back ∧ after.returnStack.cells = base := by
  obtain ⟨words, hlength, hcells⟩ := hwithin
  obtain rfl : words = [] := List.length_eq_zero_iff.mp hlength
  exact List.cons.inj (hpopped.symm.trans hcells)

/-- One step within a call that keeps to the tags either stays within the call or is the return
from it. -/
theorem within_step {event : Event} {tags : List Tag} (hwithin : Within base back upper core)
    (heffect : Effect core event after)
    (htags : Tag.follow (upper ++ [.returnAddress]) event = some tags) :
    (∃ higher, tags = higher ++ [.returnAddress] ∧ Within base back higher after) ∨
      tags = [] ∧ event = .exit back ∧ after.pc = back ∧ after.returnStack.cells = base := by
  have hreturns := heffect.onReturns
  cases event
  case call target =>
    obtain rfl : Tag.returnAddress :: (upper ++ [.returnAddress]) = tags := by
      simpa [Tag.follow, Event.instruction] using htags
    left
    exact ⟨.returnAddress :: upper, rfl, hwithin.push _ hreturns⟩
  case toReturn value =>
    obtain rfl : Tag.saved :: (upper ++ [.returnAddress]) = tags := by
      simpa [Tag.follow, Event.instruction] using htags
    left
    exact ⟨.saved :: upper, rfl, hwithin.push _ hreturns⟩
  case exit target =>
    cases upper with
    | nil =>
      obtain rfl : [] = tags := by simpa [Tag.follow, Event.instruction] using htags
      obtain ⟨rfl, hbase⟩ := hwithin.pop_back hreturns
      right
      exact ⟨rfl, rfl, heffect.pc_eq, hbase⟩
    | cons top upper =>
      obtain rfl := Tag.eq_of_follow_cons (.inl rfl) htags
      left
      exact ⟨upper, rfl, hwithin.pop hreturns⟩
  case fromReturn value =>
    cases upper with
    | nil => simp [Tag.follow, Event.instruction] at htags
    | cons top upper =>
      obtain rfl := Tag.eq_of_follow_cons (.inr rfl) htags
      left
      exact ⟨upper, rfl, hwithin.pop hreturns⟩
  all_goals
    obtain rfl : upper ++ [.returnAddress] = tags := by
      simpa [Tag.follow, Event.instruction] using htags
    obtain ⟨words, hlength, hcells⟩ := hwithin
    left
    exact ⟨upper, rfl, words, hlength, hreturns.trans hcells⟩

/-- A path within a call that keeps to the tags and closes the calls that are open ends with the
return from the call. -/
theorem returns_of_path {events : List Event} (hpath : Path core events after)
    (hwithin : Within base back upper core)
    (hclose : Event.Close (Tag.openCalls (upper ++ [.returnAddress])) events)
    (htags : (events.foldlM Tag.follow (upper ++ [.returnAddress])).isSome) :
    ∃ middle, events = middle ++ [.exit back] ∧ after.pc = back ∧ after.returnStack.cells = base ∧
      ∀ count ≤ middle.length, ∃ upper, Within base back upper (core.after count) := by
  induction hpath generalizing upper with
  | nil => simp [Event.Close, Tag.openCalls] at hclose
  | @cons core between after event events hstep hrest ih =>
    obtain ⟨tags, hfollow, hothers⟩ :
        ∃ tags, Tag.follow (upper ++ [.returnAddress]) event = some tags ∧
          (events.foldlM Tag.follow tags).isSome := by
      cases hfollow : Tag.follow (upper ++ [.returnAddress]) event with
      | none => simp [hfollow] at htags
      | some tags => exact ⟨tags, rfl, by simpa [hfollow] using htags⟩
    have hrunning : core.halted = false := by
      by_contra hhalted
      simp [Core.step_of_halted (by simpa using hhalted)] at hstep
    obtain ⟨_, hsome, -, heffect, -⟩ := Core.moved_of_step hrunning hstep
    obtain rfl := Option.some.inj hsome
    have hcount := Tag.openCalls_of_follow hfollow
    rcases within_step hwithin heffect hfollow with
      ⟨higher, rfl, hbetween⟩ | ⟨rfl, rfl, hpc, hbase⟩
    · obtain ⟨middle, rfl, hpc, hbase, hall⟩ := ih hbetween (hcount ▸ hclose.2) hothers
      refine ⟨event :: middle, rfl, hpc, hbase, ?_⟩
      intro count hle
      cases count with
      | zero => exact ⟨upper, hwithin⟩
      | succ count =>
        simpa [Core.after, hstep] using hall count (Nat.le_of_succ_le_succ hle)
    · -- No call is open any more, so this was the last step.
      have hover : Event.Close (Tag.openCalls []) events := hcount ▸ hclose.2
      obtain rfl : events = [] := by
        cases events with
        | nil => rfl
        | cons event events => exact absurd hover.1 (Nat.lt_irrefl 0)
      cases hrest
      refine ⟨[], rfl, hpc, hbase, ?_⟩
      intro count hle
      obtain rfl : count = 0 := Nat.le_zero.mp hle
      exact ⟨upper, hwithin⟩

end Frame

/-- Stepping over a call that keeps to the tags returns from it. If the step over ends without a
fault and the program has not ended, then it ends behind the call with the return stack as it was;
its first event is the call and its last one the exit to the return address; and after every step
between these two, the return address lies on the return stack right above what was there before. -/
theorem Core.stepOver_returns (fuel : Nat) {core : Core} {run : Run}
    (hrunning : core.halted = false) (hcall : core.current? = some .call)
    (hrun : core.stepOver fuel = some run) (hclean : run.fault? = none)
    (hunfinished : run.core.halted = false) (htags : Tag.Kept run.events.toList) :
    run.core.pc = core.pc + 2 ∧ run.core.returnStack = core.returnStack ∧
      ∃ target middle, run.events.toList = .call target :: middle ++ [.exit (core.pc + 2)] ∧
        run.core = core.after run.events.size ∧
        ∀ count, 0 < count → count < run.events.size →
          core.returnStack.toList ++ [core.pc + 2] <+: (core.after count).returnStack.toList := by
  cases stepOverCases hrun with
  | failed hstep => simp [hstep, Transition.toRun] at hclean
  | @followed after _ rest hstep hrest =>
    obtain ⟨event, rfl, hcurrent, heffect, -⟩ := moved_of_step hrunning hstep
    obtain ⟨target, rfl⟩ : ∃ target, event = .call target := by
      rw [hcall] at hcurrent
      cases event <;> simp_all [Event.instruction]
    rw [if_pos hcall] at hrest
    obtain ⟨hpath, hends⟩ := path_of_advance hrest hclean
    have hclose : Event.Close (Tag.openCalls ([] ++ [.returnAddress])) rest.events.toList :=
      hends.resolve_left (by simpa using hunfinished)
    have hwithin : Within core.returnStack.cells (core.pc + 2) [] after :=
      ⟨[], rfl, heffect.onReturns⟩
    have hevents : (rest.behind core.step.toRun.events).events.toList =
        .call target :: rest.events.toList := by
      simp [hstep, Transition.toRun]
    rw [Tag.Kept, hevents] at htags
    obtain ⟨middle, hmiddle, hpc, hbase, hall⟩ := returns_of_path hpath hwithin hclose htags
    have hsize : (rest.behind core.step.toRun.events).events.size = middle.length + 2 := by
      rw [← Array.length_toList, hevents, hmiddle]
      simp
    refine ⟨hpc, Stack.ext hbase, target, middle, by rw [hevents, hmiddle]; rfl, ?_, ?_⟩
    · rw [hsize]
      simpa [hmiddle, Core.after, hstep] using hpath.eq_after
    · intro count hpositive hlt
      obtain ⟨count, rfl⟩ := Nat.exists_eq_add_one.mpr hpositive
      obtain ⟨upper, words, -, hcells⟩ := hall count (by omega)
      have hthere : (core.after (count + 1)).returnStack.cells =
          words ++ (core.pc + 2) :: core.returnStack.cells := by
        simpa [Core.after, hstep] using hcells
      exact ⟨words.reverse, by simp [Stack.toList, hthere]⟩

/-- A step over a call that saves a value around a call of its own. -/
theorem Core.stepOver_returns_of_nested :
    let core : Core := ⟨{ Processor.ready with returnStack := .ofList [9] },
      ⟨#[0xFF0D, 3, 0xFF0F, 0xFF00, 5, 0xFF10, 0xFF0D, 10, 0xFF11, 0xFF0E, 0xFF0E]⟩⟩
    let run : Run := ⟨{ core with pc := 2, dataStack := .ofList [5] },
      #[.call 3, .lit 5, .toReturn 5, .call 10, .exit 8, .fromReturn 5, .exit 2], none⟩
    core.stepOver 7 = some run ∧ Tag.Kept run.events.toList ∧
      run.core.pc = core.pc + 2 ∧ run.core.returnStack = core.returnStack ∧
        ∃ target middle, run.events.toList = .call target :: middle ++ [.exit (core.pc + 2)] ∧
          run.core = core.after run.events.size ∧
          ∀ count, 0 < count → count < run.events.size →
            core.returnStack.toList ++ [core.pc + 2] <+: (core.after count).returnStack.toList :=
  ⟨by decide, by decide,
    stepOver_returns 7 (by decide) (by decide) (by decide) (by decide) (by decide) (by decide)⟩

end DualStack
