import DualStack.Proofs.Assembly.Image
import DualStack.Proofs.Machine.ControlFlow
import DualStack.Proofs.Machine.WorkingMemory
import DualStack.Proofs.Processor.LargerMemory

/-!
# Machines with a larger memory

A program that assembles into a memory also assembles into every larger one, and the larger image is
the smaller one followed by zeros (`Assembly.assemble_of_le`). Machines that start over with the two
images run their programs to the same end, unless a value is stored between the ends of the two
memories (`Machine.EndsAlike`). A program that leaves the smaller memory without leaving the larger
one fails in both, though for another reason.

`Machine.enlarges_of_compile` puts the two together.
-/

set_option autoImplicit false
set_option relaxedAutoImplicit false

namespace DualStack

/-! ### Assembling -/

namespace Assembly

theorem Layout.image_of_le {layout : Layout} {size larger : Nat} {memory : Memory}
    (hle : size ≤ larger) (himage : layout.image size = .ok memory) :
    memory.size = size ∧ layout.image larger = .ok (.ofCells memory.cells larger) := by
  obtain ⟨cells, hcells, hfits, rfl⟩ := Layout.image_eq_ok_iff.mp himage
  constructor
  · rw [Memory.size_ofCells, Nat.max_eq_right hfits]
  · exact Layout.image_eq_ok_iff.mpr
      ⟨cells, hcells, hfits.trans hle, (Memory.ofCells_ofCells cells hle).symm⟩

/-- What assembles into a memory assembles into a larger one, and there are zeros behind it. -/
theorem assemble_of_le {tokens : List String} {size larger : Nat} {memory : Memory}
    (hle : size ≤ larger) (hresult : (assemble tokens size).result = .ok memory) :
    memory.size = size ∧ (assemble tokens larger).result = .ok (.ofCells memory.cells larger) := by
  obtain ⟨layout, hlayout, himage⟩ := assemble_result_eq_ok_iff.mp hresult
  obtain ⟨hsize, hlarger⟩ := Layout.image_of_le hle himage
  exact ⟨hsize, assemble_result_eq_ok_iff.mpr ⟨layout, hlayout, hlarger⟩⟩

end Assembly

/-! ### Running -/

namespace Machine

/-- How a run ended in a memory, and how the run of the same program ended in a larger memory, which
has a given size. -/
structure EndsAlike (size : Nat) (first second : Reply) : Prop where
  succeeds : first.failure? = none → second.failure? = none
  /-- A fault that is not about the end of the memory is the same. -/
  fails : ∀ fault, first.failure? = some (.error (.execution fault)) →
    fault.cause ≠ .pcOutOfBounds → second.failure? = some (.error (.execution fault))
  /-- A program counter outside the smaller memory is outside the larger one or at a zero. -/
  leaves : ∀ pc, first.failure? = some (.error (.execution ⟨.pcOutOfBounds, pc⟩)) →
    second.failure? = some (.error (.execution
      (if size ≤ pc.toNat then ⟨.pcOutOfBounds, pc⟩ else ⟨.notAnOpcode 0, pc⟩)))
  pc_eq : second.machine.core.pc = first.machine.core.pc
  halted_eq : second.machine.core.halted = first.machine.core.halted
  dataStack_eq : second.machine.core.dataStack = first.machine.core.dataStack
  returnStack_eq : second.machine.core.returnStack = first.machine.core.returnStack
  /-- The larger memory is the smaller one followed by zeros. -/
  memory_eq : second.machine.memory = .ofCells first.machine.memory.cells size

/-- Machines that conclude with a run and with what becomes of it in the larger memory end alike. -/
theorem endsAlike_conclude (first second : Machine) (size : Nat) (run : Run)
    (log longer : List Log.Entry) :
    EndsAlike size (first.conclude run log) (second.conclude (run.enlarge size) longer) := by
  have hfailure := @failure?_conclude first run log
  have hfailure' := @failure?_conclude second (run.enlarge size) longer
  have hfault : (run.enlarge size).fault? = run.fault?.map (Fault.inLarger size) := rfl
  constructor
  case succeeds =>
    intro hclean
    rw [failure?_conclude_eq_none_iff] at hclean ⊢
    rw [hfault, hclean]
    rfl
  case fails =>
    intro fault hfails hcause
    have hmet : run.fault? = some fault := by simpa [hfailure] using hfails
    rw [hfailure', hfault, hmet, Option.map_some, Fault.inLarger_of_cause_ne hcause]
    rfl
  case leaves =>
    intro pc hleaves
    have hmet : run.fault? = some ⟨.pcOutOfBounds, pc⟩ := by simpa [hfailure] using hleaves
    rw [hfailure', hfault, hmet, Option.map_some, Option.map_some]
    by_cases hbehind : size ≤ pc.toNat
    · rw [if_pos hbehind, Fault.inLarger_of_le hbehind]
    · rw [if_neg hbehind, Fault.inLarger_of_lt (Nat.not_le.mp hbehind)]
  case memory_eq =>
    rw [memory, memory, core_conclude, core_conclude]
    rfl
  case pc_eq | halted_eq | dataStack_eq | returnStack_eq =>
    rw [core_conclude, core_conclude]
    rfl

/-- What a program that assembles into the memory of one machine does in the larger memory of
another one. -/
structure Enlarges (first second : Machine) : Prop where
  /-- It assembles there, too. -/
  assembles : second.compile.failure? = none
  /-- Its image in the larger memory is the one in the smaller memory followed by zeros. -/
  image : ∃ image : Memory, image.size = first.config.memorySize ∧
    first.compile.machine.template? = some image ∧
    second.compile.machine.template? = some (.ofCells image.cells second.config.memorySize)
  /-- If it starts over with the smaller image and comes to its end without storing a value between
  the ends of the two memories, then it ends alike with the larger image. -/
  runs : ∀ (small large : Machine) (fuel : Nat) (reply : Reply),
    small.template? = first.compile.machine.template? →
    large.template? = second.compile.machine.template? →
    small.reset.machine.run fuel = some reply →
    (∀ store ∈ reply.stores,
      store.1 < first.config.memorySize ∨ second.config.memorySize ≤ store.1) →
    ∃ other, large.reset.machine.run (fuel + 1) = some other ∧
      EndsAlike second.config.memorySize reply other

theorem core_reset {machine : Machine} {template : Memory}
    (htemplate : machine.template? = some template) :
    machine.reset.machine.core = ⟨.ready, template⟩ := by
  unfold reset
  rw [htemplate]
  rfl

/-- A reply to a run reports the stores of the run. -/
theorem stores_conclude_ofRun (machine : Machine) (run : Run) :
    (machine.conclude run (Log.ofRun run)).stores = run.stores := by
  rw [Reply.stores, events_log_conclude, Log.events_ofRun, Run.stores]

/-- A run from an image has its like from that image followed by zeros. -/
theorem exists_run_ofCells {small large : Machine} {image : Memory} {fuel size : Nat}
    {reply : Reply} (hsmall : small.template? = some image)
    (hlarge : large.template? = some (.ofCells image.cells size)) (hle : image.size ≤ size)
    (hreply : small.reset.machine.run fuel = some reply)
    (hfree : ∀ store ∈ reply.stores, store.1 < image.size ∨ size ≤ store.1) :
    ∃ other, large.reset.machine.run (fuel + 1) = some other ∧ EndsAlike size reply other := by
  obtain ⟨run, hrun, rfl⟩ := Option.map_eq_some_iff.mp hreply
  rw [core_reset hsmall] at hrun
  rw [stores_conclude_ofRun] at hfree
  have hlonger : large.reset.machine.core.run (fuel + 1) = some (run.enlarge size) := by
    rw [core_reset hlarge]
    exact Core.run_enlarge hle hrun hfree
  exact ⟨_, Option.map_eq_some_iff.mpr ⟨_, hlonger, rfl⟩, endsAlike_conclude _ _ size run _ _⟩

/-- A larger memory does not change a program. -/
theorem enlarges_of_compile {first second : Machine} (hlines : second.lines = first.lines)
    (hle : first.config.memorySize ≤ second.config.memorySize)
    (hcompiled : first.compile.failure? = none) : Enlarges first second := by
  obtain ⟨image, hresult, hinstall⟩ := compile_eq_ok hcompiled
  obtain ⟨hsize, hresult'⟩ := Assembly.assemble_of_le hle hresult
  rw [← hlines] at hresult'
  have hsmall : first.compile.machine.template? = some image := by
    rw [hinstall]
    rfl
  obtain ⟨hcompiled', hinstall'⟩ := compile_of_result_ok rfl hresult'
  have hlarge : second.compile.machine.template? =
      some (.ofCells image.cells second.config.memorySize) := by
    rw [hinstall']
    rfl
  constructor
  case assembles => exact hcompiled'
  case image => exact ⟨image, hsize, hsmall, hlarge⟩
  case runs =>
    intro small large fuel reply htemplate htemplate' hreply hfree
    rw [← hsize] at hle hfree
    exact exists_run_ofCells (htemplate.trans hsmall) (htemplate'.trans hlarge) hle hreply hfree

/-- A machine with a memory of a given size whose program stores a number and then leaves its
cells. -/
def leaving (memorySize : Nat) : Machine := (ofConfig ⟨memorySize⟩).setLines ["LIT 7 LIT 9 !"]

theorem compile_leaving : (leaving 5).compile.failure? = none ∧ (leaving 5).compile.machine =
    (leaving 5).install ⟨#[0xFF00, 7, 0xFF00, 9, 0xFF02]⟩ := by
  have htokens : Assembly.tokenize (leaving 5).lines = ["LIT", "7", "LIT", "9", "!"] := by decide
  exact compile_of_result_ok htokens (by decide)

/-- In five cells that program leaves the memory, and in eight cells it meets a zero. It stores a
number outside both. -/
theorem enlarges_of_compile_leaving : Enlarges (leaving 5) (leaving 8) ∧
    ∃ reply other, (leaving 5).compile.machine.reset.machine.run 4 = some reply ∧
      reply.stores = [(9, 7)] ∧
      reply.failure? = some (.error (.execution ⟨.pcOutOfBounds, 5⟩)) ∧
      (leaving 8).compile.machine.reset.machine.run 5 = some other ∧
      other.failure? = some (.error (.execution ⟨.notAnOpcode 0, 5⟩)) := by
  obtain ⟨hcompiled, hinstall⟩ := compile_leaving
  have henlarges := @enlarges_of_compile (leaving 5) (leaving 8) rfl (by decide) hcompiled
  obtain ⟨reply, hreply, hstores, hfailure⟩ : ∃ reply,
      (leaving 5).compile.machine.reset.machine.run 4 = some reply ∧ reply.stores = [(9, 7)] ∧
        reply.failure? = some (.error (.execution ⟨.pcOutOfBounds, 5⟩)) := by
    rw [hinstall]
    exact ⟨_, rfl, by decide, by decide⟩
  obtain ⟨other, hother, halike⟩ := henlarges.runs _ _ 4 reply rfl rfl hreply (by
    rw [hstores]
    decide)
  exact ⟨henlarges, reply, other, hreply, hstores, hfailure, hother, halike.leaves 5 hfailure⟩

end Machine

end DualStack
