import DualStack.Machine
import DualStack.Proofs.Assembly.Line
import DualStack.Proofs.Text.Lines

/-!
# Source from a text

A machine takes its source line by line or as one text. The two ways come to the same. A text that
is made from lines, with line ends of either kind, gives the machine the lines that are not empty,
and these assemble to what all the lines assemble to (`compile_loadSource`), since an empty line has
no tokens (`Assembly.tokenize_filter`) and an assembly sees nothing of its source but the tokens
(`compile_of_tokenize_eq`).
-/

set_option autoImplicit false
set_option relaxedAutoImplicit false

namespace DualStack

/-- An empty line has no tokens. -/
theorem Assembly.tokenize_filter (lines : List String) :
    tokenize (lines.filter (· ≠ "")) = tokenize lines := by
  induction lines with
  | nil => rfl
  | cons line lines ih =>
    by_cases hempty : line = ""
    · have hnone : words (content line.toList) = [] := by
        rw [hempty]
        rfl
      rw [List.filter_cons_of_neg (by simpa using hempty), tokenize_cons, hnone, List.nil_append, ih]
    · rw [List.filter_cons_of_pos (by simpa using hempty), tokenize_cons, tokenize_cons, ih]

namespace Machine

variable {first second lines : List String} {text : String}

/-- Sources with the same tokens assemble alike, and the machines afterwards differ in nothing but
the source. -/
theorem compile_of_tokenize_eq (machine : Machine)
    (htokens : Assembly.tokenize first = Assembly.tokenize second) :
    (machine.setLines first).compile.failure? = (machine.setLines second).compile.failure? ∧
      (machine.setLines first).compile.machine =
        (machine.setLines second).compile.machine.setLines first := by
  unfold compile setLines
  dsimp only
  rw [htokens]
  split <;> exact ⟨rfl, rfl⟩

/-- A text gives a machine its lines, without the empty ones. -/
theorem loadSource_eq (machine : Machine) (text : String) :
    machine.loadSource text = machine.setLines ((Text.lines text).filter (· ≠ "")) := by
  have hempty (line : String) : (!line.isEmpty) = decide (line ≠ "") := by
    rw [Bool.eq_iff_iff]
    simp
  simp only [loadSource, hempty]

/-- A text that is made from unbroken lines by ending each of them with a line feed or with a
carriage return and a line feed, the last one perhaps with neither, gives the machine the lines that
are not empty. It assembles like the lines themselves: with the same failure if it fails, and to a
machine that differs in nothing but the source. -/
theorem compile_loadSource (machine : Machine)
    (hlines : ∀ line ∈ lines, Text.Unbroken line) (htext : Text.Terminated lines text) :
    (machine.loadSource text).lines = lines.filter (· ≠ "") ∧
      (machine.loadSource text).compile.failure? = (machine.setLines lines).compile.failure? ∧
      (machine.loadSource text).compile.machine =
        (machine.setLines lines).compile.machine.setLines (lines.filter (· ≠ "")) := by
  rw [loadSource_eq, Text.filter_lines htext hlines]
  exact ⟨rfl, compile_of_tokenize_eq machine (Assembly.tokenize_filter lines)⟩

/-- A text with line ends of both kinds, an empty line, a carriage return within a line and no end
of the last line. -/
theorem compile_loadSource_of_mixed : ∃ lines text,
    lines = ["LIT 7", "", "; \r note", "HALT"] ∧ text = "LIT 7\r\n\n; \r note\nHALT" ∧
    (∀ line ∈ lines, Text.Unbroken line) ∧ Text.Terminated lines text ∧
    ((ofConfig ⟨8⟩).loadSource text).lines = ["LIT 7", "; \r note", "HALT"] ∧
    ((ofConfig ⟨8⟩).loadSource text).compile.failure? =
      ((ofConfig ⟨8⟩).setLines lines).compile.failure? ∧
    ((ofConfig ⟨8⟩).loadSource text).compile.machine =
      ((ofConfig ⟨8⟩).setLines lines).compile.machine.setLines ["LIT 7", "; \r note", "HALT"] := by
  have hlines : ∀ line ∈ ["LIT 7", "", "; \r note", "HALT"], Text.Unbroken line := by
    simp only [List.forall_mem_cons]
    refine ⟨⟨?_, ?_⟩, ⟨?_, ?_⟩, ⟨?_, ?_⟩, ⟨?_, ?_⟩, by simp⟩ <;> decide
  have htext : Text.Terminated ["LIT 7", "", "; \r note", "HALT"]
      "LIT 7\r\n\n; \r note\nHALT" :=
    .returnFeed (.feed (.feed .unended))
  exact ⟨_, _, rfl, rfl, hlines, htext, compile_loadSource _ hlines htext⟩

end Machine

end DualStack
